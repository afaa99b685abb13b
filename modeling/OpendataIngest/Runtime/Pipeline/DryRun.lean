import OpendataIngest.Runtime.Pipeline.AckSafety
import OpendataIngest.Runtime.Pipeline.Shutdown

/-!
# The bytes of a dry run

A decode worker of a dry run keeps its unit until the bytes are released, so a unit above
its estimate sits in a decode worker and nowhere else.  Up to the estimate the holdings
stay within the byte capacity, as every reservation has tested; above it each decode worker
adds at most the growth of one unit.
-/

set_option autoImplicit false

namespace OpendataIngest.Runtime.Pipeline

open MachineInt Pool

variable {R : Type}

/-- The bytes of a holding above the estimate. -/
def excess (cfg : Config) (h : Holding) : Nat := h.held - cfg.estimate

section Split

variable {cfg : Config} {history : List Event}

theorem Sound.held_split {h : Holding} (sound : Sound cfg history h) :
    h.held = ceiling cfg.estimate h + excess cfg h := by
  unfold ceiling excess
  split
  case isTrue fresh =>
    have estimate := (sound.fresh_held fresh).1
    omega
  case isFalse => omega

theorem total_held_split {holdings : List Holding}
    (sound : ∀ h ∈ holdings, Sound cfg history h) : total Holding.held holdings =
      total (ceiling cfg.estimate) holdings + total (excess cfg) holdings := by
  rw [total_congr _ (fun h => ceiling cfg.estimate h + excess cfg h) holdings
    fun h member => (sound h member).held_split]
  exact List.sum_map_add

theorem excess_eq_zero {h : Holding} (sound : Sound cfg history h)
    (small : h.fresh = true ∨ h.held = 0) : excess cfg h = 0 := by
  unfold excess
  rcases small with fresh | empty
  · rw [(sound.fresh_held fresh).1, Nat.sub_self]
  · rw [empty, Nat.zero_sub]

end Split

/-! ## Where a unit can be above its estimate -/

theorem ActorPoint.fresh_or_empty (p : ActorPoint) :
    ∀ h ∈ p.holdings, h.fresh = true ∨ h.held = 0 := by
  intro h member
  cases p with
  | select permit =>
      cases permit with
      | false => cases member
      | true =>
          rw [List.mem_singleton.mp member]
          exact Or.inr rfl
  | measuring | counting =>
      rw [List.mem_singleton.mp member]
      exact Or.inl rfl
  | extending gates | polling gates =>
      obtain ⟨gate, _, rfl⟩ := List.mem_map.mp member
      exact Or.inl rfl
  | extendingBytes gates =>
      rcases List.mem_cons.mp member with rfl | gated
      · exact Or.inr rfl
      · obtain ⟨gate, _, rfl⟩ := List.mem_map.mp gated
        exact Or.inl rfl
  | sending rest =>
      obtain ⟨unit, _, rfl⟩ := List.mem_map.mp member
      exact Or.inl rfl
  | sleeping | flushing | finalFlush | exited => cases member

theorem Shared.fresh_or_empty {sh : Shared R} (empty : sh.sinkCommits = []) :
    ∀ h ∈ sh.holdings, h.fresh = true ∨ h.held = 0 := by
  intro h member
  rw [Shared.holdings, empty] at member
  simp only [List.map_nil, List.append_nil, List.mem_append] at member
  rcases member with (queued | fetched) | reported
  · obtain ⟨unit, _, rfl⟩ := List.mem_map.mp queued
    exact Or.inl rfl
  · obtain ⟨unit, _, rfl⟩ := List.mem_map.mp fetched
    exact Or.inl rfl
  · obtain ⟨message, _, held⟩ := List.mem_flatMap.mp reported
    cases message with
    | committed report =>
        rw [List.mem_singleton.mp held]
        exact Or.inr rfl
    | fatal error => cases held

/-- A fetch worker holds a fresh unit, or what is left of one. -/
theorem stepFetch_excess {cfg : Config} {killed decodersGone : Bool} {sh sh' : Shared R}
    {p p' : FetchPoint} {action : FetchAction}
    (sound : ∀ h ∈ sh.holdings ++ p.holdings, Sound cfg sh.history h)
    (taken : stepFetch cfg killed decodersGone sh p action = some (p', sh')) :
    ∀ h ∈ p'.holdings, excess cfg h = 0 := by
  have left : ∀ h ∈ ([] : List Holding), excess cfg h = 0 := nofun
  cases fetchStep_of_stepFetch taken with
  | takes unit rest queue =>
      have queued : unit.holding ∈ sh.holdings := by simp [Shared.holdings, queue]
      have fresh := excess_eq_zero (sound _ (List.mem_append_left _ queued)) (Or.inl rfl)
      exact List.forall_mem_singleton.mpr fresh
  | fetches unit | fetchFails unit | cutOff unit =>
      have fresh := excess_eq_zero (Sound.member sound List.mem_cons_self) (Or.inl rfl)
      exact List.forall_mem_singleton.mpr fresh
  | sends | unheard | reports | leaves | aborts | abandons | isKilled | panics => exact left

theorem fetchers_excess [TypedRecords R] {cfg : Config} {s : State R}
    (reachable : (machine R cfg).Reachable s) :
    ∀ p ∈ s.fetchers, ∀ h ∈ p.holdings, excess cfg h = 0 := by
  refine reachable.invariant
    (P := fun s => ∀ p ∈ s.fetchers, ∀ h ∈ p.holdings, excess cfg h = 0) ?_ ?_
  · intro p member
    rw [List.eq_of_mem_replicate member]
    exact nofun
  · intro s action s' before small taken
    cases transition_of_step taken with
    | fetch present moved =>
        intro p member
        rcases List.mem_or_eq_of_mem_set member with old | rfl
        · exact small p old
        · exact stepFetch_excess (all_fetcher (accounts_of_reachable before).sound present) moved
    | _ => exact small

/-- A decode worker holds at most one unit, within the oversize limit. -/
theorem DecodePoint.excess_le {cfg : Config} {history : List Event} (p : DecodePoint R)
    (sound : ∀ h ∈ p.holdings, Sound cfg history h) :
    total (excess cfg) p.holdings ≤ cfg.peak - cfg.estimate := by
  have one : ∀ h, Sound cfg history h → total (excess cfg) [h] ≤ cfg.peak - cfg.estimate :=
    fun h own => Nat.sub_le_sub_right own.held_le_peak cfg.estimate
  cases p with
  | recv | exited => exact Nat.zero_le _
  | _ => exact one _ (sound _ List.mem_cons_self)

/-- In a dry run only the decode workers hold a unit above its estimate, one each. -/
theorem dry_excess_le [TypedRecords R] {cfg : Config} {s : State R} (isDry : cfg.dryRun = true)
    (reachable : (machine R cfg).Reachable s) : total (excess cfg) s.holdings ≤
      max cfg.bp.decodeConcurrency.val 1 * (cfg.peak - cfg.estimate) := by
  have dry := dry_of_reachable isDry reachable
  have sound := (accounts_of_reachable reachable).sound
  have shared : total (excess cfg) s.shared.holdings = 0 :=
    total_eq_zero _ _ fun h member => excess_eq_zero (all_shared sound h member)
      (Shared.fresh_or_empty dry.sinkCommits h member)
  have actor : total (excess cfg) s.actor.point.holdings = 0 :=
    total_eq_zero _ _ fun h member => excess_eq_zero
      (all_actor sound h (List.mem_append_right _ member))
      (s.actor.point.fresh_or_empty h member)
  have fetchers : total (fun p => total (excess cfg) p.holdings) s.fetchers = 0 :=
    total_eq_zero _ _ fun p member => total_eq_zero _ _ (fetchers_excess reachable p member)
  have writers : total (fun p => total (excess cfg) p.holdings) s.writers = 0 := by
    refine total_eq_zero _ _ fun p member => ?_
    have idle := dry.writers p member
    cases p with
    | recv | exited => rfl
    | _ => cases idle
  have decoders : total (fun p => total (excess cfg) p.holdings) s.decoders ≤
      s.decoders.length * (cfg.peak - cfg.estimate) := by
    rw [← List.length_map (fun p : DecodePoint R => total (excess cfg) p.holdings)]
    refine List.sum_le_card_nsmul _ _ fun bytes listed => ?_
    obtain ⟨p, member, rfl⟩ := List.mem_map.mp listed
    obtain ⟨i, present⟩ := List.getElem?_of_mem member
    exact p.excess_le fun h held => all_decoder sound present h (List.mem_append_right _ held)
  rw [State.total_holdings, shared, actor, fetchers, writers]
  rw [(staff_of_reachable reachable).decoders] at decoders
  omega

/-! ## The bound -/

section Bound

variable [TypedRecords R] {cfg : Config} {s : State R} (isDry : cfg.dryRun = true)
  (below : cfg.capacity < u64Max) (small : cfg.capacity +
    max cfg.bp.decodeConcurrency.val 1 * (cfg.peak - cfg.estimate) < 2 ^ 64)

include isDry

theorem dry_held_le (reachable : (machine R cfg).Reachable s)
    (base : total (ceiling cfg.estimate) s.holdings ≤ cfg.capacity) :
    s.heldBytes ≤ cfg.capacity +
      max cfg.bp.decodeConcurrency.val 1 * (cfg.peak - cfg.estimate) := by
  have split := total_held_split (accounts_of_reachable reachable).sound
  have growth := dry_excess_le isDry reachable
  unfold State.heldBytes
  omega

include below small

/-- Up to the estimate the holdings of a dry run fit the capacity. -/
theorem dry_base_le (reachable : (machine R cfg).Reachable s) :
    total (ceiling cfg.estimate) s.holdings ≤ cfg.capacity := by
  refine reachable.invariant
    (P := fun s => total (ceiling cfg.estimate) s.holdings ≤ cfg.capacity) ?_ ?_
  · change total _ (State.start cfg : State R).holdings ≤ _
    rw [start_holdings]
    exact Nat.zero_le _
  · intro s action s' before base taken
    have accounts := accounts_of_reachable before
    obtain ⟨old, new, settles⟩ := step_settles (orderly_of_reachable before) accounts.sound taken
    have moved := settles.exchange (ceiling cfg.estimate)
    rcases settles.claim with noRise | ⟨claimed, tested⟩
    · have kept := noRise cfg.estimate (Nat.le_max_left _ _)
      omega
    · have held := dry_held_le isDry before base
      have exact_ := accounts.inFlight_eq (lt_of_le_of_lt held small)
      have room := tested below
      have after := settles.exchange Holding.held
      have split := total_held_split
        (accounts.step (orderly_of_reachable before) taken).sound
      omega

theorem dry_inFlight_le (reachable : (machine R cfg).Reachable s) :
    s.shared.counters.inFlight ≤ cfg.capacity +
      max cfg.bp.decodeConcurrency.val 1 * (cfg.peak - cfg.estimate) := by
  have held := dry_held_le isDry reachable (dry_base_le isDry below small reachable)
  have exact_ := (accounts_of_reachable reachable).inFlight_eq (lt_of_le_of_lt held small)
  exact exact_.trans_le held

end Bound

theorem bounded_of_dry [TypedRecords R] {cfg : Config} {s : State R} (sized : Sized cfg.bp)
    (multiplier : 1 ≤ cfg.bp.oversizeFaultMultiplier.val)
    (noOverflow : memoryBound cfg.bp < 2 ^ 64) (notMaximal : memoryBound cfg.bp ≠ u64Max)
    (isDry : cfg.dryRun = true) (reachable : (machine R cfg).Reachable s) :
    s.shared.counters.inFlight ≤ memoryBound cfg.bp := by
  have below := capacity_lt_of_not_maximal noOverflow notMaximal
  have workers : max cfg.bp.decodeConcurrency.val 1 = cfg.bp.decodeConcurrency.val :=
    Nat.max_eq_left sized.decode_pos
  have within : cfg.capacity + max cfg.bp.decodeConcurrency.val 1 *
      (cfg.peak - cfg.estimate) ≤ memoryBound cfg.bp := by
    rw [workers, memoryBound, Nat.mul_assoc]
    exact Nat.add_le_add_left (Nat.mul_le_mul_left _ (growth_le_multiple cfg multiplier)) _
  exact le_trans (dry_inFlight_le isDry below (lt_of_le_of_lt within noOverflow) reachable) within

end OpendataIngest.Runtime.Pipeline
