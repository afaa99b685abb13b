import OpendataIngest.Runtime.Pipeline.Accounts

/-!
# How far the byte budget is over-subscribed

A reservation is taken at its estimate and grows at decode without a gate, up to the
oversize limit.  The potential of a state counts every unit that is not decoded yet at
the size it may grow to.  Only a reservation raises the potential, and right after a
reservation the bytes held are within the capacity; so the potential is bounded by
the capacity and the growth of the units that were fresh then.
-/

set_option autoImplicit false

namespace OpendataIngest.Runtime.Pipeline

open MachineInt Pool

variable {R : Type}

/-- Bytes held by the live reservations. -/
def State.heldBytes (s : State R) : Nat := total Holding.held s.holdings

def freshCount (h : Holding) : Nat := if h.fresh then 1 else 0

/-! ## The potential of a list of holdings -/

section Potential

variable {cfg : Config} {history : List Event} {holdings : List Holding}

theorem ceiling_total_eq (sound : ∀ h ∈ holdings, Sound cfg history h) :
    total (ceiling cfg.peak) holdings =
      total Holding.held holdings + total freshCount holdings * (cfg.peak - cfg.estimate) := by
  induction holdings with
  | nil => simp
  | cons h rest ih =>
      have tail := ih fun other member => sound other (List.mem_cons_of_mem h member)
      have own := sound h List.mem_cons_self
      have below : cfg.estimate ≤ cfg.peak := Nat.le_max_left _ _
      simp only [total_cons, tail, Nat.add_mul]
      by_cases fresh : h.fresh = true
      · simp only [own.ceiling_peak, freshCount, fresh, if_true, (own.fresh_held fresh).1]
        omega
      · simp only [own.ceiling_peak, freshCount, fresh]
        simp only [Bool.false_eq_true, if_false]
        omega

theorem fresh_le_permits (sound : ∀ h ∈ holdings, Sound cfg history h) :
    total freshCount holdings ≤ total Holding.permits holdings := by
  refine total_le_total _ _ _ fun h member => ?_
  unfold freshCount
  split
  case isTrue fresh => exact ((sound h member).fresh_held fresh).2.ge
  case isFalse => exact Nat.zero_le _

theorem fresh_bytes_le (sound : ∀ h ∈ holdings, Sound cfg history h) :
    total freshCount holdings * cfg.estimate ≤ total Holding.held holdings := by
  induction holdings with
  | nil => simp
  | cons h rest ih =>
      have tail := ih fun other member => sound other (List.mem_cons_of_mem h member)
      have own := sound h List.mem_cons_self
      simp only [total_cons, Nat.add_mul]
      by_cases fresh : h.fresh = true
      · simp only [freshCount, fresh, if_true, (own.fresh_held fresh).1]
        omega
      · simp only [freshCount, fresh]
        simp only [Bool.false_eq_true, if_false]
        omega

theorem ceiling_total_le_permits (sound : ∀ h ∈ holdings, Sound cfg history h) :
    total (ceiling cfg.peak) holdings ≤ total Holding.permits holdings * cfg.peak := by
  induction holdings with
  | nil => simp
  | cons h rest ih =>
      have tail := ih fun other member => sound other (List.mem_cons_of_mem h member)
      have own := (sound h List.mem_cons_self).ceiling_le
      simp only [total_cons, Nat.add_mul]
      omega

end Potential

/-! ## The bound as an invariant -/

/-- `limit` is above the potential of every state whose held bytes are within the
capacity. -/
def Covers (cfg : Config) (limit : Nat) : Prop :=
  ∀ (history : List Event) (holdings : List Holding),
    (∀ h ∈ holdings, Sound cfg history h) → total Holding.permits holdings ≤ cfg.depth →
    total Holding.held holdings ≤ cfg.capacity → total (ceiling cfg.peak) holdings ≤ limit

theorem held_le_ceiling_total {cfg : Config} {s : State R} (accounts : Accounts cfg s) :
    s.heldBytes ≤ total (ceiling cfg.peak) s.holdings :=
  total_le_total _ _ _ fun h member => (accounts.sound h member).held_le_ceiling

theorem ceiling_step [TypedRecords R] {cfg : Config} {limit : Nat} {s s' : State R}
    {action : Action R} (below : cfg.capacity < u64Max) (small : limit < 2 ^ 64)
    (covers : Covers cfg limit) (orderly : Orderly s) (accounts : Accounts cfg s)
    (bounded : total (ceiling cfg.peak) s.holdings ≤ limit)
    (taken : step cfg s action = some s') : total (ceiling cfg.peak) s'.holdings ≤ limit := by
  obtain ⟨old, new, settles⟩ := step_settles orderly accounts.sound taken
  have after := accounts.step orderly taken
  have potential := settles.exchange (ceiling cfg.peak)
  rcases settles.claim with noRise | ⟨claimed, tested⟩
  · have kept := noRise cfg.peak le_rfl
    omega
  · have heldBefore := held_le_ceiling_total accounts
    have exact_ := accounts.inFlight_eq (lt_of_le_of_lt heldBefore (by omega))
    have held := settles.exchange Holding.held
    have permits := after.permits
    have room := tested below
    refine covers _ _ after.sound (by omega) ?_
    omega

theorem ceiling_of_reachable [TypedRecords R] {cfg : Config} {limit : Nat} {s : State R}
    (below : cfg.capacity < u64Max) (small : limit < 2 ^ 64) (covers : Covers cfg limit)
    (reachable : (machine R cfg).Reachable s) : total (ceiling cfg.peak) s.holdings ≤ limit := by
  refine reachable.invariant (P := fun s => total (ceiling cfg.peak) s.holdings ≤ limit) ?_ ?_
  · change total (ceiling cfg.peak) (State.start cfg : State R).holdings ≤ limit
    rw [start_holdings]
    exact Nat.zero_le _
  · intro s action s' before bounded taken
    exact ceiling_step below small covers (orderly_of_reachable before)
      (accounts_of_reachable before) bounded taken

theorem heldBytes_of_reachable [TypedRecords R] {cfg : Config} {limit : Nat} {s : State R}
    (below : cfg.capacity < u64Max) (small : limit < 2 ^ 64) (covers : Covers cfg limit)
    (reachable : (machine R cfg).Reachable s) :
    s.heldBytes ≤ limit ∧ s.shared.counters.inFlight = s.heldBytes := by
  have accounts := accounts_of_reachable reachable
  have potential := ceiling_of_reachable below small covers reachable
  have held := held_le_ceiling_total accounts
  refine ⟨le_trans held potential, accounts.inFlight_eq ?_⟩
  exact lt_of_le_of_lt (le_trans held potential) small

/-! ## Over-subscription by the batch limit -/

theorem peak_sub_estimate (cfg : Config) :
    cfg.peak - cfg.estimate = cfg.bp.faultLimit - cfg.estimate := by
  unfold Config.peak
  omega

theorem depth_of_sized {cfg : Config} (sized : Sized cfg.bp) :
    cfg.depth = cfg.bp.maxInflightBatches.val := by
  have positive := sized.batches_pos
  simp only [Config.depth, SourceBackpressureOptions.channelDepth]
  omega

theorem covers_batches (cfg : Config) :
    Covers cfg (cfg.capacity + cfg.depth * (cfg.peak - cfg.estimate)) := by
  intro history holdings sound permits held
  have fresh : total freshCount holdings ≤ cfg.depth := le_trans (fresh_le_permits sound) permits
  have growth : total freshCount holdings * (cfg.peak - cfg.estimate) ≤
      cfg.depth * (cfg.peak - cfg.estimate) := Nat.mul_le_mul_right _ fresh
  rw [ceiling_total_eq sound]
  omega

/-- The actor has just been granted bytes: by the blocking `reserve`, or by a
`try_reserve` that extended the gates. -/
inductive Granted [TypedRecords R] (cfg : Config) (s s' : State R) : Prop where
  | reserve (taken : step cfg s (.actor .reserveBytes) = some s')
  | tryReserve (raced : Bool) (gates : List Reservation) (extras : Nat)
      (taken : step cfg s (.actor (.tryReserve raced)) = some s')
      (extended : s'.actor.point = .extending gates extras)

theorem Granted.taken [TypedRecords R] {cfg : Config} {s s' : State R}
    (granted : Granted cfg s s') : ∃ action, step cfg s action = some s' := by
  cases granted with
  | reserve taken => exact ⟨_, taken⟩
  | tryReserve raced gates extras taken extended => exact ⟨_, taken⟩

theorem Granted.inFlight_le [TypedRecords R] {cfg : Config} {s s' : State R}
    (granted : Granted cfg s s') (below : cfg.capacity < u64Max) (nonempty : cfg.estimate ≠ 0) :
    s'.shared.counters.inFlight ≤ cfg.capacity := by
  cases granted with
  | reserve taken =>
      obtain ⟨⟨a', sh'⟩, moved, rfl⟩ := Option.map_eq_some_iff.mp taken
      cases actorStep_of_stepActor moved with
      | claims gate k at_select isOpen fits claimed =>
          obtain ⟨rfl, rfl⟩ := Prod.ext_iff.mp claimed
          have room := Counters.fits_exact _ _ _ (fits.resolve_left nonempty) below
          simp only [ByteReservation.attachStage_inFlight, Counters.reserve, if_neg nonempty,
            Counters.addInFlight, wrappingAdd, wrap64]
          exact le_trans (Nat.mod_le _ _) room
  | tryReserve raced gates extras taken extended =>
      obtain ⟨⟨a', sh'⟩, moved, rfl⟩ := Option.map_eq_some_iff.mp taken
      cases actorStep_of_stepActor moved with
      | takesBytes _ gates extras extra k at_extending unraced reserved =>
          have within := (Counters.tryReserve_some _ _ _ _ _ reserved).2.2 nonempty
          simpa using within
      | noBytes => cases extended

/-- The bytes held stay within the capacity plus one growth for each batch slot, and
within the capacity right after a reservation. -/
theorem over_subscription_bounded [TypedRecords R] (cfg : Config)
    (accepted : validateBackpressure cfg.source cfg.bp = .ok ())
    (below : cfg.bp.maxInflightBytes.val < u64Max)
    (fits : cfg.bp.maxInflightBytes.val + cfg.bp.maxInflightBatches.val *
      (saturatingMul cfg.bp.estimatedMaxBatchBytes.val cfg.bp.oversizeFaultMultiplier.val -
        cfg.bp.estimatedMaxBatchBytes.val) < 2 ^ 64)
    (s : State R) (reachable : (machine R cfg).Reachable s) :
    s.heldBytes ≤ cfg.bp.maxInflightBytes.val + cfg.bp.maxInflightBatches.val *
      (saturatingMul cfg.bp.estimatedMaxBatchBytes.val cfg.bp.oversizeFaultMultiplier.val -
        cfg.bp.estimatedMaxBatchBytes.val) ∧
    ∀ s', Granted cfg s s' → cfg.bp.estimatedMaxBatchBytes.val ≠ 0 →
      s'.heldBytes ≤ cfg.bp.maxInflightBytes.val := by
  have depth := depth_of_sized ((validateBackpressure_ok _ _).mp accepted)
  have covers := covers_batches cfg
  rw [peak_sub_estimate, depth] at covers
  refine ⟨(heldBytes_of_reachable below fits covers reachable).1, ?_⟩
  intro s' granted nonempty
  obtain ⟨action, taken⟩ := granted.taken
  have held := heldBytes_of_reachable below fits covers (.step action reachable taken)
  rw [← held.2]
  exact granted.inFlight_le below nonempty

/-- One decode worker, two batch slots, and a budget of two estimates; a batch may decode
to four times its estimate. -/
def narrowConfig : Config where
  source := ⟨"logs"⟩
  sinkId := ⟨"sink"⟩
  manifestPath := "manifest"
  lastAcked := none
  options := { RuntimeOptions.default with
    dryRun := false
    maxDescriptorsPerPoll := 2
    sourceDefaults := ⟨2, 2, 1, 1, 1, 4⟩ }
  testFetchKillswitch := false

/-- The second gate of one admission cycle, with the first at its estimate. -/
theorem over_subscription_bounded_two_gates :
    ∃ s s' : State SizedRecords, Granted narrowConfig s s' ∧ s'.heldBytes ≤ 2 := by
  have extends_ : ((machine SizedRecords narrowConfig).run
      [.actor .acquirePermit, .actor .reserveBytes, .actor .readRoom, .actor .readPermits,
        .actor .tryAcquire, .actor (.tryReserve false)]).map (fun s => s.actor.point) =
      some (.extending [⟨1, some .source⟩, ⟨1, some .source⟩] 0) := by
    decide
  obtain ⟨s', ran, extended⟩ := Option.map_eq_some_iff.mp extends_
  obtain ⟨s, before, taken⟩ := (machine SizedRecords narrowConfig).run_snoc
    [.actor .acquirePermit, .actor .reserveBytes, .actor .readRoom, .actor .readPermits,
      .actor .tryAcquire] (.actor (.tryReserve false)) s' ran
  have reachable := (machine SizedRecords narrowConfig).run_reachable _ s before
  have granted : Granted narrowConfig s s' := .tryReserve false _ _ taken extended
  refine ⟨s, s', granted, ?_⟩
  exact (over_subscription_bounded narrowConfig rfl (by decide) (by decide) s reachable).2 s'
    granted (by decide)

/-! ## The bound by the number of decode workers -/

/-- The bound the test suite documents for INV-BACKPRESSURE-BOUNDED-MEMORY. -/
def memoryBound (bp : SourceBackpressureOptions) : Nat :=
  bp.maxInflightBytes.val + bp.decodeConcurrency.val *
    (bp.oversizeFaultMultiplier.val - 1) * bp.estimatedMaxBatchBytes.val

/-- How many reservations at their estimate fit in the budget and the batch slots. -/
def admissibleUnits (bp : SourceBackpressureOptions) : Nat :=
  min bp.maxInflightBatches.val (bp.maxInflightBytes.val / bp.estimatedMaxBatchBytes.val)

/-- Growing every admissible unit to the oversize limit, or filling every batch slot at
that limit, stays within the documented bound. -/
def GrowthFits (bp : SourceBackpressureOptions) : Prop :=
  memoryBound bp = u64Max ∨
    bp.maxInflightBytes.val + admissibleUnits bp *
      (bp.oversizeFaultMultiplier.val - 1) * bp.estimatedMaxBatchBytes.val ≤ memoryBound bp ∨
    bp.maxInflightBatches.val * bp.oversizeFaultMultiplier.val *
      bp.estimatedMaxBatchBytes.val ≤ memoryBound bp

theorem peak_le_multiple (cfg : Config) (multiplier : 1 ≤ cfg.bp.oversizeFaultMultiplier.val) :
    cfg.peak ≤ cfg.bp.oversizeFaultMultiplier.val * cfg.estimate := by
  have grows : 1 * cfg.estimate ≤ cfg.bp.oversizeFaultMultiplier.val * cfg.estimate :=
    Nat.mul_le_mul_right _ multiplier
  have sameProduct : cfg.bp.estimatedMaxBatchBytes.val * cfg.bp.oversizeFaultMultiplier.val =
      cfg.bp.oversizeFaultMultiplier.val * cfg.estimate := Nat.mul_comm _ _
  simp only [Config.peak, SourceBackpressureOptions.faultLimit, saturatingMul, sameProduct]
  omega

theorem covers_admissible {cfg : Config} (sized : Sized cfg.bp) :
    Covers cfg (cfg.capacity + admissibleUnits cfg.bp * (cfg.peak - cfg.estimate)) := by
  intro history holdings sound permits held
  rw [ceiling_total_eq sound]
  by_cases empty : cfg.estimate = 0
  · rw [peak_of_empty_estimate cfg empty, empty, Nat.sub_self, Nat.mul_zero, Nat.mul_zero]
    omega
  · have inBudget : total freshCount holdings ≤ cfg.capacity / cfg.estimate := by
      rw [Nat.le_div_iff_mul_le (Nat.pos_of_ne_zero empty)]
      exact le_trans (fresh_bytes_le sound) held
    have inSlots : total freshCount holdings ≤ cfg.bp.maxInflightBatches.val := by
      rw [← depth_of_sized sized]
      exact le_trans (fresh_le_permits sound) permits
    have growth : total freshCount holdings * (cfg.peak - cfg.estimate) ≤
        admissibleUnits cfg.bp * (cfg.peak - cfg.estimate) :=
      Nat.mul_le_mul_right _ (Nat.le_min.mpr ⟨inSlots, inBudget⟩)
    omega

theorem covers_slots (cfg : Config) : Covers cfg (cfg.depth * cfg.peak) := by
  intro history holdings sound permits _
  exact le_trans (ceiling_total_le_permits sound) (Nat.mul_le_mul_right _ permits)

theorem bounded_of_covers [TypedRecords R] {cfg : Config} {limit bound : Nat} {s : State R}
    (below : cfg.capacity < u64Max) (covers : Covers cfg limit) (within : limit ≤ bound)
    (small : bound < 2 ^ 64) (reachable : (machine R cfg).Reachable s) :
    s.shared.counters.inFlight ≤ bound := by
  have held := heldBytes_of_reachable below (lt_of_le_of_lt within small) covers reachable
  rw [held.2]
  exact le_trans held.1 within

theorem capacity_lt_of_not_maximal {cfg : Config} (noOverflow : memoryBound cfg.bp < 2 ^ 64)
    (notMaximal : memoryBound cfg.bp ≠ u64Max) : cfg.capacity < u64Max := by
  have capacity : cfg.capacity ≤ memoryBound cfg.bp := Nat.le_add_right _ _
  have top : u64Max = 2 ^ 64 - 1 := rfl
  omega

theorem growth_le_multiple (cfg : Config) (multiplier : 1 ≤ cfg.bp.oversizeFaultMultiplier.val) :
    cfg.peak - cfg.estimate ≤ (cfg.bp.oversizeFaultMultiplier.val - 1) * cfg.estimate := by
  have peak := peak_le_multiple cfg multiplier
  rw [Nat.sub_mul, Nat.one_mul]
  omega

/-- Where the growth of all admissible units fits, `in_flight` stays within the documented
bound. -/
theorem bounded_of_growthFits [TypedRecords R] {cfg : Config} {s : State R} (sized : Sized cfg.bp)
    (multiplier : 1 ≤ cfg.bp.oversizeFaultMultiplier.val)
    (noOverflow : memoryBound cfg.bp < 2 ^ 64) (notMaximal : memoryBound cfg.bp ≠ u64Max)
    (growthFits : GrowthFits cfg.bp) (reachable : (machine R cfg).Reachable s) :
    s.shared.counters.inFlight ≤ memoryBound cfg.bp := by
  have below := capacity_lt_of_not_maximal noOverflow notMaximal
  rcases growthFits with atTop | admissible | slots
  · exact absurd atTop notMaximal
  · refine bounded_of_covers below (covers_admissible sized) (le_trans ?_ admissible)
      noOverflow reachable
    have scaled := Nat.mul_le_mul_left (admissibleUnits cfg.bp)
      (growth_le_multiple cfg multiplier)
    rw [← Nat.mul_assoc] at scaled
    exact Nat.add_le_add_left scaled _
  · refine bounded_of_covers below (covers_slots cfg) (le_trans ?_ slots) noOverflow reachable
    have scaled := Nat.mul_le_mul_left cfg.depth (peak_le_multiple cfg multiplier)
    rw [depth_of_sized sized, ← Nat.mul_assoc] at scaled
    rw [depth_of_sized sized]
    exact scaled

/-- A decoder that answers every batch with one batch of `bytes` bytes. -/
def sizedDecoder (bytes : Nat) : Decoder SizedRecords where
  accepts _ := true
  decode batch := .ok [{
    source := batch.source
    lowSequence := batch.sequence
    highSequence := batch.sequence
    sourceEntryCount := 0
    records := ⟨0, bytes⟩
    sourceColumns := ⟨"", "", [], [], [], []⟩
    stats := ⟨0, bytes⟩
    schemaVersion := ⟨1⟩ }]

def oversizeRun : List (Action SizedRecords) :=
  [.actor .acquirePermit, .actor .reserveBytes, .actor .readRoom, .actor .readPermits,
    .actor .tryAcquire, .actor (.tryReserve false), .actor .tryAcquire,
    .actor (.nextDescriptors (.ok [⟨0, "a", []⟩, ⟨1, "b", []⟩])), .actor .send, .actor .send,
    .fetch 0 .take, .fetch 0 (.answer (.ok ⟨[], 0, "a", []⟩)), .fetch 0 .send,
    .decode 0 .take, .decode 0 (.decode (sizedDecoder 4)), .decode 0 .send,
    .fetch 0 .take, .fetch 0 (.answer (.ok ⟨[], 1, "b", []⟩)), .fetch 0 .send,
    .decode 0 .take, .decode 0 (.decode (sizedDecoder 4))]

/-- Both batches are decoded to four times their estimate before either is written: the
one decode worker has grown two reservations. -/
theorem bounded_memory_exceeded :
    validateBackpressure narrowConfig.source narrowConfig.bp = .ok () ∧
      1 ≤ narrowConfig.bp.oversizeFaultMultiplier.val ∧
      memoryBound narrowConfig.bp < 2 ^ 64 ∧
      ∃ s : State SizedRecords, (machine SizedRecords narrowConfig).Reachable s ∧
        ¬ s.shared.counters.inFlight ≤ memoryBound narrowConfig.bp := by
  have grown : ((machine SizedRecords narrowConfig).run oversizeRun).map
      (fun s => s.shared.counters.inFlight) = some 8 := by
    decide
  obtain ⟨s, ran, inFlight⟩ := Option.map_eq_some_iff.mp grown
  refine ⟨rfl, by decide, by decide, s, (machine SizedRecords narrowConfig).run_reachable _ s ran,
    ?_⟩
  rw [inFlight]
  decide

end OpendataIngest.Runtime.Pipeline
