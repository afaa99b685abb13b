import OpendataIngest.Runtime.AckCoordinatorSpec

/-!
# Arbitrary call sequences on the coordinator

A history is the coordinator together with the ranges `register_pending` accepted
and the ranges some `mark_committed` returned `Ok` for.  Rejected calls are calls
of the sequence like any other: they leave both lists alone.
-/

set_option autoImplicit false

namespace OpendataIngest.Runtime.AckCoordinator

open MachineInt

inductive Call where
  | registerPending (low high : U64)
  | markCommitted (low high : U64)
  | advanceFrontier

structure History where
  coordinator : AckCoordinator
  registered : List Range
  committed : List Range

namespace History

def start (source : SourceId) (baseline : Option U64) : History :=
  ⟨new source (baseline.map Fin.val), [], []⟩

def isCommitted (h : History) (range : Range) : Bool := decide (range ∈ h.committed)

def apply (h : History) : Call → History
  | .registerPending low high =>
      match h.coordinator.registerPending low.val high.val with
      | (c, .ok _) => ⟨c, h.registered ++ [(low.val, high.val)], h.committed⟩
      | (c, .error _) => { h with coordinator := c }
  | .markCommitted low high =>
      match h.coordinator.markCommitted low.val high.val with
      | (c, .ok _) => ⟨c, h.registered, h.committed ++ [(low.val, high.val)]⟩
      | (c, .error _) => { h with coordinator := c }
  | .advanceFrontier => { h with coordinator := h.coordinator.advanceFrontier }

def run (source : SourceId) (baseline : Option U64) (calls : List Call) : History :=
  calls.foldl apply (start source baseline)

/-- The coordinator tracks the history's ranges at some cut. -/
def Coherent (baseline : Option Nat) (h : History) : Prop :=
  ∃ popped rest, h.registered = popped ++ rest ∧
    Tracks baseline h.coordinator popped rest h.isCommitted

/-! ## One call -/

theorem registerPending_cases (c : AckCoordinator) (low high : Nat) :
    (∃ error, c.registerPending low high = (c, .error error)) ∨
      c.registerRejection low high = none ∧
        c.registerPending low high = ((c.absorbBaseline low).insertPending low high, .ok ()) := by
  cases rejection : c.registerRejection low high with
  | some error => exact Or.inl ⟨error, by simp [registerPending, rejection]⟩
  | none => exact Or.inr ⟨rfl, by simp [registerPending, rejection]⟩

theorem markCommitted_cases (c : AckCoordinator) (low high : Nat) :
    (∃ error, c.markCommitted low high = (c, .error error)) ∨
      ∃ c', c.markCommitted low high = (c', .ok ()) := by
  unfold markCommitted
  split
  · exact Or.inl ⟨_, rfl⟩
  · split
    · exact Or.inl ⟨_, rfl⟩
    · exact Or.inr ⟨_, rfl⟩

theorem isCommitted_append (h : History) (c : AckCoordinator) (range : Range) :
    (History.mk c h.registered (h.committed ++ [range])).isCommitted =
      addCommitted h.isCommitted range := by
  funext other
  simp [isCommitted, addCommitted]

theorem coherent_apply (baseline : Option Nat) (h : History) (call : Call)
    (coherent : Coherent baseline h) : Coherent baseline (h.apply call) := by
  obtain ⟨popped, rest, registered, tracks⟩ := coherent
  cases call with
  | registerPending low high =>
      rcases registerPending_cases h.coordinator low.val high.val with
        ⟨error, rejected⟩ | ⟨accepted, result⟩
      · simp only [apply, rejected]
        exact ⟨popped, rest, registered, tracks⟩
      · simp only [apply, result]
        refine ⟨popped, rest ++ [(low.val, high.val)], by simp [registered], ?_⟩
        exact tracks.register low.val high.val (val_le_u64Max high) accepted
  | markCommitted low high =>
      rcases markCommitted_cases h.coordinator low.val high.val with
        ⟨error, rejected⟩ | ⟨c', result⟩
      · simp only [apply, rejected]
        exact ⟨popped, rest, registered, tracks⟩
      · simp only [apply, result]
        refine ⟨popped, rest, registered, ?_⟩
        rw [isCommitted_append]
        exact (tracks.mark c' low.val high.val result).2
  | advanceFrontier =>
      refine ⟨popped ++ rest.takeWhile h.isCommitted, rest.dropWhile h.isCommitted, ?_,
        tracks.advance⟩
      change h.registered = _
      rw [registered, List.append_assoc, List.takeWhile_append_dropWhile]

theorem coherent_run (source : SourceId) (baseline : Option U64) (calls : List Call) :
    Coherent (baseline.map Fin.val) (run source baseline calls) := by
  -- the induction peels the last call, so that the invariant is pushed forwards
  induction calls using List.reverseRecOn with
  | nil => exact ⟨[], [], rfl, tracks_new source _⟩
  | append_singleton calls call ih =>
      simp only [run, List.foldl_append, List.foldl_cons, List.foldl_nil] at ih ⊢
      exact coherent_apply _ _ call ih

/-! ## The frontier and the pending map after an advance -/

theorem takeWhile_committed_prefix (committed : Range → Bool) (popped rest : List Range)
    (all : ∀ range ∈ popped, committed range = true) :
    (popped ++ rest).takeWhile committed = popped ++ rest.takeWhile committed ∧
      (popped ++ rest).dropWhile committed = rest.dropWhile committed := by
  refine ⟨?_, ?_⟩
  · rw [List.takeWhile_append_of_pos all]
  · rw [List.dropWhile_append_of_pos all]

theorem Coherent.advance_matches_spec {baseline : Option Nat} {h : History}
    (coherent : Coherent baseline h) :
    h.coordinator.advanceFrontier.frontier = specFrontier h.registered h.isCommitted ∧
      h.coordinator.advanceFrontier.pending.entries =
        specPending h.registered h.isCommitted := by
  obtain ⟨popped, rest, registered, tracks⟩ := coherent
  obtain ⟨taken, dropped⟩ :=
    takeWhile_committed_prefix h.isCommitted popped rest tracks.popped_committed
  have advanced := tracks.advance
  refine ⟨?_, ?_⟩
  · rw [frontier, advanced.frontier_eq, specFrontier, registered, taken]
  · rw [advanced.pending_eq, specPending, registered, dropped]

theorem Coherent.committed_below_frontier {baseline : Option Nat} {h : History}
    (coherent : Coherent baseline h) (f : Nat) (isFrontier : h.coordinator.frontier = some f) :
    ∀ range ∈ h.registered, range.1 ≤ f → range ∈ h.committed := by
  obtain ⟨popped, rest, registered, tracks⟩ := coherent
  intro range member below
  obtain ⟨top, isLast, highEq⟩ : ∃ top, popped.getLast? = some top ∧ top.2 = f := by
    rw [frontier, tracks.frontier_eq] at isFrontier
    simpa using isFrontier
  rw [registered] at member
  rcases List.mem_append.mp member with early | late
  · simpa [isCommitted] using tracks.popped_committed range early
  · have above := contiguous_append_low_lt popped rest tracks.contiguous tracks.ordered top
      isLast range late
    omega

/-! ## Monotonicity -/

/-- The frontier order: no frontier yet, then the sequence numbers. -/
def FrontierLE (earlier later : Option Nat) : Prop :=
  ∀ f, earlier = some f → ∃ g, later = some g ∧ f ≤ g

theorem FrontierLE.refl (f : Option Nat) : FrontierLE f f :=
  fun value eq => ⟨value, eq, Nat.le_refl value⟩

theorem FrontierLE.trans {a b c : Option Nat} (first : FrontierLE a b) (second : FrontierLE b c) :
    FrontierLE a c := by
  intro f eq
  obtain ⟨g, eq', le⟩ := first f eq
  obtain ⟨k, eq'', le'⟩ := second g eq'
  exact ⟨k, eq'', Nat.le_trans le le'⟩

theorem advance_frontier_le {baseline : Option Nat} {c : AckCoordinator}
    {popped rest : List Range} {committed : Range → Bool}
    (tracks : Tracks baseline c popped rest committed) :
    FrontierLE c.frontier c.advanceFrontier.frontier := by
  have advanced := tracks.advance
  intro f isFrontier
  obtain ⟨top, isLast, highEq⟩ : ∃ top, popped.getLast? = some top ∧ top.2 = f := by
    rw [frontier, tracks.frontier_eq] at isFrontier
    simpa using isFrontier
  have nonempty : popped ++ rest.takeWhile committed ≠ [] := by
    intro none_popped
    rw [(List.append_eq_nil_iff.mp none_popped).1] at isLast
    simp at isLast
  obtain ⟨newTop, newLast⟩ : ∃ newTop, (popped ++ rest.takeWhile committed).getLast? =
      some newTop := ⟨_, List.getLast?_eq_some_getLast nonempty⟩
  refine ⟨newTop.2, ?_, ?_⟩
  · rw [frontier, advanced.frontier_eq, newLast]
    rfl
  · have contiguous : Contiguous (popped ++ rest.takeWhile committed) :=
      (List.isChain_append.mp advanced.contiguous).1
    have ordered : ∀ range ∈ popped ++ rest.takeWhile committed, range.1 ≤ range.2 :=
      fun range member => advanced.ordered range (List.mem_append_left _ member)
    rw [← highEq]
    exact contiguous_high_le_last _ contiguous ordered newTop newLast top
      (List.mem_append_left _ (List.mem_of_getLast? isLast))

theorem apply_frontier_le (baseline : Option Nat) (h : History) (call : Call)
    (coherent : Coherent baseline h) :
    FrontierLE h.coordinator.frontier (h.apply call).coordinator.frontier := by
  cases call with
  | registerPending low high =>
      rcases registerPending_cases h.coordinator low.val high.val with
        ⟨error, rejected⟩ | ⟨accepted, result⟩
      · simp only [apply, rejected]
        exact FrontierLE.refl _
      · have same : ((h.coordinator.absorbBaseline low.val).insertPending low.val
            high.val).frontier = h.coordinator.frontier := by
          unfold absorbBaseline
          split <;> rfl
        simp only [apply, result, same]
        exact FrontierLE.refl _
  | markCommitted low high =>
      rcases markCommitted_cases h.coordinator low.val high.val with
        ⟨error, rejected⟩ | ⟨c', result⟩
      · simp only [apply, rejected]
        exact FrontierLE.refl _
      · obtain ⟨_, _, _, rfl⟩ := markCommitted_ok _ _ _ _ result
        simp only [apply, result]
        exact FrontierLE.refl _
  | advanceFrontier =>
      obtain ⟨popped, rest, _, tracks⟩ := coherent
      exact advance_frontier_le tracks

theorem run_frontier_le (source : SourceId) (baseline : Option U64) (calls more : List Call) :
    FrontierLE (run source baseline calls).coordinator.frontier
      (run source baseline (calls ++ more)).coordinator.frontier := by
  induction more using List.reverseRecOn with
  | nil => simpa using FrontierLE.refl _
  | append_singleton more call ih =>
      have coherent := coherent_run source baseline (calls ++ more)
      refine ih.trans ?_
      simpa [run, List.foldl_append] using apply_frontier_le _ _ call coherent

end History

open History

/-- After any calls, one `advance_frontier` leaves exactly the specification's
frontier and pending map.  The frontier has only committed ranges below it, the
loop's bail-out is never taken, the frontier is monotone along the calls, and two
call sequences with the same accepted ranges and the same commits agree. -/
theorem advance_frontier_refines_specification (source : SourceId) (baseline : Option U64)
    (calls : List Call) :
    (run source baseline (calls ++ [.advanceFrontier])).coordinator.frontier =
        specFrontier (run source baseline calls).registered
          (run source baseline calls).isCommitted ∧
      (run source baseline (calls ++ [.advanceFrontier])).coordinator.pending.entries =
        specPending (run source baseline calls).registered
          (run source baseline calls).isCommitted ∧
      (∀ f, (run source baseline calls).coordinator.frontier = some f →
        ∀ range ∈ (run source baseline calls).registered, range.1 ≤ f →
          range ∈ (run source baseline calls).committed) ∧
      (∀ iterations, ¬ ((run source baseline calls).coordinator.advanceLoop iterations).BailsOut) ∧
      (∀ more, FrontierLE (run source baseline calls).coordinator.frontier
        (run source baseline (calls ++ more)).coordinator.frontier) ∧
      (∀ others, (run source baseline others).registered = (run source baseline calls).registered →
        (∀ range, range ∈ (run source baseline others).committed ↔
          range ∈ (run source baseline calls).committed) →
        (run source baseline (others ++ [.advanceFrontier])).coordinator.frontier =
          (run source baseline (calls ++ [.advanceFrontier])).coordinator.frontier ∧
        (run source baseline (others ++ [.advanceFrontier])).coordinator.pending =
          (run source baseline (calls ++ [.advanceFrontier])).coordinator.pending) := by
  have spec : ∀ sequence : List Call,
      (run source baseline (sequence ++ [.advanceFrontier])).coordinator.frontier =
          specFrontier (run source baseline sequence).registered
            (run source baseline sequence).isCommitted ∧
        (run source baseline (sequence ++ [.advanceFrontier])).coordinator.pending.entries =
          specPending (run source baseline sequence).registered
            (run source baseline sequence).isCommitted := by
    intro sequence
    have matches_spec := (coherent_run source baseline sequence).advance_matches_spec
    simpa [run, List.foldl_append, apply] using matches_spec
  refine ⟨(spec calls).1, (spec calls).2, ?_, ?_, run_frontier_le source baseline calls, ?_⟩
  · exact (coherent_run source baseline calls).committed_below_frontier
  · intro iterations
    obtain ⟨popped, rest, _, tracks⟩ := coherent_run source baseline calls
    obtain ⟨_, _, _, moved, _⟩ := tracks.advanceLoop iterations
    exact moved.not_bailsOut
  · intro others sameRegistered sameCommitted
    have sameFlags : (run source baseline others).isCommitted =
        (run source baseline calls).isCommitted := by
      funext range
      simp [isCommitted, sameCommitted range]
    refine ⟨?_, SortedMap.ext_entries ?_⟩
    · rw [(spec others).1, (spec calls).1, sameRegistered, sameFlags]
    · rw [(spec others).2, (spec calls).2, sameRegistered, sameFlags]

end OpendataIngest.Runtime.AckCoordinator
