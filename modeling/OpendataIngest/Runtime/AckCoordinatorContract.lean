import OpendataIngest.Runtime.AckCoordinatorRuns

/-!
# What the coordinator accepts

`register_pending` accepts exactly one kind of range, the next one, and
`mark_committed` may be repeated exactly while the frontier has not passed the
range.  Both are stated over the history of an arbitrary call sequence.
-/

set_option autoImplicit false

namespace OpendataIngest.Runtime.AckCoordinator

open MachineInt

/-- `low` follows the last range of the list, or the baseline when there is none. -/
def StartsNext (baseline : Option Nat) (registered : List Range) (low : Nat) : Prop :=
  match registered.getLast? with
  | some last => low = last.2 + 1
  | none => ∀ b, baseline = some b → low = b + 1

section Guards

variable {baseline : Option Nat} {c : AckCoordinator} {popped rest : List Range}
  {committed : Range → Bool}

theorem Tracks.startsNext_of_accepted (tracks : Tracks baseline c popped rest committed)
    (small : ∀ b, baseline = some b → b < u64Max) (low high : Nat) (highBound : high ≤ u64Max)
    (accepted : c.registerRejection low high = none) :
    StartsNext baseline (popped ++ rest) low := by
  unfold StartsNext
  cases isLast : (popped ++ rest).getLast? with
  | some top => exact tracks.accepted_is_successor low high highBound accepted top isLast
  | none =>
      intro b known
      have none_registered := List.getLast?_eq_none_iff.mp isLast
      have bound := small b known
      rw [tracks.first_above_baseline low high none_registered accepted b known,
        saturatingAdd_of_le _ _ (by omega)]

theorem StartsNext.above {low : Nat} (next : StartsNext baseline (popped ++ rest) low)
    (tracks : Tracks baseline c popped rest committed) :
    ∀ range ∈ popped ++ rest, range.2 < low := by
  intro range member
  unfold StartsNext at next
  cases isLast : (popped ++ rest).getLast? with
  | none =>
      rw [List.getLast?_eq_none_iff.mp isLast] at member
      exact absurd member List.not_mem_nil
  | some top =>
      have bound := contiguous_high_le_last _ tracks.contiguous tracks.ordered top isLast
        range member
      simp only [isLast] at next
      omega

/-- The two saturating guards agree with the exact successor once `low ≤ u64::MAX`. -/
theorem StartsNext.successor_guards {low : Nat} (next : StartsNext baseline (popped ++ rest) low)
    (tracks : Tracks baseline c popped rest committed) (lowBound : low ≤ u64Max) :
    c.belowBaseline low = none ∧ c.nonContiguous low = none := by
  unfold StartsNext at next
  cases isLast : (popped ++ rest).getLast? with
  | some top =>
      simp only [isLast] at next
      have expected : low = saturatingAdd top.2 1 := by
        rw [saturatingAdd_of_le _ _ (by omega), next]
      simp [belowBaseline, nonContiguous, tracks.last, isLast, ← expected]
  | none =>
      simp only [isLast] at next
      cases known : baseline with
      | none => simp [belowBaseline, nonContiguous, tracks.last, isLast, tracks.initial, known]
      | some b =>
          have successor := next b known
          have expected : low = saturatingAdd b 1 := by
            rw [saturatingAdd_of_le _ _ (by omega), successor]
          simp [belowBaseline, nonContiguous, tracks.last, isLast, tracks.initial, known,
            ← expected]

theorem StartsNext.alreadyAcked_eq {low : Nat} (next : StartsNext baseline (popped ++ rest) low)
    (tracks : Tracks baseline c popped rest committed) : c.alreadyAcked low = none := by
  cases isLast : popped.getLast? with
  | none => simp [alreadyAcked, tracks.frontier_eq, isLast]
  | some top =>
      have below := next.above tracks top (List.mem_append_left _ (List.mem_of_getLast? isLast))
      simp [alreadyAcked, tracks.frontier_eq, isLast, below]

theorem StartsNext.overlap_guards {low : Nat} (next : StartsNext baseline (popped ++ rest) low)
    (tracks : Tracks baseline c popped rest committed) (high : Nat) :
    c.overlapsBelow low high = none ∧ c.overlapsAbove low high = none := by
  have below : ∀ entry ∈ c.pending.entries, entry.2.high < low ∧ entry.1 < low := by
    intro entry member
    rw [tracks.pending_eq] at member
    obtain ⟨range, rangeMember, rfl⟩ := List.mem_map.mp member
    have under := next.above tracks range (List.mem_append_right _ rangeMember)
    have upright := tracks.ordered range (List.mem_append_right _ rangeMember)
    exact ⟨under, Nat.lt_of_le_of_lt upright under⟩
  refine ⟨?_, ?_⟩
  · unfold overlapsBelow
    cases found : c.pending.lastAtMost high with
    | none => rfl
    | some entry =>
        have under := (below entry (c.pending.mem_of_lastAtMost high entry found)).1
        simp [under]
  · have nothing : c.pending.firstAtLeast low = none :=
      c.pending.firstAtLeast_of_forall_lt low fun entry member => (below entry member).2
    simp [overlapsAbove, nothing]

theorem StartsNext.accepted {low : Nat} (next : StartsNext baseline (popped ++ rest) low)
    (tracks : Tracks baseline c popped rest committed) (high : Nat) (upright : low ≤ high)
    (highBound : high ≤ u64Max) : c.registerRejection low high = none := by
  obtain ⟨floor, contiguous⟩ := next.successor_guards tracks (by omega)
  obtain ⟨lower, upper⟩ := next.overlap_guards tracks high
  have valid : invalidRange low high = none := by
    simp [invalidRange, upright]
  simp [registerRejection, valid, floor, contiguous, next.alreadyAcked_eq tracks, lower, upper]

/-! ## Repeated commits -/

/-- A range whose flag is set already is not changed by setting it again. -/
theorem Tracks.mark_again (tracks : Tracks baseline c popped rest committed) (range : Range)
    (member : range ∈ rest) (marked : committed range = true) :
    c.markCommitted range.1 range.2 = (c, .ok ()) := by
  obtain ⟨c', result⟩ := tracks.mark_succeeds range member
  obtain ⟨entry, found, sameHigh, rfl⟩ := markCommitted_ok c c' range.1 range.2 result
  have entryEq := (tracks.mem_of_get range.1 entry found).2
  have flagged : setCommitted entry = entry := by
    rw [entryEq, sameHigh]
    simp [setCommitted, pendingEntry, marked]
  have unchanged : c.pending.modify range.1 setCommitted = c.pending :=
    SortedMap.modify_eq_self c.pending range.1 setCommitted entry found flagged
  rw [result, unchanged]

theorem Tracks.mark_popped (tracks : Tracks baseline c popped rest committed) (range : Range)
    (member : range ∈ popped) (c' : AckCoordinator) :
    c.markCommitted range.1 range.2 ≠ (c', .ok ()) := by
  intro result
  obtain ⟨entry, found, sameHigh, _⟩ := markCommitted_ok c c' range.1 range.2 result
  have pending := (tracks.mem_of_get range.1 entry found).1
  rw [sameHigh] at pending
  have sorted := contiguous_pairwise _ tracks.contiguous tracks.ordered
  have apart : range.2 < range.1 := (List.pairwise_append.mp sorted).2.2 range member range pending
  have upright := tracks.ordered range (List.mem_append_left _ member)
  omega

/-- The ranges below the frontier are those the frontier has passed. -/
theorem Tracks.pending_iff_above_frontier (tracks : Tracks baseline c popped rest committed)
    (range : Range) (member : range ∈ popped ++ rest) :
    range ∈ rest ↔ ∀ f, c.frontier = some f → f < range.1 := by
  constructor
  · intro pending f isFrontier
    obtain ⟨top, isLast, rfl⟩ : ∃ top, popped.getLast? = some top ∧ top.2 = f := by
      rw [frontier, tracks.frontier_eq] at isFrontier
      simpa using isFrontier
    exact contiguous_append_low_lt popped rest tracks.contiguous tracks.ordered top isLast
      range pending
  · intro above
    rcases List.mem_append.mp member with early | late
    · obtain ⟨top, isLast⟩ : ∃ top, popped.getLast? = some top :=
        ⟨_, List.getLast?_eq_some_getLast (List.ne_nil_of_mem early)⟩
      have isFrontier : c.frontier = some top.2 := by
        rw [frontier, tracks.frontier_eq, isLast]
        rfl
      have passed := above top.2 isFrontier
      have contiguous : Contiguous popped := (List.isChain_append.mp tracks.contiguous).1
      have ordered : ∀ other ∈ popped, other.1 ≤ other.2 :=
        fun other inPopped => tracks.ordered other (List.mem_append_left _ inPopped)
      have bound := contiguous_high_le_last popped contiguous ordered top isLast range early
      have upright := ordered range early
      omega
    · exact late

end Guards

namespace History

def AboveBaseline (baseline : Option Nat) (h : History) : Prop :=
  ∀ b, baseline = some b → ∀ range ∈ h.registered, b < range.1

theorem aboveBaseline_apply (baseline : Option Nat) (small : ∀ b, baseline = some b → b < u64Max)
    (h : History) (call : Call) (coherent : Coherent baseline h)
    (above : AboveBaseline baseline h) : AboveBaseline baseline (h.apply call) := by
  cases call with
  | registerPending low high =>
      rcases registerPending_cases h.coordinator low.val high.val with
        ⟨error, rejected⟩ | ⟨accepted, result⟩
      · simp only [apply, rejected]
        exact above
      · obtain ⟨popped, rest, registered, tracks⟩ := coherent
        simp only [apply, result]
        intro b known range member
        rcases List.mem_append.mp member with old | new
        · exact above b known range old
        · have same : range = (low.val, high.val) := by simpa using new
          rw [same]
          have floor : ∀ other ∈ popped ++ rest, b < other.1 := by
            rw [← registered]
            exact above b known
          exact tracks.above_baseline low.val high.val (val_le_u64Max high) accepted b known
            (small b known) floor
  | markCommitted low high =>
      rcases markCommitted_cases h.coordinator low.val high.val with
        ⟨error, rejected⟩ | ⟨c', result⟩
      · simp only [apply, rejected]
        exact above
      · simp only [apply, result]
        exact above
  | advanceFrontier => exact above

theorem aboveBaseline_run (source : SourceId) (baseline : Option U64)
    (small : ∀ b, baseline.map Fin.val = some b → b < u64Max) (calls : List Call) :
    AboveBaseline (baseline.map Fin.val) (run source baseline calls) := by
  induction calls using List.reverseRecOn with
  | nil =>
      intro b _ range member
      exact absurd member List.not_mem_nil
  | append_singleton calls call ih =>
      have coherent := coherent_run source baseline calls
      simp only [run, List.foldl_append, List.foldl_cons, List.foldl_nil] at ih coherent ⊢
      exact aboveBaseline_apply _ small _ call coherent ih

theorem Coherent.registers_iff {baseline : Option Nat} {h : History}
    (coherent : Coherent baseline h) (small : ∀ b, baseline = some b → b < u64Max)
    (low high : U64) :
    (h.coordinator.registerPending low.val high.val).2 = .ok () ↔
      low.val ≤ high.val ∧ StartsNext baseline h.registered low.val := by
  obtain ⟨popped, rest, registered, tracks⟩ := coherent
  rw [registered]
  have highBound := val_le_u64Max high
  rcases registerPending_cases h.coordinator low.val high.val with
    ⟨error, rejected⟩ | ⟨accepted, result⟩
  · constructor
    · intro isOk
      rw [rejected] at isOk
      exact absurd isOk (by simp)
    · rintro ⟨upright, next⟩
      have accepted := next.accepted tracks high.val upright highBound
      simp [registerPending, accepted]
  · have upright := low_le_high_of_valid low.val high.val
      (registerRejection_eq_none _ _ _ accepted).1
    have next := tracks.startsNext_of_accepted small low.val high.val highBound accepted
    simp [result, upright, next]

theorem Coherent.committed_mem {baseline : Option Nat} {h : History}
    (coherent : Coherent baseline h) (range : Range) (marked : range ∈ h.committed) :
    range ∈ h.registered := by
  obtain ⟨popped, rest, registered, tracks⟩ := coherent
  rw [registered]
  exact tracks.committed_registered range (by simpa [isCommitted] using marked)

theorem Coherent.marks_again_iff {baseline : Option Nat} {h : History}
    (coherent : Coherent baseline h) (range : Range) (marked : range ∈ h.committed) :
    h.coordinator.markCommitted range.1 range.2 = (h.coordinator, .ok ()) ↔
      ∀ f, h.coordinator.frontier = some f → f < range.1 := by
  have member := coherent.committed_mem range marked
  obtain ⟨popped, rest, registered, tracks⟩ := coherent
  rw [registered] at member
  rw [← tracks.pending_iff_above_frontier range member]
  constructor
  · intro again
    rcases List.mem_append.mp member with early | late
    · exact absurd again (tracks.mark_popped range early _)
    · exact late
  · intro pending
    exact tracks.mark_again range pending (by simpa [isCommitted] using marked)

end History

open History

/-- `register_pending` accepts exactly the next range, an error of either method
leaves the coordinator as it was, and the accepted ranges tile an interval above
the baseline. -/
theorem register_pending_accepts_exactly_the_next_range (source : SourceId)
    (baseline : Option U64) (small : ∀ b, baseline = some b → b.val < u64Max)
    (calls : List Call) (low high : U64) :
    ((((run source baseline calls).coordinator.registerPending low.val high.val).2 = .ok () ↔
        low.val ≤ high.val ∧
          StartsNext (baseline.map Fin.val) (run source baseline calls).registered low.val)) ∧
      (∀ range ∈ (run source baseline calls).registered, range.2 = u64Max →
        ((run source baseline calls).coordinator.registerPending low.val high.val).2 ≠ .ok ()) ∧
      (∀ error,
        ((run source baseline calls).coordinator.registerPending low.val high.val).2 =
          .error error →
        ((run source baseline calls).coordinator.registerPending low.val high.val).1 =
          (run source baseline calls).coordinator) ∧
      (∀ error,
        ((run source baseline calls).coordinator.markCommitted low.val high.val).2 =
          .error error →
        ((run source baseline calls).coordinator.markCommitted low.val high.val).1 =
          (run source baseline calls).coordinator) ∧
      ((run source baseline calls).registered.Pairwise fun left right => left.2 < right.1) ∧
      Contiguous (run source baseline calls).registered ∧
      (∀ range ∈ (run source baseline calls).registered, range.1 ≤ range.2) ∧
      ∀ b, baseline = some b → ∀ range ∈ (run source baseline calls).registered,
        b.val < range.1 := by
  have coherent := coherent_run source baseline calls
  have smallVal : ∀ b, baseline.map Fin.val = some b → b < u64Max := by
    intro b known
    obtain ⟨value, supplied, rfl⟩ := Option.map_eq_some_iff.mp known
    exact small value supplied
  have exactly := coherent.registers_iff smallVal low high
  have above := aboveBaseline_run source baseline smallVal calls
  obtain ⟨popped, rest, registered, tracks⟩ := coherent
  refine ⟨exactly, ?_, ?_, ?_, ?_, ?_, ?_, ?_⟩
  · intro range member top accepted
    obtain ⟨_, next⟩ := exactly.mp accepted
    rw [registered] at next member
    have below := next.above tracks range member
    have lowBound := val_le_u64Max low
    omega
  · intro error failed
    rcases registerPending_cases (run source baseline calls).coordinator low.val high.val with
      ⟨_, rejected⟩ | ⟨_, result⟩
    · rw [rejected]
    · rw [result] at failed
      exact absurd failed (by simp)
  · intro error failed
    rcases markCommitted_cases (run source baseline calls).coordinator low.val high.val with
      ⟨_, rejected⟩ | ⟨_, result⟩
    · rw [rejected]
    · rw [result] at failed
      exact absurd failed (by simp)
  · rw [registered]
    exact contiguous_pairwise _ tracks.contiguous tracks.ordered
  · rw [registered]
    exact tracks.contiguous
  · rw [registered]
    exact tracks.ordered
  · intro b supplied
    exact above b.val (by rw [supplied]; rfl)

/-- A range that ends at `u64::MAX` closes the source. -/
theorem register_pending_accepts_exactly_the_next_range_at_the_end :
    (StartsNext (some 4) [] 5 ∧ (5 : Nat) ≤ u64Max) ∧
      ((run ⟨"logs"⟩ (some 4) [.registerPending 5 18446744073709551615]).coordinator.registerPending
        18446744073709551615 18446744073709551615).2 ≠ .ok () := by
  refine ⟨⟨?_, by decide⟩, ?_⟩
  · intro b known
    exact congrArg (· + 1) (Option.some.inj known)
  · have exactly := register_pending_accepts_exactly_the_next_range ⟨"logs"⟩ (some 4)
      (by intro b known; cases known; decide) [.registerPending 5 18446744073709551615]
      18446744073709551615 18446744073709551615
    exact exactly.2.1 (5, 18446744073709551615) (by decide) (by decide)

/-- Repeating a successful `mark_committed` is a no-op exactly while the frontier
has not passed the range. -/
theorem mark_committed_again_is_noop_iff (source : SourceId) (baseline : Option U64)
    (calls : List Call) (range : Range)
    (marked : range ∈ (run source baseline calls).committed) :
    (run source baseline calls).coordinator.markCommitted range.1 range.2 =
        ((run source baseline calls).coordinator, .ok ()) ↔
      ∀ f, (run source baseline calls).coordinator.frontier = some f → f < range.1 :=
  (coherent_run source baseline calls).marks_again_iff range marked

/-- The range behind a hole stays pending over an advance and can be marked again. -/
theorem mark_committed_again_is_noop_behind_a_hole :
    let calls : List Call := [.registerPending 0 0, .registerPending 1 1, .markCommitted 1 1,
      .advanceFrontier]
    (1, 1) ∈ (run ⟨"logs"⟩ none calls).committed ∧
      (run ⟨"logs"⟩ none calls).coordinator.markCommitted 1 1 =
        ((run ⟨"logs"⟩ none calls).coordinator, .ok ()) := by
  intro calls
  have marked : (1, 1) ∈ (run ⟨"logs"⟩ none calls).committed := by decide
  have noFrontier : (run ⟨"logs"⟩ none calls).coordinator.frontier = none := by decide
  refine ⟨marked, (mark_committed_again_is_noop_iff ⟨"logs"⟩ none calls (1, 1) marked).mpr ?_⟩
  intro f isFrontier
  rw [noFrontier] at isFrontier
  exact absurd isFrontier (by simp)

/-- Once the frontier has popped the range, the repeated call is an error. -/
theorem mark_committed_again_fails_after_advance :
    ¬ ∀ (source : SourceId) (baseline : Option U64) (calls : List Call) (range : Range),
      range ∈ (run source baseline calls).committed →
        (run source baseline calls).coordinator.markCommitted range.1 range.2 =
          ((run source baseline calls).coordinator, .ok ()) := by
  intro idempotent
  have again := idempotent ⟨"logs"⟩ none
    [.registerPending 0 0, .markCommitted 0 0, .advanceFrontier] (0, 0) (by decide)
  have failed : ((run ⟨"logs"⟩ none
      [.registerPending 0 0, .markCommitted 0 0, .advanceFrontier]).coordinator.markCommitted
        0 0).2 = .error (.ack "no pending range with low=0 on source logs") := by decide
  rw [again] at failed
  exact absurd failed (by simp)

end OpendataIngest.Runtime.AckCoordinator
