import OpendataIngest.Runtime.AckCoordinator
import Mathlib.Data.List.Chain

/-!
# The coordinator's specification

The abstract coordinator is two things: the list of ranges accepted by
`register_pending`, in order, and the set of those a `mark_committed` call
returned `Ok` for.  The frontier is the high end of the longest committed prefix
of that list, and the pending map is the rest of it.

`Tracks` relates the concrete coordinator to that list, cut into the ranges
already popped and the ranges still pending.  Each method has one lemma that
says how it moves the cut.
-/

set_option autoImplicit false

namespace OpendataIngest.Runtime

open MachineInt

abbrev Range : Type := Nat × Nat

namespace AckCoordinator

def pendingEntry (committed : Range → Bool) (range : Range) : Nat × PendingRange :=
  (range.1, ⟨range.1, range.2, committed range⟩)

def specFrontier (registered : List Range) (committed : Range → Bool) : Option Nat :=
  (registered.takeWhile committed).getLast?.map Prod.snd

def specPending (registered : List Range) (committed : Range → Bool) :
    List (Nat × PendingRange) :=
  (registered.dropWhile committed).map (pendingEntry committed)

/-- Each range starts right after the one before it ends, in exact arithmetic. -/
def Contiguous (ranges : List Range) : Prop :=
  ranges.IsChain fun left right => right.1 = left.2 + 1

structure Tracks (baseline : Option Nat) (c : AckCoordinator) (popped rest : List Range)
    (committed : Range → Bool) : Prop where
  initial : c.initialFrontierBaseline = baseline
  bounded : ∀ range ∈ popped ++ rest, range.1 ≤ range.2 ∧ range.2 ≤ u64Max
  contiguous : Contiguous (popped ++ rest)
  unregistered : popped ++ rest = [] →
    c.effectiveBaseline = baseline ∧ c.baselineFixed = baseline.isSome
  first : ∀ range, (popped ++ rest).head? = some range →
    c.baselineFixed = true ∧
    range.1 = (match c.effectiveBaseline with
      | some b => saturatingAdd b 1
      | none => 0)
  last : c.lastRegisteredHigh = (popped ++ rest).getLast?.map Prod.snd
  frontier_eq : c.ackedFrontier = popped.getLast?.map Prod.snd
  popped_committed : ∀ range ∈ popped, committed range = true
  committed_registered : ∀ range, committed range = true → range ∈ popped ++ rest
  pending_eq : c.pending.entries = rest.map (pendingEntry committed)

/-! ## Contiguous lists of ranges -/

theorem contiguous_pairwise (ranges : List Range) (contiguous : Contiguous ranges)
    (ordered : ∀ range ∈ ranges, range.1 ≤ range.2) :
    ranges.Pairwise fun left right => left.2 < right.1 := by
  induction ranges with
  | nil => exact List.Pairwise.nil
  | cons head rest ih =>
      have restContiguous : Contiguous rest := (List.isChain_cons.mp contiguous).2
      have restOrdered : ∀ range ∈ rest, range.1 ≤ range.2 :=
        fun range member => ordered range (List.mem_cons_of_mem _ member)
      have sorted := ih restContiguous restOrdered
      refine List.pairwise_cons.mpr ⟨?_, sorted⟩
      cases rest with
      | nil => intro range member; exact absurd member List.not_mem_nil
      | cons next tail =>
          have step : next.1 = head.2 + 1 := (List.isChain_cons_cons.mp contiguous).1
          have nextOrdered := restOrdered next (List.mem_cons_self ..)
          intro range member
          rcases List.mem_cons.mp member with same | later
          · rw [same]; omega
          · have := (List.pairwise_cons.mp sorted).1 range later
            omega

/-- The last range of a contiguous list has the greatest high end. -/
theorem contiguous_high_le_last (ranges : List Range) (contiguous : Contiguous ranges)
    (ordered : ∀ range ∈ ranges, range.1 ≤ range.2) (top : Range)
    (isLast : ranges.getLast? = some top) :
    ∀ range ∈ ranges, range.2 ≤ top.2 := by
  intro range member
  obtain ⟨front, rfl⟩ := List.getLast?_eq_some_iff.mp isLast
  have sorted := contiguous_pairwise _ contiguous ordered
  rcases List.mem_append.mp member with early | late
  · have below := (List.pairwise_append.mp sorted).2.2 range early top (by simp)
    have topOrdered := ordered top (by simp)
    omega
  · have same : range = top := by simpa using late
    rw [same]

/-- Sequences at or below a range's high end lie in it or in an earlier range. -/
theorem contiguous_append_low_lt (front back : List Range)
    (contiguous : Contiguous (front ++ back))
    (ordered : ∀ range ∈ front ++ back, range.1 ≤ range.2) (top : Range)
    (isLast : front.getLast? = some top) :
    ∀ range ∈ back, top.2 < range.1 := by
  intro range member
  have sorted := contiguous_pairwise _ contiguous ordered
  exact (List.pairwise_append.mp sorted).2.2 top (List.mem_of_getLast? isLast) range member

/-! ## Registration -/

theorem registerRejection_eq_none (c : AckCoordinator) (low high : Nat)
    (accepted : c.registerRejection low high = none) :
    invalidRange low high = none ∧ c.belowBaseline low = none ∧
      c.nonContiguous low = none ∧ c.alreadyAcked low = none ∧
      c.overlapsBelow low high = none := by
  simp only [registerRejection, Option.orElse_eq_orElse, Option.orElse_eq_or, Option.or_eq_none_iff]
    at accepted
  obtain ⟨valid, floor, next, fresh, below, _⟩ := accepted
  exact ⟨valid, floor, next, fresh, below⟩

theorem low_le_high_of_valid (low high : Nat) (valid : invalidRange low high = none) :
    low ≤ high := by
  by_contra reversed
  simp [invalidRange, Nat.lt_of_not_le reversed] at valid

theorem tracks_new (source : SourceId) (baseline : Option Nat) :
    Tracks baseline (new source baseline) [] [] (fun _ => false) where
  initial := rfl
  bounded := by simp
  contiguous := List.isChain_nil
  unregistered := fun _ => ⟨rfl, rfl⟩
  first := by simp
  last := rfl
  frontier_eq := rfl
  popped_committed := by simp
  committed_registered := by simp
  pending_eq := rfl

section Register

variable {baseline : Option Nat} {c : AckCoordinator} {popped rest : List Range}
  {committed : Range → Bool}

theorem Tracks.ordered (tracks : Tracks baseline c popped rest committed) :
    ∀ range ∈ popped ++ rest, range.1 ≤ range.2 :=
  fun range member => (tracks.bounded range member).1

/-- The saturated successor of `u64::MAX` passes the contiguity guard, and is then
caught by the frontier guard or by the lower-neighbour guard. -/
theorem Tracks.accepted_is_successor (tracks : Tracks baseline c popped rest committed)
    (low high : Nat) (highBound : high ≤ u64Max)
    (accepted : c.registerRejection low high = none) (top : Range)
    (isLast : (popped ++ rest).getLast? = some top) :
    low = top.2 + 1 := by
  obtain ⟨valid, _, next, fresh, below⟩ := registerRejection_eq_none c low high accepted
  have ordered := low_le_high_of_valid low high valid
  have topBound := (tracks.bounded top (List.mem_of_getLast? isLast)).2
  have lowEq : low = saturatingAdd top.2 1 := by
    by_contra differs
    simp [nonContiguous, tracks.last, isLast, differs] at next
  by_contra notSuccessor
  have topMax : top.2 = u64Max := by
    simp only [saturatingAdd] at lowEq
    omega
  have lowMax : low = u64Max := by
    simp only [saturatingAdd] at lowEq
    omega
  cases restShape : rest.getLast? with
  | none =>
      have poppedLast : popped.getLast? = some top := by
        simpa [List.getLast?_append, restShape] using isLast
      have frontier : c.ackedFrontier = some top.2 := by
        rw [tracks.frontier_eq, poppedLast]
        rfl
      have covered : low ≤ top.2 := by omega
      simp [alreadyAcked, frontier, covered] at fresh
  | some final =>
      have sameTop : final = top := by
        simpa [List.getLast?_append, restShape] using isLast
      have keys : ∀ entry ∈ c.pending.entries, entry.1 ≤ high := by
        intro entry member
        rw [tracks.pending_eq] at member
        obtain ⟨range, rangeMember, rfl⟩ := List.mem_map.mp member
        have bound := tracks.bounded range (List.mem_append_right _ rangeMember)
        change range.1 ≤ high
        omega
      have neighbor : c.pending.lastAtMost high = some (pendingEntry committed top) := by
        rw [SortedMap.lastAtMost_of_forall_le c.pending high keys, tracks.pending_eq,
          List.getLast?_map, restShape, sameTop]
        rfl
      have reaches : low ≤ top.2 := by omega
      simp [overlapsBelow, neighbor, pendingEntry, reaches] at below

theorem Tracks.below_accepted (tracks : Tracks baseline c popped rest committed)
    (low high : Nat) (highBound : high ≤ u64Max)
    (accepted : c.registerRejection low high = none) :
    ∀ range ∈ popped ++ rest, range.2 < low := by
  intro range member
  cases isLast : (popped ++ rest).getLast? with
  | none =>
      rw [List.getLast?_eq_none_iff] at isLast
      rw [isLast] at member
      exact absurd member List.not_mem_nil
  | some top =>
      have successor := tracks.accepted_is_successor low high highBound accepted top isLast
      have bound := contiguous_high_le_last _ tracks.contiguous tracks.ordered top isLast
        range member
      omega

theorem Tracks.not_committed_of_accepted (tracks : Tracks baseline c popped rest committed)
    (low high : Nat) (highBound : high ≤ u64Max)
    (accepted : c.registerRejection low high = none) : committed (low, high) = false := by
  cases flag : committed (low, high) with
  | false => rfl
  | true =>
      have known := tracks.committed_registered _ flag
      have below := tracks.below_accepted low high highBound accepted _ known
      have ordered := low_le_high_of_valid low high
        (registerRejection_eq_none c low high accepted).1
      change high < low at below
      omega

theorem Tracks.absorbBaseline_of_registered (tracks : Tracks baseline c popped rest committed)
    (low : Nat) (some_registered : popped ++ rest ≠ []) : c.absorbBaseline low = c := by
  obtain ⟨range, tail, shape⟩ := List.exists_cons_of_ne_nil some_registered
  have fixed := (tracks.first range (by simp [shape])).1
  simp [absorbBaseline, fixed]

theorem Tracks.first_above_baseline (tracks : Tracks baseline c popped rest committed)
    (low high : Nat) (none_registered : popped ++ rest = [])
    (accepted : c.registerRejection low high = none) (b : Nat) (known : baseline = some b) :
    low = saturatingAdd b 1 := by
  have floor := (registerRejection_eq_none c low high accepted).2.1
  have noLast : c.lastRegisteredHigh = none := by
    rw [tracks.last, none_registered]
    rfl
  by_contra differs
  simp [belowBaseline, noLast, tracks.initial, known, differs] at floor

/-- Every accepted range is above a baseline that has a successor. -/
theorem Tracks.above_baseline (tracks : Tracks baseline c popped rest committed)
    (low high : Nat) (highBound : high ≤ u64Max)
    (accepted : c.registerRejection low high = none) (b : Nat) (known : baseline = some b)
    (small : b < u64Max) (floor : ∀ range ∈ popped ++ rest, b < range.1) : b < low := by
  cases ranges : popped ++ rest with
  | nil =>
      rw [tracks.first_above_baseline low high ranges accepted b known,
        saturatingAdd_of_le _ _ (by omega)]
      omega
  | cons head tail =>
      have member : head ∈ popped ++ rest := by simp [ranges]
      have above := floor head member
      have below := tracks.below_accepted low high highBound accepted head member
      have upright := tracks.ordered head member
      omega

theorem Tracks.absorbBaseline_start (tracks : Tracks baseline c popped rest committed)
    (low high : Nat) (lowBound : low ≤ u64Max) (none_registered : popped ++ rest = [])
    (accepted : c.registerRejection low high = none) :
    (c.absorbBaseline low).baselineFixed = true ∧
    low = (match (c.absorbBaseline low).effectiveBaseline with
      | some b => saturatingAdd b 1
      | none => 0) := by
  obtain ⟨effective, fixed⟩ := tracks.unregistered none_registered
  cases known : baseline with
  | some b =>
      have isFixed : c.baselineFixed = true := by rw [fixed, known]; rfl
      have lowEq := tracks.first_above_baseline low high none_registered accepted b known
      simp only [absorbBaseline, isFixed, if_true, effective, known]
      exact ⟨trivial, lowEq⟩
  | none =>
      have notFixed : c.baselineFixed = false := by rw [fixed, known]; rfl
      simp only [absorbBaseline, notFixed]
      refine ⟨rfl, ?_⟩
      by_cases zero : low = 0
      · simp [zero]
      · have exact_successor : saturatingAdd (low - 1) 1 = low := by
          rw [saturatingAdd_of_le _ _ (by omega)]
          omega
        simp [zero, exact_successor]

theorem Tracks.register (tracks : Tracks baseline c popped rest committed)
    (low high : Nat) (highBound : high ≤ u64Max)
    (accepted : c.registerRejection low high = none) :
    Tracks baseline ((c.absorbBaseline low).insertPending low high) popped
      (rest ++ [(low, high)]) committed := by
  have ordered := low_le_high_of_valid low high
    (registerRejection_eq_none c low high accepted).1
  have below := tracks.below_accepted low high highBound accepted
  have fresh := tracks.not_committed_of_accepted low high highBound accepted
  have keep : (c.absorbBaseline low).initialFrontierBaseline = c.initialFrontierBaseline ∧
      (c.absorbBaseline low).ackedFrontier = c.ackedFrontier ∧
      (c.absorbBaseline low).pending = c.pending := by
    unfold absorbBaseline
    split <;> exact ⟨rfl, rfl, rfl⟩
  obtain ⟨keepInitial, keepFrontier, keepPending⟩ := keep
  refine ⟨?_, ?_, ?_, ?_, ?_, ?_, ?_, tracks.popped_committed, ?_, ?_⟩
  · exact keepInitial.trans tracks.initial
  · intro range member
    rw [← List.append_assoc] at member
    rcases List.mem_append.mp member with old | new
    · exact tracks.bounded range old
    · have same : range = (low, high) := by simpa using new
      rw [same]
      exact ⟨ordered, highBound⟩
  · rw [← List.append_assoc]
    refine List.isChain_append.mpr ⟨tracks.contiguous, List.isChain_singleton _, ?_⟩
    intro top isLast new isNew
    have same : new = (low, high) := by simpa [eq_comm] using isNew
    rw [same]
    exact tracks.accepted_is_successor low high highBound accepted top isLast
  · intro none_registered
    simp at none_registered
  · intro range isFirst
    by_cases none_registered : popped ++ rest = []
    · have same : range = (low, high) := by
        rw [← List.append_assoc, none_registered] at isFirst
        simpa [eq_comm] using isFirst
      rw [same]
      exact tracks.absorbBaseline_start low high (by omega) none_registered accepted
    · rw [tracks.absorbBaseline_of_registered low none_registered]
      refine tracks.first range ?_
      obtain ⟨head, tail, shape⟩ := List.exists_cons_of_ne_nil none_registered
      rw [← List.append_assoc, shape] at isFirst
      rw [shape]
      simpa using isFirst
  · simp [insertPending, ← List.append_assoc]
  · exact keepFrontier.trans tracks.frontier_eq
  · intro range flag
    rw [← List.append_assoc]
    exact List.mem_append_left _ (tracks.committed_registered range flag)
  · have keys : ∀ entry ∈ c.pending.entries, entry.1 < low := by
      intro entry member
      rw [tracks.pending_eq] at member
      obtain ⟨range, rangeMember, rfl⟩ := List.mem_map.mp member
      have inList := List.mem_append_right popped rangeMember
      have under := below range inList
      have rangeOrdered := tracks.ordered range inList
      change range.1 < low
      omega
    change ((c.absorbBaseline low).pending.insert low ⟨low, high, false⟩).entries = _
    rw [keepPending, SortedMap.entries_insert_of_forall_lt _ _ _ keys, tracks.pending_eq]
    simp [pendingEntry, fresh]

/-! ## Commits -/

def addCommitted (committed : Range → Bool) (range : Range) : Range → Bool :=
  fun other => committed other || decide (other = range)

theorem markCommitted_ok (c c' : AckCoordinator) (low high : Nat)
    (marked : c.markCommitted low high = (c', .ok ())) :
    ∃ entry, c.pending.get? low = some entry ∧ entry.high = high ∧
      c' = { c with pending := c.pending.modify low setCommitted } := by
  unfold markCommitted at marked
  split at marked
  · simp at marked
  · rename_i entry found
    split at marked
    · simp at marked
    · rename_i sameHigh
      simp only [Prod.mk.injEq, and_true] at marked
      exact ⟨entry, found, not_not.mp sameHigh, marked.symm⟩

theorem Tracks.mem_of_get (tracks : Tracks baseline c popped rest committed)
    (low : Nat) (entry : PendingRange) (found : c.pending.get? low = some entry) :
    (low, entry.high) ∈ rest ∧ entry = (pendingEntry committed (low, entry.high)).2 := by
  have member := (SortedMap.get?_eq_some_iff c.pending low entry).mp found
  rw [tracks.pending_eq] at member
  obtain ⟨range, rangeMember, shape⟩ := List.mem_map.mp member
  obtain ⟨lowEq, entryEq⟩ := Prod.mk.inj shape
  have highEq : entry.high = range.2 := by rw [← entryEq]
  have same : (low, entry.high) = range := by rw [highEq, ← lowEq]
  rw [same]
  exact ⟨rangeMember, entryEq.symm⟩

theorem Tracks.low_injective (tracks : Tracks baseline c popped rest committed)
    (left right : Range) (leftMember : left ∈ popped ++ rest)
    (rightMember : right ∈ popped ++ rest) (sameLow : left.1 = right.1) : left = right := by
  have sorted := contiguous_pairwise _ tracks.contiguous tracks.ordered
  have leftOrdered := tracks.ordered left leftMember
  have rightOrdered := tracks.ordered right rightMember
  by_contra differ
  have apart : (popped ++ rest).Pairwise fun a b : Range => a.2 < b.1 ∨ b.2 < a.1 :=
    sorted.imp Or.inl
  have : Std.Symm fun a b : Range => a.2 < b.1 ∨ b.2 < a.1 := ⟨fun _ _ => Or.symm⟩
  rcases apart.forall leftMember rightMember differ with below | above <;> omega

theorem Tracks.mark (tracks : Tracks baseline c popped rest committed) (c' : AckCoordinator)
    (low high : Nat) (marked : c.markCommitted low high = (c', .ok ())) :
    (low, high) ∈ rest ∧ Tracks baseline c' popped rest (addCommitted committed (low, high)) := by
  obtain ⟨entry, found, rfl, rfl⟩ := markCommitted_ok c c' low high marked
  have member := (tracks.mem_of_get low entry found).1
  refine ⟨member, tracks.initial, tracks.bounded, tracks.contiguous, tracks.unregistered,
    tracks.first, tracks.last, tracks.frontier_eq, ?_, ?_, ?_⟩
  · intro range inPopped
    simp [addCommitted, tracks.popped_committed range inPopped]
  · intro range flag
    simp only [addCommitted, Bool.or_eq_true, decide_eq_true_eq] at flag
    rcases flag with old | new
    · exact tracks.committed_registered range old
    · rw [new]
      exact List.mem_append_right _ member
  · change c.pending.entries.map (SortedMap.modifyEntry low setCommitted) = _
    rw [tracks.pending_eq, List.map_map]
    refine List.map_congr_left ?_
    intro range inRest
    by_cases same : range.1 = low
    · have eq := tracks.low_injective range (low, entry.high)
        (List.mem_append_right _ inRest) (List.mem_append_right _ member) same
      simp [SortedMap.modifyEntry, pendingEntry, addCommitted, setCommitted, eq]
    · have differs : range ≠ (low, entry.high) := by
        intro eq
        exact same (by rw [eq])
      simp [SortedMap.modifyEntry, pendingEntry, addCommitted, same, differs]

/-- A registered range that is still pending can always be marked. -/
theorem Tracks.mark_succeeds (tracks : Tracks baseline c popped rest committed)
    (range : Range) (member : range ∈ rest) :
    ∃ c', c.markCommitted range.1 range.2 = (c', .ok ()) := by
  have found : c.pending.get? range.1 = some (pendingEntry committed range).2 := by
    rw [SortedMap.get?_eq_some_iff, tracks.pending_eq]
    exact List.mem_map.mpr ⟨range, member, rfl⟩
  refine ⟨{ c with pending := c.pending.modify range.1 setCommitted }, ?_⟩
  simp [markCommitted, found, pendingEntry]

/-! ## Advancing the frontier -/

theorem Tracks.expectedLow_eq {range : Range} {tail : List Range}
    (tracks : Tracks baseline c popped (range :: tail) committed) :
    c.expectedLow = range.1 := by
  cases isLast : popped.getLast? with
  | none =>
      have none_popped : popped = [] := List.getLast?_eq_none_iff.mp isLast
      have noFrontier : c.ackedFrontier = none := by
        rw [tracks.frontier_eq, isLast]
        rfl
      have start := (tracks.first range (by simp [none_popped])).2
      simp only [expectedLow, noFrontier]
      exact start.symm
  | some top =>
      have frontier : c.ackedFrontier = some top.2 := by
        rw [tracks.frontier_eq, isLast]
        rfl
      have successor : range.1 = top.2 + 1 :=
        (List.isChain_append.mp tracks.contiguous).2.2 top isLast range rfl
      have bound := tracks.bounded range (by simp)
      simp only [expectedLow, frontier]
      rw [saturatingAdd_of_le _ _ (by omega), successor]

theorem Tracks.pop {range : Range} {tail : List Range}
    (tracks : Tracks baseline c popped (range :: tail) committed)
    (flag : committed range = true) :
    Tracks baseline (c.popFrontier range.2) (popped ++ [range]) tail committed := by
  have regroup : (popped ++ [range]) ++ tail = popped ++ range :: tail := by simp
  refine ⟨tracks.initial, ?_, ?_, ?_, ?_, ?_, ?_, ?_, ?_, ?_⟩
  · rw [regroup]; exact tracks.bounded
  · rw [regroup]; exact tracks.contiguous
  · rw [regroup]; exact tracks.unregistered
  · rw [regroup]; exact tracks.first
  · rw [regroup]; exact tracks.last
  · simp [popFrontier]
  · intro other member
    rcases List.mem_append.mp member with old | new
    · exact tracks.popped_committed other old
    · have same : other = range := by simpa using new
      rw [same]
      exact flag
  · rw [regroup]; exact tracks.committed_registered
  · change c.pending.entries.tail = _
    rw [tracks.pending_eq]
    rfl

theorem Tracks.not_bailsOut (tracks : Tracks baseline c popped rest committed) :
    ¬ c.BailsOut := by
  rintro ⟨key, range, isFirst, _, differs⟩
  cases rest with
  | nil => simp [SortedMap.first?, tracks.pending_eq] at isFirst
  | cons head tail =>
      have shape : pendingEntry committed head = (key, range) := by
        simpa [SortedMap.first?, tracks.pending_eq] using isFirst
      have lowEq : range.low = head.1 := by
        rw [← (Prod.mk.inj shape).2]
      exact differs (lowEq.trans tracks.expectedLow_eq.symm)

/-- After any number of iterations the cut has moved over committed ranges only. -/
theorem Tracks.advanceLoop (tracks : Tracks baseline c popped rest committed) (fuel : Nat) :
    ∃ front back, rest = front ++ back ∧
      Tracks baseline (c.advanceLoop fuel) (popped ++ front) back committed ∧
      (rest.length ≤ fuel →
        front = rest.takeWhile committed ∧ back = rest.dropWhile committed) := by
  induction fuel generalizing c popped rest with
  | zero =>
      refine ⟨[], rest, rfl, by simpa [AckCoordinator.advanceLoop] using tracks, ?_⟩
      intro enough
      have noRest : rest = [] := List.length_eq_zero_iff.mp (by omega)
      simp [noRest]
  | succ fuel ih =>
      cases rest with
      | nil =>
          have noFirst : c.pending.first? = none := by
            simp [SortedMap.first?, tracks.pending_eq]
          exact ⟨[], [], rfl, by simpa [AckCoordinator.advanceLoop, noFirst] using tracks,
            fun _ => ⟨rfl, rfl⟩⟩
      | cons range tail =>
          have isFirst : c.pending.first? = some (pendingEntry committed range) := by
            simp [SortedMap.first?, tracks.pending_eq]
          cases flag : committed range with
          | false =>
              refine ⟨[], range :: tail, rfl, ?_, fun _ => by simp [flag]⟩
              simpa [AckCoordinator.advanceLoop, isFirst, pendingEntry, flag] using tracks
          | true =>
              obtain ⟨front, back, split, later, maximal⟩ := ih (tracks.pop flag)
              refine ⟨range :: front, back, by rw [split]; rfl, ?_, ?_⟩
              · have regroup : popped ++ range :: front = (popped ++ [range]) ++ front := by simp
                rw [regroup]
                simpa [AckCoordinator.advanceLoop, isFirst, pendingEntry, flag,
                  tracks.expectedLow_eq] using later
              · intro enough
                obtain ⟨frontEq, backEq⟩ := maximal (by simpa using enough)
                simp [flag, frontEq, backEq]

theorem Tracks.advance (tracks : Tracks baseline c popped rest committed) :
    Tracks baseline c.advanceFrontier (popped ++ rest.takeWhile committed)
      (rest.dropWhile committed) committed := by
  obtain ⟨front, back, _, moved, maximal⟩ := tracks.advanceLoop c.pending.size
  have enough : rest.length ≤ c.pending.size := by
    simp [SortedMap.size, tracks.pending_eq]
  obtain ⟨frontEq, backEq⟩ := maximal enough
  rw [frontEq, backEq] at moved
  cases fixed : c.baselineFixed with
  | true => simpa [advanceFrontier, fixed] using moved
  | false =>
      -- no range has been registered: the early return leaves nothing behind
      have noRest : rest = [] := by
        cases rest with
        | nil => rfl
        | cons range tail =>
            obtain ⟨head, remaining, shape⟩ :=
              List.exists_cons_of_ne_nil (l := popped ++ range :: tail) (by simp)
            have isFixed := (tracks.first head (by simp [shape])).1
            rw [fixed] at isFixed
            exact absurd isFixed (by simp)
      simpa [advanceFrontier, fixed, noRest] using tracks

end Register

end AckCoordinator

end OpendataIngest.Runtime
