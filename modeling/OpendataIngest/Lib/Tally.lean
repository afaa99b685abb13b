import OpendataIngest.Lib.SortedMap
import Mathlib.Algebra.BigOperators.Group.List.Basic
import Mathlib.Algebra.GroupWithZero.Nat

/-!
# Counters by key

A tally is an ordered map of counters.  A key without an entry counts zero, and its counter
is created by the first addition.
-/

set_option autoImplicit false

namespace OpendataIngest

abbrev Tally (K : Type) [LinearOrder K] : Type := SortedMap K Nat

namespace Tally

open SortedMap (Ascending insertEntry)

variable {K : Type} [LinearOrder K]

def count (t : Tally K) (key : K) : Nat := (t.get? key).getD 0

/-- The sum of all counters. -/
def total (t : Tally K) : Nat := (t.entries.map Prod.snd).sum

def add (t : Tally K) (key : K) (amount : Nat) : Tally K := t.insert key (count t key + amount)

/-- The amounts added in turn. -/
def addAll (t : Tally K) (amounts : List (K × Nat)) : Tally K :=
  amounts.foldl (fun t amount => add t amount.1 amount.2) t

/-- One for every occurrence of a key. -/
def ofKeys (keys : List K) : Tally K := keys.foldl (fun t key => add t key 1) SortedMap.empty

/-! ## One addition -/

theorem count_add (t : Tally K) (key : K) (amount : Nat) (other : K) :
    count (add t key amount) other = count t other + if other = key then amount else 0 := by
  unfold count add
  rw [SortedMap.get?_insert]
  split_ifs with same
  · rw [same]
    rfl
  · rfl

theorem total_insertEntry (key : K) (amount : Nat) (entries : List (K × Nat))
    (sorted : Ascending entries) :
    ((insertEntry key (count ⟨entries, sorted⟩ key + amount) entries).map Prod.snd).sum =
      (entries.map Prod.snd).sum + amount := by
  induction entries with
  | nil => simp [insertEntry, count, SortedMap.get?]
  | cons head rest ih =>
      obtain ⟨headLess, restSorted⟩ := List.pairwise_cons.mp sorted
      have later := ih restSorted
      simp only [count, SortedMap.get?] at later ⊢
      by_cases before : key < head.1
      · -- the key is below every entry, so it has no counter yet
        have absent : (head :: rest).find? (fun entry => entry.1 = key) = none := by
          refine List.find?_eq_none.mpr fun entry member => ?_
          rcases List.mem_cons.mp member with same | inRest
          · simpa [same] using ne_of_gt before
          · simpa using ne_of_gt (lt_trans before (headLess entry inRest))
        rw [absent]
        simp [insertEntry, before]
        omega
      · by_cases same : key = head.1
        · simp [insertEntry, same]
          omega
        · rw [List.find?_cons_of_neg (by simpa [eq_comm] using same)]
          simp only [insertEntry, if_neg before, if_neg same, List.map_cons, List.sum_cons, later]
          omega

theorem total_add (t : Tally K) (key : K) (amount : Nat) :
    total (add t key amount) = total t + amount :=
  total_insertEntry key amount t.entries t.ascending

/-! ## Additions in turn -/

theorem count_addAll (t : Tally K) (amounts : List (K × Nat)) (key : K) :
    count (addAll t amounts) key =
      count t key + ((amounts.filter fun amount => amount.1 = key).map Prod.snd).sum := by
  induction amounts generalizing t with
  | nil => rfl
  | cons amount rest ih =>
      calc count (addAll (add t amount.1 amount.2) rest) key
          = count (add t amount.1 amount.2) key +
              ((rest.filter fun amount => amount.1 = key).map Prod.snd).sum := ih _
        _ = count t key +
              (((amount :: rest).filter fun amount => amount.1 = key).map Prod.snd).sum := by
            rw [count_add]
            by_cases same : amount.1 = key
            · simp [same, Nat.add_assoc]
            · simp [same, Ne.symm same]

theorem total_addAll (t : Tally K) (amounts : List (K × Nat)) :
    total (addAll t amounts) = total t + (amounts.map Prod.snd).sum := by
  induction amounts generalizing t with
  | nil => rfl
  | cons amount rest ih =>
      calc total (addAll (add t amount.1 amount.2) rest)
          = total (add t amount.1 amount.2) + (rest.map Prod.snd).sum := ih _
        _ = total t + ((amount :: rest).map Prod.snd).sum := by
            rw [total_add, List.map_cons, List.sum_cons, Nat.add_assoc]

/-- The entry of a key is the only one. -/
theorem sum_entries_filter (t : Tally K) (key : K) :
    ((t.entries.filter fun entry => entry.1 = key).map Prod.snd).sum = count t key := by
  obtain ⟨entries, sorted⟩ := t
  unfold count SortedMap.get?
  dsimp only
  induction entries with
  | nil => rfl
  | cons head rest ih =>
      obtain ⟨headLess, restSorted⟩ := List.pairwise_cons.mp sorted
      by_cases same : head.1 = key
      · have others : rest.filter (fun entry => entry.1 = key) = [] := by
          refine List.filter_eq_nil_iff.mpr fun entry member => ?_
          simpa [← same] using ne_of_gt (headLess entry member)
        simp [same, others]
      · rw [List.filter_cons_of_neg (by simpa using same),
          List.find?_cons_of_neg (by simpa using same)]
        exact ih restSorted

theorem count_addAll_entries (t u : Tally K) (key : K) :
    count (addAll t u.entries) key = count t key + count u key := by
  rw [count_addAll, sum_entries_filter]

theorem total_addAll_entries (t u : Tally K) :
    total (addAll t u.entries) = total t + total u :=
  total_addAll t u.entries

/-! ## Occurrences -/

theorem count_foldl_add (t : Tally K) (keys : List K) (key : K) :
    count (keys.foldl (fun t key => add t key 1) t) key = count t key + keys.count key := by
  induction keys generalizing t with
  | nil => rfl
  | cons head rest ih =>
      rw [List.foldl_cons, ih, count_add, List.count_cons, Nat.add_assoc]
      by_cases same : head = key
      · simp [same, Nat.add_comm]
      · simp [same, Ne.symm same]

theorem total_foldl_add (t : Tally K) (keys : List K) :
    total (keys.foldl (fun t key => add t key 1) t) = total t + keys.length := by
  induction keys generalizing t with
  | nil => rfl
  | cons head rest ih =>
      rw [List.foldl_cons, ih, total_add, List.length_cons]
      omega

theorem count_ofKeys (keys : List K) (key : K) : count (ofKeys keys) key = keys.count key := by
  rw [ofKeys, count_foldl_add]
  exact Nat.zero_add _

theorem total_ofKeys (keys : List K) : total (ofKeys keys) = keys.length := by
  rw [ofKeys, total_foldl_add]
  exact Nat.zero_add _

end Tally

end OpendataIngest
