import Mathlib.Order.Defs.LinearOrder
import Mathlib.Data.List.Pairwise
import Mathlib.Data.List.Basic
import Mathlib.Order.Lattice

/-!
# Ordered maps as sorted association lists

The model of an ordered map: the entries in ascending key order.  The order is a
field of the structure, so an unsorted map cannot be built, and the operations
return it with their result.
-/

set_option autoImplicit false

namespace OpendataIngest.SortedMap

variable {K V : Type} [LinearOrder K]

def Ascending (entries : List (K × V)) : Prop :=
  entries.Pairwise fun left right => left.1 < right.1

end OpendataIngest.SortedMap

namespace OpendataIngest

open SortedMap (Ascending)

structure SortedMap (K V : Type) [LinearOrder K] where
  entries : List (K × V)
  ascending : Ascending entries
  deriving DecidableEq

namespace SortedMap

variable {K V : Type} [LinearOrder K]

def empty : SortedMap K V := ⟨[], List.Pairwise.nil⟩

def size (m : SortedMap K V) : Nat := m.entries.length

/-- The entry with the least key. -/
def first? (m : SortedMap K V) : Option (K × V) := m.entries.head?

def popFirst (m : SortedMap K V) : SortedMap K V :=
  ⟨m.entries.tail, m.ascending.sublist (List.tail_sublist m.entries)⟩

def get? (m : SortedMap K V) (key : K) : Option V :=
  (m.entries.find? fun entry => entry.1 = key).map Prod.snd

/-- The last entry whose key is at most `bound`. -/
def lastAtMost (m : SortedMap K V) (bound : K) : Option (K × V) :=
  (m.entries.filter fun entry => entry.1 ≤ bound).getLast?

/-- The first entry whose key is at least `bound`. -/
def firstAtLeast (m : SortedMap K V) (bound : K) : Option (K × V) :=
  m.entries.find? fun entry => bound ≤ entry.1

def insertEntry (key : K) (value : V) : List (K × V) → List (K × V)
  | [] => [(key, value)]
  | entry :: rest =>
      if key < entry.1 then (key, value) :: entry :: rest
      else if key = entry.1 then (key, value) :: rest
      else entry :: insertEntry key value rest

theorem mem_insertEntry {key : K} {value : V} {entry : K × V} :
    ∀ {entries : List (K × V)}, entry ∈ insertEntry key value entries →
      entry = (key, value) ∨ entry ∈ entries := by
  intro entries
  induction entries with
  | nil => intro member; simpa [insertEntry] using member
  | cons head rest ih =>
      intro member
      simp only [insertEntry] at member
      split at member
      · simpa using member
      · split at member
        · rcases List.mem_cons.mp member with new | old
          · exact Or.inl new
          · exact Or.inr (List.mem_cons_of_mem _ old)
        · rcases List.mem_cons.mp member with same | later
          · exact Or.inr (by simp [same])
          · exact (ih later).imp id (List.mem_cons_of_mem _)

theorem ascending_insertEntry (key : K) (value : V) :
    ∀ entries : List (K × V), Ascending entries →
      Ascending (insertEntry key value entries) := by
  intro entries
  induction entries with
  | nil => intro _; exact List.pairwise_singleton _ _
  | cons head rest ih =>
      intro sorted
      obtain ⟨headLess, restSorted⟩ := List.pairwise_cons.mp sorted
      simp only [insertEntry]
      split
      · rename_i before
        refine List.pairwise_cons.mpr ⟨?_, sorted⟩
        intro entry member
        rcases List.mem_cons.mp member with same | later
        · rw [same]; exact before
        · exact lt_trans before (headLess entry later)
      · split
        · rename_i same
          refine List.pairwise_cons.mpr ⟨?_, restSorted⟩
          intro entry member
          change key < entry.1
          rw [same]
          exact headLess entry member
        · rename_i notBefore notSame
          refine List.pairwise_cons.mpr ⟨?_, ih restSorted⟩
          intro entry member
          rcases mem_insertEntry member with new | old
          · rw [new]
            exact lt_of_le_of_ne (not_lt.mp notBefore) (Ne.symm notSame)
          · exact headLess entry old

def insert (m : SortedMap K V) (key : K) (value : V) : SortedMap K V :=
  ⟨insertEntry key value m.entries, ascending_insertEntry key value m.entries m.ascending⟩

def remove (m : SortedMap K V) (key : K) : SortedMap K V :=
  ⟨m.entries.filter fun entry => entry.1 ≠ key, m.ascending.sublist List.filter_sublist⟩

def modifyEntry (key : K) (change : V → V) (entry : K × V) : K × V :=
  if entry.1 = key then (entry.1, change entry.2) else entry

theorem modifyEntry_key (key : K) (change : V → V) (entry : K × V) :
    (modifyEntry key change entry).1 = entry.1 := by
  unfold modifyEntry
  split <;> rfl

/-- Replace the value stored under `key`, if any. -/
def modify (m : SortedMap K V) (key : K) (change : V → V) : SortedMap K V :=
  ⟨m.entries.map (modifyEntry key change), by
    refine List.pairwise_map.mpr (m.ascending.imp ?_)
    intro left right less
    simpa only [modifyEntry_key] using less⟩

theorem ext_entries {m n : SortedMap K V} (same : m.entries = n.entries) : m = n := by
  cases m
  cases n
  cases same
  rfl

/-! ## Lookups -/

theorem get?_eq_some_iff (m : SortedMap K V) (key : K) (value : V) :
    m.get? key = some value ↔ (key, value) ∈ m.entries := by
  obtain ⟨entries, sorted⟩ := m
  simp only [get?]
  induction entries with
  | nil => simp
  | cons head rest ih =>
      obtain ⟨headLess, restSorted⟩ := List.pairwise_cons.mp sorted
      by_cases same : head.1 = key
      · have absent : (key, value) ∉ rest := by
          intro member
          exact absurd (headLess _ member) (by simp [same])
        have shape : head = (key, head.2) := by rw [← same]
        rw [shape]
        simp [absent, eq_comm]
      · have differs : (key, value) ≠ head := by
          intro eq
          exact same (by rw [← eq])
        rw [List.find?_cons_of_neg (by simpa using same), ih restSorted]
        simp [differs]

@[simp] theorem get?_empty (key : K) : (empty : SortedMap K V).get? key = none := rfl

theorem mem_insertEntry_self (key : K) (value : V) :
    ∀ entries : List (K × V), (key, value) ∈ insertEntry key value entries := by
  intro entries
  induction entries with
  | nil => exact List.mem_singleton_self _
  | cons head rest ih =>
      simp only [insertEntry]
      split
      · exact List.mem_cons_self
      · split
        · exact List.mem_cons_self
        · exact List.mem_cons_of_mem head ih

theorem mem_insertEntry_of_ne (key : K) (value : V) {entry : K × V} (other : entry.1 ≠ key) :
    ∀ entries : List (K × V), entry ∈ entries → entry ∈ insertEntry key value entries := by
  intro entries
  induction entries with
  | nil => intro member; cases member
  | cons head rest ih =>
      intro member
      simp only [insertEntry]
      split
      · exact List.mem_cons_of_mem _ member
      · split
        · rename_i _ same
          rcases List.mem_cons.mp member with isHead | later
          · exact absurd (by rw [isHead, same]) other
          · exact List.mem_cons_of_mem _ later
        · rcases List.mem_cons.mp member with isHead | later
          · rw [isHead]
            exact List.mem_cons_self
          · exact List.mem_cons_of_mem _ (ih later)

/-- The law of insertion: the new value under its key, the old map elsewhere. -/
theorem get?_insert (m : SortedMap K V) (key : K) (value : V) (other : K) :
    (m.insert key value).get? other = if other = key then some value else m.get? other := by
  by_cases same : other = key
  · rw [if_pos same, get?_eq_some_iff, same]
    exact mem_insertEntry_self key value m.entries
  · rw [if_neg same]
    refine Option.ext fun found => ?_
    rw [get?_eq_some_iff, get?_eq_some_iff]
    constructor
    · intro member
      rcases mem_insertEntry member with new | old
      · exact absurd (congrArg Prod.fst new) same
      · exact old
    · exact mem_insertEntry_of_ne key value same m.entries

/-- The entries inserted in turn: a later one replaces an earlier one of its key. -/
def insertAll (m : SortedMap K V) (entries : List (K × V)) : SortedMap K V :=
  entries.foldl (fun m entry => m.insert entry.1 entry.2) m

theorem get?_insertAll_of_not_mem (m : SortedMap K V) (entries : List (K × V)) (key : K)
    (absent : key ∉ entries.map Prod.fst) : (m.insertAll entries).get? key = m.get? key := by
  induction entries generalizing m with
  | nil => rfl
  | cons entry rest ih =>
      rw [List.map_cons, List.mem_cons, not_or] at absent
      calc ((m.insert entry.1 entry.2).insertAll rest).get? key
          = (m.insert entry.1 entry.2).get? key := ih _ absent.2
        _ = m.get? key := by rw [get?_insert, if_neg absent.1]

/-- Entries with keys of their own are all found. -/
theorem get?_insertAll (m : SortedMap K V) (entries : List (K × V))
    (distinct : (entries.map Prod.fst).Nodup) {key : K} {value : V}
    (member : (key, value) ∈ entries) : (m.insertAll entries).get? key = some value := by
  induction entries generalizing m with
  | nil => cases member
  | cons entry rest ih =>
      obtain ⟨fresh, later⟩ := List.nodup_cons.mp distinct
      rcases List.mem_cons.mp member with same | inRest
      · cases same
        exact (get?_insertAll_of_not_mem _ rest key fresh).trans (by rw [get?_insert, if_pos rfl])
      · exact ih (m.insert entry.1 entry.2) later inRest

theorem modify_eq_self (m : SortedMap K V) (key : K) (change : V → V) (value : V)
    (found : m.get? key = some value) (fixed : change value = value) :
    m.modify key change = m := by
  have unchanged : ∀ entry ∈ m.entries, modifyEntry key change entry = id entry := by
    intro entry member
    by_cases same : entry.1 = key
    · have stored : m.get? key = some entry.2 := by
        rw [get?_eq_some_iff, ← same]
        exact member
      have valueEq : entry.2 = value := by
        rw [stored] at found
        exact Option.some.inj found
      simp [modifyEntry, same, valueEq, fixed, Prod.ext_iff]
    · simp [modifyEntry, same]
  refine ext_entries ?_
  change m.entries.map (modifyEntry key change) = m.entries
  rw [List.map_congr_left unchanged, List.map_id]

theorem lastAtMost_of_forall_le (m : SortedMap K V) (bound : K)
    (below : ∀ entry ∈ m.entries, entry.1 ≤ bound) :
    m.lastAtMost bound = m.entries.getLast? := by
  have all : m.entries.filter (fun entry => entry.1 ≤ bound) = m.entries :=
    List.filter_eq_self.mpr (by simpa using below)
  rw [lastAtMost, all]

theorem mem_of_lastAtMost (m : SortedMap K V) (bound : K) (entry : K × V)
    (found : m.lastAtMost bound = some entry) : entry ∈ m.entries :=
  (List.mem_filter.mp (List.mem_of_getLast? found)).1

theorem firstAtLeast_of_forall_lt (m : SortedMap K V) (bound : K)
    (below : ∀ entry ∈ m.entries, entry.1 < bound) : m.firstAtLeast bound = none := by
  refine List.find?_eq_none.mpr ?_
  intro entry member
  simpa using below entry member

/-! ## Insertion past the last key -/

theorem insertEntry_of_forall_lt (key : K) (value : V) :
    ∀ entries : List (K × V), (∀ entry ∈ entries, entry.1 < key) →
      insertEntry key value entries = entries ++ [(key, value)] := by
  intro entries
  induction entries with
  | nil => intro _; rfl
  | cons head rest ih =>
      intro below
      have headBelow := below head (List.mem_cons_self ..)
      have restBelow : ∀ entry ∈ rest, entry.1 < key :=
        fun entry member => below entry (List.mem_cons_of_mem _ member)
      simp only [insertEntry, if_neg (not_lt_of_gt headBelow), if_neg (ne_of_gt headBelow),
        ih restBelow, List.cons_append]

/-- Lookup in the list of the entries. -/
theorem lookup_entries [BEq K] [LawfulBEq K] (m : SortedMap K V) (key : K) :
    m.entries.lookup key = m.get? key := by
  rw [get?]
  induction m.entries with
  | nil => rfl
  | cons entry rest ih =>
      by_cases same : entry.1 = key
      · rw [List.find?_cons_of_pos (by simpa using same), List.lookup_cons, ← same,
          beq_self_eq_true]
        rfl
      · have differs : (key == entry.1) = false := beq_eq_false_iff_ne.mpr (Ne.symm same)
        rw [List.find?_cons_of_neg (by simpa using same), List.lookup_cons, differs, ih]

theorem entries_insert_of_forall_lt (m : SortedMap K V) (key : K) (value : V)
    (below : ∀ entry ∈ m.entries, entry.1 < key) :
    (m.insert key value).entries = m.entries ++ [(key, value)] :=
  insertEntry_of_forall_lt key value m.entries below

theorem entries_insertAll (m : SortedMap K V) (entries : List (K × V))
    (sorted : Ascending (m.entries ++ entries)) :
    (m.insertAll entries).entries = m.entries ++ entries := by
  induction entries generalizing m with
  | nil => exact (List.append_nil _).symm
  | cons entry rest ih =>
      have below : ∀ earlier ∈ m.entries, earlier.1 < entry.1 := fun earlier member =>
        (List.pairwise_append.mp sorted).2.2 earlier member entry List.mem_cons_self
      have inserted := entries_insert_of_forall_lt m entry.1 entry.2 below
      have shape : m.entries ++ entry :: rest = (m.insert entry.1 entry.2).entries ++ rest := by
        rw [inserted, List.append_assoc, List.singleton_append]
      rw [shape] at sorted ⊢
      exact ih (m.insert entry.1 entry.2) sorted

end SortedMap

end OpendataIngest
