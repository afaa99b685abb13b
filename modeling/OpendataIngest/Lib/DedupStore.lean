import Mathlib.Algebra.BigOperators.Group.Finset.Basic
import Mathlib.Algebra.Order.BigOperators.Group.Finset
import Mathlib.Algebra.GroupWithZero.Nat

/-!
# A store that ignores repeated tokens

Clients send inserts; the store handles each of them at most once, at any later time.
Handling an insert whose token is already applied changes nothing.  If no two different
inserts carry one token, what the table holds is a question of which inserts are applied,
however often and in whatever order they were sent.
-/

set_option autoImplicit false

namespace OpendataIngest

structure Insert (T X : Type) where
  token : Option T
  rows : List X
  deriving DecidableEq

/-- `requests` are all inserts ever sent, with whether the store has handled them;
`applied` are those whose rows it took over, oldest first. -/
structure DedupStore (T X : Type) where
  requests : List (Insert T X × Bool)
  applied : List (Insert T X)

namespace DedupStore

variable {T X : Type}

def empty : DedupStore T X := ⟨[], []⟩

def table (store : DedupStore T X) : List X := store.applied.flatMap Insert.rows

def send (store : DedupStore T X) (insert : Insert T X) : DedupStore T X :=
  { store with requests := store.requests ++ [(insert, false)] }

def request? (store : DedupStore T X) (id : Nat) : Option (Insert T X) :=
  store.requests[id]?.map Prod.fst

def isHandled (store : DedupStore T X) (id : Nat) : Bool :=
  match store.requests[id]? with
  | some (_, handled) => handled
  | none => false

variable [DecidableEq T]

/-- An insert without a token is never taken for a repetition. -/
def isRepeated (store : DedupStore T X) (insert : Insert T X) : Bool :=
  insert.token.isSome && store.applied.any fun earlier => earlier.token = insert.token

def handle (store : DedupStore T X) (id : Nat) : Option (DedupStore T X) :=
  match store.requests[id]? with
  | some (insert, false) =>
      some { requests := store.requests.set id (insert, true)
             applied := if store.isRepeated insert then store.applied
               else store.applied ++ [insert] }
  | _ => none

/-! ## Stores whose tokens name their inserts -/

omit [DecidableEq T] in
/-- Every insert of a catalog has a token, and no two share one. -/
structure Keyed (catalog : Insert T X → Prop) : Prop where
  tokened : ∀ insert, catalog insert → insert.token.isSome = true
  unique : ∀ left right, catalog left → catalog right → left.token = right.token → left = right

omit [DecidableEq T] in
structure Serves (catalog : Insert T X → Prop) (store : DedupStore T X) : Prop where
  sent : ∀ insert handled, (insert, handled) ∈ store.requests → catalog insert
  known : ∀ insert ∈ store.applied, catalog insert
  once : store.applied.Nodup
  handled : ∀ insert, (insert, true) ∈ store.requests → insert ∈ store.applied

variable {catalog : Insert T X → Prop} {store : DedupStore T X}

omit [DecidableEq T] in
theorem serves_empty : Serves catalog (empty : DedupStore T X) where
  sent := nofun
  known := nofun
  once := List.nodup_nil
  handled := nofun

omit [DecidableEq T] in
theorem Serves.send (serves : Serves catalog store) {insert : Insert T X}
    (listed : catalog insert) : Serves catalog (store.send insert) where
  sent other isHandled member := by
    rcases List.mem_append.mp member with old | new
    · exact serves.sent other isHandled old
    · cases List.mem_singleton.mp new
      exact listed
  known := serves.known
  once := serves.once
  handled other member := by
    rcases List.mem_append.mp member with old | new
    · exact serves.handled other old
    · cases List.mem_singleton.mp new

theorem isRepeated_iff (keyed : Keyed catalog) (serves : Serves catalog store)
    {insert : Insert T X} (listed : catalog insert) :
    store.isRepeated insert = true ↔ insert ∈ store.applied := by
  simp only [isRepeated, keyed.tokened insert listed, Bool.true_and, List.any_eq_true,
    decide_eq_true_iff]
  constructor
  · rintro ⟨earlier, member, sameToken⟩
    rw [← keyed.unique earlier insert (serves.known earlier member) listed sameToken]
    exact member
  · intro member
    exact ⟨insert, member, rfl⟩

theorem handle_eq_some {id : Nat} {after : DedupStore T X}
    (handled : store.handle id = some after) : ∃ insert,
      store.requests[id]? = some (insert, false) ∧
        after.requests = store.requests.set id (insert, true) ∧
        after.applied = if store.isRepeated insert then store.applied
          else store.applied ++ [insert] := by
  unfold handle at handled
  split at handled
  case h_1 insert pending =>
    cases handled
    exact ⟨insert, pending, rfl, rfl⟩
  case h_2 => cases handled

theorem handle_applied {id : Nat} {after : DedupStore T X}
    (handled : store.handle id = some after) {other : Insert T X}
    (member : other ∈ store.applied) : other ∈ after.applied := by
  obtain ⟨insert, _, _, applied⟩ := handle_eq_some handled
  rw [applied]
  split_ifs
  · exact member
  · exact List.mem_append_left _ member

theorem Serves.handle (keyed : Keyed catalog) (serves : Serves catalog store) {id : Nat}
    {after : DedupStore T X} (handled : store.handle id = some after) :
    Serves catalog after := by
  obtain ⟨insert, pending, requests, applied⟩ := handle_eq_some handled
  have listed := serves.sent insert false (List.mem_of_getElem? pending)
  have repeated := isRepeated_iff keyed serves listed
  have taken : ∀ other, other ∈ after.applied ↔ other ∈ store.applied ∨ other = insert := by
    intro other
    rw [applied]
    split_ifs with isRepeated
    · constructor
      · exact Or.inl
      · rintro (old | rfl)
        · exact old
        · exact repeated.mp isRepeated
    · rw [List.mem_append, List.mem_singleton]
  constructor
  · intro other isHandled member
    rw [requests] at member
    rcases List.mem_or_eq_of_mem_set member with old | new
    · exact serves.sent other isHandled old
    · cases new
      exact listed
  · intro other member
    rcases (taken other).mp member with old | rfl
    · exact serves.known other old
    · exact listed
  · rw [applied]
    split_ifs with isRepeated
    · exact serves.once
    · refine List.nodup_append.mpr ⟨serves.once, List.nodup_singleton _, ?_⟩
      rintro other old _ new rfl
      rw [List.mem_singleton.mp new] at old
      exact isRepeated (repeated.mpr old)
  · intro other member
    rw [requests] at member
    rcases List.mem_or_eq_of_mem_set member with old | new
    · exact (taken other).mpr (Or.inl (serves.handled other old))
    · cases new
      exact (taken insert).mpr (Or.inr rfl)

omit [DecidableEq T] in
/-- A handled request is applied. -/
theorem Serves.applied_of_isHandled (serves : Serves catalog store) {id : Nat}
    {insert : Insert T X} (sent : store.request? id = some insert)
    (isHandled : store.isHandled id = true) : insert ∈ store.applied := by
  obtain ⟨⟨_, handled⟩, present, rfl⟩ := Option.map_eq_some_iff.mp sent
  rw [DedupStore.isHandled, present] at isHandled
  cases isHandled
  exact serves.handled _ (List.mem_of_getElem? present)

omit [DecidableEq T] in
theorem request?_send_last (store : DedupStore T X) (insert : Insert T X) :
    (store.send insert).request? store.requests.length = some insert := by
  simp [request?, DedupStore.send]

omit [DecidableEq T] in
theorem request?_send {id : Nat} {earlier : Insert T X} (sent : store.request? id = some earlier)
    (insert : Insert T X) : (store.send insert).request? id = some earlier := by
  obtain ⟨request, present, rfl⟩ := Option.map_eq_some_iff.mp sent
  obtain ⟨inRange, _⟩ := List.getElem?_eq_some_iff.mp present
  rw [request?, DedupStore.send, List.getElem?_append_left inRange, present]
  rfl

theorem request?_handle {id other : Nat} {after : DedupStore T X}
    (handled : store.handle other = some after) {insert : Insert T X}
    (sent : store.request? id = some insert) : after.request? id = some insert := by
  obtain ⟨pendingInsert, pending, requests, _⟩ := handle_eq_some handled
  obtain ⟨request, present, rfl⟩ := Option.map_eq_some_iff.mp sent
  obtain ⟨inRange, _⟩ := List.getElem?_eq_some_iff.mp present
  rw [request?, requests]
  by_cases same : other = id
  · subst same
    rw [present] at pending
    cases pending
    rw [List.getElem?_set_self inRange]
    rfl
  · rw [List.getElem?_set_ne same, present]
    rfl

/-! ## Counting rows -/

omit [DecidableEq T] in
theorem countP_table (p : X → Bool) (store : DedupStore T X) :
    store.table.countP p = (store.applied.map fun insert => insert.rows.countP p).sum := by
  rw [table, List.countP_flatMap]
  rfl

section Counting

open Classical

variable {part : List (Insert T X)} {p : X → Bool}
  (once : store.applied.Nodup) (distinct : part.Nodup)
  (elsewhere : ∀ insert ∈ store.applied, insert ∉ part → insert.rows.countP p = 0)
include once distinct elsewhere

omit [DecidableEq T] in
/-- Rows that only the inserts of `part` can hold are at most as many as these hold. -/
theorem countP_table_le :
    store.table.countP p ≤ (part.map fun insert => insert.rows.countP p).sum := by
  rw [countP_table, ← List.sum_toFinset _ once, ← List.sum_toFinset _ distinct]
  calc ∑ insert ∈ store.applied.toFinset, insert.rows.countP p
      = ∑ insert ∈ store.applied.toFinset ∩ part.toFinset, insert.rows.countP p := by
        refine (Finset.sum_subset Finset.inter_subset_left ?_).symm
        intro insert member outside
        refine elsewhere insert (List.mem_toFinset.mp member) fun inPart => outside ?_
        exact Finset.mem_inter.mpr ⟨member, List.mem_toFinset.mpr inPart⟩
    _ ≤ ∑ insert ∈ part.toFinset, insert.rows.countP p :=
        Finset.sum_le_sum_of_subset Finset.inter_subset_right

omit [DecidableEq T] in
theorem countP_table_eq (landed : ∀ insert ∈ part, insert ∈ store.applied) :
    store.table.countP p = (part.map fun insert => insert.rows.countP p).sum := by
  rw [countP_table, ← List.sum_toFinset _ once, ← List.sum_toFinset _ distinct]
  refine (Finset.sum_subset ?_ ?_).symm
  · intro insert member
    exact List.mem_toFinset.mpr (landed insert (List.mem_toFinset.mp member))
  · intro insert member outside
    exact elsewhere insert (List.mem_toFinset.mp member)
      fun inPart => outside (List.mem_toFinset.mpr inPart)

end Counting

end DedupStore

end OpendataIngest
