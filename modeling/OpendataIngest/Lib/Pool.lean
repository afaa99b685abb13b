import Mathlib.Algebra.BigOperators.Group.List.Basic
import Mathlib.Algebra.Order.BigOperators.Group.List
import Mathlib.Algebra.Order.Group.Nat
import Mathlib.Algebra.GroupWithZero.Nat

/-!
# Weighing lists

The conservation arguments all have one shape: a quantity is the sum of a weight
over the members of several lists, and a step replaces one member of one list.
-/

set_option autoImplicit false

namespace OpendataIngest.Pool

variable {A : Type}

def total (weight : A → Nat) (items : List A) : Nat := (items.map weight).sum

@[simp] theorem total_nil (weight : A → Nat) : total weight [] = 0 := rfl

@[simp] theorem total_cons (weight : A → Nat) (item : A) (rest : List A) :
    total weight (item :: rest) = weight item + total weight rest := by
  simp [total]

@[simp] theorem total_append (weight : A → Nat) (front back : List A) :
    total weight (front ++ back) = total weight front + total weight back := by
  simp [total]

theorem total_map {B : Type} (weight : B → Nat) (f : A → B) (items : List A) :
    total weight (items.map f) = total (fun item => weight (f item)) items := by
  simp [total, Function.comp_def]

theorem total_set (weight : A → Nat) (items : List A) (i : Nat) (old new : A)
    (present : items[i]? = some old) :
    total weight (items.set i new) + weight old = total weight items + weight new := by
  induction items generalizing i with
  | nil => simp at present
  | cons head rest ih =>
      cases i with
      | zero =>
          have same : head = old := by simpa using present
          simp only [List.set_cons_zero, total_cons, same]
          omega
      | succ i =>
          have replaced := ih i (by simpa using present)
          simp only [List.set_cons_succ, total_cons]
          omega

/-- What has replaced a member stands in its place. -/
theorem present_set {items : List A} {i : Nat} {old : A} (present : items[i]? = some old)
    (new : A) : (items.set i new)[i]? = some new :=
  List.getElem?_set_self (List.getElem?_eq_some_iff.mp present).1

theorem weight_le_total (weight : A → Nat) (items : List A) (item : A) (member : item ∈ items) :
    weight item ≤ total weight items :=
  List.single_le_sum (by simp) _ (List.mem_map_of_mem member)

theorem total_congr (left right : A → Nat) (items : List A)
    (same : ∀ item ∈ items, left item = right item) : total left items = total right items := by
  rw [total, total, List.map_congr_left same]

theorem total_eq_zero (weight : A → Nat) (items : List A)
    (none : ∀ item ∈ items, weight item = 0) : total weight items = 0 := by
  rw [total_congr weight (fun _ => 0) items none]
  simp [total]

theorem exists_of_total_pos (weight : A → Nat) (items : List A)
    (positive : 0 < total weight items) : ∃ item ∈ items, 0 < weight item := by
  by_contra absent
  have none : total weight items = 0 := by
    refine total_eq_zero _ _ fun item member => Nat.eq_zero_of_not_pos fun present => ?_
    exact absent ⟨item, member, present⟩
  omega

theorem total_le_total (left right : A → Nat) (items : List A)
    (below : ∀ item ∈ items, left item ≤ right item) : total left items ≤ total right items :=
  List.sum_le_sum below

theorem total_le_scaled (left right : A → Nat) (c : Nat) (items : List A)
    (below : ∀ item, left item ≤ c * right item + 1) :
    total left items ≤ c * total right items + items.length := by
  induction items with
  | nil => exact Nat.zero_le _
  | cons head rest ih =>
      have first := below head
      simp only [total_cons, List.length_cons, Nat.mul_add]
      omega

theorem total_flatMap {B : Type} (weight : B → Nat) (f : A → List B) (items : List A) :
    total weight (items.flatMap f) = total (fun item => total weight (f item)) items := by
  induction items with
  | nil => rfl
  | cons head rest ih => simp [ih]

theorem total_comm {B : Type} (weight : A → B → Nat) (items : List A) (others : List B) :
    total (fun item => total (weight item) others) items =
      total (fun other => total (fun item => weight item other) items) others := by
  induction items with
  | nil => exact (total_eq_zero _ others fun _ _ => rfl).symm
  | cons head rest ih =>
      simp only [total_cons, ih]
      simp [total]

/-- Each item of a list without repetitions is weighed once. -/
theorem total_single [DecidableEq A] {items : List A} (nodup : items.Nodup) {item : A}
    (member : item ∈ items) (n : Nat) :
    total (fun other => if item = other then n else 0) items = n := by
  induction items with
  | nil => cases member
  | cons head rest ih =>
      obtain ⟨absent, nodup⟩ := List.nodup_cons.mp nodup
      rw [total_cons]
      rcases List.mem_cons.mp member with rfl | later
      · rw [if_pos rfl, total_eq_zero _ _ fun other isLater => if_neg ?_, Nat.add_zero]
        rintro rfl
        exact absent isLater
      · have differs : item ≠ head := fun same => absent (same ▸ later)
        rw [if_neg differs, ih nodup later, Nat.zero_add]

/-! ## Exchanging members between lists -/

/-- `after` is `before` with the members `old` taken out and the members `new` put in,
in some order. -/
def Exchange (before after old new : List A) : Prop :=
  ∀ weight : A → Nat, total weight after + total weight old =
    total weight before + total weight new

namespace Exchange

variable {before after old new : List A}

theorem refl (items : List A) : Exchange items items [] [] := by
  intro weight
  rfl

theorem mem_or_mem (exchange : Exchange before after old new) (item : A)
    (member : item ∈ after) : item ∈ before ∨ item ∈ new := by
  classical
  have weights := exchange fun other => if other = item then 1 else 0
  have present := weight_le_total (fun other => if other = item then 1 else 0) after item member
  by_contra absent
  rw [not_or] at absent
  have notBefore : total (fun other => if other = item then 1 else 0) before = 0 := by
    refine total_eq_zero _ _ fun other isMember => if_neg ?_
    intro same
    exact absent.1 (same ▸ isMember)
  have notNew : total (fun other => if other = item then 1 else 0) new = 0 := by
    refine total_eq_zero _ _ fun other isMember => if_neg ?_
    intro same
    exact absent.2 (same ▸ isMember)
  simp only [if_true] at present
  omega

end Exchange

end OpendataIngest.Pool
