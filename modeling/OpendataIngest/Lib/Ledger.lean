import Mathlib.Algebra.BigOperators.Group.List.Basic

/-!
# Ledgers

A register is shared by members.  It balances when what is read from it is the sum of the
members' shares; a member that joins or moves has to change the reading by its own share.
-/

set_option autoImplicit false

namespace OpendataIngest.Ledger

variable {M C G : Type} [AddCommGroup G] {reading : M → G} {share : C → G}

def Balanced (reading : M → G) (share : C → G) (register : M) (members : List C) : Prop :=
  reading register = (members.map share).sum

theorem sum_set (share : C → G) {members : List C} {i : Nat} {old new : C}
    (present : members[i]? = some old) :
    ((members.set i new).map share).sum + share old = (members.map share).sum + share new := by
  induction members generalizing i with
  | nil => cases present
  | cons head rest ih =>
      cases i with
      | zero =>
          cases present
          simp only [List.set_cons_zero, List.map_cons, List.sum_cons]
          rw [add_right_comm, add_comm (share new), add_right_comm]
      | succ i =>
          have later := ih (by simpa using present)
          simp only [List.set_cons_succ, List.map_cons, List.sum_cons]
          rw [add_assoc, later, add_assoc]

theorem Balanced.move {before after : M} {members : List C} {i : Nat} {old new : C}
    (balanced : Balanced reading share before members) (present : members[i]? = some old)
    (moved : reading after + share old = reading before + share new) :
    Balanced reading share after (members.set i new) := by
  have replaced : ((members.set i new).map share).sum + share old =
      (members.map share).sum + share new := sum_set share present
  unfold Balanced at balanced ⊢
  rw [balanced, ← replaced] at moved
  exact add_right_cancel moved

theorem Balanced.join {before after : M} {members : List C} {member : C}
    (balanced : Balanced reading share before members)
    (joined : reading after = reading before + share member) :
    Balanced reading share after (members ++ [member]) := by
  unfold Balanced at balanced ⊢
  rw [joined, balanced, List.map_append, List.sum_append, List.map_singleton, List.sum_singleton]

end OpendataIngest.Ledger
