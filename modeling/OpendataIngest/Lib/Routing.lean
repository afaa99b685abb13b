import Mathlib.Data.List.Basic

/-!
# Stores of independent components

A store keeps one component behind each key, and every operation is for one key.  Where an
operation does to its own component what the component alone would do, and leaves the
others as they are, an interleaving of operations is, at each key, the run of the
operations for that key.
-/

set_option autoImplicit false

namespace OpendataIngest.Routing

variable {S K C A B : Type}

/-- The operations of a store with what they answer, and those of its components. -/
structure Routed (S K C A B : Type) where
  look : S → K → C
  step : S → K → A → S × B
  stepAt : K → C → A → C × B
  stepped : ∀ s k a, look (step s k a).1 k = (stepAt k (look s k) a).1
  answered : ∀ s k a, (step s k a).2 = (stepAt k (look s k) a).2
  untouched : ∀ s k a other, other ≠ k → look (step s k a).1 other = look s other

namespace Routed

variable (r : Routed S K C A B)

def run : S → List (K × A) → S × List (K × B)
  | s, [] => (s, [])
  | s, (k, a) :: rest =>
      let next := r.step s k a
      let later := run next.1 rest
      (later.1, (k, next.2) :: later.2)

def runAt (k : K) : C → List A → C × List B
  | c, [] => (c, [])
  | c, a :: rest =>
      let next := r.stepAt k c a
      let later := runAt k next.1 rest
      (later.1, next.2 :: later.2)

end Routed

variable [DecidableEq K]

/-- What is tagged with the key. -/
def own {X : Type} (k : K) (tagged : List (K × X)) : List X :=
  (tagged.filter fun entry => entry.1 = k).map Prod.snd

theorem own_cons_same {X : Type} (k : K) (x : X) (rest : List (K × X)) :
    own k ((k, x) :: rest) = x :: own k rest := by
  simp [own]

theorem own_cons_other {X : Type} {k other : K} (differs : other ≠ k) (x : X)
    (rest : List (K × X)) : own k ((other, x) :: rest) = own k rest := by
  simp [own, differs]

theorem own_eq_nil {X : Type} {k : K} {tagged : List (K × X)} (silent : k ∉ tagged.map Prod.fst) :
    own k tagged = [] := by
  rw [own, List.map_eq_nil_iff, List.filter_eq_nil_iff]
  intro entry member
  simp only [decide_eq_true_eq]
  rintro rfl
  exact silent (List.mem_map_of_mem member)

/-- Components do not see each other's operations. -/
theorem Routed.run_own (r : Routed S K C A B) (k : K) (calls : List (K × A)) (s : S) :
    r.look (r.run s calls).1 k = (r.runAt k (r.look s k) (own k calls)).1 ∧
      own k (r.run s calls).2 = (r.runAt k (r.look s k) (own k calls)).2 := by
  induction calls generalizing s with
  | nil => exact ⟨rfl, rfl⟩
  | cons call rest ih =>
      obtain ⟨key, a⟩ := call
      obtain ⟨state, answers⟩ := ih (r.step s key a).1
      by_cases same : key = k
      · subst same
        rw [r.stepped s key a] at state answers
        rw [own_cons_same]
        refine ⟨state, ?_⟩
        simp only [Routed.run, Routed.runAt, own_cons_same, answers, r.answered s key a]
      · rw [r.untouched s key a k (Ne.symm same)] at state answers
        rw [own_cons_other same]
        refine ⟨state, ?_⟩
        simp only [Routed.run, own_cons_other same, answers]

end OpendataIngest.Routing
