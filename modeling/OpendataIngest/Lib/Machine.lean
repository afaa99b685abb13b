import Mathlib.Data.List.Basic

/-!
# Labelled transition machines

A machine has one start state and a partial step function: an action is either
refused in a state or leads to one successor.  All nondeterminism is in the choice
of the action, so a run is the list of its actions.
-/

set_option autoImplicit false

namespace OpendataIngest

structure Machine (S A : Type) where
  start : S
  step : S → A → Option S

namespace Machine

variable {S A : Type}

def runFrom (m : Machine S A) : S → List A → Option S
  | s, [] => some s
  | s, a :: rest => (m.step s a).bind fun next => runFrom m next rest

def run (m : Machine S A) (actions : List A) : Option S := m.runFrom m.start actions

inductive Reachable (m : Machine S A) : S → Prop where
  | start : Reachable m m.start
  | step {s s' : S} (a : A) : Reachable m s → m.step s a = some s' → Reachable m s'

theorem runFrom_append (m : Machine S A) (s : S) (first second : List A) :
    m.runFrom s (first ++ second) =
      (m.runFrom s first).bind fun next => m.runFrom next second := by
  induction first generalizing s with
  | nil => rfl
  | cons a rest ih =>
      cases taken : m.step s a with
      | none => simp [runFrom, taken]
      | some next => simp [runFrom, taken, ih]

theorem runFrom_reachable (m : Machine S A) (actions : List A) (s s' : S)
    (reachable : m.Reachable s) (ran : m.runFrom s actions = some s') : m.Reachable s' := by
  induction actions generalizing s with
  | nil =>
      have same : s = s' := by simpa [runFrom] using ran
      rw [← same]
      exact reachable
  | cons a rest ih =>
      obtain ⟨next, taken, later⟩ := Option.bind_eq_some_iff.mp ran
      exact ih next (.step a reachable taken) later

theorem run_reachable (m : Machine S A) (actions : List A) (s : S)
    (ran : m.run actions = some s) : m.Reachable s :=
  m.runFrom_reachable actions m.start s .start ran

/-- The last action of a run was taken in the state the run without it reaches. -/
theorem run_snoc (m : Machine S A) (actions : List A) (a : A) (s' : S)
    (ran : m.run (actions ++ [a]) = some s') :
    ∃ s, m.run actions = some s ∧ m.step s a = some s' := by
  rw [run, runFrom_append] at ran
  obtain ⟨s, before, last⟩ := Option.bind_eq_some_iff.mp ran
  refine ⟨s, before, ?_⟩
  simpa [runFrom] using last

/-- A property of the start state that every step from a reachable state keeps
holds in every reachable state. -/
theorem Reachable.invariant {m : Machine S A} {P : S → Prop} (initial : P m.start)
    (preserved : ∀ s a s', m.Reachable s → P s → m.step s a = some s' → P s')
    {s : S} (reachable : m.Reachable s) : P s := by
  induction reachable with
  | start => exact initial
  | step a before taken ih => exact preserved _ a _ before ih taken

/-! ## Restricted machines -/

/-- The machine that refuses every action that is not allowed in the state it is taken
in. -/
def restrict (m : Machine S A) (allowed : S → A → Bool) : Machine S A where
  start := m.start
  step s a := if allowed s a then m.step s a else none

theorem restrict_step {m : Machine S A} {allowed : S → A → Bool} {s s' : S} {a : A} :
    (m.restrict allowed).step s a = some s' ↔ allowed s a = true ∧ m.step s a = some s' := by
  simp only [restrict]
  split_ifs with isAllowed
  · simp [isAllowed]
  · simp [isAllowed]

theorem Reachable.unrestricted {m : Machine S A} {allowed : S → A → Bool} {s : S}
    (reachable : (m.restrict allowed).Reachable s) : m.Reachable s := by
  induction reachable with
  | start => exact .start
  | step a _ taken ih => exact .step a ih (restrict_step.mp taken).2

/-! ## Traced machines -/

/-- The machine with the log of what was observed at its steps. -/
def traced {E : Type} (m : Machine S A) (observe : A → S → List E) : Machine (S × List E) A where
  start := (m.start, [])
  step s a := (m.step s.1 a).map fun next => (next, s.2 ++ observe a next)

theorem traced_step {E : Type} {m : Machine S A} {observe : A → S → List E}
    {s s' : S × List E} {a : A} : (m.traced observe).step s a = some s' ↔
      m.step s.1 a = some s'.1 ∧ s'.2 = s.2 ++ observe a s'.1 := by
  obtain ⟨next, log⟩ := s'
  simp only [traced, Option.map_eq_some_iff, Prod.mk.injEq]
  constructor
  · rintro ⟨_, taken, rfl, rfl⟩
    exact ⟨taken, rfl⟩
  · rintro ⟨taken, rfl⟩
    exact ⟨next, taken, rfl, rfl⟩

theorem Reachable.untraced {E : Type} {m : Machine S A} {observe : A → S → List E}
    {s : S × List E} (reachable : (m.traced observe).Reachable s) : m.Reachable s.1 := by
  induction reachable with
  | start => exact .start
  | step a _ taken ih => exact .step a ih (traced_step.mp taken).1

/-! ## Where a run can go -/

/-- Some run from the state ends in the goal. -/
def CanReach (m : Machine S A) (goal : S → Prop) (s : S) : Prop :=
  ∃ actions s', m.runFrom s actions = some s' ∧ goal s'

theorem CanReach.cons {m : Machine S A} {goal : S → Prop} {s s' : S} {a : A}
    (taken : m.step s a = some s') (later : m.CanReach goal s') : m.CanReach goal s := by
  obtain ⟨actions, last, ran, reached⟩ := later
  refine ⟨a :: actions, last, ?_, reached⟩
  rw [runFrom, taken]
  exact ran

theorem CanReach.trans {m : Machine S A} {middle goal : S → Prop} {s : S}
    (first : m.CanReach middle s) (second : ∀ s, middle s → m.CanReach goal s) :
    m.CanReach goal s := by
  obtain ⟨front, s₁, ranFront, reached⟩ := first
  obtain ⟨back, s₂, ranBack, isGoal⟩ := second s₁ reached
  refine ⟨front ++ back, s₂, ?_, isGoal⟩
  rw [runFrom_append, ranFront]
  exact ranBack

/-- Where every state that is not in the goal has a step to a state of smaller rank, the
goal can be reached. -/
theorem canReach_of_rank {m : Machine S A} {P goal : S → Prop} (rank : S → Nat)
    (descends : ∀ s, P s → goal s ∨ ∃ a s', m.step s a = some s' ∧ P s' ∧ rank s' < rank s)
    (s : S) (holds : P s) : m.CanReach goal s := by
  induction bound : rank s using Nat.strongRecOn generalizing s with
  | _ n ih =>
      rcases descends s holds with reached | ⟨a, s', taken, holds', smaller⟩
      · exact ⟨[], s, rfl, reached⟩
      · obtain ⟨actions, last, ran, reached⟩ := ih (rank s') (bound ▸ smaller) s' holds' rfl
        refine ⟨a :: actions, last, ?_, reached⟩
        rw [runFrom, taken]
        exact ran

/-! ## Runs that wear out -/

/-- Every step from a state with `P` keeps `P` and lowers the rank; the idle actions need only
not raise it. -/
structure Exhausts (m : Machine S A) (P : S → Prop) (rank : S → Nat) (idle : A → Bool) :
    Prop where
  kept : ∀ s a s', P s → m.step s a = some s' → P s'
  lowers : ∀ s a s', P s → m.step s a = some s' → idle a = false → rank s' < rank s
  rests : ∀ s a s', P s → m.step s a = some s' → idle a = true → rank s' ≤ rank s

/-- Such a run has no more steps than the rank of its first state, the idle ones apart. -/
theorem Exhausts.run {m : Machine S A} {P : S → Prop} {rank : S → Nat} {idle : A → Bool}
    (exhausts : m.Exhausts P rank idle) (actions : List A) {s s' : S} (holds : P s)
    (ran : m.runFrom s actions = some s') :
    P s' ∧ (actions.countP fun a => !idle a) + rank s' ≤ rank s := by
  induction actions generalizing s with
  | nil =>
      cases ran
      simp [holds]
  | cons a rest ih =>
      obtain ⟨next, taken, later⟩ := Option.bind_eq_some_iff.mp ran
      obtain ⟨holds', bound⟩ := ih (exhausts.kept s a next holds taken) later
      refine ⟨holds', ?_⟩
      rw [List.countP_cons]
      cases isIdle : idle a with
      | true =>
          have rests := exhausts.rests s a next holds taken isIdle
          simp only [Bool.not_true, Bool.false_eq_true, if_false]
          omega
      | false =>
          have lowers := exhausts.lowers s a next holds taken isIdle
          simp only [Bool.not_false, if_true]
          omega

end Machine

end OpendataIngest
