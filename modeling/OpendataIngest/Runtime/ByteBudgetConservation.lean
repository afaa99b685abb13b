import OpendataIngest.Runtime.ByteBudgetAtomic
import Mathlib.Algebra.BigOperators.Group.Finset.Piecewise
import Mathlib.Algebra.BigOperators.ModEq

/-!
# Conservation of the byte counters

Each agent has a share of every counter, also in the middle of an operation: the
bytes it has added and not yet taken back.  A step changes one agent's share of a
counter by exactly what it adds to the counter, modulo `2 ^ 64`.  Between
operations the share is the reservation's `held`.
-/

set_option autoImplicit false

namespace OpendataIngest.Runtime.AtomicBudget

open MachineInt Pool

variable {T : Type} [DecidableEq T]

/-! ## Shares -/

/-- The part of `in_flight` this agent accounts for. -/
def Agent.budgetShare : Agent T → Nat
  | .owned _ (.reconcileStage _ actual) => actual
  | .owned _ .dropNotify => 0
  | .owned r _ => r.held
  | _ => 0

def stageHeld (attached : Option T) (stage : T) (held : Nat) : Nat :=
  if attached = some stage then held else 0

/-- The part of a stage's counter this agent accounts for. -/
def Agent.stageShare (stage : T) : Agent T → Nat
  | .owned r (.detach previous _) => stageHeld (some previous) stage r.held
  | .owned r (.dropStage previous) => stageHeld (some previous) stage r.held
  | .owned _ (.attach _) => 0
  | .owned _ .dropBudget => 0
  | .owned _ .dropNotify => 0
  | .owned r _ => stageHeld r.stage stage r.held
  | _ => 0

/-- What the program points of an agent imply about its data. -/
def Agent.WellFormed : Agent T → Prop
  | .reserving bytes _ => bytes ≤ u64Max
  | .trying bytes .entry => bytes ≤ u64Max
  | .trying bytes (.exchange current next) => next = current + bytes ∧ next ≤ u64Max
  | .owned r (.reconcileBudget actual) => r.held ≤ u64Max ∧ actual ≤ u64Max
  | .owned r (.reconcileStage stage actual) =>
      r.held ≤ u64Max ∧ actual ≤ u64Max ∧ r.stage = some stage
  | .owned r _ => r.held ≤ u64Max
  | .finished => True

structure Counters.Valid (k : Counters T) : Prop where
  inFlight_lt : k.inFlight < 2 ^ 64
  stage_lt : ∀ stage, k.stage stage < 2 ^ 64

/-- A step from `(k, a)` to `(k', a')` moves every counter by the agent's change of
share. -/
structure Balanced (k k' : Counters T) (a a' : Agent T) : Prop where
  inFlight : (k'.inFlight + a.budgetShare) % 2 ^ 64 = (k.inFlight + a'.budgetShare) % 2 ^ 64
  stage : ∀ stage, (k'.stage stage + a.stageShare stage) % 2 ^ 64 =
    (k.stage stage + a'.stageShare stage) % 2 ^ 64

/-! ## What one atomic operation does to the counters -/

omit [DecidableEq T] in
theorem addInFlight_valid {k : Counters T} (valid : Counters.Valid k) (bytes : Nat) :
    Counters.Valid (k.addInFlight bytes) :=
  ⟨wrap64_lt _, valid.stage_lt⟩

omit [DecidableEq T] in
theorem subInFlight_valid {k : Counters T} (valid : Counters.Valid k) (bytes : Nat) :
    Counters.Valid (k.subInFlight bytes) :=
  ⟨wrap64_lt _, valid.stage_lt⟩

theorem addStage_stage (k : Counters T) (moved stage : T) (bytes : Nat) :
    (k.addStage moved bytes).stage stage =
      if stage = moved then wrappingAdd (k.stage moved) bytes else k.stage stage := by
  simp only [Counters.addStage, Function.update_apply]

theorem subStage_stage (k : Counters T) (moved stage : T) (bytes : Nat) :
    (k.subStage moved bytes).stage stage =
      if stage = moved then wrappingSub (k.stage moved) bytes else k.stage stage := by
  simp only [Counters.subStage, Function.update_apply]

theorem addStage_valid {k : Counters T} (valid : Counters.Valid k) (moved : T) (bytes : Nat) :
    Counters.Valid (k.addStage moved bytes) := by
  refine ⟨valid.inFlight_lt, ?_⟩
  intro stage
  rw [addStage_stage]
  split
  · exact wrap64_lt _
  · exact valid.stage_lt stage

theorem subStage_valid {k : Counters T} (valid : Counters.Valid k) (moved : T) (bytes : Nat) :
    Counters.Valid (k.subStage moved bytes) := by
  refine ⟨valid.inFlight_lt, ?_⟩
  intro stage
  rw [subStage_stage]
  split
  · exact wrap64_lt _
  · exact valid.stage_lt stage

theorem stageHeld_some (moved stage : T) (bytes : Nat) :
    stageHeld (some moved) stage bytes = if stage = moved then bytes else 0 := by
  simp only [stageHeld, Option.some.injEq, eq_comm]

/-- Adding to one stage raises exactly that stage's counter. -/
theorem addStage_modEq (k : Counters T) (moved stage : T) (bytes : Nat) :
    ((k.addStage moved bytes).stage stage) % 2 ^ 64 =
      (k.stage stage + stageHeld (some moved) stage bytes) % 2 ^ 64 := by
  rw [addStage_stage, stageHeld_some]
  by_cases same : stage = moved
  · subst same
    simp only [if_true, wrappingAdd, wrap64]
    omega
  · simp only [if_neg same]
    omega

theorem subStage_modEq (k : Counters T) (moved stage : T) (bytes : Nat)
    (small : bytes ≤ u64Max) :
    ((k.subStage moved bytes).stage stage + stageHeld (some moved) stage bytes) % 2 ^ 64 =
      k.stage stage % 2 ^ 64 := by
  rw [subStage_stage, stageHeld_some]
  unfold u64Max at small
  by_cases same : stage = moved
  · subst same
    simp only [if_true, wrappingSub, wrap64]
    omega
  · simp only [if_neg same]
    omega

/-! ## What one agent's step does -/

/-- A step keeps the cells 64 bits wide and the agent well formed, and moves every
counter by the agent's change of share. -/
structure StepBalanced (k k' : Counters T) (a a' : Agent T) : Prop where
  valid : Counters.Valid k'
  wellFormed : a'.WellFormed
  balanced : Balanced k k' a a'

theorem stepBalanced_of_unchanged {k : Counters T} {a a' : Agent T} (valid : Counters.Valid k)
    (wellFormed : a'.WellFormed) (sameBudget : a'.budgetShare = a.budgetShare)
    (sameStage : ∀ stage, a'.stageShare stage = a.stageShare stage) :
    StepBalanced k k a a' := by
  refine ⟨valid, wellFormed, ?_, ?_⟩
  · rw [sameBudget]
  · intro stage
    rw [sameStage]

theorem advanceReserve_balanced {capacity : Nat} {k k' : Counters T} {bytes : Nat}
    {point : ReservePoint} {a' : Agent T} (valid : Counters.Valid k) (small : bytes ≤ u64Max)
    (moved : advanceReserve capacity k bytes point = some (a', k')) :
    StepBalanced k k' (.reserving bytes point) a' := by
  cases reserveStep_of_advanceReserve moved with
  | empty zero =>
      refine stepBalanced_of_unchanged valid (Nat.zero_le _) rfl ?_
      intro stage
      simp [Agent.stageShare, stageHeld]
  | exchanges notified =>
      refine ⟨⟨wrap64_lt _, valid.stage_lt⟩, small, ?_, ?_⟩
      · simp only [Agent.budgetShare, wrappingAdd, wrap64]
        omega
      · intro stage
        simp [Agent.stageShare, stageHeld]
  | arms | reads | full | loses | wakes =>
      exact stepBalanced_of_unchanged valid small rfl fun _ => rfl

theorem advanceTry_balanced {capacity : Nat} {k : Counters T} {bytes : Nat} {point : TryPoint}
    (valid : Counters.Valid k) (wellFormed : (Agent.trying bytes point : Agent T).WellFormed) :
    StepBalanced k (advanceTry capacity k bytes point).2 (.trying bytes point)
      (advanceTry capacity k bytes point).1 := by
  generalize outcome : advanceTry capacity k bytes point = moved
  obtain ⟨next, cells⟩ := moved
  cases tryStep_of_advanceTry outcome with
  | empty zero =>
      refine stepBalanced_of_unchanged valid (Nat.zero_le _) rfl ?_
      intro stage
      simp [Agent.stageShare, stageHeld]
  | reads next nonzero added fits =>
      have sum : next = k.inFlight + bytes ∧ next ≤ u64Max := by
        simp only [checkedAdd] at added
        split at added
        · cases added
          exact ⟨rfl, by assumption⟩
        · cases added
      exact stepBalanced_of_unchanged valid sum rfl fun _ => rfl
  | exchanges next =>
      obtain ⟨sum, fits⟩ := wellFormed
      have width : u64Max < 2 ^ 64 := by decide
      refine ⟨⟨by simp only; omega, valid.stage_lt⟩, ?_, ?_, ?_⟩
      · simp only [Agent.WellFormed]
        omega
      · simp only [Agent.budgetShare, sum]
        omega
      · intro stage
        simp [Agent.stageShare, stageHeld]
  | refused | loses => exact stepBalanced_of_unchanged valid trivial rfl fun _ => rfl

omit [DecidableEq T] in
theorem finishReconcile_wellFormed (r : ByteReservation T) (actual : Nat)
    (small : actual ≤ u64Max) : (finishReconcile r actual).WellFormed := by
  simp only [finishReconcile]
  split
  all_goals exact small

omit [DecidableEq T] in
theorem finishReconcile_budgetShare (r : ByteReservation T) (actual : Nat) :
    (finishReconcile r actual).budgetShare = actual := by
  simp only [finishReconcile]
  split
  all_goals rfl

theorem finishReconcile_stageShare (r : ByteReservation T) (actual : Nat) (stage : T) :
    (finishReconcile r actual).stageShare stage = stageHeld r.stage stage actual := by
  simp only [finishReconcile]
  split
  all_goals rfl

omit [DecidableEq T] in
theorem moveInFlight_modEq (k : Counters T) (held actual : Nat) (heldSmall : held ≤ u64Max) :
    ((if actual < held then k.subInFlight (held - actual)
      else k.addInFlight (actual - held)).inFlight + held) % 2 ^ 64 =
        (k.inFlight + actual) % 2 ^ 64 := by
  unfold u64Max at heldSmall
  split
  · simp only [Counters.subInFlight, wrappingSub, wrap64]
    omega
  · simp only [Counters.addInFlight, wrappingAdd, wrap64]
    omega

omit [DecidableEq T] in
theorem moveInFlight_stage (k : Counters T) (held actual : Nat) :
    (if actual < held then k.subInFlight (held - actual)
      else k.addInFlight (actual - held)).stage = k.stage := by
  split
  all_goals rfl

theorem moveStage_modEq (k : Counters T) (moved stage : T) (held actual : Nat)
    (heldSmall : held ≤ u64Max) :
    ((if actual < held then k.subStage moved (held - actual)
      else k.addStage moved (actual - held)).stage stage +
        stageHeld (some moved) stage held) % 2 ^ 64 =
      (k.stage stage + stageHeld (some moved) stage actual) % 2 ^ 64 := by
  split
  case isTrue shrinks =>
    have taken := subStage_modEq k moved stage (held - actual) (by omega)
    simp only [stageHeld] at taken ⊢
    split at taken
    all_goals
      simp only [*, if_true, if_false]
      omega
  case isFalse grows =>
    have added := addStage_modEq k moved stage (actual - held)
    simp only [stageHeld] at added ⊢
    split at added
    all_goals
      simp only [*, if_true, if_false]
      omega

theorem advanceOwned_balanced {k k' : Counters T} {r : ByteReservation T}
    {operation : Operation T} {a' : Agent T} {notifies : Bool} (valid : Counters.Valid k)
    (wellFormed : (Agent.owned r operation).WellFormed)
    (moved : advanceOwned k r operation = some (a', k', notifies)) :
    StepBalanced k k' (.owned r operation) a' := by
  cases operation with
  | idle => cases moved
  | detach previous next =>
      cases moved
      refine ⟨subStage_valid valid previous r.held, wellFormed, rfl, ?_⟩
      intro stage
      exact subStage_modEq k previous stage r.held wellFormed
  | attach next =>
      cases moved
      refine ⟨addStage_valid valid next r.held, wellFormed, rfl, ?_⟩
      intro stage
      exact addStage_modEq k next stage r.held
  | reconcileBudget actual =>
      obtain ⟨heldSmall, actualSmall⟩ := wellFormed
      have budgetMoved := moveInFlight_modEq k r.held actual heldSmall
      have stagesKept := moveInFlight_stage k r.held actual
      have movedValid : Counters.Valid (if actual < r.held then k.subInFlight (r.held - actual)
          else k.addInFlight (actual - r.held)) := by
        split
        · exact subInFlight_valid valid _
        · exact addInFlight_valid valid _
      simp only [advanceOwned] at moved
      cases attached : r.stage with
      | none =>
          rw [attached] at moved
          cases moved
          refine ⟨movedValid, finishReconcile_wellFormed r actual actualSmall, ?_, ?_⟩
          · rw [finishReconcile_budgetShare]
            exact budgetMoved
          · intro stage
            rw [finishReconcile_stageShare, stagesKept]
            simp [Agent.stageShare, attached, stageHeld]
      | some stage =>
          rw [attached] at moved
          cases moved
          refine ⟨movedValid, ⟨heldSmall, actualSmall, attached⟩, budgetMoved, ?_⟩
          intro other
          rw [stagesKept]
          rfl
  | reconcileStage stage actual =>
      obtain ⟨heldSmall, actualSmall, attached⟩ := wellFormed
      cases moved
      refine ⟨?_, finishReconcile_wellFormed r actual actualSmall, ?_, ?_⟩
      · split
        · exact subStage_valid valid stage _
        · exact addStage_valid valid stage _
      · rw [finishReconcile_budgetShare]
        simp only [Agent.budgetShare]
        split
        all_goals rfl
      · intro other
        rw [finishReconcile_stageShare]
        simp only [Agent.stageShare, attached]
        exact moveStage_modEq k stage other r.held actual heldSmall
  | reconcileNotify =>
      cases moved
      exact stepBalanced_of_unchanged valid wellFormed rfl fun _ => rfl
  | dropStage previous =>
      cases moved
      refine ⟨subStage_valid valid previous r.held, wellFormed, rfl, ?_⟩
      intro stage
      exact subStage_modEq k previous stage r.held wellFormed
  | dropBudget =>
      have heldSmall : r.held ≤ u64Max := wellFormed
      cases moved
      refine ⟨subInFlight_valid valid r.held, heldSmall, ?_, fun _ => rfl⟩
      unfold u64Max at heldSmall
      simp only [Agent.budgetShare, Counters.subInFlight, wrappingSub, wrap64]
      omega
  | dropNotify =>
      cases moved
      exact stepBalanced_of_unchanged valid trivial rfl fun _ => rfl

theorem advanceAgent_balanced {capacity : Nat} {k k' : Counters T} {a a' : Agent T}
    {notifies : Bool} (valid : Counters.Valid k) (wellFormed : a.WellFormed)
    (moved : advanceAgent capacity k a = some (a', k', notifies)) : StepBalanced k k' a a' := by
  cases a with
  | reserving bytes point =>
      obtain ⟨⟨next, cells⟩, reserved, same⟩ := Option.map_eq_some_iff.mp moved
      cases same
      exact advanceReserve_balanced valid wellFormed reserved
  | trying bytes point =>
      cases moved
      exact advanceTry_balanced valid wellFormed
  | owned r operation => exact advanceOwned_balanced valid wellFormed moved
  | finished => cases moved

theorem beginAttach_balanced {k : Counters T} (valid : Counters.Valid k)
    (r : ByteReservation T) (next : T) (small : r.held ≤ u64Max) :
    StepBalanced k k (.owned r .idle) (beginAttach r next) := by
  simp only [beginAttach]
  split
  case isTrue =>
    cases attached : r.stage with
    | none =>
        refine stepBalanced_of_unchanged valid small rfl ?_
        intro stage
        simp [Agent.stageShare, attached, stageHeld]
    | some previous =>
        refine stepBalanced_of_unchanged valid small rfl ?_
        intro stage
        simp [Agent.stageShare, attached]
  case isFalse empty =>
    have nothing : r.held = 0 := by omega
    refine stepBalanced_of_unchanged valid small rfl ?_
    intro stage
    simp [Agent.stageShare, stageHeld, nothing]

theorem beginReconcile_balanced {k : Counters T} (valid : Counters.Valid k)
    (r : ByteReservation T) (actual : Nat) (small : r.held ≤ u64Max)
    (actualSmall : actual ≤ u64Max) :
    StepBalanced k k (.owned r .idle) (beginReconcile r actual) := by
  simp only [beginReconcile]
  split
  · exact stepBalanced_of_unchanged valid small rfl fun _ => rfl
  · exact stepBalanced_of_unchanged valid ⟨small, actualSmall⟩ rfl fun _ => rfl

theorem beginDrop_balanced {k : Counters T} (valid : Counters.Valid k)
    (r : ByteReservation T) (small : r.held ≤ u64Max) :
    StepBalanced k k (.owned r .idle) (beginDrop r) := by
  simp only [beginDrop]
  split
  case isTrue =>
    cases attached : r.stage with
    | none =>
        refine stepBalanced_of_unchanged valid small rfl ?_
        intro stage
        simp [Agent.stageShare, attached, stageHeld]
    | some previous =>
        refine stepBalanced_of_unchanged valid small rfl ?_
        intro stage
        simp [Agent.stageShare, attached]
  case isFalse empty =>
    have nothing : r.held = 0 := by omega
    refine stepBalanced_of_unchanged valid trivial ?_ ?_
    · simp [Agent.budgetShare, nothing]
    · intro stage
      simp [Agent.stageShare, stageHeld, nothing]

/-! ## The invariant of every interleaving -/

/-- Every counter is the sum of the agents' shares of it, modulo `2 ^ 64`. -/
structure Accounted (s : State T) : Prop where
  valid : Counters.Valid s.counters
  wellFormed : ∀ a ∈ s.agents, a.WellFormed
  inFlight : s.counters.inFlight % 2 ^ 64 = total Agent.budgetShare s.agents % 2 ^ 64
  stage : ∀ stage, s.counters.stage stage % 2 ^ 64 =
    total (Agent.stageShare stage) s.agents % 2 ^ 64

/-- One agent replaced after a balanced step. -/
theorem Accounted.replace {s : State T} (accounted : Accounted s) {i : Nat} {a a' : Agent T}
    {k' : Counters T} (present : s.agents[i]? = some a)
    (moved : StepBalanced s.counters k' a a') :
    Accounted ⟨s.capacity, k', s.agents.set i a'⟩ := by
  refine ⟨moved.valid, ?_, ?_, ?_⟩
  · intro b member
    rcases List.mem_or_eq_of_mem_set member with old | new
    · exact accounted.wellFormed b old
    · rw [new]
      exact moved.wellFormed
  · have replaced := total_set Agent.budgetShare s.agents i a a' present
    have balanced := moved.balanced.inFlight
    have before := accounted.inFlight
    simp only
    omega
  · intro stage
    have replaced := total_set (Agent.stageShare stage) s.agents i a a' present
    have balanced := moved.balanced.stage stage
    have before := accounted.stage stage
    simp only
    omega

/-- A new agent starts with no share. -/
theorem Accounted.spawn {s : State T} (accounted : Accounted s) (a : Agent T)
    (wellFormed : a.WellFormed) (noBudget : a.budgetShare = 0)
    (noStage : ∀ stage, a.stageShare stage = 0) :
    Accounted { s with agents := s.agents ++ [a] } := by
  refine ⟨accounted.valid, ?_, ?_, ?_⟩
  · intro b member
    rcases List.mem_append.mp member with old | new
    · exact accounted.wellFormed b old
    · rw [List.mem_singleton.mp new]
      exact wellFormed
  · simpa [noBudget] using accounted.inFlight
  · intro stage
    simpa [noStage] using accounted.stage stage

omit [DecidableEq T] in
theorem notify_budgetShare (a : Agent T) : a.notify.budgetShare = a.budgetShare := by
  cases a with
  | reserving bytes point => cases point <;> rfl
  | trying bytes point => rfl
  | owned r operation => rfl
  | finished => rfl

theorem notify_stageShare (a : Agent T) (stage : T) :
    a.notify.stageShare stage = a.stageShare stage := by
  cases a with
  | reserving bytes point => cases point <;> rfl
  | trying bytes point => rfl
  | owned r operation => rfl
  | finished => rfl

omit [DecidableEq T] in
theorem notify_wellFormed (a : Agent T) (wellFormed : a.WellFormed) : a.notify.WellFormed := by
  cases a with
  | reserving bytes point => cases point <;> exact wellFormed
  | trying bytes point => exact wellFormed
  | owned r operation => exact wellFormed
  | finished => exact wellFormed

theorem Accounted.notify {s : State T} (accounted : Accounted s) :
    Accounted { s with agents := s.agents.map Agent.notify } := by
  refine ⟨accounted.valid, ?_, ?_, ?_⟩
  · intro b member
    obtain ⟨a, old, same⟩ := List.mem_map.mp member
    rw [← same]
    exact notify_wellFormed a (accounted.wellFormed a old)
  · rw [total_map, total_congr _ Agent.budgetShare _ fun a _ => notify_budgetShare a]
    exact accounted.inFlight
  · intro stage
    rw [total_map, total_congr _ (Agent.stageShare stage) _ fun a _ => notify_stageShare a stage]
    exact accounted.stage stage

theorem accounted_start (capacity : U64) : Accounted (machine T capacity).start := by
  refine ⟨⟨Nat.two_pow_pos 64, fun _ => Nat.two_pow_pos 64⟩, ?_, rfl, fun _ => rfl⟩
  intro a member
  cases member

theorem step_accounted {s s' : State T} {action : Action T} (accounted : Accounted s)
    (taken : step s action = some s') : Accounted s' := by
  cases transition_of_step taken with
  | startsReserve bytes => exact accounted.spawn _ (val_le_u64Max bytes) rfl fun _ => rfl
  | startsTry bytes => exact accounted.spawn _ (val_le_u64Max bytes) rfl fun _ => rfl
  | cancels bytes point present =>
      exact accounted.replace present
        (stepBalanced_of_unchanged accounted.valid trivial rfl fun _ => rfl)
  | attaches r stage present =>
      have small := accounted.wellFormed _ (List.mem_of_getElem? present)
      exact accounted.replace present (beginAttach_balanced accounted.valid r stage small)
  | reconciles r actual present =>
      have small := accounted.wellFormed _ (List.mem_of_getElem? present)
      exact accounted.replace present
        (beginReconcile_balanced accounted.valid r actual.val small (val_le_u64Max actual))
  | drops r present =>
      have small := accounted.wellFormed _ (List.mem_of_getElem? present)
      exact accounted.replace present (beginDrop_balanced accounted.valid r small)
  | @advances i a a' k notifies present moved =>
      have small := accounted.wellFormed _ (List.mem_of_getElem? present)
      have replaced := accounted.replace present
        (advanceAgent_balanced accounted.valid small moved)
      cases notifies with
      | true => exact replaced.notify
      | false => exact replaced

theorem accounted_of_reachable {capacity : U64} {s : State T}
    (reachable : (machine T capacity).Reachable s) : Accounted s :=
  reachable.invariant (accounted_start capacity)
    fun _ _ _ _ accounted taken => step_accounted accounted taken

/-! ## Live reservations -/

def Agent.reservation? : Agent T → Option (ByteReservation T)
  | .owned r _ => some r
  | _ => none

/-- No operation on a live reservation is half-way. -/
def Agent.Settled : Agent T → Prop
  | .owned _ operation => operation = .idle
  | _ => True

def State.live (s : State T) : List (ByteReservation T) :=
  s.agents.filterMap Agent.reservation?

def State.Settled (s : State T) : Prop := ∀ a ∈ s.agents, a.Settled

def State.heldBytes (s : State T) : Nat := total ByteReservation.held s.live

def State.heldAt (s : State T) (stage : T) : Nat :=
  total (fun r => stageHeld r.stage stage r.held) s.live

/-- A step that neither moves a counter nor creates, changes or ends a reservation. -/
def ChangesNothing (s s' : State T) : Prop := s'.counters = s.counters ∧ s'.live = s.live

omit [DecidableEq T] in
theorem total_filterMap_reservation (weight : Agent T → Nat) (held : ByteReservation T → Nat)
    (agents : List (Agent T))
    (ofLive : ∀ a ∈ agents, ∀ r, a.reservation? = some r → weight a = held r)
    (ofOther : ∀ a ∈ agents, a.reservation? = none → weight a = 0) :
    total weight agents = total held (agents.filterMap Agent.reservation?) := by
  induction agents with
  | nil => rfl
  | cons a rest ih =>
      have tail := ih (fun b member => ofLive b (List.mem_cons_of_mem a member))
        (fun b member => ofOther b (List.mem_cons_of_mem a member))
      cases live : a.reservation? with
      | none =>
          have nothing := ofOther a List.mem_cons_self live
          simp only [total_cons, List.filterMap_cons, live, nothing, tail, Nat.zero_add]
      | some r =>
          have share := ofLive a List.mem_cons_self r live
          simp only [total_cons, List.filterMap_cons, live, share, tail]

omit [DecidableEq T] in
/-- Between operations a weight of the agents is a weight of their reservations. -/
theorem State.Settled.total_eq {s : State T} (settled : s.Settled) {weight : Agent T → Nat}
    {held : ByteReservation T → Nat} (idle : ∀ r, weight (.owned r .idle) = held r)
    (reserving : ∀ bytes point, weight (.reserving bytes point) = 0)
    (trying : ∀ bytes point, weight (.trying bytes point) = 0)
    (finished : weight .finished = 0) : total weight s.agents = total held s.live := by
  apply total_filterMap_reservation
  · intro a member r live
    have quiet := settled a member
    cases a with
    | owned held operation =>
        cases live
        simp only [Agent.Settled] at quiet
        rw [quiet]
        exact idle r
    | reserving bytes point => cases live
    | trying bytes point => cases live
    | finished => cases live
  · intro a member other
    cases a with
    | owned held operation => cases other
    | reserving bytes point => exact reserving bytes point
    | trying bytes point => exact trying bytes point
    | finished => exact finished

omit [DecidableEq T] in
theorem budgetShare_total {s : State T} (settled : s.Settled) :
    total Agent.budgetShare s.agents = s.heldBytes :=
  settled.total_eq (fun _ => rfl) (fun _ _ => rfl) (fun _ _ => rfl) rfl

theorem stageShare_total {s : State T} (settled : s.Settled) (stage : T) :
    total (Agent.stageShare stage) s.agents = s.heldAt stage :=
  settled.total_eq (fun _ => rfl) (fun _ _ => rfl) (fun _ _ => rfl) rfl

omit [DecidableEq T] in
theorem settled_of_no_live {s : State T} (dropped : s.live = []) : s.Settled := by
  intro a member
  cases a with
  | owned r operation =>
      have present : r ∈ s.live := List.mem_filterMap.mpr ⟨_, member, rfl⟩
      rw [dropped] at present
      cases present
  | reserving bytes point => trivial
  | trying bytes point => trivial
  | finished => trivial

/-- With every reservation attached, summing the stages counts every reservation
once. -/
theorem sum_stages_eq_held [Fintype T] (reservations : List (ByteReservation T))
    (attached : ∀ r ∈ reservations, r.stage.isSome) :
    ∑ stage, total (fun r => stageHeld r.stage stage r.held) reservations =
      total ByteReservation.held reservations := by
  induction reservations with
  | nil => simp
  | cons r rest ih =>
      have tail := ih fun other member => attached other (List.mem_cons_of_mem r member)
      obtain ⟨own, at_own⟩ := Option.isSome_iff_exists.mp (attached r List.mem_cons_self)
      have head : ∑ stage, stageHeld r.stage stage r.held = r.held := by
        simp [at_own, stageHeld]
      simp only [total_cons, Finset.sum_add_distrib, head, tail]

/-! ## Calls that return no reservation -/

omit [DecidableEq T] in
theorem live_set_of_no_reservation {agents : List (Agent T)} {i : Nat} {a a' : Agent T}
    (present : agents[i]? = some a) (before : a.reservation? = none)
    (after : a'.reservation? = none) :
    (agents.set i a').filterMap Agent.reservation? = agents.filterMap Agent.reservation? := by
  induction agents generalizing i with
  | nil => rfl
  | cons head rest ih =>
      cases i with
      | zero =>
          have same : head = a := by simpa using present
          simp [same, before, after]
      | succ i =>
          have tail := ih (i := i) (by simpa using present)
          simp only [List.set_cons_succ, List.filterMap_cons, tail]

theorem advanceAgent_pending {capacity : Nat} {k k' : Counters T} {a a' : Agent T}
    {notifies : Bool} (pending : a.reservation? = none)
    (moved : advanceAgent capacity k a = some (a', k', notifies)) :
    notifies = false ∧
      ((∃ r, a' = .owned r .idle) ∨ (k' = k ∧ a'.reservation? = none)) := by
  cases a with
  | reserving bytes point =>
      obtain ⟨⟨next, cells⟩, reserved, same⟩ := Option.map_eq_some_iff.mp moved
      cases same
      refine ⟨rfl, ?_⟩
      cases reserveStep_of_advanceReserve reserved with
      | empty | exchanges => exact Or.inl ⟨_, rfl⟩
      | arms | reads | full | loses | wakes => exact Or.inr ⟨rfl, rfl⟩
  | trying bytes point =>
      cases moved
      refine ⟨rfl, ?_⟩
      generalize outcome : advanceTry capacity k bytes point = moved
      obtain ⟨next, cells⟩ := moved
      cases tryStep_of_advanceTry outcome with
      | empty | exchanges => exact Or.inl ⟨_, rfl⟩
      | refused | reads | loses => exact Or.inr ⟨rfl, rfl⟩
  | owned r operation => cases pending
  | finished => cases moved

/-- A step of a `reserve` or `try_reserve` call ends in a reservation or changes
nothing. -/
theorem step_pending_call {s s' : State T} {i : Nat} {a : Agent T}
    (present : s.agents[i]? = some a) (pending : a.reservation? = none)
    (taken : step s (.advance i) = some s') :
    (∃ r, s'.agents[i]? = some (.owned r .idle)) ∨ ChangesNothing s s' := by
  have bound : i < s.agents.length := (List.getElem?_eq_some_iff.mp present).1
  simp only [step, present] at taken
  split at taken
  case h_1 next k notifies moved =>
    obtain ⟨quiet, outcome⟩ := advanceAgent_pending pending moved
    rw [quiet] at taken
    cases taken
    rcases outcome with ⟨r, claimed⟩ | ⟨sameCounters, stillPending⟩
    · left
      exact ⟨r, by simp [bound, claimed]⟩
    · right
      exact ⟨sameCounters, live_set_of_no_reservation present pending stillPending⟩
  case h_2 => cases taken

theorem cancel_changes_nothing {s s' : State T} {i : Nat}
    (taken : step s (.cancelReserve i) = some s') : ChangesNothing s s' := by
  cases transition_of_step taken with
  | cancels bytes point present => exact ⟨rfl, live_set_of_no_reservation present rfl rfl⟩

/-! ## Conservation -/

theorem inFlight_modEq_held {s : State T} (accounted : Accounted s) (settled : s.Settled) :
    s.counters.inFlight ≡ s.heldBytes [MOD 2 ^ 64] := by
  have shares := accounted.inFlight
  rw [budgetShare_total settled] at shares
  exact shares

theorem stage_modEq_held {s : State T} (accounted : Accounted s) (settled : s.Settled)
    (stage : T) : s.counters.stage stage ≡ s.heldAt stage [MOD 2 ^ 64] := by
  have shares := accounted.stage stage
  rw [stageShare_total settled] at shares
  exact shares

theorem counters_zero_of_no_live {s : State T} (accounted : Accounted s)
    (dropped : s.live = []) : s.counters = Counters.zero := by
  have settled := settled_of_no_live dropped
  have noBytes : s.heldBytes = 0 := by simp [State.heldBytes, dropped]
  have noStageBytes : ∀ stage, s.heldAt stage = 0 := by simp [State.heldAt, dropped]
  have budget := inFlight_modEq_held accounted settled
  rw [noBytes] at budget
  have inFlightZero : s.counters.inFlight = 0 :=
    Nat.eq_zero_of_dvd_of_lt (Nat.modEq_zero_iff_dvd.mp budget) accounted.valid.inFlight_lt
  have stageZero : s.counters.stage = fun _ => 0 := by
    funext stage
    have cell := stage_modEq_held accounted settled stage
    rw [noStageBytes] at cell
    exact Nat.eq_zero_of_dvd_of_lt (Nat.modEq_zero_iff_dvd.mp cell)
      (accounted.valid.stage_lt stage)
  rw [show s.counters = ⟨s.counters.inFlight, s.counters.stage⟩ from rfl, inFlightZero, stageZero]
  rfl

theorem sum_stages_modEq [Fintype T] {s : State T} (accounted : Accounted s)
    (settled : s.Settled) (attached : ∀ r ∈ s.live, r.stage.isSome) :
    ∑ stage, s.counters.stage stage ≡ s.counters.inFlight [MOD 2 ^ 64] := by
  have cells : ∑ stage, s.counters.stage stage ≡ ∑ stage, s.heldAt stage [MOD 2 ^ 64] :=
    Nat.ModEq.sum fun stage _ => stage_modEq_held accounted settled stage
  have counted : ∑ stage, s.heldAt stage = s.heldBytes := sum_stages_eq_held s.live attached
  rw [counted] at cells
  exact cells.trans (inFlight_modEq_held accounted settled).symm

/-- Stage sums are exact, not only modulo `2 ^ 64`, while the bytes held fit in 64
bits. -/
theorem sum_stages_eq_inFlight [Fintype T] {s : State T} (accounted : Accounted s)
    (settled : s.Settled) (attached : ∀ r ∈ s.live, r.stage.isSome)
    (small : s.heldBytes < 2 ^ 64) :
    ∑ stage, s.counters.stage stage = s.counters.inFlight := by
  have counted : ∑ stage, s.heldAt stage = s.heldBytes := sum_stages_eq_held s.live attached
  have budget : s.counters.inFlight = s.heldBytes :=
    (inFlight_modEq_held accounted settled).eq_of_lt_of_lt accounted.valid.inFlight_lt small
  rw [budget, ← counted]
  refine Finset.sum_congr rfl fun stage _ => ?_
  have part : s.heldAt stage ≤ s.heldBytes := by
    rw [← counted]
    exact Finset.single_le_sum (fun _ _ => Nat.zero_le _) (Finset.mem_univ stage)
  exact (stage_modEq_held accounted settled stage).eq_of_lt_of_lt
    (accounted.valid.stage_lt stage) (by omega)

/-- Conservation of the byte counters in every interleaving of atomic operations. -/
theorem byte_counters_conserved [Fintype T] (capacity : U64) (actions : List (Action T))
    (s : State T) (ran : (machine T capacity).run actions = some s) :
    (s.Settled →
      s.counters.inFlight ≡ s.heldBytes [MOD 2 ^ 64] ∧
      ∀ stage, s.counters.stage stage ≡ s.heldAt stage [MOD 2 ^ 64]) ∧
    (∀ i a s', s.agents[i]? = some a → a.reservation? = none →
      (machine T capacity).step s (.advance i) = some s' →
      (∃ r, s'.agents[i]? = some (.owned r .idle)) ∨ ChangesNothing s s') ∧
    (∀ i s', (machine T capacity).step s (.cancelReserve i) = some s' → ChangesNothing s s') ∧
    (s.live = [] → s.counters = (machine T capacity).start.counters) ∧
    (s.Settled → (∀ r ∈ s.live, r.stage.isSome) →
      wrap64 (∑ stage, s.counters.stage stage) = s.counters.inFlight ∧
      (s.heldBytes < 2 ^ 64 → ∑ stage, s.counters.stage stage = s.counters.inFlight)) := by
  have accounted : Accounted s :=
    accounted_of_reachable ((machine T capacity).run_reachable actions s ran)
  refine ⟨?_, ?_, ?_, ?_, ?_⟩
  · intro settled
    exact ⟨inFlight_modEq_held accounted settled, stage_modEq_held accounted settled⟩
  · intro i a s' present pending taken
    exact step_pending_call present pending taken
  · intro i s' taken
    exact cancel_changes_nothing taken
  · intro dropped
    exact counters_zero_of_no_live accounted dropped
  · intro settled attached
    refine ⟨?_, sum_stages_eq_inFlight accounted settled attached⟩
    have summed := sum_stages_modEq accounted settled attached
    rw [wrap64, show _ % 2 ^ 64 = _ % 2 ^ 64 from summed]
    exact Nat.mod_eq_of_lt accounted.valid.inFlight_lt

/-- A `reserve` that loses its exchange to a concurrent `reconcile` and is cancelled,
and two reservations left at different stages. -/
theorem byte_counters_conserved_two_stages :
    ∃ s, (machine Stage 10).run
        [.startReserve 4, .advance 0, .advance 0, .advance 0, .startReserve 5,
          .beginAttachStage 0 .fetch, .advance 1, .advance 0, .beginReconcile 0 3, .advance 1,
          .advance 0, .advance 1, .advance 0, .advance 0, .advance 1, .cancelReserve 1,
          .startTryReserve 5, .advance 2, .advance 2, .beginAttachStage 2 .decode,
          .advance 2] = some s ∧
      s.agents = [.owned ⟨3, some .fetch⟩ .idle, .finished, .owned ⟨5, some .decode⟩ .idle] ∧
      s.counters.inFlight = 8 ∧ wrap64 (∑ stage, s.counters.stage stage) = 8 := by
  have observed : ((machine Stage 10).run
        [.startReserve 4, .advance 0, .advance 0, .advance 0, .startReserve 5,
          .beginAttachStage 0 .fetch, .advance 1, .advance 0, .beginReconcile 0 3, .advance 1,
          .advance 0, .advance 1, .advance 0, .advance 0, .advance 1, .cancelReserve 1,
          .startTryReserve 5, .advance 2, .advance 2, .beginAttachStage 2 .decode,
          .advance 2]).map (fun s => (s.agents, s.counters.inFlight)) =
      some ([.owned ⟨3, some .fetch⟩ .idle, .finished, .owned ⟨5, some .decode⟩ .idle], 8) := by
    decide
  obtain ⟨s, ran, seen⟩ := Option.map_eq_some_iff.mp observed
  obtain ⟨agents, inFlight⟩ := Prod.mk.inj seen
  have settled : s.Settled := by
    intro a member
    simp only [agents, List.mem_cons, List.not_mem_nil, or_false] at member
    rcases member with rfl | rfl | rfl
    · rfl
    · trivial
    · rfl
  have attached : ∀ r ∈ s.live, r.stage.isSome := by
    intro r member
    have live : s.live = [⟨3, some .fetch⟩, ⟨5, some .decode⟩] := by
      rw [State.live, agents]
      rfl
    simp only [live, List.mem_cons, List.not_mem_nil, or_false] at member
    rcases member with rfl | rfl <;> rfl
  have summed := ((byte_counters_conserved 10 _ s ran).2.2.2.2 settled attached).1
  exact ⟨s, ran, agents, inFlight, by rw [summed, inFlight]⟩

end OpendataIngest.Runtime.AtomicBudget
