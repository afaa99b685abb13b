import OpendataIngest.Lib.Machine
import OpendataIngest.Runtime.ByteBudget
import Mathlib.Algebra.BigOperators.Group.Finset.Basic

/-!
# The byte budget at the granularity of single atomic operations

Every load, compare-exchange, `fetch_add`, `fetch_sub` and `notify_waiters` of
`source_budget.rs` is one step here, and any agent may take the next step.  An
agent is a `reserve` future, a `try_reserve` call, or a live reservation with the
operation its owner is running on it; Rust's `&mut self` allows one at a time.
New agents may be started in any state, so any number of tasks is covered.

`notified` on a `reserve` future says that a `notify_waiters` call has happened
since the future's waiter was armed; no permit is stored for later waiters.
-/

set_option autoImplicit false

namespace OpendataIngest.Runtime.AtomicBudget

open MachineInt Pool

/-- Program points of the `reserve` loop. -/
inductive ReservePoint where
  | loopHead
  | armed (notified : Bool)
  | exchange (notified : Bool) (current : Nat)
  | parked (notified : Bool)
  deriving DecidableEq

inductive TryPoint where
  | entry
  | exchange (current next : Nat)
  deriving DecidableEq

/-- The operation in progress on a reservation, by the atomic step it is about to
take.  `idle` is between operations. -/
inductive Operation (T : Type) where
  | idle
  | detach (previous next : T)
  | attach (next : T)
  | reconcileBudget (actual : Nat)
  | reconcileStage (stage : T) (actual : Nat)
  | reconcileNotify
  | dropStage (previous : T)
  | dropBudget
  | dropNotify
  deriving DecidableEq

inductive Agent (T : Type) where
  | reserving (bytes : Nat) (point : ReservePoint)
  | trying (bytes : Nat) (point : TryPoint)
  | owned (reservation : ByteReservation T) (operation : Operation T)
  | finished
  deriving DecidableEq

structure State (T : Type) where
  capacity : Nat
  counters : Counters T
  agents : List (Agent T)

inductive Action (T : Type) where
  | startReserve (bytes : U64)
  | startTryReserve (bytes : U64)
  | cancelReserve (agent : Nat)
  | beginAttachStage (agent : Nat) (stage : T)
  | beginReconcile (agent : Nat) (actual : U64)
  | beginDrop (agent : Nat)
  | advance (agent : Nat)

section Steps

variable {T : Type} [DecidableEq T]

/-- `notify_waiters` reaches exactly the futures whose waiter is armed. -/
def Agent.notify : Agent T → Agent T
  | .reserving bytes (.armed _) => .reserving bytes (.armed true)
  | .reserving bytes (.exchange _ current) => .reserving bytes (.exchange true current)
  | .reserving bytes (.parked _) => .reserving bytes (.parked true)
  | agent => agent

/-- One step of the `reserve` loop. -/
def advanceReserve (capacity : Nat) (k : Counters T) (bytes : Nat) :
    ReservePoint → Option (Agent T × Counters T)
  | .loopHead =>
      if bytes = 0 then some (.owned ⟨0, none⟩ .idle, k)
      else some (.reserving bytes (.armed false), k)
  | .armed notified =>
      if saturatingAdd k.inFlight bytes ≤ capacity then
        some (.reserving bytes (.exchange notified k.inFlight), k)
      else some (.reserving bytes (.parked notified), k)
  | .exchange notified current =>
      if k.inFlight = current then
        some (.owned ⟨bytes, none⟩ .idle, { k with inFlight := wrappingAdd current bytes })
      else some (.reserving bytes (.parked notified), k)
  | .parked true => some (.reserving bytes .loopHead, k)
  | .parked false => none

def advanceTry (capacity : Nat) (k : Counters T) (bytes : Nat) :
    TryPoint → Agent T × Counters T
  | .entry =>
      if bytes = 0 then (.owned ⟨0, none⟩ .idle, k)
      else match checkedAdd k.inFlight bytes with
        | none => (.finished, k)
        | some next =>
            if next > capacity then (.finished, k)
            else (.trying bytes (.exchange k.inFlight next), k)
  | .exchange current next =>
      if k.inFlight = current then
        (.owned ⟨bytes, none⟩ .idle, { k with inFlight := next })
      else (.finished, k)

/-- `attach_stage` up to its first atomic operation: the previous stage is taken
out of the reservation, and an empty reservation touches no cell. -/
def beginAttach (r : ByteReservation T) (next : T) : Agent T :=
  if 0 < r.held then
    match r.stage with
    | some previous => .owned ⟨r.held, none⟩ (.detach previous next)
    | none => .owned r (.attach next)
  else .owned ⟨r.held, some next⟩ .idle

def beginReconcile (r : ByteReservation T) (actual : Nat) : Agent T :=
  if actual = r.held then .owned r .idle else .owned r (.reconcileBudget actual)

def beginDrop (r : ByteReservation T) : Agent T :=
  if 0 < r.held then
    match r.stage with
    | some previous => .owned ⟨r.held, none⟩ (.dropStage previous)
    | none => .owned r .dropBudget
  else .finished

/-- `reconcile` writes `held` after the last counter it moves; only the shrinking
branch notifies. -/
def finishReconcile (r : ByteReservation T) (actual : Nat) : Agent T :=
  .owned { r with held := actual } (if actual < r.held then .reconcileNotify else .idle)

/-- One atomic operation on an owned reservation.  The boolean asks for a
`notify_waiters`. -/
def advanceOwned (k : Counters T) (r : ByteReservation T) :
    Operation T → Option (Agent T × Counters T × Bool)
  | .idle => none
  | .detach previous next =>
      some (.owned r (.attach next), k.subStage previous r.held, false)
  | .attach next => some (.owned ⟨r.held, some next⟩ .idle, k.addStage next r.held, false)
  | .reconcileBudget actual =>
      let moved := if actual < r.held then k.subInFlight (r.held - actual)
        else k.addInFlight (actual - r.held)
      match r.stage with
      | some stage => some (.owned r (.reconcileStage stage actual), moved, false)
      | none => some (finishReconcile r actual, moved, false)
  | .reconcileStage stage actual =>
      let moved := if actual < r.held then k.subStage stage (r.held - actual)
        else k.addStage stage (actual - r.held)
      some (finishReconcile r actual, moved, false)
  | .reconcileNotify => some (.owned r .idle, k, true)
  | .dropStage previous => some (.owned r .dropBudget, k.subStage previous r.held, false)
  | .dropBudget => some (.owned r .dropNotify, k.subInFlight r.held, false)
  | .dropNotify => some (.finished, k, true)

def advanceAgent (capacity : Nat) (k : Counters T) :
    Agent T → Option (Agent T × Counters T × Bool)
  | .reserving bytes point =>
      (advanceReserve capacity k bytes point).map fun moved => (moved.1, moved.2, false)
  | .trying bytes point =>
      let moved := advanceTry capacity k bytes point
      some (moved.1, moved.2, false)
  | .owned r operation => advanceOwned k r operation
  | .finished => none

def State.replace (s : State T) (i : Nat) (agent : Agent T) : State T :=
  { s with agents := s.agents.set i agent }

def step (s : State T) : Action T → Option (State T)
  | .startReserve bytes =>
      some { s with agents := s.agents ++ [.reserving bytes.val .loopHead] }
  | .startTryReserve bytes =>
      some { s with agents := s.agents ++ [.trying bytes.val .entry] }
  | .cancelReserve i =>
      match s.agents[i]? with
      | some (.reserving _ _) => some (s.replace i .finished)
      | _ => none
  | .beginAttachStage i stage =>
      match s.agents[i]? with
      | some (.owned r .idle) => some (s.replace i (beginAttach r stage))
      | _ => none
  | .beginReconcile i actual =>
      match s.agents[i]? with
      | some (.owned r .idle) => some (s.replace i (beginReconcile r actual.val))
      | _ => none
  | .beginDrop i =>
      match s.agents[i]? with
      | some (.owned r .idle) => some (s.replace i (beginDrop r))
      | _ => none
  | .advance i =>
      match s.agents[i]? with
      | some agent =>
          match advanceAgent s.capacity s.counters agent with
          | some (next, k, notifies) =>
              let moved := s.agents.set i next
              some ⟨s.capacity, k, if notifies then moved.map Agent.notify else moved⟩
          | none => none
      | none => none

def machine (T : Type) [DecidableEq T] (capacity : U64) : Machine (State T) (Action T) where
  start := ⟨capacity.val, Counters.zero, []⟩
  step := step

/-! ## What a step can do -/

section Calls

variable (capacity : Nat) (k : Counters T) (bytes : Nat)

/-- The ways through one step of the `reserve` loop. -/
inductive ReserveStep : ReservePoint → Agent T → Counters T → Prop where
  | empty (zero : bytes = 0) : ReserveStep .loopHead (.owned ⟨0, none⟩ .idle) k
  | arms (nonzero : bytes ≠ 0) : ReserveStep .loopHead (.reserving bytes (.armed false)) k
  | reads (notified : Bool) (fits : saturatingAdd k.inFlight bytes ≤ capacity) :
      ReserveStep (.armed notified) (.reserving bytes (.exchange notified k.inFlight)) k
  | full (notified : Bool) (noRoom : ¬ saturatingAdd k.inFlight bytes ≤ capacity) :
      ReserveStep (.armed notified) (.reserving bytes (.parked notified)) k
  | exchanges (notified : Bool) :
      ReserveStep (.exchange notified k.inFlight) (.owned ⟨bytes, none⟩ .idle)
        { k with inFlight := wrappingAdd k.inFlight bytes }
  | loses (notified : Bool) (current : Nat) (lost : k.inFlight ≠ current) :
      ReserveStep (.exchange notified current) (.reserving bytes (.parked notified)) k
  | wakes : ReserveStep (.parked true) (.reserving bytes .loopHead) k

/-- The ways through one step of a `try_reserve` call. -/
inductive TryStep : TryPoint → Agent T → Counters T → Prop where
  | empty (zero : bytes = 0) : TryStep .entry (.owned ⟨0, none⟩ .idle) k
  | refused (nonzero : bytes ≠ 0)
      (noRoom : ∀ next, checkedAdd k.inFlight bytes = some next → capacity < next) :
      TryStep .entry .finished k
  | reads (next : Nat) (nonzero : bytes ≠ 0) (added : checkedAdd k.inFlight bytes = some next)
      (fits : next ≤ capacity) : TryStep .entry (.trying bytes (.exchange k.inFlight next)) k
  | exchanges (next : Nat) :
      TryStep (.exchange k.inFlight next) (.owned ⟨bytes, none⟩ .idle) { k with inFlight := next }
  | loses (current next : Nat) (lost : k.inFlight ≠ current) :
      TryStep (.exchange current next) .finished k

end Calls

section Inversion

variable {capacity : Nat} {k k' : Counters T} {bytes : Nat}

omit [DecidableEq T] in
theorem reserveStep_of_advanceReserve {point : ReservePoint} {a' : Agent T}
    (moved : advanceReserve capacity k bytes point = some (a', k')) :
    ReserveStep capacity k bytes point a' k' := by
  cases point with
  | loopHead =>
      simp only [advanceReserve] at moved
      split at moved
      case isTrue zero =>
        cases moved
        exact .empty zero
      case isFalse nonzero =>
        cases moved
        exact .arms nonzero
  | armed notified =>
      simp only [advanceReserve] at moved
      split at moved
      case isTrue fits =>
        cases moved
        exact .reads notified fits
      case isFalse noRoom =>
        cases moved
        exact .full notified noRoom
  | exchange notified current =>
      simp only [advanceReserve] at moved
      split at moved
      case isTrue unchanged =>
        cases moved
        cases unchanged
        exact .exchanges notified
      case isFalse lost =>
        cases moved
        exact .loses notified current lost
  | parked notified =>
      cases notified with
      | true =>
          cases moved
          exact .wakes
      | false => cases moved

omit [DecidableEq T] in
theorem tryStep_of_advanceTry {point : TryPoint} {a' : Agent T}
    (moved : advanceTry capacity k bytes point = (a', k')) :
    TryStep capacity k bytes point a' k' := by
  cases point with
  | entry =>
      simp only [advanceTry] at moved
      split at moved
      case isTrue zero =>
        cases moved
        exact .empty zero
      case isFalse nonzero =>
        split at moved
        case h_1 overflows =>
          cases moved
          exact .refused nonzero fun next isNext => by rw [overflows] at isNext; cases isNext
        case h_2 sum added =>
          split at moved
          case isTrue above =>
            cases moved
            refine .refused nonzero fun next isNext => ?_
            rw [added] at isNext
            cases isNext
            exact above
          case isFalse fits =>
            cases moved
            exact .reads sum nonzero added (Nat.le_of_not_lt fits)
  | exchange current next =>
      simp only [advanceTry] at moved
      split at moved
      case isTrue unchanged =>
        cases moved
        cases unchanged
        exact .exchanges next
      case isFalse lost =>
        cases moved
        exact .loses current next lost

end Inversion

inductive Transition (s : State T) : Action T → State T → Prop where
  | startsReserve (bytes : U64) :
      Transition s (.startReserve bytes)
        { s with agents := s.agents ++ [.reserving bytes.val .loopHead] }
  | startsTry (bytes : U64) :
      Transition s (.startTryReserve bytes)
        { s with agents := s.agents ++ [.trying bytes.val .entry] }
  | cancels {i : Nat} (bytes : Nat) (point : ReservePoint)
      (present : s.agents[i]? = some (.reserving bytes point)) :
      Transition s (.cancelReserve i) (s.replace i .finished)
  | attaches {i : Nat} (r : ByteReservation T) (stage : T)
      (present : s.agents[i]? = some (.owned r .idle)) :
      Transition s (.beginAttachStage i stage) (s.replace i (beginAttach r stage))
  | reconciles {i : Nat} (r : ByteReservation T) (actual : U64)
      (present : s.agents[i]? = some (.owned r .idle)) :
      Transition s (.beginReconcile i actual) (s.replace i (beginReconcile r actual.val))
  | drops {i : Nat} (r : ByteReservation T) (present : s.agents[i]? = some (.owned r .idle)) :
      Transition s (.beginDrop i) (s.replace i (beginDrop r))
  | advances {i : Nat} {a a' : Agent T} {k : Counters T} {notifies : Bool}
      (present : s.agents[i]? = some a)
      (moved : advanceAgent s.capacity s.counters a = some (a', k, notifies)) :
      Transition s (.advance i) ⟨s.capacity, k,
        if notifies then (s.agents.set i a').map Agent.notify else s.agents.set i a'⟩

theorem transition_of_step {s s' : State T} {action : Action T}
    (taken : step s action = some s') : Transition s action s' := by
  cases action with
  | startReserve bytes =>
      cases taken
      exact .startsReserve bytes
  | startTryReserve bytes =>
      cases taken
      exact .startsTry bytes
  | cancelReserve i =>
      simp only [step] at taken
      split at taken
      case h_1 bytes point present =>
        cases taken
        exact .cancels bytes point present
      case h_2 => cases taken
  | beginAttachStage i stage =>
      simp only [step] at taken
      split at taken
      case h_1 r present =>
        cases taken
        exact .attaches r stage present
      case h_2 => cases taken
  | beginReconcile i actual =>
      simp only [step] at taken
      split at taken
      case h_1 r present =>
        cases taken
        exact .reconciles r actual present
      case h_2 => cases taken
  | beginDrop i =>
      simp only [step] at taken
      split at taken
      case h_1 r present =>
        cases taken
        exact .drops r present
      case h_2 => cases taken
  | advance i =>
      simp only [step] at taken
      split at taken
      case h_1 a present =>
        split at taken
        case h_1 a' k notifies moved =>
          cases taken
          exact .advances present moved
        case h_2 => cases taken
      case h_2 => cases taken

end Steps

/-! ## Operations that are not interrupted

Run to its end with no other agent in between, an operation does what the function
of the same name in `ByteBudget` says.
-/

section Uninterrupted

variable {T : Type} [DecidableEq T]

def settle (capacity : Nat) : Nat → Counters T → Agent T → Agent T × Counters T
  | 0, k, a => (a, k)
  | steps + 1, k, a =>
      match advanceAgent capacity k a with
      | some (a', k', _) => settle capacity steps k' a'
      | none => (a, k)

theorem settle_beginAttach (capacity : Nat) (k : Counters T) (r : ByteReservation T) (stage : T) :
    settle capacity 3 k (beginAttach r stage) =
      (.owned (r.attachStage stage k).1 .idle, (r.attachStage stage k).2) := by
  obtain ⟨held, attached⟩ := r
  by_cases empty : 0 < held
  · cases attached with
    | none =>
        simp [beginAttach, empty, settle, advanceAgent, advanceOwned,
          ByteReservation.attachStage, ByteReservation.detachStage]
    | some previous =>
        simp [beginAttach, empty, settle, advanceAgent, advanceOwned,
          ByteReservation.attachStage, ByteReservation.detachStage]
  · cases attached with
    | none =>
        simp [beginAttach, empty, settle, advanceAgent, advanceOwned,
          ByteReservation.attachStage, ByteReservation.detachStage]
    | some previous =>
        simp [beginAttach, empty, settle, advanceAgent, advanceOwned,
          ByteReservation.attachStage, ByteReservation.detachStage]

theorem settle_beginReconcile (capacity : Nat) (k : Counters T) (r : ByteReservation T)
    (actual : Nat) :
    settle capacity 4 k (beginReconcile r actual) =
      (.owned (r.reconcile actual k).1 .idle, (r.reconcile actual k).2) := by
  obtain ⟨held, attached⟩ := r
  by_cases same : actual = held
  · simp [beginReconcile, same, settle, advanceAgent, advanceOwned, ByteReservation.reconcile]
  · by_cases shrinks : actual < held
    · cases attached with
      | none =>
          simp [beginReconcile, same, settle, advanceAgent, advanceOwned, finishReconcile,
            ByteReservation.reconcile, shrinks]
      | some stage =>
          simp [beginReconcile, same, settle, advanceAgent, advanceOwned, finishReconcile,
            ByteReservation.reconcile, shrinks]
    · cases attached with
      | none =>
          simp [beginReconcile, same, settle, advanceAgent, advanceOwned, finishReconcile,
            ByteReservation.reconcile, shrinks]
      | some stage =>
          simp [beginReconcile, same, settle, advanceAgent, advanceOwned, finishReconcile,
            ByteReservation.reconcile, shrinks]

theorem settle_beginDrop (capacity : Nat) (k : Counters T) (r : ByteReservation T) :
    settle capacity 4 k (beginDrop r) = (.finished, r.release k) := by
  obtain ⟨held, attached⟩ := r
  by_cases empty : 0 < held
  · cases attached with
    | none =>
        simp [beginDrop, empty, settle, advanceAgent, advanceOwned, ByteReservation.release,
          ByteReservation.detachStage]
    | some previous =>
        simp [beginDrop, empty, settle, advanceAgent, advanceOwned, ByteReservation.release,
          ByteReservation.detachStage]
  · simp [beginDrop, empty, settle, advanceAgent, ByteReservation.release]

theorem settle_tryReserve (capacity : Nat) (k : Counters T) (bytes : Nat) :
    settle capacity 2 k (.trying bytes .entry) =
      match k.tryReserve capacity bytes with
      | some (r, k') => (.owned r .idle, k')
      | none => (.finished, k) := by
  by_cases empty : bytes = 0
  · simp [settle, advanceAgent, advanceTry, advanceOwned, Counters.tryReserve, empty]
  · cases added : checkedAdd k.inFlight bytes with
    | none => simp [settle, advanceAgent, advanceTry, Counters.tryReserve, empty, added]
    | some next =>
        by_cases full : next > capacity
        · simp [settle, advanceAgent, advanceTry, Counters.tryReserve, empty, added, full]
        · simp [settle, advanceAgent, advanceTry, Counters.tryReserve, empty, added, full]

theorem settle_reserve (capacity : Nat) (k : Counters T) (bytes : Nat)
    (fits : k.fitsSaturating capacity bytes = true) :
    settle capacity 3 k (.reserving bytes .loopHead) =
      (.owned (k.reserve bytes).1 .idle, (k.reserve bytes).2) := by
  have room : saturatingAdd k.inFlight bytes ≤ capacity := of_decide_eq_true fits
  by_cases empty : bytes = 0
  · simp [settle, advanceAgent, advanceReserve, advanceOwned, Counters.reserve, empty]
  · simp [settle, advanceAgent, advanceReserve, Counters.reserve, Counters.addInFlight, empty,
      room]

end Uninterrupted

end OpendataIngest.Runtime.AtomicBudget
