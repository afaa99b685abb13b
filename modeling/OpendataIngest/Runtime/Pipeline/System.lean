import OpendataIngest.Lib.Machine
import OpendataIngest.Runtime.Pipeline.Actor

/-!
# Runs of the pipeline

`Runtime::run` as a machine: any component may take the next step.  The supervisor
cancels the hard-abort token once the actor has returned an error, and joins when
every task has ended.  A crash is a run that simply stops.
-/

set_option autoImplicit false

namespace OpendataIngest.Runtime.Pipeline

variable {R : Type}

inductive Action (R : Type) where
  | actor (action : ActorAction)
  | fetch (worker : Nat) (action : FetchAction)
  | decode (worker : Nat) (action : DecodeAction R)
  | writer (worker : Nat) (action : WriterAction)
  | cancelShutdownToken
  | cancelKillswitch
  | cancelHardAbort
  | discardDescriptor
  | discardFetched
  | discardSinkCommit
  | join

/-! ## Joining -/

def FetchPoint.joined : FetchPoint → RuntimeResult Unit
  | .exited result => result
  | _ => .ok ()

def DecodePoint.joined : DecodePoint R → RuntimeResult Unit
  | .exited result => result
  | _ => .ok ()

def WriterPoint.joined : WriterPoint R → RuntimeResult Unit
  | .exited result => result
  | _ => .ok ()

/-- The first error of a pool, in spawn order. -/
def firstError : List (RuntimeResult Unit) → RuntimeResult Unit
  | [] => .ok ()
  | .error e :: _ => .error e
  | .ok _ :: rest => firstError rest

/-- The closing `match` of `Runtime::run`. -/
def runResult (actor fetch decode sink : RuntimeResult Unit) : RuntimeResult Unit :=
  match actor, fetch, decode, sink with
  | .error e, _, _, _ => .error e
  | .ok _, .error e, _, _ => .error e
  | .ok _, .ok _, .error e, _ => .error e
  | .ok _, .ok _, .ok _, .error e => .error e
  | .ok _, .ok _, .ok _, .ok _ => .ok ()

/-! ## Steps -/

def step [TypedRecords R] (cfg : Config) (s : State R) : Action R → Option (State R)
  | .actor action =>
      (stepActor cfg s.shutdown s.fetchersGone s.decodersGone s.writersGone s.actor s.shared
        action).map fun moved => { s with actor := moved.1, shared := moved.2 }
  | .fetch i action =>
      s.fetchers[i]?.bind fun p =>
        (stepFetch cfg s.killed s.decodersGone s.shared p action).map fun moved =>
          { s with fetchers := s.fetchers.set i moved.1, shared := moved.2 }
  | .decode i action =>
      s.decoders[i]?.bind fun p =>
        (stepDecode cfg s.fetchersGone s.writersGone s.shared p action).map fun moved =>
          { s with decoders := s.decoders.set i moved.1, shared := moved.2 }
  | .writer i action =>
      s.writers[i]?.bind fun p =>
        (stepWriter cfg s.decodersGone s.shared p action).map fun moved =>
          { s with writers := s.writers.set i moved.1, shared := moved.2 }
  | .cancelShutdownToken => some { s with shutdown := true }
  | .cancelKillswitch => if cfg.testFetchKillswitch then some { s with killed := true } else none
  | .cancelHardAbort =>
      match s.actor.point with
      | .exited (.error _) => some { s with shared := { s.shared with hardAbort := true } }
      | _ => none
  -- what is left in a channel is dropped with its last end
  | .discardDescriptor =>
      match s.shared.descriptors with
      | unit :: rest =>
          if s.actor.point.hasExited ∧ s.fetchersGone then
            some { s with
              shared := { s.shared with descriptors := rest }.dropUnit unit.reservation }
          else none
      | [] => none
  | .discardFetched =>
      match s.shared.fetched with
      | unit :: rest =>
          if s.fetchersGone ∧ s.decodersGone then
            some { s with shared := { s.shared with fetched := rest }.dropUnit unit.reservation }
          else none
      | [] => none
  | .discardSinkCommit =>
      match s.shared.sinkCommits with
      | unit :: rest =>
          if s.decodersGone ∧ s.writersGone then
            some { s with
              shared := { s.shared with sinkCommits := rest }.dropUnit unit.reservation }
          else none
      | [] => none
  | .join =>
      match s.actor.point, s.result with
      | .exited actorResult, none =>
          if s.fetchersGone ∧ s.decodersGone ∧ s.writersGone then
            some { s with result := some (runResult actorResult
              (firstError (s.fetchers.map FetchPoint.joined))
              (firstError (s.decoders.map DecodePoint.joined))
              (firstError (s.writers.map WriterPoint.joined))) }
          else none
      | _, _ => none

/-! ## Transitions

`step` read backwards: what each action does, with the guard under which it is taken. -/

inductive Transition [TypedRecords R] (cfg : Config) (s : State R) :
    Action R → State R → Prop where
  | actor {action : ActorAction} {a' : Actor} {sh' : Shared R}
      (moved : stepActor cfg s.shutdown s.fetchersGone s.decodersGone s.writersGone s.actor
        s.shared action = some (a', sh')) :
      Transition cfg s (.actor action) { s with actor := a', shared := sh' }
  | fetch {i : Nat} {action : FetchAction} {p p' : FetchPoint} {sh' : Shared R}
      (present : s.fetchers[i]? = some p)
      (moved : stepFetch cfg s.killed s.decodersGone s.shared p action = some (p', sh')) :
      Transition cfg s (.fetch i action) { s with fetchers := s.fetchers.set i p', shared := sh' }
  | decode {i : Nat} {action : DecodeAction R} {p p' : DecodePoint R} {sh' : Shared R}
      (present : s.decoders[i]? = some p)
      (moved : stepDecode cfg s.fetchersGone s.writersGone s.shared p action = some (p', sh')) :
      Transition cfg s (.decode i action) { s with decoders := s.decoders.set i p', shared := sh' }
  | writer {i : Nat} {action : WriterAction} {p p' : WriterPoint R} {sh' : Shared R}
      (present : s.writers[i]? = some p)
      (moved : stepWriter cfg s.decodersGone s.shared p action = some (p', sh')) :
      Transition cfg s (.writer i action) { s with writers := s.writers.set i p', shared := sh' }
  | shutsDown : Transition cfg s .cancelShutdownToken { s with shutdown := true }
  | kills (configured : cfg.testFetchKillswitch = true) :
      Transition cfg s .cancelKillswitch { s with killed := true }
  | hardAborts {error : RuntimeError} (failed : s.actor.point = .exited (.error error)) :
      Transition cfg s .cancelHardAbort
        { s with shared := { s.shared with hardAbort := true } }
  | discardsDescriptor {unit : AdmittedDescriptor} {rest : List AdmittedDescriptor}
      (queue : s.shared.descriptors = unit :: rest)
      (ended : s.actor.point.hasExited = true ∧ s.fetchersGone = true) :
      Transition cfg s .discardDescriptor
        { s with shared := { s.shared with descriptors := rest }.dropUnit unit.reservation }
  | discardsFetched {unit : FetchedBatch} {rest : List FetchedBatch}
      (queue : s.shared.fetched = unit :: rest)
      (ended : s.fetchersGone = true ∧ s.decodersGone = true) :
      Transition cfg s .discardFetched
        { s with shared := { s.shared with fetched := rest }.dropUnit unit.reservation }
  | discardsSinkCommit {unit : SinkCommitEnvelope R} {rest : List (SinkCommitEnvelope R)}
      (queue : s.shared.sinkCommits = unit :: rest)
      (ended : s.decodersGone = true ∧ s.writersGone = true) :
      Transition cfg s .discardSinkCommit
        { s with shared := { s.shared with sinkCommits := rest }.dropUnit unit.reservation }
  | joins {actorResult : RuntimeResult Unit} (exited : s.actor.point = .exited actorResult)
      (unjoined : s.result = none)
      (gone : s.fetchersGone = true ∧ s.decodersGone = true ∧ s.writersGone = true) :
      Transition cfg s .join
        { s with result := some (runResult actorResult
            (firstError (s.fetchers.map FetchPoint.joined))
            (firstError (s.decoders.map DecodePoint.joined))
            (firstError (s.writers.map WriterPoint.joined))) }

theorem transition_of_step [TypedRecords R] {cfg : Config} {s s' : State R} {action : Action R}
    (taken : step cfg s action = some s') : Transition cfg s action s' := by
  cases action with
  | actor action =>
      obtain ⟨moved, steps, rfl⟩ := Option.map_eq_some_iff.mp taken
      exact .actor steps
  | fetch i action =>
      obtain ⟨p, present, moves⟩ := Option.bind_eq_some_iff.mp taken
      obtain ⟨moved, steps, rfl⟩ := Option.map_eq_some_iff.mp moves
      exact .fetch present steps
  | decode i action =>
      obtain ⟨p, present, moves⟩ := Option.bind_eq_some_iff.mp taken
      obtain ⟨moved, steps, rfl⟩ := Option.map_eq_some_iff.mp moves
      exact .decode present steps
  | writer i action =>
      obtain ⟨p, present, moves⟩ := Option.bind_eq_some_iff.mp taken
      obtain ⟨moved, steps, rfl⟩ := Option.map_eq_some_iff.mp moves
      exact .writer present steps
  | cancelShutdownToken =>
      cases taken
      exact .shutsDown
  | cancelKillswitch =>
      simp only [step] at taken
      split_ifs at taken with configured
      cases taken
      exact .kills configured
  | cancelHardAbort =>
      simp only [step] at taken
      split at taken
      case h_1 error failed =>
        cases taken
        exact .hardAborts failed
      case h_2 => cases taken
  | discardDescriptor =>
      simp only [step] at taken
      split at taken
      case h_1 unit rest queue =>
        split_ifs at taken with ended
        cases taken
        exact .discardsDescriptor queue ended
      case h_2 => cases taken
  | discardFetched =>
      simp only [step] at taken
      split at taken
      case h_1 unit rest queue =>
        split_ifs at taken with ended
        cases taken
        exact .discardsFetched queue ended
      case h_2 => cases taken
  | discardSinkCommit =>
      simp only [step] at taken
      split at taken
      case h_1 unit rest queue =>
        split_ifs at taken with ended
        cases taken
        exact .discardsSinkCommit queue ended
      case h_2 => cases taken
  | join =>
      simp only [step] at taken
      split at taken
      case h_1 actorResult exited unjoined =>
        split_ifs at taken with gone
        cases taken
        exact .joins exited unjoined gone
      case h_2 => cases taken

theorem Transition.taken [TypedRecords R] {cfg : Config} {s s' : State R} {action : Action R}
    (transition : Transition cfg s action s') : step cfg s action = some s' := by
  cases transition with
  | actor moved => exact Option.map_eq_some_iff.mpr ⟨_, moved, rfl⟩
  | fetch present moved =>
      exact Option.bind_eq_some_iff.mpr ⟨_, present, Option.map_eq_some_iff.mpr ⟨_, moved, rfl⟩⟩
  | decode present moved =>
      exact Option.bind_eq_some_iff.mpr ⟨_, present, Option.map_eq_some_iff.mpr ⟨_, moved, rfl⟩⟩
  | writer present moved =>
      exact Option.bind_eq_some_iff.mpr ⟨_, present, Option.map_eq_some_iff.mpr ⟨_, moved, rfl⟩⟩
  | shutsDown => rfl
  | kills configured => exact if_pos configured
  | hardAborts failed => simp only [step, failed]
  | discardsDescriptor queue ended => simp only [step, queue, if_pos ended]
  | discardsFetched queue ended => simp only [step, queue, if_pos ended]
  | discardsSinkCommit queue ended => simp only [step, queue, if_pos ended]
  | joins exited unjoined gone => simp only [step, exited, unjoined, if_pos gone]

def machine (R : Type) [TypedRecords R] (cfg : Config) : Machine (State R) (Action R) where
  start := State.start cfg
  step := step cfg

end OpendataIngest.Runtime.Pipeline
