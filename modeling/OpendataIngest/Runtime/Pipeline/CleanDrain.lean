import OpendataIngest.Runtime.Pipeline.Builder
import OpendataIngest.Runtime.Pipeline.Faultless
import OpendataIngest.Runtime.Pipeline.Journal
import OpendataIngest.Runtime.Pipeline.Shutdown

/-!
# The way to a clean end

A run in which nothing has failed is never in a trap: the actor can get back to its
`select!`, shutdown can be asked for there, and while the run is closing down some task can
move without a failure.  So `Runtime::run` can still return `Ok`, with every descriptor that
was handed out committed and acknowledged to the buffer.
-/

set_option autoImplicit false

namespace OpendataIngest.Runtime.Pipeline

open MachineInt

variable {R : Type}

/-! ## Answers without a failure -/

def emptyBatch (unit : FetchedBatch) (empty : R) : DecodedBatch R where
  source := unit.sourceBatch.source
  lowSequence := unit.admittedSequence
  highSequence := unit.admittedSequence
  sourceEntryCount := 0
  records := empty
  sourceColumns := ⟨"", "", [], [], [], []⟩
  stats := ⟨0, 0⟩
  schemaVersion := ⟨1⟩

/-- A decoder that finds no records in the batch of the unit. -/
def emptyDecoder (unit : FetchedBatch) (empty : R) : Decoder R where
  accepts _ := true
  decode _ := .ok [emptyBatch unit empty]

/-- A worker that has moved on its own, or got an answer, could have done so without a
failure. -/
theorem fetch_cleanly {cfg : Config} {killed decodersGone : Bool} {sh sh' : Shared R}
    {p p' : FetchPoint} {action : FetchAction} (progress : action.isProgress = true)
    (taken : stepFetch cfg killed decodersGone sh p action = some (p', sh')) :
    ∃ action' p'' sh'', stepFetch cfg killed decodersGone sh p action' = some (p'', sh'') ∧
      action'.faults p'' = [] := by
  cases action with
  | answer fetched =>
      cases fetchStep_of_stepFetch taken with
      | fetches unit | fetchFails unit =>
          exact ⟨_, _, _, (FetchStep.fetches unit
            (.ok ⟨[], unit.descriptor.sequence, unit.descriptor.location, []⟩) _ rfl).taken, rfl⟩
  | kill => cases progress
  | abort => cases progress
  | panic message => cases progress
  | _ => exact ⟨_, _, _, taken, rfl⟩

theorem writer_cleanly {cfg : Config} {decodersGone : Bool} {sh sh' : Shared R}
    {p p' : WriterPoint R} {action : WriterAction} (progress : action.isProgress = true)
    (taken : stepWriter cfg decodersGone sh p action = some (p', sh')) :
    ∃ action' p'' sh'', stepWriter cfg decodersGone sh p action' = some (p'', sh'') ∧
      action'.faults p'' = [] := by
  cases action with
  | write answer =>
      cases p with
      | writing attempt unit =>
          exact ⟨_, _, _, (WriterStep.writes attempt unit ⟨0, 0⟩).taken, rfl⟩
      | _ => cases taken
  | check answer =>
      cases p with
      | checking attempt unit error =>
          exact ⟨_, _, _, (WriterStep.finds attempt unit error).taken, rfl⟩
      | _ => cases taken
  | abort => cases progress
  | panic message => cases progress
  | _ => exact ⟨_, _, _, taken, rfl⟩

section Decode

variable [TypedRecords R]

theorem actualBytes_empty (unit : FetchedBatch) {empty : R}
    (small : TypedRecords.estimatedBytes empty = 0) : actualBytes (emptyBatch unit empty) = 0 := by
  rw [actualBytes, emptyBatch, small]
  rfl

/-- A batch without records passes every check. -/
theorem decodes_empty (cfg : Config) (unit : FetchedBatch) (k : Counters Stage) {empty : R}
    (small : TypedRecords.estimatedBytes empty = 0) : ∃ outcome reservation k',
    decodeOne cfg (emptyDecoder unit empty) unit k = (.ok outcome, reservation, k') := by
  have checked : checkDecoded (emptyDecoder unit empty) unit = .ok (emptyBatch unit empty) := by
    unfold checkDecoded emptyDecoder
    cases unit.sourceBatch.entries.head? with
    | none => simp [emptyBatch]
    | some first => simp [emptyBatch]
  have within : ¬ actualBytes (emptyBatch unit empty) > cfg.bp.faultLimit := by
    rw [actualBytes_empty unit small]
    exact Nat.not_lt_zero _
  unfold decodeOne
  rw [checked]
  dsimp only
  rw [if_neg within]
  exact ⟨_, _, _, rfl⟩

theorem decode_cleanly {cfg : Config} {fetchersGone writersGone : Bool} {sh sh' : Shared R}
    {p p' : DecodePoint R} {action : DecodeAction R} {empty : R}
    (small : TypedRecords.estimatedBytes empty = 0) (progress : action.isProgress = true)
    (taken : stepDecode cfg fetchersGone writersGone sh p action = some (p', sh')) :
    ∃ action' p'' sh'', stepDecode cfg fetchersGone writersGone sh p action' =
      some (p'', sh'') ∧ action'.faults p'' = [] := by
  cases action with
  | decode decoder =>
      cases p with
      | decoding unit =>
          obtain ⟨outcome, reservation, k, decoded⟩ := decodes_empty cfg unit sh.counters small
          cases outcome with
          | live commit range =>
              exact ⟨_, _, _, (DecodeStep.decodes unit _ commit range reservation k decoded).taken,
                rfl⟩
          | dryRun range rows =>
              exact ⟨_, _, _,
                (DecodeStep.decodesDry unit _ range rows reservation k decoded).taken, rfl⟩
      | _ => cases taken
  | abort => cases progress
  | panic message => cases progress
  | _ => exact ⟨_, _, _, taken, rfl⟩

end Decode

/-! ## Closing down -/

section Closing

variable [TypedRecords R] {cfg : Config} {s : State R} {empty : R}

/-- Some task moves without a failure. -/
def State.AdvancesCleanly (cfg : Config) (s : State R) : Prop :=
  ∃ action s', Action.isSignal action = false ∧ step cfg s action = some s' ∧
    faults action s' = []

theorem Closing.actor_cleanly (closing : Closing cfg s) {action : ActorAction} {a' : Actor}
    {sh' : Shared R} (taken : stepActor cfg s.shutdown s.fetchersGone s.decodersGone
      s.writersGone s.actor s.shared action = some (a', sh')) : s.AdvancesCleanly cfg := by
  have running := (stepActor_flow taken).alive
  cases action with
  | nextDescriptors answer =>
      have admits := closing.notAdmitting running
      cases actorStep_of_stepActor taken with
      | pollFails _ gates error at_polling | admits _ gates descriptors at_polling =>
          rw [at_polling] at admits
          cases admits
  | flushed answer =>
      cases actorStep_of_stepActor taken with
      | flushed sequence frontier at_flushing =>
          exact ⟨.actor _, _, rfl,
            Transition.taken (.actor (ActorStep.flushed sequence frontier at_flushing).taken), rfl⟩
      | flushFails sequence error at_flushing =>
          rcases at_flushing with ⟨frontier, at_flushing⟩ | at_flushing
          · exact ⟨.actor _, _, rfl,
              Transition.taken (.actor (ActorStep.flushed sequence frontier at_flushing).taken),
              rfl⟩
          · exact ⟨.actor _, _, rfl,
              Transition.taken (.actor (ActorStep.flushedLast sequence at_flushing).taken), rfl⟩
      | flushedLast sequence at_flushing =>
          exact ⟨.actor _, _, rfl,
            Transition.taken (.actor (ActorStep.flushedLast sequence at_flushing).taken), rfl⟩
  | _ => exact ⟨.actor _, _, rfl, Transition.taken (.actor taken), rfl⟩

theorem Closing.advances_cleanly (closing : Closing cfg s) (notJoined : s.result = none)
    (small : TypedRecords.estimatedBytes empty = 0) : s.AdvancesCleanly cfg := by
  obtain ⟨action, s', progress, taken⟩ := closing.advances notJoined
  cases transition_of_step taken with
  | actor moved => exact closing.actor_cleanly moved
  | fetch present moved =>
      obtain ⟨action', p', sh', moved', quiet⟩ := fetch_cleanly progress moved
      exact ⟨.fetch _ action', _, rfl, Transition.taken (.fetch present moved'),
        (faults_fetch _ present _ _).trans quiet⟩
  | decode present moved =>
      obtain ⟨action', p', sh', moved', quiet⟩ := decode_cleanly small progress moved
      exact ⟨.decode _ action', _, rfl, Transition.taken (.decode present moved'),
        (faults_decode _ present _ _).trans quiet⟩
  | writer present moved =>
      obtain ⟨action', p', sh', moved', quiet⟩ := writer_cleanly progress moved
      exact ⟨.writer _ action', _, rfl, Transition.taken (.writer present moved'),
        (faults_writer _ present _ _).trans quiet⟩
  | joins exited unjoined gone => exact ⟨.join, _, rfl, taken, rfl⟩
  | _ => cases progress

/-- A state of a run in which nothing has failed. -/
structure Clean (cfg : Config) (s : State R × List Fault) : Prop where
  reachable : ((machine R cfg).traced faults).Reachable s
  noFaults : s.2 = []

theorem Clean.takes {s : State R × List Fault} (clean : Clean cfg s) {action : Action R}
    {s' : State R} (taken : step cfg s.1 action = some s') (quiet : faults action s' = []) :
    ((machine R cfg).traced faults).step s action = some (s', []) ∧ Clean cfg (s', []) := by
  have stepped : ((machine R cfg).traced faults).step s action = some (s', []) := by
    refine Machine.traced_step.mpr ⟨taken, ?_⟩
    rw [clean.noFaults, quiet]
    rfl
  exact ⟨stepped, .step action clean.reachable stepped, rfl⟩

theorem Clean.closing {s : State R × List Fault} (clean : Clean cfg s)
    (closed : s.1.shared.descriptorClosed = true) : Closing cfg s.1 :=
  ⟨clean.reachable.untraced, closed⟩

/-- A run that is closing down can return without a failure. -/
theorem Clean.drains {s : State R × List Fault} (clean : Clean cfg s)
    (closed : s.1.shared.descriptorClosed = true)
    (small : TypedRecords.estimatedBytes empty = 0) : ((machine R cfg).traced faults).CanReach
      (fun s => Clean cfg s ∧ ∃ result, s.1.result = some result) s := by
  refine Machine.canReach_of_rank
    (P := fun s => Clean cfg s ∧ s.1.shared.descriptorClosed = true)
    (fun s => s.1.stepsLeft cfg) ?_ s ⟨clean, closed⟩
  rintro s ⟨clean, closed⟩
  have closing := clean.closing closed
  cases returned : s.1.result with
  | some result => exact Or.inl ⟨clean, result, rfl⟩
  | none =>
      obtain ⟨action, s', acts, taken, quiet⟩ := closing.advances_cleanly returned small
      obtain ⟨stepped, clean'⟩ := clean.takes taken quiet
      exact Or.inr ⟨action, _, stepped, ⟨clean', (closing.step taken).closed⟩,
        closing.lowers taken acts⟩

end Closing

/-! ## Back to the `select!` -/

section Select

variable [TypedRecords R] {cfg : Config}

/-- How many moves of its own the actor is away from its `select!`. -/
def State.untilSelect (cfg : Config) (s : State R) : Nat :=
  match s.actor.point with
  | .measuring _ => 2 * (kTarget cfg (saturatingSub cfg.capacity s.shared.counters.inFlight /
      max cfg.estimate 1) s.shared.freePermits - 1) + 5
  | .counting _ roomUnits => 2 * (kTarget cfg roomUnits s.shared.freePermits - 1) + 4
  | .extending _ extras => 2 * extras + 3
  | .extendingBytes _ extras => 2 * extras + 4
  | .polling _ => 2
  | .sending units => units.length + 1
  | .sleeping => 1
  | .flushing _ _ => 1
  | .finalFlush _ => 1
  | .select _ => 0
  | .exited _ => 0

/-- The actor is at its `select!`, or admits nothing any more. -/
def State.Selecting (s : State R) : Prop :=
  s.shared.descriptorClosed = true ∨ ∃ permit, s.actor.point = .select permit

/-- A step without a failure brings the actor nearer to its `select!`. -/
def Nearing (cfg : Config) (s : State R × List Fault) : Prop :=
  ∃ action s', ((machine R cfg).traced faults).step s action = some s' ∧ Clean cfg s' ∧
    s'.1.untilSelect cfg < s.1.untilSelect cfg

theorem Clean.nears {s : State R × List Fault} (clean : Clean cfg s) {action : ActorAction}
    {a' : Actor} {sh' : Shared R}
    (moved : ActorStep cfg s.1.shutdown s.1.fetchersGone s.1.decodersGone s.1.writersGone s.1.actor
      s.1.shared action a' sh') (quiet : action.faults a'.point = [])
    (nearer : State.untilSelect cfg { s.1 with actor := a', shared := sh' } <
      s.1.untilSelect cfg) : Nearing cfg s := by
  obtain ⟨stepped, clean'⟩ := clean.takes (Transition.taken (.actor moved.taken)) quiet
  exact ⟨_, _, stepped, clean', nearer⟩

theorem Clean.extends_on {s : State R × List Fault} (clean : Clean cfg s)
    {gates : List Reservation} {extras : Nat}
    (at_point : s.1.actor.point = .extending gates extras) : Nearing cfg s := by
  cases extras with
  | zero =>
      refine clean.nears (.enough gates at_point) rfl ?_
      simp only [State.untilSelect, at_point]
      omega
  | succ extras =>
      by_cases available : 0 < s.1.shared.freePermits
      · refine clean.nears (.takesPermit gates extras at_point available) rfl ?_
        simp only [State.untilSelect, at_point]
        omega
      · refine clean.nears (.noPermit gates extras at_point available) rfl ?_
        simp only [State.untilSelect, at_point]
        omega

theorem Clean.reserves_on {s : State R × List Fault} (clean : Clean cfg s)
    {gates : List Reservation} {extras : Nat}
    (at_point : s.1.actor.point = .extendingBytes gates extras) : Nearing cfg s := by
  cases reserved : s.1.shared.counters.tryReserve cfg.capacity cfg.estimate with
  | some claimed =>
      obtain ⟨extra, k⟩ := claimed
      refine clean.nears (.takesBytes false gates extras extra k at_point (by simp) reserved) rfl ?_
      simp only [State.untilSelect, at_point]
      omega
  | none =>
      refine clean.nears (.noBytes false gates extras at_point (Or.inr reserved)) rfl ?_
      simp only [State.untilSelect, at_point]
      omega

/-- Nobody has closed the queue that the actor sends to. -/
theorem Clean.reads_descriptors {s : State R × List Fault} (clean : Clean cfg s)
    {units : List AdmittedDescriptor} (sending : s.1.actor.point = .sending units) :
    ¬ (s.1.shared.descriptorClosed = true ∨ s.1.fetchersGone = true) := by
  have orderly := orderly_of_reachable clean.reachable.untraced
  have running : s.1.actor.point.hasExited = false := by
    rw [sending]
    rfl
  have notClosed := orderly.descriptorClosed running
  rw [orderly.admitting (by rw [sending]; rfl)] at notClosed
  have intact := (calm_of_reachable clean.reachable clean.noFaults).intact orderly running
  rintro (closed | gone)
  · rw [notClosed] at closed
    cases closed
  · rw [(orderly.descriptors_read intact gone).1] at notClosed
    cases notClosed

theorem Clean.sends_on {s : State R × List Fault} (clean : Clean cfg s)
    {units : List AdmittedDescriptor} (at_point : s.1.actor.point = .sending units) :
    Nearing cfg s := by
  cases units with
  | nil =>
      refine clean.nears (.sentAll at_point) rfl ?_
      simp only [State.untilSelect, at_point]
      omega
  | cons unit rest =>
      have room := room_for_descriptor (accounts_of_reachable clean.reachable.untraced) at_point
      refine clean.nears (.sends unit rest at_point (clean.reads_descriptors at_point) room) rfl ?_
      simp only [State.untilSelect, at_point, List.length_cons]
      omega

/-- The moves of the actor alone lead back to its `select!`. -/
theorem Clean.selects {s : State R × List Fault} (clean : Clean cfg s) :
    ((machine R cfg).traced faults).CanReach (fun s => Clean cfg s ∧ s.1.Selecting) s := by
  refine Machine.canReach_of_rank (P := Clean cfg) (fun s => s.1.untilSelect cfg) ?_ s clean
  intro s clean
  have orderly := orderly_of_reachable clean.reachable.untraced
  cases at_point : s.1.actor.point with
  | select permit => exact Or.inl ⟨clean, Or.inr ⟨permit, at_point⟩⟩
  | exited result =>
      exact Or.inl ⟨clean, Or.inl (orderly.exitClosed (by rw [at_point]; rfl))⟩
  | extending gates extras => exact Or.inr (clean.extends_on at_point)
  | extendingBytes gates extras => exact Or.inr (clean.reserves_on at_point)
  | sending units => exact Or.inr (clean.sends_on at_point)
  | sleeping =>
      right
      refine clean.nears (.wakes at_point) rfl ?_
      simp [State.untilSelect, at_point]
  | measuring gate =>
      right
      refine clean.nears (.measures gate _ at_point rfl) rfl ?_
      simp only [State.untilSelect, at_point]
      omega
  | counting gate roomUnits =>
      right
      refine clean.nears (.counts gate roomUnits at_point) rfl ?_
      simp only [State.untilSelect, at_point]
      omega
  | polling gates =>
      right
      refine clean.nears (.admits (.ok []) gates [] at_point rfl (Nat.zero_le _)) rfl ?_
      simp only [State.untilSelect, at_point, admission]
      omega
  | flushing sequence frontier =>
      right
      refine clean.nears (.flushed sequence frontier at_point) rfl ?_
      simp only [State.untilSelect, at_point, Actor.acked, Actor.publish]
      omega
  | finalFlush sequence =>
      right
      refine clean.nears (.flushedLast sequence at_point) rfl ?_
      simp only [State.untilSelect, at_point, leaveCleanly, exitActor]
      omega

/-- At the `select!` the shutdown token can be cancelled, and the actor sees it. -/
theorem Clean.closes {s : State R × List Fault} (clean : Clean cfg s) (selecting : s.1.Selecting) :
    ((machine R cfg).traced faults).CanReach
      (fun s => Clean cfg s ∧ s.1.shared.descriptorClosed = true) s := by
  rcases selecting with closed | ⟨permit, at_select⟩
  · exact ⟨[], s, rfl, clean, closed⟩
  have orderly := orderly_of_reachable clean.reachable.untraced
  cases isOpen : s.1.actor.admissionOpen with
  | false =>
      have closed := orderly.descriptorClosed (by rw [at_select]; rfl)
      rw [isOpen] at closed
      exact ⟨[], s, rfl, clean, closed⟩
  | true =>
      obtain ⟨cancelled, asked⟩ := clean.takes (Transition.taken .shutsDown) rfl
      obtain ⟨observed, closing⟩ := asked.takes
        (Transition.taken (.actor (ActorStep.closes permit at_select rfl isOpen).taken)) rfl
      exact .cons cancelled (.cons observed ⟨[], _, rfl, closing, rfl⟩)

/-- What is on record stays on record. -/
theorem runFrom_history {s s' : State R × List Fault} {actions : List (Action R)}
    (ran : ((machine R cfg).traced faults).runFrom s actions = some s') {event : Event}
    (member : event ∈ s.1.shared.history) : event ∈ s'.1.shared.history := by
  induction actions generalizing s with
  | nil =>
      cases ran
      exact member
  | cons action rest ih =>
      obtain ⟨next, taken, later⟩ := Option.bind_eq_some_iff.mp ran
      obtain ⟨events, added, _⟩ := step_caused (Machine.traced_step.mp taken).1
      refine ih later ?_
      rw [added]
      exact List.mem_append_right _ member

/-- As long as nothing has failed, a clean end stays in reach: some continuation without a
failure returns `Ok`, with every descriptor handed out so far committed and, in a live run,
covered by the last durable ack. -/
theorem clean_end_always_in_reach (cfg : Config) (s : State R) (empty : R)
    (small : TypedRecords.estimatedBytes empty = 0)
    (reachable : ((machine R cfg).traced faults).Reachable (s, [])) :
    ∃ actions s', ((machine R cfg).traced faults).runFrom (s, []) actions = some (s', []) ∧
      s'.result = some (.ok ()) ∧
      ∀ sequences, .handedOut sequences ∈ s.shared.history → ∀ q ∈ sequences,
        .markedCommitted q q ∈ s'.shared.history ∧
        (cfg.dryRun = false → cfg.baseline ≠ some u64Max →
          ∃ top, (durableAcks s'.shared.history).getLast? = some top ∧ q ≤ top) := by
  have clean : Clean cfg (s, []) := ⟨reachable, rfl⟩
  have drains := (clean.selects.trans fun _ near => near.1.closes near.2).trans
    fun _ closing => closing.1.drains closing.2 small
  obtain ⟨actions, ⟨s', log⟩, ran, ended, result, returned⟩ := drains
  have none : log = [] := ended.noFaults
  subst none
  have base := ended.reachable.untraced
  obtain ⟨isOk, committed⟩ := returns_ok ended.reachable returned
  rw [isOk] at returned
  refine ⟨actions, s', ran, returned, fun sequences member q inList => ?_⟩
  have given := runFrom_history ran member
  refine ⟨committed sequences given q inList, fun live belowTop => ?_⟩
  have registered := (drained_of_reachable base).handedOut
    (calm_of_reachable ended.reachable rfl).exits sequences given q inList
  obtain ⟨top, isLast, _, largest⟩ := last_ack_is_largest live belowTop base returned registered
  exact ⟨top, isLast, largest q registered⟩

theorem clean_end_always_in_reach_in_flight : ∃ (s : State SizedRecords) (actions : _)
    (s' : State SizedRecords), .handedOut [0] ∈ s.shared.history ∧
      ((machine SizedRecords narrowConfig).traced faults).runFrom (s, []) actions =
        some (s', []) ∧
      s'.result = some (.ok ()) ∧ .markedCommitted 0 0 ∈ s'.shared.history ∧
      ∃ top, (durableAcks s'.shared.history).getLast? = some top := by
  have polls : (((machine SizedRecords narrowConfig).traced faults).run firstPollRun).map
      (fun s => (decide (.handedOut [0] ∈ s.1.shared.history), s.2)) = some (true, []) := by
    decide
  obtain ⟨⟨s, log⟩, ran, values⟩ := Option.map_eq_some_iff.mp polls
  obtain ⟨given, quiet⟩ := Prod.mk.inj values
  have reachable := Machine.run_reachable _ _ _ ran
  simp only at quiet
  rw [quiet] at reachable
  have member := of_decide_eq_true given
  obtain ⟨actions, s', continued, returned, committed⟩ :=
    clean_end_always_in_reach narrowConfig s ⟨0, 0⟩ rfl reachable
  obtain ⟨marked, acked⟩ := committed [0] member 0 (List.mem_singleton.mpr rfl)
  obtain ⟨top, isLast, _⟩ := acked rfl (by decide)
  exact ⟨s, actions, s', member, continued, returned, marked, top, isLast⟩

end Select

end OpendataIngest.Runtime.Pipeline
