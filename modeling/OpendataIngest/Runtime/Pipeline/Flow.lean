import OpendataIngest.Runtime.Pipeline.ActorMoves

/-!
# How the pipeline winds down

As long as no worker has failed, the pools end in order: a fetch worker leaves when the
descriptor channel is closed and empty, a decode worker when every fetch worker has
left and its channel is empty, and so on.  So no unit is stranded in a channel that
nobody reads.
-/

set_option autoImplicit false

namespace OpendataIngest.Runtime.Pipeline

open MachineInt Pool

variable {R : Type}

def FetchPoint.isFatal : FetchPoint → Bool
  | .reportingFatal _ _ => true
  | _ => false

def DecodePoint.isFatal : DecodePoint R → Bool
  | .reportingFatal _ _ => true
  | _ => false

def WriterPoint.isFatal : WriterPoint R → Bool
  | .reportingFatal _ _ => true
  | _ => false

/-- What a worker step leaves in the shared flags. -/
structure FlagsKept (sh sh' : Shared R) : Prop where
  descriptorClosed : sh'.descriptorClosed = sh.descriptorClosed
  completionClosed : sh'.completionClosed = sh.completionClosed
  hardAbort : sh'.hardAbort = sh.hardAbort
  failed_mono : sh.workerFailed = true → sh'.workerFailed = true

theorem FlagsKept.intact {sh sh' : Shared R} (flags : FlagsKept sh sh') (intact : Intact sh') :
    Intact sh where
  workerFailed := by
    cases failed : sh.workerFailed with
    | false => rfl
    | true =>
        have after := intact.workerFailed
        rw [flags.failed_mono failed] at after
        cases after
  hardAbort := flags.hardAbort ▸ intact.hardAbort
  completionClosed := flags.completionClosed ▸ intact.completionClosed

/-- A queue after a worker has possibly taken its head. -/
def Taken {A : Type} (queue queue' : List A) : Prop :=
  queue' = queue ∨ ∃ head, queue = head :: queue'

theorem Taken.empty {A : Type} {queue queue' : List A} (taken : Taken queue queue')
    (empty : queue = []) : queue' = [] := by
  rcases taken with same | ⟨head, cons⟩
  · rw [same, empty]
  · rw [empty] at cons
    cases cons

/-! ## The three pools -/

/-- What a worker step does to the channels (`moves`), and when a worker may leave
(`drained`).  A worker that has left takes no more steps. -/
structure Flow (sh sh' : Shared R) (wasExited isExited wasFatal isFatal : Bool)
    (moves drained : Prop) : Prop where
  flags : FlagsKept sh sh'
  alive : wasExited = false
  queues : moves
  fatal : isFatal = true → sh'.workerFailed = true
  leaves : isExited = true → Intact sh' → wasFatal = true ∨ drained

section Kinds

variable {sh sh' : Shared R} {wasExited isExited wasFatal isFatal : Bool} {moves drained : Prop}
  (flags : FlagsKept sh sh') (alive : wasExited = false) (moved : moves)
include flags alive moved

theorem Flow.goesOn (notFatal : isFatal = false) (notExited : isExited = false) :
    Flow sh sh' wasExited isExited wasFatal isFatal moves drained where
  flags := flags
  alive := alive
  queues := moved
  fatal reporting := by simp [notFatal] at reporting
  leaves left := by simp [notExited] at left

theorem Flow.fails (failed : sh'.workerFailed = true) :
    Flow sh sh' wasExited isExited wasFatal isFatal moves drained where
  flags := flags
  alive := alive
  queues := moved
  fatal _ := failed
  leaves _ intact := by simp [intact.workerFailed] at failed

theorem Flow.tornDown (notFatal : isFatal = false) (broken : ¬ Intact sh') :
    Flow sh sh' wasExited isExited wasFatal isFatal moves drained where
  flags := flags
  alive := alive
  queues := moved
  fatal reporting := by simp [notFatal] at reporting
  leaves _ intact := absurd intact broken

end Kinds

theorem not_intact_of_hardAbort {sh : Shared R} (aborted : sh.hardAbort = true) : ¬ Intact sh := by
  intro intact
  simp [intact.hardAbort] at aborted

theorem not_intact_of_completionClosed {sh : Shared R} (closed : sh.completionClosed = true) :
    ¬ Intact sh := by
  intro intact
  simp [intact.completionClosed] at closed

def FetchQueues (sh sh' : Shared R) : Prop :=
  Taken sh.descriptors sh'.descriptors ∧ sh'.sinkCommits = sh.sinkCommits

def DecodeQueues (sh sh' : Shared R) : Prop :=
  sh'.descriptors = sh.descriptors ∧ Taken sh.fetched sh'.fetched

def WriterQueues (sh sh' : Shared R) : Prop :=
  sh'.descriptors = sh.descriptors ∧ sh'.fetched = sh.fetched ∧
    Taken sh.sinkCommits sh'.sinkCommits

theorem stepFetch_flow {cfg : Config} {killed decodersGone : Bool} {sh sh' : Shared R}
    {p p' : FetchPoint} {action : FetchAction}
    (taken : stepFetch cfg killed decodersGone sh p action = some (p', sh')) :
    Flow sh sh' p.hasExited p'.hasExited p.isFatal p'.isFatal (FetchQueues sh sh')
      (sh'.descriptorClosed = true ∧ sh'.descriptors = []) := by
  have still : ∀ base : Shared R, base.descriptors = sh.descriptors →
      base.sinkCommits = sh.sinkCommits → FetchQueues sh base :=
    fun _ same commits => ⟨Or.inl same, commits⟩
  cases fetchStep_of_stepFetch taken with
  | takes unit rest queue =>
      exact .goesOn ⟨rfl, rfl, rfl, id⟩ rfl ⟨Or.inr ⟨unit, queue⟩, rfl⟩ rfl rfl
  | fetches | sends => exact .goesOn ⟨rfl, rfl, rfl, id⟩ rfl (still _ rfl rfl) rfl rfl
  | fetchFails | cutOff | isKilled =>
      exact .fails ⟨rfl, rfl, rfl, fun _ => rfl⟩ rfl (still _ rfl rfl) rfl
  | unheard | reports =>
      exact ⟨⟨rfl, rfl, rfl, id⟩, rfl, still _ rfl rfl, nofun, fun _ _ => Or.inl rfl⟩
  | leaves queue closed =>
      exact ⟨⟨rfl, rfl, rfl, id⟩, rfl, still _ rfl rfl, nofun,
        fun _ _ => Or.inr ⟨closed, queue⟩⟩
  | aborts aborting =>
      exact .tornDown ⟨rfl, rfl, rfl, id⟩ rfl (still _ rfl rfl) rfl
        (not_intact_of_hardAbort aborting)
  | abandons unit aborting =>
      exact .tornDown ⟨rfl, rfl, rfl, id⟩ rfl (still _ rfl rfl) rfl
        (not_intact_of_hardAbort aborting)
  | panics _ message alive =>
      obtain ⟨k, free, dropped⟩ := dropHeld_eq sh.fail p.reservation?
      rw [dropped]
      exact .fails ⟨rfl, rfl, rfl, fun _ => rfl⟩ alive (still _ rfl rfl) rfl

theorem stepDecode_flow [TypedRecords R] {cfg : Config} {fetchersGone writersGone : Bool}
    {sh sh' : Shared R} {p p' : DecodePoint R} {action : DecodeAction R}
    (taken : stepDecode cfg fetchersGone writersGone sh p action = some (p', sh')) :
    Flow sh sh' p.hasExited p'.hasExited p.isFatal p'.isFatal (DecodeQueues sh sh')
      (fetchersGone = true ∧ sh'.fetched = []) := by
  have still : ∀ base : Shared R, base.descriptors = sh.descriptors →
      base.fetched = sh.fetched → DecodeQueues sh base :=
    fun _ same fetched => ⟨same, Or.inl fetched⟩
  cases decodeStep_of_stepDecode taken with
  | takes unit rest queue =>
      exact .goesOn ⟨rfl, rfl, rfl, id⟩ rfl ⟨rfl, Or.inr ⟨unit, queue⟩⟩ rfl rfl
  | decodes | decodesDry | sends | reportsDryRun | releasesBytes | releasesPermit =>
      exact .goesOn ⟨rfl, rfl, rfl, id⟩ rfl (still _ rfl rfl) rfl rfl
  | decodeFails | cutOff => exact .fails ⟨rfl, rfl, rfl, fun _ => rfl⟩ rfl (still _ rfl rfl) rfl
  | dryRunUnheard report reservation closed =>
      exact .tornDown ⟨rfl, rfl, rfl, id⟩ rfl (still _ rfl rfl) rfl
        (not_intact_of_completionClosed closed)
  | unheard | reports =>
      exact ⟨⟨rfl, rfl, rfl, id⟩, rfl, still _ rfl rfl, nofun, fun _ _ => Or.inl rfl⟩
  | leaves queue gone =>
      exact ⟨⟨rfl, rfl, rfl, id⟩, rfl, still _ rfl rfl, nofun, fun _ _ => Or.inr ⟨gone, queue⟩⟩
  | aborts aborting =>
      exact .tornDown ⟨rfl, rfl, rfl, id⟩ rfl (still _ rfl rfl) rfl
        (not_intact_of_hardAbort aborting)
  | abandons unit aborting =>
      exact .tornDown ⟨rfl, rfl, rfl, id⟩ rfl (still _ rfl rfl) rfl
        (not_intact_of_hardAbort aborting)
  | panics _ message alive =>
      obtain ⟨k, free, dropped⟩ := dropHeld_eq sh.fail p.reservation?
      rw [dropped]
      exact .fails ⟨rfl, rfl, rfl, fun _ => rfl⟩ alive (still _ rfl rfl) rfl

theorem stepWriter_flow {cfg : Config} {decodersGone : Bool} {sh sh' : Shared R}
    {p p' : WriterPoint R} {action : WriterAction}
    (taken : stepWriter cfg decodersGone sh p action = some (p', sh')) :
    Flow sh sh' p.hasExited p'.hasExited p.isFatal p'.isFatal (WriterQueues sh sh')
      (decodersGone = true ∧ sh'.sinkCommits = []) := by
  have still : ∀ base : Shared R, base.descriptors = sh.descriptors →
      base.fetched = sh.fetched → base.sinkCommits = sh.sinkCommits → WriterQueues sh base :=
    fun _ same fetched commits => ⟨same, fetched, Or.inl commits⟩
  cases writerStep_of_stepWriter taken with
  | takes unit rest queue =>
      exact .goesOn ⟨rfl, rfl, rfl, id⟩ rfl ⟨rfl, rfl, Or.inr ⟨unit, queue⟩⟩ rfl rfl
  | writes | writeUnclear | finds | wakes | reportsCommit | releasesBytes | releasesPermit =>
      exact .goesOn ⟨rfl, rfl, rfl, id⟩ rfl (still _ rfl rfl rfl) rfl rfl
  | writeFails | checkFails =>
      exact .fails ⟨rfl, rfl, rfl, fun _ => rfl⟩ rfl (still _ rfl rfl rfl) rfl
  | retries _ _ attempt unit error event answered left =>
      exact .goesOn ⟨rfl, rfl, rfl, id⟩ answered.alive (still _ rfl rfl rfl) rfl rfl
  | givesUp _ _ attempt unit error event answered spent =>
      exact .fails ⟨rfl, rfl, rfl, fun _ => rfl⟩ answered.alive (still _ rfl rfl rfl) rfl
  | commitUnheard report reservation closed =>
      exact .tornDown ⟨rfl, rfl, rfl, id⟩ rfl (still _ rfl rfl rfl) rfl
        (not_intact_of_completionClosed closed)
  | unheard | reports =>
      exact ⟨⟨rfl, rfl, rfl, id⟩, rfl, still _ rfl rfl rfl, nofun, fun _ _ => Or.inl rfl⟩
  | leaves queue gone =>
      exact ⟨⟨rfl, rfl, rfl, id⟩, rfl, still _ rfl rfl rfl, nofun,
        fun _ _ => Or.inr ⟨gone, queue⟩⟩
  | aborts aborting =>
      exact .tornDown ⟨rfl, rfl, rfl, id⟩ rfl (still _ rfl rfl rfl) rfl
        (not_intact_of_hardAbort aborting)
  | abandons _ unit message inRetry aborting =>
      exact .fails ⟨rfl, rfl, rfl, fun _ => rfl⟩ inRetry.alive (still _ rfl rfl rfl) rfl
  | panics _ message alive =>
      obtain ⟨k, free, dropped⟩ := dropHeld_eq sh.fail p.reservation?
      rw [dropped]
      exact .fails ⟨rfl, rfl, rfl, fun _ => rfl⟩ alive (still _ rfl rfl rfl) rfl

/-! ## The actor -/

/-- The admission arm is running, or holds its first permit. -/
def ActorPoint.isAdmitting : ActorPoint → Bool
  | .select permit => permit
  | .measuring _ => true
  | .counting _ _ => true
  | .extending _ _ => true
  | .extendingBytes _ _ => true
  | .polling _ => true
  | .sending _ => true
  | _ => false

/-- The flags and the workers' channels are as before. -/
structure ChannelsKept (sh sh' : Shared R) : Prop where
  workerFailed : sh'.workerFailed = sh.workerFailed
  hardAbort : sh'.hardAbort = sh.hardAbort
  completionClosed : sh'.completionClosed = sh.completionClosed
  descriptorClosed : sh'.descriptorClosed = sh.descriptorClosed
  descriptors : sh'.descriptors = sh.descriptors
  fetched : sh'.fetched = sh.fetched
  sinkCommits : sh'.sinkCommits = sh.sinkCommits

theorem ChannelsKept.refl (sh : Shared R) : ChannelsKept sh sh :=
  ⟨rfl, rfl, rfl, rfl, rfl, rfl, rfl⟩

theorem ChannelsKept.cancelAdmission (sh : Shared R) (permit : Bool) :
    ChannelsKept sh (sh.cancelAdmission permit) := by
  rw [cancelAdmission_eq]
  exact ⟨rfl, rfl, rfl, rfl, rfl, rfl, rfl⟩

theorem ChannelsKept.dropGates (sh : Shared R) (gates : List Reservation) :
    ChannelsKept sh (sh.dropGates gates) := by
  rw [dropGates_eq]
  exact ⟨rfl, rfl, rfl, rfl, rfl, rfl, rfl⟩

structure ActorFlow (a a' : Actor) (sh sh' : Shared R) : Prop where
  alive : a.point.hasExited = false
  workerFailed : sh'.workerFailed = sh.workerFailed
  hardAbort : sh'.hardAbort = sh.hardAbort
  fetched : sh'.fetched = sh.fetched
  sinkCommits : sh'.sinkCommits = sh.sinkCommits
  completionClosed : sh'.completionClosed = (sh.completionClosed || a'.point.hasExited)
  descriptorClosed : a'.point.hasExited = false → sh.descriptorClosed = (!a.admissionOpen) →
    sh'.descriptorClosed = (!a'.admissionOpen)
  closed_mono : sh.descriptorClosed = true → sh'.descriptorClosed = true
  descriptors : sh.descriptorClosed = true → sh'.descriptors = sh.descriptors
  admitting : (a.point.isAdmitting = true → a.admissionOpen = true) →
    a'.point.isAdmitting = true → a'.admissionOpen = true
  exitClosed : a'.point.hasExited = true → sh'.descriptorClosed = true

theorem ActorFlow.exits {a : Actor} {sh : Shared R} (a₁ : Actor) (base : Shared R)
    (result : RuntimeResult Unit) (alive : a.point.hasExited = false)
    (kept : ChannelsKept sh base) :
    ActorFlow a (exitActor a₁ base result).1 sh (exitActor a₁ base result).2 where
  alive := alive
  workerFailed := kept.workerFailed
  hardAbort := kept.hardAbort
  fetched := kept.fetched
  sinkCommits := kept.sinkCommits
  completionClosed := by simp [exitActor, ActorPoint.hasExited]
  descriptorClosed running := by cases running
  closed_mono _ := rfl
  descriptors _ := kept.descriptors
  admitting _ := nofun
  exitClosed _ := rfl

theorem ActorFlow.stays {a a' : Actor} {sh sh' : Shared R} (alive : a.point.hasExited = false)
    (running : a'.point.hasExited = false) (kept : ChannelsKept sh sh')
    (sameOpen : a'.admissionOpen = a.admissionOpen)
    (admits : a'.point.isAdmitting = true → a.point.isAdmitting = true ∨ a.admissionOpen = true) :
    ActorFlow a a' sh sh' where
  alive := alive
  workerFailed := kept.workerFailed
  hardAbort := kept.hardAbort
  fetched := kept.fetched
  sinkCommits := kept.sinkCommits
  completionClosed := by rw [kept.completionClosed, running, Bool.or_false]
  descriptorClosed _ closed := by rw [kept.descriptorClosed, closed, sameOpen]
  closed_mono closed := by rw [kept.descriptorClosed, closed]
  descriptors _ := kept.descriptors
  admitting before admitting := by
    rw [sameOpen]
    rcases admits admitting with was | isOpen
    · exact before was
    · exact isOpen
  exitClosed exited := by simp [running] at exited

theorem receiveCommitted_flow (cfg : Config) {a : Actor} {sh : Shared R} (base : Shared R)
    (report : CommittedReport) (alive : a.point.hasExited = false) (kept : ChannelsKept sh base) :
    ActorFlow a (receiveCommitted cfg a base report).1 sh
      (receiveCommitted cfg a base report).2 := by
  have shape := receiveCommitted_cases cfg a base report
  generalize receiveCommitted cfg a base report = moved at shape ⊢
  obtain ⟨a', sh'⟩ := moved
  cases shape with
  | rejected c error => exact .exits _ _ _ alive { kept with }
  | marked c marks acks =>
      cases acks
      all_goals exact .stays alive rfl { kept with } rfl nofun

theorem admission_flow {a : Actor} (sh : Shared R) {gates : List Reservation}
    (descriptors : List SourceBatchDescriptor) (polling : a.point = .polling gates) :
    ActorFlow a (admission a sh gates descriptors).1 sh (admission a sh gates descriptors).2 := by
  have alive : a.point.hasExited = false := by rw [polling]; rfl
  have admitting : a.point.isAdmitting = true := by rw [polling]; rfl
  cases descriptors with
  | nil =>
      simp only [admission, dropGates_eq]
      refine .stays alive rfl ⟨rfl, rfl, rfl, rfl, rfl, rfl, rfl⟩ rfl fun admits => ?_
      cases admits
  | cons first rest =>
      simp only [admission, dropGates_eq, recordRegistered_eq]
      split
      · exact .exits _ _ _ alive ⟨rfl, rfl, rfl, rfl, rfl, rfl, rfl⟩
      · exact .stays alive rfl ⟨rfl, rfl, rfl, rfl, rfl, rfl, rfl⟩ rfl fun _ => Or.inl admitting

theorem stepActor_flow {cfg : Config} {shutdown fetchersGone decodersGone writersGone : Bool}
    {a a' : Actor} {sh sh' : Shared R} {action : ActorAction}
    (taken : stepActor cfg shutdown fetchersGone decodersGone writersGone a sh action =
      some (a', sh')) : ActorFlow a a' sh sh' := by
  have step := actorStep_of_stepActor taken
  have alive := step.alive
  have same := ChannelsKept.refl sh
  cases step with
  | aborts permit => exact .exits _ _ _ alive (.cancelAdmission sh permit)
  | workersGone permit => exact .exits _ _ _ alive (.cancelAdmission sh permit)
  | receivesFatal permit =>
      exact .exits _ _ _ alive { ChannelsKept.cancelAdmission sh permit with }
  | leaves permit => exact .exits _ _ _ alive (.cancelAdmission sh permit)
  | closes permit =>
      rw [cancelAdmission_eq]
      exact ⟨alive, rfl, rfl, rfl, rfl, (Bool.or_false _).symm, fun _ _ => rfl, fun _ => rfl,
        fun _ => rfl, fun _ => nofun, nofun⟩
  | receives permit report =>
      exact receiveCommitted_flow cfg _ report alive
        { ChannelsKept.cancelAdmission sh permit with }
  | acquires at_select isOpen => exact .stays alive rfl { same with } rfl fun _ => Or.inr isOpen
  | claims gate k at_select isOpen =>
      exact .stays alive rfl { same with } rfl fun _ => Or.inr isOpen
  | measures gate roomUnits at_point | counts gate roomUnits at_point | enough gates at_point
  | takesPermit gates extras at_point | noPermit gates extras at_point
  | takesBytes raced gates extras extra k at_point | noBytes raced gates extras at_point =>
      exact .stays alive rfl { same with } rfl fun _ => Or.inl (by rw [at_point]; rfl)
  | pollFails answer gates => exact .exits _ _ _ alive (.dropGates sh gates)
  | admits answer gates descriptors at_polling => exact admission_flow sh descriptors at_polling
  | wakes | sentAll | flushed => exact .stays alive rfl { same with } rfl nofun
  | sendFails unit rest => exact .exits _ _ _ alive (.dropGates sh _)
  | sends unit rest at_sending isOpen room =>
      refine ⟨alive, rfl, rfl, rfl, rfl, (Bool.or_false _).symm, fun _ => id, id,
        fun closed => absurd (Or.inl closed) isOpen, fun before _ => ?_, nofun⟩
      exact before (by rw [at_sending]; rfl)
  | flushFails sequence error => exact .exits { a with source := _ } _ _ alive { same with }
  | flushedLast sequence => exact .exits _ _ _ alive { same with }
  | finishes permit sequence =>
      exact .stays alive rfl { ChannelsKept.cancelAdmission sh permit with } rfl nofun

/-! ## The order of leaving -/

structure Orderly (s : State R) : Prop where
  closed : s.shared.completionClosed = s.actor.point.hasExited
  aborted : s.shared.hardAbort = true → s.actor.point.hasExited = true
  admitting : s.actor.point.isAdmitting = true → s.actor.admissionOpen = true
  descriptorClosed : s.actor.point.hasExited = false →
    s.shared.descriptorClosed = (!s.actor.admissionOpen)
  fetchFatal : ∀ p ∈ s.fetchers, p.isFatal = true → s.shared.workerFailed = true
  decodeFatal : ∀ p ∈ s.decoders, p.isFatal = true → s.shared.workerFailed = true
  writeFatal : ∀ p ∈ s.writers, p.isFatal = true → s.shared.workerFailed = true
  fetchersLeft : Intact s.shared → ∀ p ∈ s.fetchers, p.hasExited = true →
    s.shared.descriptorClosed = true ∧ s.shared.descriptors = []
  decodersLeft : Intact s.shared → ∀ p ∈ s.decoders, p.hasExited = true →
    s.fetchersGone = true ∧ s.shared.fetched = []
  writersLeft : Intact s.shared → ∀ p ∈ s.writers, p.hasExited = true →
    s.decodersGone = true ∧ s.shared.sinkCommits = []
  staffed : 0 < s.fetchers.length ∧ 0 < s.decoders.length ∧ 0 < s.writers.length
  exitClosed : s.actor.point.hasExited = true → s.shared.descriptorClosed = true

theorem orderly_start (cfg : Config) : Orderly (State.start cfg : State R) where
  closed := rfl
  aborted := nofun
  admitting := nofun
  descriptorClosed _ := rfl
  fetchFatal p member fatal := by
    rw [List.eq_of_mem_replicate member] at fatal
    cases fatal
  decodeFatal p member fatal := by
    rw [List.eq_of_mem_replicate member] at fatal
    cases fatal
  writeFatal p member fatal := by
    rw [List.eq_of_mem_replicate member] at fatal
    cases fatal
  fetchersLeft _ p member left := by
    rw [List.eq_of_mem_replicate member] at left
    cases left
  decodersLeft _ p member left := by
    rw [List.eq_of_mem_replicate member] at left
    cases left
  writersLeft _ p member left := by
    rw [List.eq_of_mem_replicate member] at left
    cases left
  staffed := by simp [State.start]
  exitClosed := nofun

/-- A pool with a worker that still runs is not gone. -/
theorem not_gone_of_alive {A : Type} {exited : A → Bool} {pool : List A} {i : Nat} {p : A}
    (present : pool[i]? = some p) (alive : exited p = false) (gone : pool.all exited = true) :
    False := by
  have left := List.all_eq_true.mp gone p (List.mem_of_getElem? present)
  rw [alive] at left
  cases left

section Pools

variable {A : Type} {hasExited isFatal : A → Bool} {pool : List A} {i : Nat} {p p' : A}
  {sh sh' : Shared R} {moves drained : Prop}
  (flow : Flow sh sh' (hasExited p) (hasExited p') (isFatal p) (isFatal p') moves drained)
  (reported : ∀ q ∈ pool, isFatal q = true → sh.workerFailed = true)
include flow reported

theorem Flow.reported_set :
    ∀ q ∈ pool.set i p', isFatal q = true → sh'.workerFailed = true := by
  intro q member fatal
  rcases List.mem_or_eq_of_mem_set member with old | rfl
  · exact flow.flags.failed_mono (reported q old fatal)
  · exact flow.fatal fatal

/-- In a sound pipeline a worker leaves because its queue is drained. -/
theorem Flow.drained_set (present : pool[i]? = some p) (intact : Intact sh')
    (left : ∀ q ∈ pool, hasExited q = true → drained) :
    ∀ q ∈ pool.set i p', hasExited q = true → drained := by
  intro q member exited
  rcases List.mem_or_eq_of_mem_set member with old | rfl
  · exact left q old exited
  · refine (flow.leaves exited intact).resolve_left fun fatal => ?_
    have failed := reported p (List.mem_of_getElem? present) fatal
    rw [(flow.flags.intact intact).workerFailed] at failed
    cases failed

end Pools

namespace Orderly

theorem actor {s : State R} (orderly : Orderly s) {a' : Actor} {sh' : Shared R}
    (flow : ActorFlow s.actor a' s.shared sh') :
    Orderly { s with actor := a', shared := sh' } := by
  have before : Intact sh' → Intact s.shared := by
    intro intact
    have closed := flow.completionClosed ▸ intact.completionClosed
    exact ⟨flow.workerFailed ▸ intact.workerFailed, flow.hardAbort ▸ intact.hardAbort,
      (Bool.or_eq_false_iff.mp closed).1⟩
  refine ⟨?_, ?_, flow.admitting orderly.admitting,
    fun running => flow.descriptorClosed running (orderly.descriptorClosed flow.alive),
    ?_, ?_, ?_, ?_, ?_, ?_, orderly.staffed, flow.exitClosed⟩
  · have closed := flow.completionClosed
    rw [orderly.closed, flow.alive, Bool.false_or] at closed
    exact closed
  · intro aborted
    have exited := orderly.aborted (flow.hardAbort ▸ aborted)
    rw [flow.alive] at exited
    cases exited
  · intro p member fatal
    exact flow.workerFailed ▸ orderly.fetchFatal p member fatal
  · intro p member fatal
    exact flow.workerFailed ▸ orderly.decodeFatal p member fatal
  · intro p member fatal
    exact flow.workerFailed ▸ orderly.writeFatal p member fatal
  · intro intact p member left
    obtain ⟨closed, empty⟩ := orderly.fetchersLeft (before intact) p member left
    exact ⟨flow.closed_mono closed, (flow.descriptors closed).trans empty⟩
  · intro intact p member left
    obtain ⟨gone, empty⟩ := orderly.decodersLeft (before intact) p member left
    exact ⟨gone, flow.fetched.trans empty⟩
  · intro intact p member left
    obtain ⟨gone, empty⟩ := orderly.writersLeft (before intact) p member left
    exact ⟨gone, flow.sinkCommits.trans empty⟩

theorem fetcher {s : State R} (orderly : Orderly s) {i : Nat} {p p' : FetchPoint}
    {sh' : Shared R} (present : s.fetchers[i]? = some p)
    (flow : Flow s.shared sh' p.hasExited p'.hasExited p.isFatal p'.isFatal
      (FetchQueues s.shared sh') (sh'.descriptorClosed = true ∧ sh'.descriptors = [])) :
    Orderly { s with fetchers := s.fetchers.set i p', shared := sh' } := by
  have flags := flow.flags
  refine ⟨flags.completionClosed.trans orderly.closed,
    fun aborted => orderly.aborted (flags.hardAbort ▸ aborted), orderly.admitting,
    fun running => flags.descriptorClosed.trans (orderly.descriptorClosed running),
    ?_, fun q member fatal => flags.failed_mono (orderly.decodeFatal q member fatal),
    fun q member fatal => flags.failed_mono (orderly.writeFatal q member fatal), ?_, ?_, ?_,
    by simpa using orderly.staffed,
    fun exited => flags.descriptorClosed.trans (orderly.exitClosed exited)⟩
  · exact flow.reported_set orderly.fetchFatal
  · intro intact
    refine flow.drained_set orderly.fetchFatal present intact fun q member left => ?_
    obtain ⟨closed, empty⟩ := orderly.fetchersLeft (flags.intact intact) q member left
    exact ⟨flags.descriptorClosed.trans closed, flow.queues.1.empty empty⟩
  · intro intact q member left
    have gone := (orderly.decodersLeft (flags.intact intact) q member left).1
    exact (not_gone_of_alive present flow.alive gone).elim
  · intro intact q member left
    obtain ⟨gone, empty⟩ := orderly.writersLeft (flags.intact intact) q member left
    exact ⟨gone, flow.queues.2.trans empty⟩

theorem decoder {s : State R} (orderly : Orderly s) {i : Nat} {p p' : DecodePoint R}
    {sh' : Shared R} (present : s.decoders[i]? = some p)
    (flow : Flow s.shared sh' p.hasExited p'.hasExited p.isFatal p'.isFatal
      (DecodeQueues s.shared sh') (s.fetchersGone = true ∧ sh'.fetched = [])) :
    Orderly { s with decoders := s.decoders.set i p', shared := sh' } := by
  have flags := flow.flags
  refine ⟨flags.completionClosed.trans orderly.closed,
    fun aborted => orderly.aborted (flags.hardAbort ▸ aborted), orderly.admitting,
    fun running => flags.descriptorClosed.trans (orderly.descriptorClosed running),
    fun q member fatal => flags.failed_mono (orderly.fetchFatal q member fatal), ?_,
    fun q member fatal => flags.failed_mono (orderly.writeFatal q member fatal), ?_, ?_, ?_,
    by simpa using orderly.staffed,
    fun exited => flags.descriptorClosed.trans (orderly.exitClosed exited)⟩
  · exact flow.reported_set orderly.decodeFatal
  · intro intact q member left
    obtain ⟨closed, empty⟩ := orderly.fetchersLeft (flags.intact intact) q member left
    exact ⟨flags.descriptorClosed.trans closed, flow.queues.1.trans empty⟩
  · intro intact
    refine flow.drained_set orderly.decodeFatal present intact fun q member left => ?_
    obtain ⟨gone, empty⟩ := orderly.decodersLeft (flags.intact intact) q member left
    exact ⟨gone, flow.queues.2.empty empty⟩
  · intro intact q member left
    have gone := (orderly.writersLeft (flags.intact intact) q member left).1
    exact (not_gone_of_alive present flow.alive gone).elim

theorem writer {s : State R} (orderly : Orderly s) {i : Nat} {p p' : WriterPoint R}
    {sh' : Shared R} (present : s.writers[i]? = some p)
    (flow : Flow s.shared sh' p.hasExited p'.hasExited p.isFatal p'.isFatal
      (WriterQueues s.shared sh') (s.decodersGone = true ∧ sh'.sinkCommits = [])) :
    Orderly { s with writers := s.writers.set i p', shared := sh' } := by
  have flags := flow.flags
  refine ⟨flags.completionClosed.trans orderly.closed,
    fun aborted => orderly.aborted (flags.hardAbort ▸ aborted), orderly.admitting,
    fun running => flags.descriptorClosed.trans (orderly.descriptorClosed running),
    fun q member fatal => flags.failed_mono (orderly.fetchFatal q member fatal),
    fun q member fatal => flags.failed_mono (orderly.decodeFatal q member fatal), ?_, ?_, ?_, ?_,
    by simpa using orderly.staffed,
    fun exited => flags.descriptorClosed.trans (orderly.exitClosed exited)⟩
  · exact flow.reported_set orderly.writeFatal
  · intro intact q member left
    obtain ⟨closed, empty⟩ := orderly.fetchersLeft (flags.intact intact) q member left
    exact ⟨flags.descriptorClosed.trans closed, flow.queues.1.trans empty⟩
  · intro intact q member left
    obtain ⟨gone, empty⟩ := orderly.decodersLeft (flags.intact intact) q member left
    exact ⟨gone, flow.queues.2.1.trans empty⟩
  · intro intact
    refine flow.drained_set orderly.writeFatal present intact fun q member left => ?_
    obtain ⟨gone, empty⟩ := orderly.writersLeft (flags.intact intact) q member left
    exact ⟨gone, flow.queues.2.2.empty empty⟩

/-- Steps of the supervisor: the flags that matter stay, and channels only shrink. -/
theorem supervisor {s s' : State R} (orderly : Orderly s) (sameActor : s'.actor = s.actor)
    (fetchers : s'.fetchers = s.fetchers) (decoders : s'.decoders = s.decoders)
    (writers : s'.writers = s.writers) (flags : FlagsKept s.shared s'.shared)
    (descriptors : Taken s.shared.descriptors s'.shared.descriptors)
    (fetched : Taken s.shared.fetched s'.shared.fetched)
    (sinkCommits : Taken s.shared.sinkCommits s'.shared.sinkCommits) : Orderly s' := by
  refine ⟨?_, ?_, ?_, ?_, ?_, ?_, ?_, ?_, ?_, ?_, ?_, ?_⟩
  · rw [flags.completionClosed, sameActor, orderly.closed]
  · rw [flags.hardAbort, sameActor]
    exact orderly.aborted
  · rw [sameActor]
    exact orderly.admitting
  · rw [flags.descriptorClosed, sameActor]
    exact orderly.descriptorClosed
  · rw [fetchers]
    exact fun p member fatal => flags.failed_mono (orderly.fetchFatal p member fatal)
  · rw [decoders]
    exact fun p member fatal => flags.failed_mono (orderly.decodeFatal p member fatal)
  · rw [writers]
    exact fun p member fatal => flags.failed_mono (orderly.writeFatal p member fatal)
  · rw [fetchers, flags.descriptorClosed]
    intro intact p member left
    obtain ⟨closed, empty⟩ := orderly.fetchersLeft (flags.intact intact) p member left
    exact ⟨closed, descriptors.empty empty⟩
  · rw [decoders, State.fetchersGone, fetchers]
    intro intact p member left
    obtain ⟨gone, empty⟩ := orderly.decodersLeft (flags.intact intact) p member left
    exact ⟨gone, fetched.empty empty⟩
  · rw [writers, State.decodersGone, decoders]
    intro intact p member left
    obtain ⟨gone, empty⟩ := orderly.writersLeft (flags.intact intact) p member left
    exact ⟨gone, sinkCommits.empty empty⟩
  · rw [fetchers, decoders, writers]
    exact orderly.staffed
  · rw [flags.descriptorClosed, sameActor]
    exact orderly.exitClosed

theorem hardAborts {s : State R} (orderly : Orderly s)
    (exited : s.actor.point.hasExited = true) :
    Orderly { s with shared := { s.shared with hardAbort := true } } := by
  have broken : ¬ Intact { s.shared with hardAbort := true } := not_intact_of_hardAbort rfl
  exact ⟨orderly.closed, fun _ => exited, orderly.admitting, orderly.descriptorClosed,
    orderly.fetchFatal, orderly.decodeFatal, orderly.writeFatal,
    fun intact => absurd intact broken, fun intact => absurd intact broken,
    fun intact => absurd intact broken, orderly.staffed, orderly.exitClosed⟩

theorem step [TypedRecords R] {cfg : Config} {s s' : State R} {action : Action R}
    (orderly : Orderly s) (taken : step cfg s action = some s') : Orderly s' := by
  have kept : FlagsKept s.shared s.shared := ⟨rfl, rfl, rfl, id⟩
  cases transition_of_step taken with
  | actor moved => exact orderly.actor (stepActor_flow moved)
  | fetch present moved => exact orderly.fetcher present (stepFetch_flow moved)
  | decode present moved => exact orderly.decoder present (stepDecode_flow moved)
  | writer present moved => exact orderly.writer present (stepWriter_flow moved)
  | hardAborts failed => exact orderly.hardAborts (by rw [failed]; rfl)
  | discardsDescriptor queue =>
      exact orderly.supervisor rfl rfl rfl rfl ⟨rfl, rfl, rfl, id⟩ (Or.inr ⟨_, queue⟩)
        (Or.inl rfl) (Or.inl rfl)
  | discardsFetched queue =>
      exact orderly.supervisor rfl rfl rfl rfl ⟨rfl, rfl, rfl, id⟩ (Or.inl rfl)
        (Or.inr ⟨_, queue⟩) (Or.inl rfl)
  | discardsSinkCommit queue =>
      exact orderly.supervisor rfl rfl rfl rfl ⟨rfl, rfl, rfl, id⟩ (Or.inl rfl) (Or.inl rfl)
        (Or.inr ⟨_, queue⟩)
  | shutsDown | kills | joins =>
      exact orderly.supervisor rfl rfl rfl rfl kept (Or.inl rfl) (Or.inl rfl) (Or.inl rfl)

end Orderly

theorem orderly_of_reachable [TypedRecords R] {cfg : Config} {s : State R}
    (reachable : (machine R cfg).Reachable s) : Orderly s :=
  reachable.invariant (orderly_start cfg) fun _ _ _ _ orderly taken => orderly.step taken

/-! ## Stranded units

A channel that has lost all its readers is empty, unless a worker has failed or the
actor has returned. -/

theorem exists_exited {A : Type} {exited : A → Bool} {pool : List A} (staffed : 0 < pool.length)
    (gone : pool.all exited = true) : ∃ p ∈ pool, exited p = true := by
  obtain ⟨p, member⟩ := List.exists_mem_of_length_pos staffed
  exact ⟨p, member, List.all_eq_true.mp gone p member⟩

section Stranded

variable {s : State R} (orderly : Orderly s) (intact : Intact s.shared)
include orderly intact

theorem Orderly.descriptors_read (gone : s.fetchersGone = true) :
    s.shared.descriptorClosed = true ∧ s.shared.descriptors = [] := by
  obtain ⟨p, member, left⟩ := exists_exited orderly.staffed.1 gone
  exact orderly.fetchersLeft intact p member left

theorem Orderly.fetched_read (gone : s.decodersGone = true) :
    s.fetchersGone = true ∧ s.shared.fetched = [] := by
  obtain ⟨p, member, left⟩ := exists_exited orderly.staffed.2.1 gone
  exact orderly.decodersLeft intact p member left

theorem Orderly.sinkCommits_read (gone : s.writersGone = true) :
    s.decodersGone = true ∧ s.shared.sinkCommits = [] := by
  obtain ⟨p, member, left⟩ := exists_exited orderly.staffed.2.2 gone
  exact orderly.writersLeft intact p member left

end Stranded

end OpendataIngest.Runtime.Pipeline
