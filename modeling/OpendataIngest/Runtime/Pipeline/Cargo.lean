import OpendataIngest.Runtime.Pipeline.Flow

/-!
# What the units carry

A unit changes its form on its way: a descriptor, a fetched batch, a sink commit.  Given
what the buffer hands out, what it answers to a fetch and what the decoder makes of a
batch, a cargo says what each form carries; no step of the runtime mixes two units up.
-/

set_option autoImplicit false

namespace OpendataIngest.Runtime.Pipeline

open MachineInt Pool

variable {R : Type}

structure Cargo (R : Type) where
  descriptor : SourceBatchDescriptor → Prop
  fetched : SourceBatch → U64 → Prop
  commit : SinkCommit R → U64 × U64 → Prop

namespace Cargo

variable (cargo : Cargo R)

def inFetch : FetchPoint → Prop
  | .fetching unit => cargo.descriptor unit.descriptor
  | .sending unit => cargo.fetched unit.sourceBatch unit.admittedSequence
  | _ => True

def inDecode : DecodePoint R → Prop
  | .decoding unit => cargo.fetched unit.sourceBatch unit.admittedSequence
  | .sending unit => cargo.commit unit.commit unit.range
  | _ => True

def inWrite : WriterPoint R → Prop
  | .writing _ unit => cargo.commit unit.commit unit.range
  | .checking _ unit _ => cargo.commit unit.commit unit.range
  | .backingOff _ unit => cargo.commit unit.commit unit.range
  | _ => True

def inActor : ActorPoint → Prop
  | .sending rest => ∀ unit ∈ rest, cargo.descriptor unit.descriptor
  | _ => True

structure InChannels (sh : Shared R) : Prop where
  descriptors : ∀ unit ∈ sh.descriptors, cargo.descriptor unit.descriptor
  fetched : ∀ unit ∈ sh.fetched, cargo.fetched unit.sourceBatch unit.admittedSequence
  sinkCommits : ∀ unit ∈ sh.sinkCommits, cargo.commit unit.commit unit.range

structure Carried (s : State R) : Prop where
  actor : cargo.inActor s.actor.point
  channels : cargo.InChannels s.shared
  fetchers : ∀ p ∈ s.fetchers, cargo.inFetch p
  decoders : ∀ p ∈ s.decoders, cargo.inDecode p
  writers : ∀ p ∈ s.writers, cargo.inWrite p

/-- The answer an action brings from outside fits the unit it is for. -/
def Admits (cfg : Config) (s : State R) : Action R → Prop
  | .actor (.nextDescriptors (.ok raw)) =>
      ∀ d ∈ raw, cargo.descriptor ⟨s.actor.source.id, d.sequence, d.location, d.metadata⟩
  | .fetch i (.answer (.ok consumed)) => ∀ unit, s.fetchers[i]? = some (.fetching unit) →
      cargo.fetched (splitIntoRawEntries consumed cfg.source cfg.manifestPath)
        unit.descriptor.sequence
  | .decode i (.decode decoder) => ∀ unit, s.decoders[i]? = some (.decoding unit) →
      ∀ decoded, checkDecoded decoder unit = .ok decoded →
        cargo.commit (buildCommit cfg.sinkId decoded.lowSequence decoded.highSequence decoded)
          (decoded.lowSequence, decoded.highSequence)
  | _ => True

variable {cargo}

theorem carried_start (cfg : Config) : cargo.Carried (State.start cfg : State R) where
  actor := trivial
  channels := ⟨nofun, nofun, nofun⟩
  fetchers p member := by
    rw [List.eq_of_mem_replicate member]
    trivial
  decoders p member := by
    rw [List.eq_of_mem_replicate member]
    trivial
  writers p member := by
    rw [List.eq_of_mem_replicate member]
    trivial

theorem InChannels.congr {sh sh' : Shared R} (channels : cargo.InChannels sh)
    (descriptors : sh'.descriptors = sh.descriptors) (fetched : sh'.fetched = sh.fetched)
    (sinkCommits : sh'.sinkCommits = sh.sinkCommits) : cargo.InChannels sh' where
  descriptors := descriptors ▸ channels.descriptors
  fetched := fetched ▸ channels.fetched
  sinkCommits := sinkCommits ▸ channels.sinkCommits

/-! ## Workers -/

theorem stepFetch_carried {cfg : Config} {killed decodersGone : Bool} {sh sh' : Shared R}
    {p p' : FetchPoint} {action : FetchAction} (inFetch : cargo.inFetch p)
    (channels : cargo.InChannels sh)
    (admits : ∀ consumed, action = .answer (.ok consumed) → ∀ unit, p = .fetching unit →
      cargo.fetched (splitIntoRawEntries consumed cfg.source cfg.manifestPath)
        unit.descriptor.sequence)
    (taken : stepFetch cfg killed decodersGone sh p action = some (p', sh')) :
    cargo.inFetch p' ∧ cargo.InChannels sh' := by
  cases fetchStep_of_stepFetch taken with
  | takes unit rest queue =>
      refine ⟨channels.descriptors unit (queue ▸ List.mem_cons_self), ?_, channels.fetched,
        channels.sinkCommits⟩
      intro other member
      exact channels.descriptors other (queue ▸ List.mem_cons_of_mem unit member)
  | fetches unit fetched batch read =>
      cases fetched with
      | ok consumed =>
          cases read
          exact ⟨admits consumed rfl unit rfl, channels⟩
      | error e => cases read
  | sends unit notGone room =>
      refine ⟨trivial, channels.descriptors, ?_, channels.sinkCommits⟩
      intro other member
      rcases List.mem_append.mp member with old | new
      · exact channels.fetched other old
      · rw [List.mem_singleton.mp new]
        exact inFetch
  | panics _ message alive =>
      obtain ⟨k, free, dropped⟩ := dropHeld_eq sh.fail p.reservation?
      rw [dropped]
      exact ⟨trivial, channels.congr rfl rfl rfl⟩
  | _ => exact ⟨trivial, channels.congr rfl rfl rfl⟩

theorem stepDecode_carried [TypedRecords R] {cfg : Config} {fetchersGone writersGone : Bool}
    {sh sh' : Shared R} {p p' : DecodePoint R} {action : DecodeAction R}
    (inDecode : cargo.inDecode p) (channels : cargo.InChannels sh)
    (admits : ∀ decoder, action = .decode decoder → ∀ unit, p = .decoding unit →
      ∀ decoded, checkDecoded decoder unit = .ok decoded →
        cargo.commit (buildCommit cfg.sinkId decoded.lowSequence decoded.highSequence decoded)
          (decoded.lowSequence, decoded.highSequence))
    (taken : stepDecode cfg fetchersGone writersGone sh p action = some (p', sh')) :
    cargo.inDecode p' ∧ cargo.InChannels sh' := by
  cases decodeStep_of_stepDecode taken with
  | takes unit rest queue =>
      refine ⟨channels.fetched unit (queue ▸ List.mem_cons_self), channels.descriptors, ?_,
        channels.sinkCommits⟩
      intro other member
      exact channels.fetched other (queue ▸ List.mem_cons_of_mem unit member)
  | decodes unit decoder commit range reservation k decoded =>
      obtain ⟨batch, accepted, _, _, _, outcome⟩ := decodeOne_ok decoded
      split_ifs at outcome
      cases outcome
      exact ⟨admits decoder rfl unit rfl batch accepted, channels.congr rfl rfl rfl⟩
  | sends unit notGone room =>
      refine ⟨trivial, channels.descriptors, channels.fetched, ?_⟩
      intro other member
      rcases List.mem_append.mp member with old | new
      · exact channels.sinkCommits other old
      · rw [List.mem_singleton.mp new]
        exact inDecode
  | panics _ message alive =>
      obtain ⟨k, free, dropped⟩ := dropHeld_eq sh.fail p.reservation?
      rw [dropped]
      exact ⟨trivial, channels.congr rfl rfl rfl⟩
  | _ => exact ⟨trivial, channels.congr rfl rfl rfl⟩

theorem stepWriter_carried {cfg : Config} {decodersGone : Bool} {sh sh' : Shared R}
    {p p' : WriterPoint R} {action : WriterAction} (inWrite : cargo.inWrite p)
    (channels : cargo.InChannels sh)
    (taken : stepWriter cfg decodersGone sh p action = some (p', sh')) :
    cargo.inWrite p' ∧ cargo.InChannels sh' := by
  cases writerStep_of_stepWriter taken with
  | takes unit rest queue =>
      refine ⟨channels.sinkCommits unit (queue ▸ List.mem_cons_self), channels.descriptors,
        channels.fetched, ?_⟩
      intro other member
      exact channels.sinkCommits other (queue ▸ List.mem_cons_of_mem unit member)
  | writeUnclear | wakes => exact ⟨inWrite, channels.congr rfl rfl rfl⟩
  | retries _ _ attempt unit error event answered left =>
      cases answered with
      | write => exact ⟨inWrite, channels.congr rfl rfl rfl⟩
      | check => exact ⟨inWrite, channels.congr rfl rfl rfl⟩
  | panics _ message alive =>
      obtain ⟨k, free, dropped⟩ := dropHeld_eq sh.fail p.reservation?
      rw [dropped]
      exact ⟨trivial, channels.congr rfl rfl rfl⟩
  | _ => exact ⟨trivial, channels.congr rfl rfl rfl⟩

/-! ## The actor -/

theorem descriptor_of_mem_zipWith (descriptors : List SourceBatchDescriptor)
    (gates : List Reservation) {unit : AdmittedDescriptor}
    (member : unit ∈ descriptors.zipWith AdmittedDescriptor.mk gates) :
    unit.descriptor ∈ descriptors := by
  obtain ⟨i, inRange, rfl⟩ := List.getElem_of_mem member
  rw [List.getElem_zipWith]
  exact List.getElem_mem _

theorem admission_carried {a : Actor} {sh : Shared R} (gates : List Reservation)
    (descriptors : List SourceBatchDescriptor) (handed : ∀ d ∈ descriptors, cargo.descriptor d)
    (channels : cargo.InChannels sh) :
    cargo.inActor (admission a sh gates descriptors).1.point ∧
      cargo.InChannels (admission a sh gates descriptors).2 := by
  cases descriptors with
  | nil =>
      simp only [admission, dropGates_eq]
      exact ⟨trivial, channels.congr rfl rfl rfl⟩
  | cons first rest =>
      simp only [admission, dropGates_eq, recordRegistered_eq, Shared.record]
      split
      · exact ⟨trivial, channels.congr rfl rfl rfl⟩
      · exact ⟨fun unit member => handed _ (descriptor_of_mem_zipWith _ _ member),
          channels.congr rfl rfl rfl⟩

theorem receiveCommitted_carried (cfg : Config) (a : Actor) {sh : Shared R}
    (report : CommittedReport) (channels : cargo.InChannels sh) :
    cargo.inActor (receiveCommitted cfg a sh report).1.point ∧
      cargo.InChannels (receiveCommitted cfg a sh report).2 := by
  have shape := receiveCommitted_cases cfg a sh report
  generalize receiveCommitted cfg a sh report = moved at shape ⊢
  obtain ⟨a', sh'⟩ := moved
  cases shape with
  | rejected c error => exact ⟨trivial, channels.congr rfl rfl rfl⟩
  | marked c marks acks =>
      cases acks
      all_goals exact ⟨trivial, channels.congr rfl rfl rfl⟩

theorem stepActor_carried {cfg : Config} {shutdown fetchersGone decodersGone writersGone : Bool}
    {a a' : Actor} {sh sh' : Shared R} {action : ActorAction} (inActor : cargo.inActor a.point)
    (channels : cargo.InChannels sh)
    (admits : ∀ raw, action = .nextDescriptors (.ok raw) → ∀ d ∈ raw,
      cargo.descriptor ⟨a.source.id, d.sequence, d.location, d.metadata⟩)
    (taken : stepActor cfg shutdown fetchersGone decodersGone writersGone a sh action =
      some (a', sh')) : cargo.inActor a'.point ∧ cargo.InChannels sh' := by
  cases actorStep_of_stepActor taken with
  | aborts permit | closes permit | receivesFatal permit | workersGone permit
  | finishes permit | leaves permit =>
      rw [cancelAdmission_eq]
      exact ⟨trivial, channels.congr rfl rfl rfl⟩
  | receives permit report rest =>
      refine receiveCommitted_carried cfg a report ?_
      rw [cancelAdmission_eq]
      exact channels.congr rfl rfl rfl
  | pollFails answer gates =>
      rw [dropGates_eq]
      exact ⟨trivial, channels.congr rfl rfl rfl⟩
  | admits answer gates descriptors at_polling answered =>
      cases answer with
      | error e => cases answered
      | ok raw =>
          cases answered
          refine admission_carried gates _ (fun d member => ?_) channels
          obtain ⟨d', inRaw, rfl⟩ := List.mem_map.mp member
          exact admits raw rfl d' inRaw
  | sendFails unit rest =>
      rw [dropGates_eq]
      exact ⟨trivial, channels.congr rfl rfl rfl⟩
  | sends unit rest at_sending =>
      rw [at_sending] at inActor
      refine ⟨fun other member => inActor other (List.mem_cons_of_mem unit member), ?_,
        channels.fetched, channels.sinkCommits⟩
      intro other member
      rcases List.mem_append.mp member with old | new
      · exact channels.descriptors other old
      · rw [List.mem_singleton.mp new]
        exact inActor unit List.mem_cons_self
  | _ => exact ⟨trivial, channels.congr rfl rfl rfl⟩

/-! ## Steps -/

theorem Carried.step [TypedRecords R] {cfg : Config} {s s' : State R} {action : Action R}
    (carried : cargo.Carried s) (admits : cargo.Admits cfg s action)
    (taken : Pipeline.step cfg s action = some s') : cargo.Carried s' := by
  cases transition_of_step taken with
  | actor moved =>
      obtain ⟨inActor, channels⟩ := stepActor_carried carried.actor carried.channels
        (by rintro raw rfl; exact admits) moved
      exact { carried with actor := inActor, channels := channels }
  | @fetch i action p p' sh' present moved =>
      obtain ⟨inFetch, channels⟩ := stepFetch_carried
        (carried.fetchers p (List.mem_of_getElem? present)) carried.channels
        (by rintro consumed rfl unit rfl; exact admits unit present) moved
      refine { carried with channels := channels, fetchers := fun q member => ?_ }
      rcases List.mem_or_eq_of_mem_set member with old | rfl
      · exact carried.fetchers q old
      · exact inFetch
  | @decode i action p p' sh' present moved =>
      obtain ⟨inDecode, channels⟩ := stepDecode_carried
        (carried.decoders p (List.mem_of_getElem? present)) carried.channels
        (by rintro decoder rfl unit rfl; exact admits unit present) moved
      refine { carried with channels := channels, decoders := fun q member => ?_ }
      rcases List.mem_or_eq_of_mem_set member with old | rfl
      · exact carried.decoders q old
      · exact inDecode
  | @writer i action p p' sh' present moved =>
      obtain ⟨inWrite, channels⟩ := stepWriter_carried
        (carried.writers p (List.mem_of_getElem? present)) carried.channels moved
      refine { carried with channels := channels, writers := fun q member => ?_ }
      rcases List.mem_or_eq_of_mem_set member with old | rfl
      · exact carried.writers q old
      · exact inWrite
  | discardsDescriptor queue =>
      refine { carried with channels := { carried.channels with descriptors := ?_ } }
      intro other member
      exact carried.channels.descriptors other (queue ▸ List.mem_cons_of_mem _ member)
  | discardsFetched queue =>
      refine { carried with channels := { carried.channels with fetched := ?_ } }
      intro other member
      exact carried.channels.fetched other (queue ▸ List.mem_cons_of_mem _ member)
  | discardsSinkCommit queue =>
      refine { carried with channels := { carried.channels with sinkCommits := ?_ } }
      intro other member
      exact carried.channels.sinkCommits other (queue ▸ List.mem_cons_of_mem _ member)
  | _ => exact { carried with channels := carried.channels.congr rfl rfl rfl }

end Cargo

end OpendataIngest.Runtime.Pipeline
