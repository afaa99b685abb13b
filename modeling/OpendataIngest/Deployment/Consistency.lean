import OpendataIngest.Deployment.Catalog
import OpendataIngest.Runtime.Pipeline.Cargo
import OpendataIngest.Runtime.Pipeline.Journal

/-!
# What holds in every incarnation

A batch has landed when all its inserts are applied.  The server and the acks survive a
crash; `Kept` is what they keep.  `Live` is what one incarnation adds: a write that
returned `Ok` has landed its batch, and while the actor runs, everything the buffer has
handed out has landed or is registered.  Acks follow registered sequences, so only landed
batches are acked.
-/

set_option autoImplicit false

namespace OpendataIngest.Deployment

open MachineInt OpendataIngest.Runtime Pipeline Otel ClickHouse

variable {site : Site}

def Landed (site : Site) (server : DedupStore String Row) (batch : ConsumedBatch) : Prop :=
  ∃ chunks, site.chunks batch = some chunks ∧
    ∀ chunk ∈ chunks, chunkInsert chunk ∈ server.applied

/-- Every batch of the log up to `sequence` has landed. -/
def LandedThrough (site : Site) (server : DedupStore String Row) (sequence : Nat) : Prop :=
  ∀ batch ∈ site.log.batches, batch.sequence.val ≤ sequence → Landed site server batch

/-- The server has only gone on. -/
structure Grows (server server' : DedupStore String Row) : Prop where
  applied : ∀ insert ∈ server.applied, insert ∈ server'.applied
  requests : ∀ id insert, server.request? id = some insert → server'.request? id = some insert

theorem Landed.mono {server server' : DedupStore String Row} {batch : ConsumedBatch}
    (landed : Landed site server batch) (grows : Grows server server') :
    Landed site server' batch := by
  obtain ⟨chunks, planned, all⟩ := landed
  exact ⟨chunks, planned, fun chunk member => grows.applied _ (all chunk member)⟩

theorem LandedThrough.mono {server server' : DedupStore String Row} {sequence : Nat}
    (landed : LandedThrough site server sequence) (grows : Grows server server') :
    LandedThrough site server' sequence :=
  fun batch member below => (landed batch member below).mono grows

/-! ## Units and calls -/

/-- What the units of an incarnation carry. -/
def Site.cargo (site : Site) : Cargo site.Logs where
  descriptor _ := True
  fetched sourceBatch sequence := ∃ batch ∈ site.log.batches, batch.sequence = sequence ∧
    sourceBatch = site.sourceBatch batch
  commit commit _ := ∃ batch ∈ site.log.batches, commit.identity.range = Site.rangeOf batch ∧
    site.decoded batch = some commit.batch.records.records

/-- The request a call waits for carries the chunk it is about. -/
def Awaits (server : DedupStore String Row) : WriterState → Option Nat → Prop
  | .awaiting _ _ chunk _, some id => server.request? id = some (chunkInsert chunk)
  | _, _ => True

def SoundCall (site : Site) (server : DedupStore String Row) (range : SequenceRange) :
    SinkCall → Prop
  | .rejected _ => True
  | .running planned state request => ∃ batch ∈ site.log.batches,
      range = Site.rangeOf batch ∧ site.chunks batch = some planned.chunks ∧
        state.Sound (fun chunk => chunkInsert chunk ∈ server.applied) planned.chunks ∧
        Awaits server state request

theorem SoundCall.mono {server server' : DedupStore String Row} {range : SequenceRange}
    {call : SinkCall} (sound : SoundCall site server range call) (grows : Grows server server') :
    SoundCall site server' range call := by
  cases call with
  | rejected failure => trivial
  | running planned state request =>
      obtain ⟨batch, member, isRange, chunks, progress, awaits⟩ := sound
      refine ⟨batch, member, isRange, chunks, progress.mono fun _ => grows.applied _, ?_⟩
      cases state with
      | awaiting attempt body chunk rest =>
          cases request with
          | none => trivial
          | some id => exact grows.requests _ _ awaits
      | _ => trivial

/-! ## The invariant -/

structure Kept (site : Site) (server : DedupStore String Row) (ackCalls : List Nat)
    (durableAck : Option U64) : Prop where
  serves : DedupStore.Serves site.catalog server
  acked : ∀ sequence ∈ ackCalls, LandedThrough site server sequence
  durable : ∀ sequence, durableAck = some sequence → LandedThrough site server sequence.val

/-- The buffer has handed out what it has up to `sequence`. -/
def Reached (cursor : Option Nat) (sequence : Nat) : Prop :=
  ∃ last, cursor = some last ∧ sequence ≤ last

structure Live (w : World site) : Prop where
  reachable : (Pipeline.machine site.Logs w.incarnation.runtime).Reachable w.pipeline
  carried : site.cargo.Carried w.pipeline
  calls : ∀ i call, w.calls i = some call → ∃ attempt unit,
    w.pipeline.writers[i]? = some (.writing attempt unit) ∧
      SoundCall site w.server unit.commit.identity.range call
  answered : ∀ identity result,
    .sinkWriteReturned identity (.ok result) ∈ w.pipeline.shared.history →
      ∀ batch ∈ site.log.batches, batch.sequence = identity.range.low →
        Landed site w.server batch
  unchecked : ∀ identity,
    .checkCommittedReturned identity (.ok .committed) ∉ w.pipeline.shared.history
  below : ∀ sequence, .registered sequence ∈ w.pipeline.shared.history →
    Reached w.cursor sequence
  delivered : w.pipeline.actor.point.hasExited = false → ∀ batch ∈ site.log.batches,
    Reached w.cursor batch.sequence.val → Landed site w.server batch ∨
      .registered batch.sequence.val ∈ w.pipeline.shared.history
  acked : ∀ sequence, .consumerAckCalled sequence ∈ w.pipeline.shared.history →
    LandedThrough site w.server sequence

structure Consistent (w : World site) : Prop where
  kept : Kept site w.server w.ackCalls w.durableAck
  live : Live w

/-! ## Starting -/

theorem live_boot (incarnation : Incarnation site) {durableAck : Option U64}
    {ackCalls : List Nat} {server : DedupStore String Row}
    (kept : Kept site server ackCalls durableAck) :
    Live (boot incarnation durableAck ackCalls server) where
  reachable := .start
  carried := Cargo.carried_start _
  calls := nofun
  answered := nofun
  unchecked := nofun
  below := nofun
  delivered _ batch member := by
    rintro ⟨last, isCursor, below⟩
    obtain ⟨sequence, isAck, rfl⟩ := Option.map_eq_some_iff.mp isCursor
    exact Or.inl (kept.durable sequence isAck batch member below)
  acked := nofun

/-! ## The server's side -/

theorem Kept.grow {server server' : DedupStore String Row} {ackCalls : List Nat}
    {durableAck : Option U64} (kept : Kept site server ackCalls durableAck)
    (grows : Grows server server') (serves : DedupStore.Serves site.catalog server') :
    Kept site server' ackCalls durableAck where
  serves := serves
  acked sequence member := (kept.acked sequence member).mono grows
  durable sequence isAck := (kept.durable sequence isAck).mono grows

theorem Live.grow {w : World site} (live : Live w) {server : DedupStore String Row}
    (grows : Grows w.server server) : Live { w with server := server } where
  reachable := live.reachable
  carried := live.carried
  calls i call present := by
    obtain ⟨attempt, unit, writing, sound⟩ := live.calls i call present
    exact ⟨attempt, unit, writing, sound.mono grows⟩
  answered identity result member batch isBatch same :=
    (live.answered identity result member batch isBatch same).mono grows
  unchecked := live.unchecked
  below := live.below
  delivered running batch member reached :=
    (live.delivered running batch member reached).imp (Landed.mono · grows) id
  acked sequence member := (live.acked sequence member).mono grows

theorem Live.setCall {w : World site} (live : Live w) {i : Nat} {call : SinkCall}
    (sound : ∃ attempt unit, w.pipeline.writers[i]? = some (.writing attempt unit) ∧
      SoundCall site w.server unit.commit.identity.range call) : Live (w.setCall i call) where
  reachable := live.reachable
  carried := live.carried
  calls j other present := by
    by_cases same : j = i
    · subst same
      simp only [World.setCall, Function.update_self] at present
      cases present
      exact sound
    · simp only [World.setCall, Function.update_of_ne same] at present
      exact live.calls j other present
  answered := live.answered
  unchecked := live.unchecked
  below := live.below
  delivered := live.delivered
  acked := live.acked

/-! ## The runtime's side -/

/-- What a step of the runtime may bring from outside, and how far the buffer is then. -/
structure Fits (w : World site) (action : Action site.Logs) (cursor : Option Nat) : Prop where
  admits : site.cargo.Admits w.incarnation.runtime w.pipeline action
  written : ∀ i answer, action = .writer i (.write answer) →
    (w.calls i).bind SinkCall.answer? = some answer
  checked : ∀ i answer, action = .writer i (.check answer) → answer = .ok .unknown
  handed : ∀ raw, action = .actor (.nextDescriptors (.ok raw)) → ∀ d ∈ raw,
    Reached cursor d.sequence.val
  kept : ∀ sequence, Reached w.cursor sequence → Reached cursor sequence
  contiguous : ∀ batch ∈ site.log.batches, Reached cursor batch.sequence.val →
    Reached w.cursor batch.sequence.val ∨
      ∃ raw, action = .actor (.nextDescriptors (.ok raw)) ∧ descriptorOf batch ∈ raw

/-- A call that has returned `Ok` has landed its batch. -/
theorem SoundCall.landed {server : DedupStore String Row} {range : SequenceRange}
    {call : SinkCall} {result : SinkCommitResult} (sound : SoundCall site server range call)
    (answered : call.answer? = some (.ok result)) :
    ∃ batch ∈ site.log.batches, range = Site.rangeOf batch ∧ Landed site server batch := by
  cases call with
  | rejected failure => cases answered
  | running planned state request =>
      obtain ⟨batch, member, isRange, chunks, progress, _⟩ := sound
      cases state with
      | done outcome =>
          cases writeAnswer_ok (Option.some.inj answered)
          exact ⟨batch, member, isRange, planned.chunks, chunks, progress⟩
      | _ => cases answered

/-- Whatever is acked while the actor runs has landed. -/
theorem landedThrough_of_running {cfg : Config} {s : State site.Logs} {cursor : Option Nat}
    {server : DedupStore String Row}
    (reachable : (Pipeline.machine site.Logs cfg).Reachable s)
    (answered : ∀ identity result, .sinkWriteReturned identity (.ok result) ∈ s.shared.history →
      ∀ batch ∈ site.log.batches, batch.sequence = identity.range.low → Landed site server batch)
    (unchecked : ∀ identity, .checkCommittedReturned identity (.ok .committed) ∉ s.shared.history)
    (below : ∀ sequence, .registered sequence ∈ s.shared.history → Reached cursor sequence)
    (delivered : ∀ batch ∈ site.log.batches, Reached cursor batch.sequence.val →
      Landed site server batch ∨ .registered batch.sequence.val ∈ s.shared.history)
    {sequence : Nat} (acked : .consumerAckCalled sequence ∈ s.shared.history) :
    LandedThrough site server sequence := by
  cases dry : cfg.dryRun with
  | true =>
      have quiet := (dry_of_reachable dry reachable).silent _ acked
      cases quiet
  | false =>
      have covered := (confirmed_of_reachable dry reachable).safe.covered
        (books_of_reachable reachable).keeps.ordered rfl acked
      obtain ⟨last, isCursor, reached⟩ := below sequence covered.1
      intro batch member isBelow
      rcases delivered batch member ⟨last, isCursor, by omega⟩ with landed | registered
      · exact landed
      · obtain ⟨event, inHistory, commits⟩ := covered.2 _ registered isBelow
        cases event with
        | sinkWriteReturned identity answer =>
            cases answer with
            | ok result =>
                refine answered identity result inHistory batch member (Fin.ext ?_)
                exact (congrArg Prod.fst commits).symm
            | error failure => cases commits
        | checkCommittedReturned identity answer =>
            cases answer with
            | ok status =>
                cases status with
                | committed => exact absurd inHistory (unchecked identity)
                | _ => cases commits
            | error failure => cases commits
        | _ => cases commits

theorem Live.advance {w : World site} (live : Live w) {action : Action site.Logs}
    {cursor : Option Nat} {s : State site.Logs} (fits : Fits w action cursor)
    (taken : Pipeline.step w.incarnation.runtime w.pipeline action = some s) :
    Live { w with pipeline := s, calls := endCalls w.calls action, cursor := cursor } := by
  obtain ⟨events, history, caused⟩ := step_caused taken
  have split : ∀ event, event ∈ s.shared.history →
      event.Caused w.pipeline s action ∨ event ∈ w.pipeline.shared.history := by
    intro event member
    rw [history] at member
    exact (List.mem_append.mp member).imp (caused event) id
  have older : ∀ event, event ∈ w.pipeline.shared.history → event ∈ s.shared.history := by
    intro event member
    rw [history]
    exact List.mem_append_right events member
  have reachable : (Pipeline.machine site.Logs w.incarnation.runtime).Reachable s :=
    .step action live.reachable taken
  have answered : ∀ identity result, .sinkWriteReturned identity (.ok result) ∈ s.shared.history →
      ∀ batch ∈ site.log.batches, batch.sequence = identity.range.low →
        Landed site w.server batch := by
    intro identity result member batch isBatch same
    rcases split _ member with ⟨i, attempt, unit, rfl, writing, rfl⟩ | old
    · obtain ⟨call, present, isAnswer⟩ := Option.bind_eq_some_iff.mp (fits.written i _ rfl)
      obtain ⟨attempt', unit', writing', sound⟩ := live.calls i call present
      rw [writing] at writing'
      cases writing'
      obtain ⟨other, isOther, isRange, landed⟩ := sound.landed isAnswer
      rw [isRange] at same
      rw [site.log.unique isBatch isOther same]
      exact landed
    · exact live.answered identity result old batch isBatch same
  have unchecked : ∀ identity,
      .checkCommittedReturned identity (.ok .committed) ∉ s.shared.history := by
    intro identity member
    rcases split _ member with ⟨i, rfl⟩ | old
    · cases fits.checked i _ rfl
    · exact live.unchecked identity old
  have below : ∀ sequence, .registered sequence ∈ s.shared.history → Reached cursor sequence := by
    intro sequence member
    rcases split _ member with ⟨raw, rfl, d, inRaw, rfl⟩ | old
    · exact fits.handed raw rfl d inRaw
    · exact fits.kept sequence (live.below sequence old)
  have delivered : s.actor.point.hasExited = false → ∀ batch ∈ site.log.batches,
      Reached cursor batch.sequence.val → Landed site w.server batch ∨
        .registered batch.sequence.val ∈ s.shared.history := by
    intro running batch member reached
    rcases fits.contiguous batch member reached with early | ⟨raw, rfl, inRaw⟩
    · exact (live.delivered (running_before taken running) batch member early).imp id (older _)
    · exact Or.inr (step_registers taken running _ inRaw)
  refine ⟨reachable, live.carried.step fits.admits taken, ?_, answered, unchecked, below,
    delivered, ?_⟩
  · intro i call present
    have notOwn : ∀ write, action ≠ .writer i write := by
      rintro write rfl
      simp [endCalls] at present
    have untouched : w.calls i = some call := by
      cases action with
      | writer j write =>
          have differs : i ≠ j := by
            rintro rfl
            exact notOwn write rfl
          simpa only [endCalls, Function.update_of_ne differs] using present
      | _ => exact present
    obtain ⟨attempt, unit, writing, sound⟩ := live.calls i call untouched
    exact ⟨attempt, unit, (step_writers taken notOwn).trans writing, sound⟩
  · intro sequence member
    rcases split _ member with running | old
    · exact landedThrough_of_running reachable answered unchecked below (delivered running) member
    · exact live.acked sequence old

end OpendataIngest.Deployment
