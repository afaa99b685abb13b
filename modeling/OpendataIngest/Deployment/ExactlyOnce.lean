import OpendataIngest.Deployment.Consistency

/-!
# Exactly once

Every step of the world keeps the invariant, so the table holds each decoded record at most
once, and the records up to the durable ack exactly once.
-/

set_option autoImplicit false

namespace OpendataIngest.Deployment

open MachineInt OpendataIngest.Runtime Pipeline Otel ClickHouse

variable {site : Site}

/-! ## What the steps bring -/

section Fits

variable {w : World site} {action : Action site.Logs}

theorem Fits.still (admits : site.cargo.Admits w.incarnation.runtime w.pipeline action)
    (written : ∀ i answer, action = .writer i (.write answer) →
      (w.calls i).bind SinkCall.answer? = some answer)
    (checked : ∀ i answer, action = .writer i (.check answer) → answer = .ok .unknown)
    (noPoll : ∀ raw, action ≠ .actor (.nextDescriptors (.ok raw))) : Fits w action w.cursor where
  admits := admits
  written := written
  checked := checked
  handed raw isPoll := absurd isPoll (noPoll raw)
  kept _ reached := reached
  contiguous _ _ reached := Or.inl reached

theorem fits_internal (internal : isInternal action = true) : Fits w action w.cursor := by
  refine .still ?_ ?_ ?_ ?_
  · unfold Cargo.Admits
    split
    case h_4 => trivial
    all_goals cases internal
  · rintro i answer rfl
    cases internal
  · rintro i answer rfl
    cases internal
  · rintro raw rfl
    cases internal

theorem fits_fetch {i : Nat} {unit : AdmittedDescriptor} {batch : ConsumedBatch}
    (present : w.pipeline.fetchers[i]? = some (.fetching unit))
    (found : site.log.batch? unit.descriptor.sequence = some batch) :
    Fits w (.fetch i (.answer (.ok batch))) w.cursor := by
  refine .still ?_ nofun nofun nofun
  intro other isOther
  rw [present] at isOther
  cases isOther
  obtain ⟨member, same⟩ := BufferLog.batch?_eq_some found
  refine ⟨batch, member, same, ?_⟩
  rw [w.incarnation.sameSource, w.incarnation.sameManifest]
  rfl

theorem fits_decode (carried : site.cargo.Carried w.pipeline) {i : Nat} {unit : FetchedBatch}
    (present : w.pipeline.decoders[i]? = some (.decoding unit))
    {answer : RuntimeResult (List (DecodedBatch site.Logs))}
    (decodes : Otel.decode site.build.prost site.build.sizeOfRecord unit.sourceBatch =
      some answer) :
    Fits w (.decode i (.decode ⟨accepts, fun _ => answer⟩)) w.cursor := by
  refine .still ?_ nofun nofun nofun
  intro other isOther decoded accepted
  rw [present] at isOther
  cases isOther
  obtain ⟨isDecoded, low, high⟩ := checkDecoded_ok accepted
  obtain ⟨batch, member, same, isSource⟩ := carried.decoders _ (List.mem_of_getElem? present)
  have answered : answer = .ok [decoded] := isDecoded
  rw [answered, isSource] at decodes
  refine ⟨batch, member, ?_, ?_⟩
  · rw [buildCommit, low, high, ← same]
    rfl
  · unfold Site.decoded
    rw [decodes]
    rfl

theorem fits_endWrite {i : Nat} {answer : SinkWriteAnswer}
    (ended : (w.calls i).bind SinkCall.answer? = some answer) :
    Fits w (.writer i (.write answer)) w.cursor := by
  refine .still trivial ?_ nofun nofun
  rintro _ _ ⟨⟩
  exact ended

theorem fits_check (i : Nat) (identity : CommitIdentity) :
    Fits w (.writer i (.check (checkCommitted identity))) w.cursor := by
  refine .still trivial nofun ?_ nofun
  rintro _ _ ⟨⟩
  rfl

theorem fits_ackReturns : Fits w (.actor (.flushed (.ok ()))) w.cursor :=
  .still trivial nofun nofun nofun

end Fits

/-! ## Polls -/

theorem BufferLog.mem_rest {log : BufferLog} {cursor : Option Nat} {batch : ConsumedBatch} :
    batch ∈ log.rest cursor ↔
      batch ∈ log.batches ∧ ¬ Reached cursor batch.sequence.val := by
  rw [BufferLog.rest, List.mem_filter]
  refine and_congr_right fun _ => ?_
  cases cursor with
  | none => simp [isAbove, Reached]
  | some last => simp [isAbove, Reached]

/-- The first batches the buffer still has: they end at the new cursor, and nothing before
it is left out. -/
theorem fits_poll (w : World site) (count : Nat) :
    Fits w (.actor (.nextDescriptors (.ok
      (((site.log.rest w.cursor).take count).map descriptorOf))))
      ((((site.log.rest w.cursor).take count).getLast?.map fun batch => batch.sequence.val) <|>
        w.cursor) := by
  have sorted : (site.log.rest w.cursor).Pairwise fun left right =>
      left.sequence < right.sequence := site.log.ordered.sublist List.filter_sublist
  generalize cut : (site.log.rest w.cursor).take count = handed
  have whole : site.log.rest w.cursor = handed ++ (site.log.rest w.cursor).drop count := by
    rw [← cut, List.take_append_drop]
  rw [whole] at sorted
  obtain ⟨ascending, _, later⟩ := List.pairwise_append.mp sorted
  cases isLast : handed.getLast? with
  | none =>
      obtain rfl := List.getLast?_eq_none_iff.mp isLast
      refine ⟨fun d member => trivial, nofun, nofun, ?_, fun _ reached => reached,
        fun _ _ reached => Or.inl reached⟩
      rintro raw ⟨⟩
      exact nofun
  | some last =>
      obtain ⟨front, rfl⟩ := List.getLast?_eq_some_iff.mp isLast
      have lastAbove : ¬ Reached w.cursor last.sequence.val := by
        have inRest : last ∈ site.log.rest w.cursor := by
          rw [whole]
          simp
        exact (BufferLog.mem_rest.mp inRest).2
      have upTo : ∀ batch ∈ front ++ [last], batch.sequence.val ≤ last.sequence.val := by
        intro batch member
        rcases List.mem_append.mp member with early | isEnd
        · exact le_of_lt ((List.pairwise_append.mp ascending).2.2 batch early last
            List.mem_cons_self)
        · rw [List.mem_singleton.mp isEnd]
      refine ⟨fun d member => trivial, nofun, nofun, ?_, ?_, ?_⟩
      · rintro raw ⟨⟩ d member
        obtain ⟨batch, inHanded, rfl⟩ := List.mem_map.mp member
        exact ⟨_, rfl, upTo batch inHanded⟩
      · rintro sequence ⟨previous, isCursor, below⟩
        refine ⟨last.sequence.val, rfl, ?_⟩
        by_contra above
        exact lastAbove ⟨previous, isCursor, by omega⟩
      · rintro batch member ⟨end', isEnd, below⟩
        cases isEnd
        by_cases early : Reached w.cursor batch.sequence.val
        · exact Or.inl early
        · refine Or.inr ⟨_, rfl, List.mem_map_of_mem ?_⟩
          have inRest := BufferLog.mem_rest.mpr ⟨member, early⟩
          rw [whole] at inRest
          rcases List.mem_append.mp inRest with inHanded | isLater
          · exact inHanded
          · have after : last.sequence < batch.sequence := later last (by simp) batch isLater
            exact absurd below (by simpa using after)

/-! ## Sink calls -/

theorem SoundCall.begin {w : World site} {commit : SinkCommit site.Logs}
    (carried : ∃ batch ∈ site.log.batches, commit.identity.range = Site.rangeOf batch ∧
      site.decoded batch = some commit.batch.records.records) {call : SinkCall}
    (begins : ClickHouse.beginWrite site.planner w.incarnation.writer commit = some call) :
    SoundCall site w.server commit.identity.range call := by
  obtain ⟨batch, member, isRange, decodes⟩ := carried
  obtain ⟨result, accepted, isCall⟩ := Option.map_eq_some_iff.mp begins
  cases result with
  | error failure =>
      cases isCall
      trivial
  | ok planned =>
      cases isCall
      obtain ⟨selected, downcast, plans, _⟩ := planCommit_ok accepted
      cases downcast
      refine ⟨batch, member, isRange, ?_, executeAll_sound [] (List.nil_append _).symm nofun, ?_⟩
      · refine Site.chunks_eq_some.mpr ⟨_, decodes, fun identity same => ?_⟩
        rw [← plans]
        exact Site.planner_range (same.trans isRange.symm) _
      · cases executeAll w.incarnation.writer planned.chunks
        all_goals trivial

/-- What happens to one request at a time leaves the rest of the call alone. -/
theorem SoundCall.respond {w : World site} {range : SequenceRange} {planned : PlannedCommit}
    {attempt : Nat} {body : InsertBody} {chunk : InsertChunk} {rest : List InsertChunk}
    {result : Except WriterError Unit} {batch : ConsumedBatch} (member : batch ∈ site.log.batches)
    (isRange : range = Site.rangeOf batch) (chunks : site.chunks batch = some planned.chunks)
    (progress : (WriterState.awaiting attempt body chunk rest).Sound
      (fun chunk => chunkInsert chunk ∈ w.server.applied) planned.chunks)
    (confirmed : result = .ok () → chunkInsert chunk ∈ w.server.applied) :
    SoundCall site w.server range (.running planned
      (afterAttempt w.incarnation.writer attempt body chunk rest result) none) := by
  refine ⟨batch, member, isRange, chunks, afterAttempt_sound progress confirmed, ?_⟩
  cases afterAttempt w.incarnation.writer attempt body chunk rest result
  all_goals trivial

theorem executeOnce_ok {outcome : HttpOutcome} (succeeded : executeOnce outcome = .ok ()) :
    outcome.isSuccess = true := by
  unfold executeOnce at succeeded
  split at succeeded
  · cases succeeded
  · split_ifs at succeeded with isSuccess
    exact isSuccess

/-! ## Steps -/

theorem grows_send (server : DedupStore String Row) (insert : Insert String Row) :
    Grows server (server.send insert) where
  applied _ member := member
  requests _ _ sent := DedupStore.request?_send sent insert

theorem grows_handle {server server' : DedupStore String Row} {request : Nat}
    (handled : server.handle request = some server') : Grows server server' where
  applied _ member := DedupStore.handle_applied handled member
  requests _ _ sent := DedupStore.request?_handle handled sent

theorem Consistent.advance {w next : World site} (consistent : Consistent w)
    {action : Action site.Logs} {cursor : Option Nat} (fits : Fits w action cursor)
    (taken : w.advance action = some next) : Consistent { next with cursor := cursor } := by
  obtain ⟨s, moved, rfl⟩ := Option.map_eq_some_iff.mp taken
  exact ⟨consistent.kept, consistent.live.advance fits moved⟩

theorem Consistent.moves {w next : World site} (consistent : Consistent w)
    {action : Action site.Logs} (fits : Fits w action w.cursor)
    (taken : w.advance action = some next) : Consistent next := by
  obtain ⟨s, moved, rfl⟩ := Option.map_eq_some_iff.mp taken
  exact ⟨consistent.kept, consistent.live.advance fits moved⟩

theorem Consistent.setCall {w : World site} (consistent : Consistent w) {i : Nat}
    {call : SinkCall} (sound : ∃ attempt unit,
      w.pipeline.writers[i]? = some (.writing attempt unit) ∧
        SoundCall site w.server unit.commit.identity.range call) :
    Consistent (w.setCall i call) :=
  ⟨consistent.kept, consistent.live.setCall sound⟩

/-- A call stays sound when what is sound for its range before the change is sound after it. -/
theorem Consistent.continues {w : World site} (consistent : Consistent w) {i : Nat}
    {call call' : SinkCall} (present : w.calls i = some call)
    (sound : ∀ range, SoundCall site w.server range call →
      SoundCall site w.server range call') : Consistent (w.setCall i call') := by
  obtain ⟨attempt, unit, writing, before⟩ := consistent.live.calls i call present
  exact consistent.setCall ⟨attempt, unit, writing, sound _ before⟩

theorem mem_consumerAcks {history : List Event} {sequence : Nat} :
    sequence ∈ consumerAcks history ↔ .consumerAckCalled sequence ∈ history := by
  rw [consumerAcks, List.mem_filterMap]
  constructor
  · rintro ⟨event, member, isCall⟩
    cases event with
    | consumerAckCalled other =>
        cases isCall
        exact member
    | _ => cases isCall
  · intro member
    exact ⟨_, member, rfl⟩

theorem Consistent.step (tokens : site.adapter.applyDeduplicationToken = true)
    {w w' : World site} {action : WorldAction site} (consistent : Consistent w)
    (taken : w.step action = some w') : Consistent w' := by
  have keyed := Site.catalog_keyed tokens
  cases action with
  | runtime action =>
      simp only [World.step] at taken
      split_ifs at taken with internal
      exact consistent.moves (fits_internal internal) taken
  | poll count =>
      obtain ⟨next, advanced, rfl⟩ := Option.map_eq_some_iff.mp taken
      exact consistent.advance (fits_poll w count) advanced
  | fetch i =>
      simp only [World.step] at taken
      split at taken
      case h_1 unit present =>
        obtain ⟨batch, found, advanced⟩ := Option.bind_eq_some_iff.mp taken
        exact consistent.moves (fits_fetch present found) advanced
      case h_2 => cases taken
  | decode i =>
      simp only [World.step] at taken
      split at taken
      case h_1 unit present =>
        obtain ⟨answer, decodes, advanced⟩ := Option.bind_eq_some_iff.mp taken
        exact consistent.moves (fits_decode consistent.live.carried present decodes) advanced
      case h_2 => cases taken
  | beginWrite i =>
      simp only [World.step] at taken
      split at taken
      case h_1 attempt unit writing idle =>
        obtain ⟨call, begins, rfl⟩ := Option.map_eq_some_iff.mp taken
        refine consistent.setCall ⟨attempt, unit, writing, .begin ?_ begins⟩
        exact consistent.live.carried.writers _ (List.mem_of_getElem? writing)
      case h_2 => cases taken
  | post i =>
      simp only [World.step] at taken
      split at taken
      case h_1 planned attempt body chunk rest request present =>
        cases taken
        obtain ⟨_, _, _, batch, member, _, chunks, progress, _⟩ := consistent.live.calls i _ present
        have ⟨sameRows, sent, cut, _⟩ := progress
        have isInsert := insertRequest_insert sameRows
        have listed : site.catalog (insertRequest chunk body).insert := by
          refine ⟨batch, member, planned.chunks, chunks, chunk, ?_, isInsert⟩
          rw [cut]
          exact List.mem_append_right sent List.mem_cons_self
        have grows := grows_send w.server (insertRequest chunk body).insert
        have sending : Consistent
            { w with server := w.server.send (insertRequest chunk body).insert } :=
          ⟨consistent.kept.grow grows (consistent.kept.serves.send listed),
            consistent.live.grow grows⟩
        refine sending.continues present ?_
        rintro range ⟨batch, member, isRange, chunks, progress, _⟩
        refine ⟨batch, member, isRange, chunks, progress, ?_⟩
        exact (DedupStore.request?_send_last w.server _).trans (congrArg some isInsert)
      case h_2 => cases taken
  | clientFails i message =>
      simp only [World.step] at taken
      split at taken
      case h_1 planned attempt body chunk rest request present =>
        cases taken
        refine consistent.continues present ?_
        rintro range ⟨batch, member, isRange, chunks, progress, _⟩
        exact .respond member isRange chunks progress nofun
      case h_2 => cases taken
  | respond i outcome =>
      simp only [World.step] at taken
      split at taken
      case h_1 planned attempt body chunk rest request present =>
        split_ifs at taken with refused
        cases taken
        refine consistent.continues present ?_
        rintro range ⟨batch, member, isRange, chunks, progress, awaits⟩
        refine .respond member isRange chunks progress fun succeeded => ?_
        refine consistent.kept.serves.applied_of_isHandled awaits ?_
        by_contra pending
        exact refused ⟨executeOnce_ok succeeded, by simpa using pending⟩
      case h_2 => cases taken
  | retry i =>
      simp only [World.step] at taken
      split at taken
      case h_1 planned attempt body chunk rest request present =>
        cases taken
        refine consistent.continues present ?_
        rintro range ⟨batch, member, isRange, chunks, progress, _⟩
        exact ⟨batch, member, isRange, chunks, progress, trivial⟩
      case h_2 => cases taken
  | endWrite i =>
      obtain ⟨answer, ended, advanced⟩ := Option.bind_eq_some_iff.mp taken
      exact consistent.moves (fits_endWrite ended) advanced
  | check i =>
      simp only [World.step] at taken
      split at taken
      case h_1 attempt unit error present =>
        exact consistent.moves (fits_check i _) taken
      case h_2 => cases taken
  | handle request =>
      obtain ⟨server, handled, rfl⟩ := Option.map_eq_some_iff.mp taken
      have grows := grows_handle handled
      exact ⟨consistent.kept.grow grows (consistent.kept.serves.handle keyed handled),
        consistent.live.grow grows⟩
  | persistAck sequence =>
      simp only [World.step] at taken
      split_ifs at taken with called
      cases taken
      refine ⟨{ consistent.kept with durable := ?_ }, { consistent.live with }⟩
      rintro _ ⟨⟩
      rcases called with early | current
      · exact consistent.kept.acked _ early
      · exact consistent.live.acked _ (mem_consumerAcks.mp current)
  | ackReturns =>
      simp only [World.step] at taken
      split at taken
      case h_3 => cases taken
      all_goals
        split_ifs at taken
        exact consistent.moves fits_ackReturns taken
  | restart incarnation =>
      cases taken
      have kept : Kept site w.server
          (w.ackCalls ++ consumerAcks w.pipeline.shared.history) w.durableAck := by
        refine { consistent.kept with acked := fun sequence member => ?_ }
        rcases List.mem_append.mp member with early | current
        · exact consistent.kept.acked sequence early
        · exact consistent.live.acked sequence (mem_consumerAcks.mp current)
      exact ⟨kept, live_boot incarnation kept⟩

/-! ## The contract -/

theorem consistent_of_reachable (tokens : site.adapter.applyDeduplicationToken = true)
    {first : Incarnation site} {w : World site} (reachable : (machine first).Reachable w) :
    Consistent w := by
  have kept : Kept site DedupStore.empty [] none := ⟨DedupStore.serves_empty, nofun, nofun⟩
  exact reachable.invariant ⟨kept, live_boot first kept⟩
    fun _ _ _ _ consistent taken => consistent.step tokens taken

section Table

variable {w : World site} (tokens : site.adapter.applyDeduplicationToken = true)
  (consistent : Consistent w)
include consistent

/-- Rows with a batch's sequence come from the inserts of that batch. -/
theorem Consistent.elsewhere {batch : ConsumedBatch} (isBatch : batch ∈ site.log.batches)
    {chunks : List InsertChunk} (planned : site.chunks batch = some chunks)
    {c : U64 × U32 × U32} (isSequence : c.1 = batch.sequence) :
    ∀ insert ∈ w.server.applied, insert ∉ chunks.map chunkInsert →
      (insert.rows.countP fun row => rowCoordinates row = some c) = 0 := by
  intro insert applied outside
  obtain ⟨other, isOther, chunks', planned', chunk, member, rfl⟩ :=
    consistent.kept.serves.known insert applied
  refine List.countP_eq_zero.mpr fun row isRow => ?_
  intro coordinates
  have sameSequence := Site.chunk_row_sequence planned' member isRow (of_decide_eq_true coordinates)
  obtain rfl := site.log.unique isBatch isOther (isSequence.symm.trans sameSequence)
  rw [planned] at planned'
  cases planned'
  exact outside (List.mem_map_of_mem member)

include tokens

/-- A batch whose chunks are known has at most its own records in the table. -/
theorem Consistent.rowsAt_le {batch : ConsumedBatch} (isBatch : batch ∈ site.log.batches)
    {chunks : List InsertChunk} (planned : site.chunks batch = some chunks)
    {c : U64 × U32 × U32} (isSequence : c.1 = batch.sequence) : w.rowsAt c ≤ 1 := by
  obtain ⟨records, decodes, _⟩ := Site.chunks_eq_some.mp planned
  have bound := DedupStore.countP_table_le consistent.kept.serves.once
    (Site.chunkInserts_nodup tokens isBatch planned)
    (consistent.elsewhere isBatch planned isSequence)
  rw [Site.countP_chunks planned decodes] at bound
  exact bound.trans (List.nodup_iff_count_le_one.mp
    (Site.decoded_coordinates_nodup isBatch decodes) c)

theorem Consistent.at_most_once (c : U64 × U32 × U32) : w.rowsAt c ≤ 1 := by
  by_contra several
  have present : 0 < w.rowsAt c := by omega
  obtain ⟨row, isRow, coordinates⟩ := List.countP_pos_iff.mp present
  obtain ⟨insert, applied, inInsert⟩ := List.mem_flatMap.mp isRow
  obtain ⟨batch, isBatch, chunks, planned, chunk, member, rfl⟩ :=
    consistent.kept.serves.known insert applied
  exact several (consistent.rowsAt_le tokens isBatch planned
    (Site.chunk_row_sequence planned member inInsert (of_decide_eq_true coordinates)))

theorem Consistent.exactly_once {batch : ConsumedBatch} (isBatch : batch ∈ site.log.batches)
    (landed : Landed site w.server batch) : ∃ records, site.decoded batch = some records ∧
      ∀ r ∈ records, logRow site.adapter r ∈ w.server.table ∧ w.rowsAt r.coordinates = 1 := by
  obtain ⟨chunks, planned, all⟩ := landed
  obtain ⟨records, decodes, sameRows⟩ := Site.chunks_rows planned
  refine ⟨records, decodes, fun r member => ⟨?_, ?_⟩⟩
  · obtain ⟨chunk, isChunk, isRow⟩ := List.mem_flatMap.mp
      (sameRows.mem_iff.mpr (List.mem_map_of_mem member))
    exact List.mem_flatMap.mpr ⟨chunkInsert chunk, all chunk isChunk, isRow⟩
  · have isSequence : r.coordinates.1 = batch.sequence := (Site.decoded_origin decodes r member).1
    have count := DedupStore.countP_table_eq consistent.kept.serves.once
      (Site.chunkInserts_nodup tokens isBatch planned)
      (consistent.elsewhere isBatch planned isSequence) (by
        intro insert isInsert
        obtain ⟨chunk, isChunk, rfl⟩ := List.mem_map.mp isInsert
        exact all chunk isChunk)
    rw [Site.countP_chunks planned decodes] at count
    exact count.trans (List.count_eq_one_of_mem
      (Site.decoded_coordinates_nodup isBatch decodes) (List.mem_map_of_mem member))

end Table

/-- In every state of every sequence of incarnations: each decoded record is in the table at
most once, and every batch of the log at or below the durable ack decodes and has each of
its records in the table exactly once. -/
theorem exactly_once_effect (site : Site) (first : Incarnation site)
    (tokens : site.adapter.applyDeduplicationToken = true) (w : World site)
    (reachable : (machine first).Reachable w) :
    (∀ c, w.rowsAt c ≤ 1) ∧
    ∀ batch ∈ site.log.batches, ∀ acked, w.durableAck = some acked → batch.sequence ≤ acked →
      ∃ records, site.decoded batch = some records ∧
        ∀ r ∈ records, logRow site.adapter r ∈ w.server.table ∧ w.rowsAt r.coordinates = 1 := by
  have consistent := consistent_of_reachable tokens reachable
  refine ⟨consistent.at_most_once tokens, fun batch isBatch acked isAcked below => ?_⟩
  exact consistent.exactly_once tokens isBatch (consistent.kept.durable acked isAcked batch isBatch
    below)

/-! ## A lost answer and a crash -/

/-- The bytes of a request with one log record, all of its fields at their defaults. -/
def oneRecordPayload : Bytes := [10, 4, 18, 2, 18, 0]

def oneRecordRequest : ExportLogsServiceRequest :=
  ⟨[⟨none, [⟨none, [⟨0, 0, 0, "", none, [], [], []⟩]⟩]⟩]⟩

def oneRecordBatch : ConsumedBatch :=
  ⟨[oneRecordPayload], 0, "ingest/data/0.batch", [⟨0, 0, [1, 2, 1, 0]⟩]⟩

def oneBatchSite : Site where
  build := {
    sizeOfRecord := 304
    sha256Prefix := fun _ => "112def59cfa4073f"
    prost := fun bytes => if bytes = oneRecordPayload then .ok oneRecordRequest
      else .error "failed to decode Protobuf message" }
  source := ⟨"buffer"⟩
  manifestPath := "ingest/manifest"
  adapter := ⟨"responsive", "logs", 1, 100000, 33554432, some "auto", true⟩
  log := {
    batches := [oneRecordBatch]
    ordered := List.pairwise_singleton _ _
    addressed := by simp [oneRecordBatch] }

def serialIncarnation : Incarnation oneBatchSite where
  runtime := {
    source := ⟨"buffer"⟩
    sinkId := ⟨"clickhouse_logs"⟩
    manifestPath := "ingest/manifest"
    lastAcked := none
    options := { RuntimeOptions.default with
      dryRun := false
      sourceDefaults := SourceBackpressureOptions.serial }
    testFetchKillswitch := false }
  writer := ⟨6, .jsonEachRow⟩
  sameSource := rfl
  sameManifest := rfl

/-- From an idle incarnation to its first insert. -/
def deliverRun : List (WorldAction oneBatchSite) :=
  [.runtime (.actor .acquirePermit), .runtime (.actor .reserveBytes), .runtime (.actor .readRoom),
    .runtime (.actor .readPermits), .runtime (.actor .tryAcquire), .poll 1,
    .runtime (.actor .send), .runtime (.actor .send), .runtime (.fetch 0 .take), .fetch 0,
    .runtime (.fetch 0 .send), .runtime (.decode 0 .take), .decode 0, .runtime (.decode 0 .send),
    .runtime (.writer 0 .take), .beginWrite 0, .post 0]

/-- The answer to the insert is lost and the process crashes; the next incarnation sends the
insert again, and its ack becomes durable. -/
def redeliveryRun : List (WorldAction oneBatchSite) :=
  deliverRun ++ [.handle 0, .respond 0 (.failed ⟨.timeout, "operation timed out"⟩),
    .restart serialIncarnation] ++ deliverRun ++
    [.handle 1, .respond 0 (.response 200 ""), .endWrite 0, .runtime (.writer 0 .report),
      .runtime (.actor .receive), .persistAck 0, .ackReturns]

theorem exactly_once_effect_redelivered : ∃ w : World oneBatchSite,
    (machine serialIncarnation).Reachable w ∧ w.server.requests.length = 2 ∧
      w.durableAck = some 0 ∧ (∀ c, w.rowsAt c ≤ 1) ∧
      ∃ records, oneBatchSite.decoded oneRecordBatch = some records ∧ records.length = 1 ∧
        ∀ r ∈ records, w.rowsAt r.coordinates = 1 := by
  have acked : (((machine serialIncarnation).run redeliveryRun).map fun w =>
      (w.server.requests.length, w.durableAck)) = some (2, some 0) := by
    decide +kernel
  have size : (oneBatchSite.decoded oneRecordBatch).map List.length = some 1 := by
    decide +kernel
  obtain ⟨w, ran, values⟩ := Option.map_eq_some_iff.mp acked
  obtain ⟨sent, durable⟩ := Prod.mk.inj values
  have reachable := (machine serialIncarnation).run_reachable _ w ran
  obtain ⟨once, exact_⟩ := exactly_once_effect oneBatchSite serialIncarnation rfl w reachable
  obtain ⟨records, decodes, all⟩ := exact_ oneRecordBatch List.mem_cons_self 0 durable
    (le_refl _)
  rw [decodes] at size
  exact ⟨w, reachable, sent, durable, once, records, decodes, Option.some.inj size,
    fun r member => (all r member).2⟩

end OpendataIngest.Deployment
