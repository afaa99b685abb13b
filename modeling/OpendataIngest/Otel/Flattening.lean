import OpendataIngest.Otel.RecordContent

/-!
# Flattening a request

`places` lists the log records of a request in document order, each with the resource and
the scope it stands under; the decoder's three nested loops emit exactly one record for
each place, numbered by its position.

The loops stop only at a counter that does not fit its width, so each has a closed form.
-/

set_option autoImplicit false

namespace OpendataIngest.Otel

open MachineInt OpendataIngest.Runtime

/-- The records of the places, numbered from `start` on. -/
def numberFrom (batch : SourceBatch) (entry : SourceEntry) (start : Nat)
    (places : List LogPlace) : List DecodedLogRecord :=
  (places.zipIdx start).map fun place =>
    decodePlace batch entry place.1 (Fin.ofNat (2 ^ 32) place.2)

section Walk

variable {batch : SourceBatch} {entry : SourceEntry}

theorem numberFrom_append (start : Nat) (front back : List LogPlace) :
    numberFrom batch entry start (front ++ back) =
      numberFrom batch entry start front ++
        numberFrom batch entry (start + front.length) back := by
  simp [numberFrom, List.zipIdx_append]

theorem numberFrom_length (start : Nat) (places : List LogPlace) :
    (numberFrom batch entry start places).length = places.length := by
  simp [numberFrom]

/-- The loop emits the numbered places and leaves the counter after them, unless the
counter overflows. -/
def Walks (batch : SourceBatch) (entry : SourceEntry)
    (loop : U32 → Option (List DecodedLogRecord × U32)) (places : List LogPlace) : Prop :=
  ∀ start : U32, loop start =
    if start.val + places.length < 2 ^ 32 then
      some (numberFrom batch entry start.val places,
        Fin.ofNat (2 ^ 32) (start.val + places.length))
    else none

theorem walks_nil : Walks batch entry (fun start => some ([], start)) [] := by
  intro start
  have fits : start.val + ([] : List LogPlace).length < 2 ^ 32 := start.isLt
  rw [if_pos fits]
  simp [numberFrom]

/-- One loop after another, the second from where the first left the counter. -/
theorem Walks.append {first second : U32 → Option (List DecodedLogRecord × U32)}
    {front back : List LogPlace} (walksFirst : Walks batch entry first front)
    (walksSecond : Walks batch entry second back) :
    Walks batch entry
      (fun start => (first start).bind fun head =>
        (second head.2).map fun tail => (head.1 ++ tail.1, tail.2))
      (front ++ back) := by
  intro start
  simp only [walksFirst start, List.length_append]
  by_cases firstFits : start.val + front.length < 2 ^ 32
  · have reached : (Fin.ofNat (2 ^ 32) (start.val + front.length)).val =
        start.val + front.length := Nat.mod_eq_of_lt firstFits
    have second_at := walksSecond (Fin.ofNat (2 ^ 32) (start.val + front.length))
    rw [reached, Nat.add_assoc] at second_at
    rw [if_pos firstFits, Option.bind_some, second_at]
    split_ifs
    · rw [Option.map_some, numberFrom_append]
    · rfl
  · have overflows : ¬ start.val + (front.length + back.length) < 2 ^ 32 := by omega
    rw [if_neg firstFits, if_neg overflows, Option.bind_none]

theorem walks_record (resource : Option Resource) (scope : Option InstrumentationScope)
    (log : LogRecord) :
    Walks batch entry
      (fun start => (increment start).map fun next =>
        ([decodeRecord batch entry (fieldsOf resource) scope log start], next))
      [⟨resource, scope, log⟩] := by
  intro start
  simp only [increment, List.length_singleton]
  split_ifs with fits
  · have next : (⟨start.val + 1, fits⟩ : U32) = Fin.ofNat (2 ^ 32) (start.val + 1) := by
      apply Fin.ext
      exact (Nat.mod_eq_of_lt fits).symm
    rw [Option.map_some, next]
    simp [numberFrom, decodePlace]
  · rfl

theorem decodeLogRecords_walks (resource : Option Resource)
    (scope : Option InstrumentationScope) (logs : List LogRecord) :
    Walks batch entry (decodeLogRecords batch entry (fieldsOf resource) scope logs)
      (logs.map fun log => ⟨resource, scope, log⟩) := by
  induction logs with
  | nil => exact walks_nil
  | cons log rest ih =>
      have whole := (walks_record resource scope log).append ih
      intro start
      refine Eq.trans ?_ (whole start)
      simp only [decodeLogRecords]
      cases increment start <;> rfl

theorem decodeScopeLogs_walks (resource : Option Resource) (scopes : List ScopeLogs) :
    Walks batch entry (decodeScopeLogs batch entry (fieldsOf resource) scopes)
      (scopes.flatMap (ScopeLogs.places resource)) := by
  induction scopes with
  | nil => exact walks_nil
  | cons scope rest ih =>
      rw [List.flatMap_cons]
      exact (decodeLogRecords_walks resource scope.scope scope.logRecords).append ih

theorem decodeResourceLogs_walks (resources : List ResourceLogs) :
    Walks batch entry (decodeResourceLogs batch entry resources)
      (resources.flatMap ResourceLogs.places) := by
  induction resources with
  | nil => exact walks_nil
  | cons resource rest ih =>
      rw [List.flatMap_cons]
      have head : Walks batch entry
          (decodeScopeLogs batch entry (fieldsOf resource.resource) resource.scopeLogs)
          resource.places :=
        decodeScopeLogs_walks resource.resource resource.scopeLogs
      have whole := head.append ih
      intro start
      refine Eq.trans ?_ (whole start)
      cases shape : resource.resource <;> simp only [decodeResourceLogs, shape, fieldsOf]

end Walk

/-! ## Entries -/

/-- The log records of an entry whose payload decodes. -/
def entryPlaces (prost : Prost) (entry : SourceEntry) : List LogPlace :=
  match prost entry.rawBytes with
  | .ok request => request.places
  | .error _ => []

/-- The records of an entry whose payload decodes. -/
def entryRecords (prost : Prost) (batch : SourceBatch) (entry : SourceEntry) :
    List DecodedLogRecord :=
  numberFrom batch entry 0 (entryPlaces prost entry)

/-- The number of records fits the decoder's `u32` counter. -/
def Countable (prost : Prost) (entry : SourceEntry) : Prop :=
  ∀ request, prost entry.rawBytes = .ok request → request.places.length < 2 ^ 32

def Decodable (prost : Prost) (entry : SourceEntry) : Prop :=
  ∃ request, prost entry.rawBytes = .ok request

section Entries

variable {prost : Prost} {batch : SourceBatch}

theorem decodeEntry_eq {entry : SourceEntry} {request : ExportLogsServiceRequest}
    (decodes : prost entry.rawBytes = .ok request) :
    decodeEntry prost batch entry =
      if request.places.length < 2 ^ 32 then some (.ok (numberFrom batch entry 0 request.places))
      else none := by
  have walks : Walks batch entry (decodeResourceLogs batch entry request.resourceLogs)
      request.places :=
    decodeResourceLogs_walks request.resourceLogs
  have walked := walks 0
  simp only [decodeEntry, decodes, walked]
  change Option.map _ (if 0 + request.places.length < 2 ^ 32 then _ else _) = _
  rw [Nat.zero_add]
  split_ifs
  · rfl
  · rfl

theorem decodeEntry_of_decodable {entry : SourceEntry} (countable : Countable prost entry)
    (decodable : Decodable prost entry) :
    decodeEntry prost batch entry = some (.ok (entryRecords prost batch entry)) := by
  obtain ⟨request, decodes⟩ := decodable
  rw [decodeEntry_eq decodes, if_pos (countable request decodes), entryRecords, entryPlaces,
    decodes]

theorem decodeEntry_of_not_decodable {entry : SourceEntry}
    (undecodable : ¬ Decodable prost entry) :
    ∃ error, decodeEntry prost batch entry = some (.error error) := by
  unfold decodeEntry
  split
  · exact ⟨_, rfl⟩
  · rename_i request decodes
    exact absurd ⟨request, decodes⟩ undecodable

theorem decodeEntries_of_decodable (entries : List SourceEntry)
    (countable : ∀ entry ∈ entries, Countable prost entry)
    (decodable : ∀ entry ∈ entries, Decodable prost entry) :
    decodeEntries prost batch entries =
      some (.ok (entries.flatMap (entryRecords prost batch))) := by
  induction entries with
  | nil => rfl
  | cons entry rest ih =>
      obtain ⟨headCountable, restCountable⟩ := List.forall_mem_cons.mp countable
      obtain ⟨headDecodable, restDecodable⟩ := List.forall_mem_cons.mp decodable
      simp only [decodeEntries, decodeEntry_of_decodable headCountable headDecodable,
        ih restCountable restDecodable, List.flatMap_cons]

theorem decodeEntries_of_not_decodable (entries : List SourceEntry)
    (countable : ∀ entry ∈ entries, Countable prost entry)
    (undecodable : ¬ ∀ entry ∈ entries, Decodable prost entry) :
    ∃ error, decodeEntries prost batch entries = some (.error error) := by
  induction entries with
  | nil => exact absurd (fun _ member => absurd member List.not_mem_nil) undecodable
  | cons entry rest ih =>
      obtain ⟨headCountable, restCountable⟩ := List.forall_mem_cons.mp countable
      by_cases headDecodable : Decodable prost entry
      · have restUndecodable : ¬ ∀ entry ∈ rest, Decodable prost entry := by
          intro all
          exact undecodable (List.forall_mem_cons.mpr ⟨headDecodable, all⟩)
        obtain ⟨error, failed⟩ := ih restCountable restUndecodable
        exact ⟨error, by
          simp only [decodeEntries, decodeEntry_of_decodable headCountable headDecodable, failed]⟩
      · obtain ⟨error, failed⟩ : ∃ error, decodeEntry prost batch entry = some (.error error) :=
          decodeEntry_of_not_decodable headDecodable
        exact ⟨error, by simp only [decodeEntries, failed]⟩

theorem accepts_iff (rawMetadata : Bytes) :
    accepts rawMetadata = true ↔
      ∃ env, decodeEnvelope 0 rawMetadata = .ok env ∧ expected.matches env = true := by
  cases decoded : decodeEnvelope 0 rawMetadata with
  | ok env => simp [accepts, decoded]
  | error e => simp [accepts, decoded]

/-- `decode_envelopes` and `validate_consistent` together ask what `accepts` asks of each
entry. -/
theorem envelopes_valid_iff (entries : List SourceEntry) :
    (∃ envelopes, decodeEnvelopes entries = .ok envelopes ∧
        validateConsistent envelopes expected = .ok ()) ↔
      ∀ entry ∈ entries, accepts entry.rawMetadata = true := by
  simp only [decodeEnvelopes_ok_iff, validateConsistent, validateFrom_ok_iff]
  induction entries with
  | nil => simp
  | cons entry rest ih =>
      rw [List.forall_mem_cons, ← ih, accepts_iff]
      constructor
      · rintro ⟨envelopes, paired, all⟩
        cases paired with
        | cons isEnv areLater =>
            obtain ⟨headMatches, restMatch⟩ := List.forall_mem_cons.mp all
            exact ⟨⟨_, decodeEnvelope_ok_index _ 0 _ _ isEnv, headMatches⟩, _, areLater, restMatch⟩
      · rintro ⟨⟨env, isEnv, headMatches⟩, envelopes, areLater, restMatch⟩
        exact ⟨env :: envelopes,
          List.Forall₂.cons (decodeEnvelope_ok_index 0 _ _ _ isEnv) areLater,
          List.forall_mem_cons.mpr ⟨headMatches, restMatch⟩⟩

end Entries

/-! ## Batches -/

section Batches

variable {prost : Prost} {σ : Nat} {batch : SourceBatch}

theorem decode_of_accepted (countable : ∀ entry ∈ batch.entries, Countable prost entry)
    (accepted : ∀ entry ∈ batch.entries, accepts entry.rawMetadata = true)
    (decodable : ∀ entry ∈ batch.entries, Decodable prost entry) :
    decode prost σ batch =
      some (.ok [decodedBatch σ batch (batch.entries.flatMap (entryRecords prost batch))]) := by
  obtain ⟨envelopes, decoded, valid⟩ := (envelopes_valid_iff batch.entries).mpr accepted
  simp only [decode, decoded, valid, decodeLogs,
    decodeEntries_of_decodable batch.entries countable decodable]

theorem decode_of_rejected (countable : ∀ entry ∈ batch.entries, Countable prost entry)
    (rejected : ¬ ∀ entry ∈ batch.entries,
      accepts entry.rawMetadata = true ∧ Decodable prost entry) :
    ∃ error, decode prost σ batch = some (.error error) := by
  unfold decode
  cases decoded : decodeEnvelopes batch.entries with
  | error e => exact ⟨_, rfl⟩
  | ok envelopes =>
      cases valid : validateConsistent envelopes expected with
      | error e => exact ⟨.decoder e.text, by simp only [valid]⟩
      | ok _ =>
          have accepted := (envelopes_valid_iff batch.entries).mp ⟨envelopes, decoded, valid⟩
          have undecodable : ¬ ∀ entry ∈ batch.entries, Decodable prost entry := by
            intro all
            exact rejected fun entry member => ⟨accepted entry member, all entry member⟩
          obtain ⟨error, failed⟩ :
              ∃ error, decodeEntries prost batch batch.entries = some (.error error) :=
            decodeEntries_of_not_decodable batch.entries countable undecodable
          exact ⟨.decoder error.text, by simp only [valid, decodeLogs, failed]⟩

/-! ## Numbering -/

theorem entryPlaces_length {entry : SourceEntry} (countable : Countable prost entry) :
    (entryPlaces prost entry).length < 2 ^ 32 := by
  unfold entryPlaces
  split
  · rename_i request decodes
    exact countable request decodes
  · exact Nat.two_pow_pos 32

theorem entryRecords_recordIndex {entry : SourceEntry} (countable : Countable prost entry) :
    (entryRecords prost batch entry).map (fun r => r.source.recordIndex.val) =
      List.range (entryPlaces prost entry).length := by
  rw [entryRecords, numberFrom, List.map_map]
  refine List.ext_getElem (by simp) ?_
  intro i inFront inRange
  have small : i < 2 ^ 32 :=
    Nat.lt_trans (by simpa using inRange) (entryPlaces_length countable)
  simpa [decodePlace, decodeRecord] using Nat.mod_eq_of_lt small

theorem mem_entryRecords {entry : SourceEntry} {r : DecodedLogRecord}
    (member : r ∈ entryRecords prost batch entry) :
    ∃ place index, r = decodePlace batch entry place index := by
  obtain ⟨place, _, rfl⟩ := List.mem_map.mp member
  exact ⟨_, _, rfl⟩

/-- The coordinates a record has within its batch, in the order of the entries. -/
def DecodedLogRecord.Before (left right : DecodedLogRecord) : Prop :=
  Prod.Lex (· < ·) (· < ·) (left.source.entryIndex, left.source.recordIndex)
    (right.source.entryIndex, right.source.recordIndex)

theorem entryRecords_ordered {entry : SourceEntry} (countable : Countable prost entry) :
    (entryRecords prost batch entry).Pairwise DecodedLogRecord.Before := by
  have indices : ((entryRecords prost batch entry).map
      (fun r => r.source.recordIndex.val)).Pairwise (· < ·) := by
    rw [entryRecords_recordIndex countable]
    exact List.pairwise_lt_range
  refine (List.pairwise_map.mp indices).imp_of_mem ?_
  intro left right leftMember rightMember less
  obtain ⟨_, _, rfl⟩ := mem_entryRecords leftMember
  obtain ⟨_, _, rfl⟩ := mem_entryRecords rightMember
  exact Prod.Lex.right _ less

theorem records_ordered (entries : List SourceEntry)
    (countable : ∀ entry ∈ entries, Countable prost entry)
    (increasing : entries.Pairwise fun left right => left.entryIndex < right.entryIndex) :
    (entries.flatMap (entryRecords prost batch)).Pairwise DecodedLogRecord.Before := by
  refine List.pairwise_flatMap.mpr ⟨?_, increasing.imp ?_⟩
  · intro entry member
    exact entryRecords_ordered (countable entry member)
  · intro left right less r leftMember r' rightMember
    obtain ⟨_, _, rfl⟩ := mem_entryRecords leftMember
    obtain ⟨_, _, rfl⟩ := mem_entryRecords rightMember
    exact Prod.Lex.left _ _ less

end Batches

/-! ## Document order -/

def entryOrder (prost : Prost) (entry : SourceEntry) : List Located :=
  (entryPlaces prost entry).zipIdx.map fun place => ⟨entry, place.2, place.1⟩

/-- The log records of the entries, in document order. -/
def documentOrder (prost : Prost) (entries : List SourceEntry) : List Located :=
  entries.flatMap (entryOrder prost)

theorem entryRecords_recordAt {prost : Prost} {batch : SourceBatch} {entry : SourceEntry}
    (countable : Countable prost entry) :
    List.Forall₂ (RecordAt batch) (entryOrder prost entry) (entryRecords prost batch entry) := by
  rw [entryOrder, entryRecords, numberFrom, List.forall₂_map_left_iff, List.forall₂_map_right_iff,
    List.forall₂_same]
  rintro ⟨place, position⟩ member
  have small : position < 2 ^ 32 :=
    (List.mem_zipIdx' member).1.trans (entryPlaces_length countable)
  have built := recordAt_decodePlace batch entry place (Fin.ofNat (2 ^ 32) position)
  rwa [Fin.val_ofNat, Nat.mod_eq_of_lt small] at built

theorem records_recordAt {prost : Prost} {batch : SourceBatch} (entries : List SourceEntry)
    (countable : ∀ entry ∈ entries, Countable prost entry) :
    List.Forall₂ (RecordAt batch) (documentOrder prost entries)
      (entries.flatMap (entryRecords prost batch)) := by
  induction entries with
  | nil => exact .nil
  | cons entry rest ih =>
      obtain ⟨headCountable, restCountable⟩ := List.forall_mem_cons.mp countable
      rw [documentOrder, List.flatMap_cons, List.flatMap_cons]
      exact List.rel_append (entryRecords_recordAt headCountable) (ih restCountable)

theorem entryRecords_entryIndex {prost : Prost} {batch : SourceBatch} {entry : SourceEntry}
    {r : DecodedLogRecord} (member : r ∈ entryRecords prost batch entry) :
    r.source.entryIndex = entry.entryIndex := by
  obtain ⟨place, index, rfl⟩ := mem_entryRecords member
  rfl

/-- The records of an entry are those with its index. -/
theorem records_of_entry {prost : Prost} {batch : SourceBatch} {entries : List SourceEntry}
    (distinct : (entries.map SourceEntry.entryIndex).Nodup) {entry : SourceEntry}
    (member : entry ∈ entries) :
    ((entries.flatMap (entryRecords prost batch)).filter fun r =>
      r.source.entryIndex = entry.entryIndex) = entryRecords prost batch entry := by
  have own : ((entryRecords prost batch entry).filter fun r =>
      r.source.entryIndex = entry.entryIndex) = entryRecords prost batch entry :=
    List.filter_eq_self.mpr fun r inEntry => decide_eq_true (entryRecords_entryIndex inEntry)
  have foreign : ∀ others : List SourceEntry, entry.entryIndex ∉ others.map SourceEntry.entryIndex →
      ((others.flatMap (entryRecords prost batch)).filter fun r =>
        r.source.entryIndex = entry.entryIndex) = [] := by
    intro others absent
    refine List.filter_eq_nil_iff.mpr fun r inOthers => ?_
    obtain ⟨other, isOther, inOther⟩ := List.mem_flatMap.mp inOthers
    rw [decide_eq_true_eq, entryRecords_entryIndex inOther]
    exact fun same => absent (List.mem_map.mpr ⟨other, isOther, same⟩)
  obtain ⟨front, back, rfl⟩ := List.append_of_mem member
  rw [List.map_append, List.map_cons, List.nodup_middle, List.nodup_cons, List.mem_append,
    not_or] at distinct
  rw [List.flatMap_append, List.flatMap_cons, List.filter_append, List.filter_append, own,
    foreign front distinct.1.1, foreign back distinct.1.2, List.nil_append, List.append_nil]

/-- What a successful decode of a batch returns. -/
structure Flattened (prost : Prost) {σ : Nat} (batch : SourceBatch)
    (decoded : DecodedBatch (TypedDecodedLogs σ)) : Prop where
  low : decoded.lowSequence = batch.sequence
  high : decoded.highSequence = batch.sequence
  /-- One record for each log record of the entries, in document order. -/
  records : List.Forall₂ (RecordAt batch) (documentOrder prost batch.entries)
    decoded.records.records
  numbered : ∀ entry ∈ batch.entries,
    ((decoded.records.records.filter fun r => r.source.entryIndex = entry.entryIndex).map
      fun r => r.source.recordIndex.val) = List.range (entryPlaces prost entry).length
  ordered : decoded.records.records.Pairwise DecodedLogRecord.Before
  sequences : decoded.sourceColumns.sequences =
    decoded.records.records.map fun r => r.source.bufferSequence
  entryIndices : decoded.sourceColumns.entryIndices =
    decoded.records.records.map fun r => r.source.entryIndex
  recordIndices : decoded.sourceColumns.recordIndices =
    decoded.records.records.map fun r => r.source.recordIndex
  ingestionTimes : decoded.sourceColumns.ingestionTimeMs =
    decoded.records.records.map fun r => r.source.ingestionTimeMs
  serviceNames : ∀ r ∈ decoded.records.records,
    r.serviceName = r.resourceAttributes.get? "service.name"

theorem flattened_decodedBatch {prost : Prost} (σ : Nat) (batch : SourceBatch)
    (countable : ∀ entry ∈ batch.entries, Countable prost entry)
    (increasing : batch.entries.Pairwise fun left right => left.entryIndex < right.entryIndex) :
    Flattened prost batch
      (decodedBatch σ batch (batch.entries.flatMap (entryRecords prost batch))) where
  low := rfl
  high := rfl
  records := records_recordAt batch.entries countable
  numbered entry member := by
    have distinct : (batch.entries.map SourceEntry.entryIndex).Nodup :=
      List.pairwise_map.mpr (increasing.imp fun less => Fin.ne_of_lt less)
    have own : ((batch.entries.flatMap (entryRecords prost batch)).filter fun r =>
        r.source.entryIndex = entry.entryIndex) = entryRecords prost batch entry :=
      records_of_entry distinct member
    rw [← entryRecords_recordIndex (countable entry member), ← own]
    rfl
  ordered := records_ordered batch.entries countable increasing
  sequences := rfl
  entryIndices := rfl
  recordIndices := rfl
  ingestionTimes := rfl
  serviceNames := by
    intro r member
    obtain ⟨entry, _, inEntry⟩ := List.mem_flatMap.mp member
    obtain ⟨place, index, rfl⟩ := mem_entryRecords inEntry
    rw [decodePlace_serviceName, decodePlace_resourceAttributes]

/-- The decoder succeeds exactly on batches whose every entry is accepted and decodes, and
then returns one batch with every log record in document order, uniquely numbered. -/
theorem otlp_decode_flattens_exactly (prost : Prost) (σ : Nat) (batch : SourceBatch)
    (increasing : batch.entries.Pairwise fun left right => left.entryIndex < right.entryIndex)
    (countable : ∀ entry ∈ batch.entries, Countable prost entry) :
    ((∃ batches, decode prost σ batch = some (.ok batches)) ↔
        ∀ entry ∈ batch.entries, accepts entry.rawMetadata = true ∧ Decodable prost entry) ∧
      ((¬ ∃ batches, decode prost σ batch = some (.ok batches)) →
        ∃ error, decode prost σ batch = some (.error error)) ∧
      ∀ batches, decode prost σ batch = some (.ok batches) →
        ∃ decoded, batches = [decoded] ∧ Flattened prost batch decoded := by
  by_cases passes : ∀ entry ∈ batch.entries,
      accepts entry.rawMetadata = true ∧ Decodable prost entry
  · have decodes : decode prost σ batch = some (.ok
        [decodedBatch σ batch (batch.entries.flatMap (entryRecords prost batch))]) :=
      decode_of_accepted countable (fun entry member => (passes entry member).1)
        (fun entry member => (passes entry member).2)
    refine ⟨iff_of_true ⟨_, decodes⟩ passes, fun fails => absurd ⟨_, decodes⟩ fails, ?_⟩
    intro batches returned
    rw [decodes] at returned
    cases returned
    exact ⟨_, rfl, flattened_decodedBatch σ batch countable increasing⟩
  · obtain ⟨error, failed⟩ : ∃ error, decode prost σ batch = some (.error error) :=
      decode_of_rejected countable passes
    have noBatches : ¬ ∃ batches, decode prost σ batch = some (.ok batches) := by
      rintro ⟨batches, returned⟩
      rw [failed] at returned
      cases returned
    refine ⟨iff_of_false noBatches passes, fun _ => ⟨error, failed⟩, ?_⟩
    intro batches returned
    exact absurd ⟨batches, returned⟩ noBatches

/-- The wire form of one resource with two scopes of one empty log record each. -/
def twoScopesPayload : Bytes := [0x0A, 0x08, 0x12, 0x02, 0x12, 0x00, 0x12, 0x02, 0x12, 0x00]

def twoScopesRequest : ExportLogsServiceRequest :=
  let log : LogRecord := ⟨0, 0, 0, "", none, [], [], []⟩
  ⟨[⟨none, [⟨none, [log]⟩, ⟨none, [log]⟩]⟩]⟩

def twoScopesProst (payload : Bytes) : Except String ExportLogsServiceRequest :=
  if payload = [] then .ok ⟨[]⟩
  else if payload = twoScopesPayload then .ok twoScopesRequest
  else .error "failed to decode Protobuf message"

def threeEntryBatch : SourceBatch :=
  ⟨⟨"logs"⟩, 7, "manifest", "data/7", [⟨0, twoScopesPayload, [1, 2, 1, 0], 5⟩,
    ⟨1, [], [1, 2, 1, 0], 6⟩, ⟨4, twoScopesPayload, [1, 2, 1, 9], 6⟩]⟩

/-- Three entries, the middle one empty: the index runs on over scopes and starts again at
each entry. -/
theorem otlp_decode_flattens_three_entries :
    ∃ decoded, decode twoScopesProst 0 threeEntryBatch = some (.ok [decoded]) ∧
      Flattened twoScopesProst threeEntryBatch decoded ∧
      decoded.records.records.map DecodedLogRecord.coordinates =
        [(7, 0, 0), (7, 0, 1), (7, 4, 0), (7, 4, 1)] := by
  have countable : ∀ entry ∈ threeEntryBatch.entries, Countable twoScopesProst entry := by
    intro entry member request decodes
    have isSample : request = twoScopesRequest ∨ request = ⟨[]⟩ := by
      unfold twoScopesProst at decodes
      split_ifs at decodes
      · exact Or.inr (Except.ok.inj decodes).symm
      · exact Or.inl (Except.ok.inj decodes).symm
    rcases isSample with rfl | rfl
    · decide
    · decide
  obtain ⟨exactly, _, flattens⟩ := otlp_decode_flattens_exactly twoScopesProst 0 threeEntryBatch
    (by decide) countable
  have passes : ∀ entry ∈ threeEntryBatch.entries,
      accepts entry.rawMetadata = true ∧ Decodable twoScopesProst entry := by
    intro entry member
    simp only [threeEntryBatch, List.mem_cons, List.not_mem_nil, or_false] at member
    rcases member with rfl | rfl | rfl
    · exact ⟨by decide, twoScopesRequest, rfl⟩
    · exact ⟨by decide, ⟨[]⟩, rfl⟩
    · exact ⟨by decide, twoScopesRequest, rfl⟩
  obtain ⟨batches, decodes⟩ := exactly.mpr passes
  obtain ⟨decoded, rfl, flattened⟩ := flattens batches decodes
  refine ⟨decoded, decodes, flattened, ?_⟩
  rw [decode_of_accepted countable (fun entry member => (passes entry member).1)
    fun entry member => (passes entry member).2] at decodes
  cases decodes
  decide

end OpendataIngest.Otel
