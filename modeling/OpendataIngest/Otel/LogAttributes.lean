import OpendataIngest.Otel.Flattening

/-!
# The attributes of a flattened record

`decode_entry` folds a record's own attributes into an empty map and then its scope's
attributes over the result.  What a key ends up with is therefore the scope's last value,
and the record's own only where the scope has none.
-/

set_option autoImplicit false

namespace OpendataIngest.Otel

open MachineInt OpendataIngest.Runtime

/-- The value the scope above a record gives a key. -/
def scopeValue (scope : Option InstrumentationScope) (key : String) : Option String :=
  scope.bind fun scope => lastValue scope.attributes key

theorem scopeValue_eq (place : LogPlace) (key : String) :
    scopeValue place.scope key = lastValue place.scopeAttributes key := by
  unfold LogPlace.scopeAttributes
  cases place.scope with
  | none => rfl
  | some scope => rfl

/-- The record keeps its own attributes, and takes every other key from its scope. -/
structure KeepsOwnAttributes (place : LogPlace) (record : DecodedLogRecord) : Prop where
  own : ∀ key value, lastValue place.log.attributes key = some value →
    record.logAttributes.get? key = some value
  other : ∀ key, lastValue place.log.attributes key = none →
    record.logAttributes.get? key = scopeValue place.scope key

/-- No key has one value in the record and another in its scope. -/
def ScopeAgrees (place : LogPlace) : Prop :=
  ∀ key own above, lastValue place.log.attributes key = some own →
    scopeValue place.scope key = some above → above = own

theorem keepsOwnAttributes_decodePlace_iff (batch : SourceBatch) (entry : SourceEntry)
    (place : LogPlace) (recordIndex : U32) :
    KeepsOwnAttributes place (decodePlace batch entry place recordIndex) ↔ ScopeAgrees place := by
  constructor
  · intro keeps key own above isOwn isAbove
    have kept := keeps.own key own isOwn
    rw [decodePlace_logAttributes, ← scopeValue_eq, isAbove] at kept
    exact Option.some.inj kept
  · intro agrees
    refine ⟨?_, ?_⟩
    · intro key own isOwn
      rw [decodePlace_logAttributes, ← scopeValue_eq, isOwn]
      cases isAbove : scopeValue place.scope key with
      | none => rfl
      | some above => rw [agrees key own above isOwn isAbove]; rfl
    · intro key isOwn
      rw [decodePlace_logAttributes, ← scopeValue_eq, isOwn, Option.or_none]

/-- For every log record of a decoded entry: it keeps its own attributes exactly when its
scope gives none of its keys another value. -/
theorem flattening_keeps_own_attributes_iff (prost : Prost) (batch : SourceBatch)
    (entry : SourceEntry) (request : ExportLogsServiceRequest) (records : List DecodedLogRecord)
    (decodes : prost entry.rawBytes = .ok request)
    (decoded : decodeEntry prost batch entry = some (.ok records)) :
    records.length = request.places.length ∧
      ∀ (i : Nat) (place : LogPlace) (record : DecodedLogRecord),
        request.places[i]? = some place → records[i]? = some record →
        (KeepsOwnAttributes place record ↔ ScopeAgrees place) := by
  rw [decodeEntry_eq decodes] at decoded
  split_ifs at decoded
  have same : numberFrom batch entry 0 request.places = records :=
    Except.ok.inj (Option.some.inj decoded)
  rw [← same]
  refine ⟨numberFrom_length 0 request.places, ?_⟩
  intro i place record at_place at_record
  have built : record = decodePlace batch entry place (Fin.ofNat (2 ^ 32) i) := by
    simpa [numberFrom, List.getElem?_zipIdx, at_place, eq_comm] using at_record
  rw [built]
  exact keepsOwnAttributes_decodePlace_iff batch entry place _

/-- The wire form of a record with `k = a` under a scope with one attribute, of value `b`
and a key of one letter. -/
def scopedPayload (scopeKey : UInt8) : Bytes :=
  [0x0A, 0x1A, 0x12, 0x18,
    0x0A, 0x0A, 0x1A, 0x08, 0x0A, 0x01, scopeKey, 0x12, 0x03, 0x0A, 0x01, 0x62,
    0x12, 0x0A, 0x32, 0x08, 0x0A, 0x01, 0x6B, 0x12, 0x03, 0x0A, 0x01, 0x61]

def scopedPlace (scopeKey : String) : LogPlace where
  resource := none
  scope := some ⟨"", [⟨scopeKey, some ⟨some (.stringValue "b")⟩⟩]⟩
  log := ⟨0, 0, 0, "", none, [⟨"k", some ⟨some (.stringValue "a")⟩⟩], [], []⟩

def scopedRequest (scopeKey : String) : ExportLogsServiceRequest :=
  let place := scopedPlace scopeKey
  ⟨[⟨place.resource, [⟨place.scope, [place.log]⟩]⟩]⟩

def scopedProst (payload : Bytes) : Except String ExportLogsServiceRequest :=
  if payload = scopedPayload 0x6B then .ok (scopedRequest "k")
  else if payload = scopedPayload 0x73 then .ok (scopedRequest "s")
  else .error "failed to decode Protobuf message"

def scopedBatch (scopeKey : UInt8) : SourceBatch :=
  ⟨⟨"logs"⟩, 0, "manifest", "data/0", [⟨0, scopedPayload scopeKey, [1, 2, 1, 0], 0⟩]⟩

/-- Under a scope with another key the record keeps `k = a` and gains `s = b`. -/
theorem flattening_keeps_own_attributes_beside_scope :
    ∃ record, decodeEntry scopedProst (scopedBatch 0x73)
        ⟨0, scopedPayload 0x73, [1, 2, 1, 0], 0⟩ = some (.ok [record]) ∧
      KeepsOwnAttributes (scopedPlace "s") record ∧
      record.logAttributes.entries = [("k", "a"), ("s", "b")] := by
  let entry : SourceEntry := ⟨0, scopedPayload 0x73, [1, 2, 1, 0], 0⟩
  let record := decodePlace (scopedBatch 0x73) entry (scopedPlace "s") 0
  have decodes : scopedProst entry.rawBytes = .ok (scopedRequest "s") := by decide
  have decoded : decodeEntry scopedProst (scopedBatch 0x73) entry = some (.ok [record]) := by
    rw [decodeEntry_eq decodes]
    rfl
  have agrees : ScopeAgrees (scopedPlace "s") := by
    intro key own above isOwn isAbove
    simp only [lastValue, scopedPlace, List.filterMap_cons, List.filterMap_nil, scopeValue,
      Option.bind_some] at isOwn isAbove
    split_ifs at isOwn isAbove with isK isS
    · exact absurd (isK.trans isS.symm) (by decide)
    all_goals simp at isOwn isAbove
  refine ⟨record, decoded, ?_, by decide⟩
  exact ((flattening_keeps_own_attributes_iff scopedProst _ entry (scopedRequest "s") _ decodes
    decoded).2 0 (scopedPlace "s") record rfl rfl).mpr agrees

/-- Under a scope with the same key the record's own value is lost. -/
theorem flattening_overwrites_own_attribute :
    ¬ ∀ (prost : Prost) (batch : SourceBatch) (entry : SourceEntry)
      (request : ExportLogsServiceRequest) (records : List DecodedLogRecord),
      prost entry.rawBytes = .ok request → decodeEntry prost batch entry = some (.ok records) →
      ∀ (i : Nat) (place : LogPlace) (record : DecodedLogRecord),
        request.places[i]? = some place → records[i]? = some record →
        KeepsOwnAttributes place record := by
  intro keeps
  let entry : SourceEntry := ⟨0, scopedPayload 0x6B, [1, 2, 1, 0], 0⟩
  let record := decodePlace (scopedBatch 0x6B) entry (scopedPlace "k") 0
  have decodes : scopedProst entry.rawBytes = .ok (scopedRequest "k") := by decide
  have decoded : decodeEntry scopedProst (scopedBatch 0x6B) entry = some (.ok [record]) := by
    rw [decodeEntry_eq decodes]
    rfl
  have kept := keeps scopedProst _ entry (scopedRequest "k") _ decodes decoded 0
    (scopedPlace "k") record rfl rfl
  have own := kept.own "k" "a" (by decide)
  have overwritten : record.logAttributes.get? "k" = some "b" := by decide
  rw [overwritten] at own
  exact absurd own (by decide)

end OpendataIngest.Otel
