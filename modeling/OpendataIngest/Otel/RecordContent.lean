import OpendataIngest.Otel.Coordinates

/-!
# What a decoded record says

A request is a tree of resources, scopes and log records.  `RecordAt` says of a log record
at its place in the tree what the decoder has to return for it, field by field, in terms of
the request alone; `decode_entry` builds such a record.
-/

set_option autoImplicit false

namespace OpendataIngest.Otel

open MachineInt OpendataIngest.Runtime Hex

/-! ## Places -/

/-- A log record and what stands above it in the tree. -/
structure LogPlace where
  resource : Option Resource
  scope : Option InstrumentationScope
  log : LogRecord

def LogPlace.resourceAttributes (place : LogPlace) : List KeyValue :=
  (place.resource.map Resource.attributes).getD []

def LogPlace.scopeAttributes (place : LogPlace) : List KeyValue :=
  (place.scope.map InstrumentationScope.attributes).getD []

/-- A log record with its entry and its position in the entry. -/
structure Located where
  entry : SourceEntry
  position : Nat
  place : LogPlace

def ScopeLogs.places (resource : Option Resource) (scopeLogs : ScopeLogs) : List LogPlace :=
  scopeLogs.logRecords.map fun log => ⟨resource, scopeLogs.scope, log⟩

def ResourceLogs.places (resourceLogs : ResourceLogs) : List LogPlace :=
  resourceLogs.scopeLogs.flatMap (ScopeLogs.places resourceLogs.resource)

def ExportLogsServiceRequest.places (request : ExportLogsServiceRequest) : List LogPlace :=
  request.resourceLogs.flatMap ResourceLogs.places

/-! ## Values -/

/-- The text of a value. -/
inductive Spelled : Value → String → Prop
  | string (text : String) : Spelled (.stringValue text) text
  | boolTrue : Spelled (.boolValue true) "true"
  | boolFalse : Spelled (.boolValue false) "false"
  | int (n : Int) : Spelled (.intValue n) (toString n)
  | double (text : String) : Spelled (.doubleValue text) text
  | bytes {bytes : Bytes} {text : String} (digits : readHex .lower text.toList = some bytes) :
      Spelled (.bytesValue bytes) text
  | array : Spelled .arrayValue "<complex>"
  | kvlist : Spelled .kvlistValue "<complex>"

/-- An attribute value or a body that is present, and its text. -/
inductive Carries : Option AnyValue → String → Prop
  | present {value : Value} {text : String} (spelled : Spelled value text) :
      Carries (some ⟨some value⟩) text

theorem readHex_hexEncode {bytes : Bytes} {text : String} :
    readHex .lower text.toList = some bytes ↔ hexEncode bytes = text := by
  rw [readHex_eq_some, hexEncode, ← String.toList_inj, String.toList_ofList, eq_comm]

theorem stringValue_eq_some {value : Option AnyValue} {text : String} :
    stringValue value = some text ↔ Carries value text := by
  constructor
  · intro spells
    rcases value with _ | ⟨_ | value⟩
    · cases spells
    · cases spells
    · refine .present ?_
      cases value with
      | stringValue => cases spells; exact .string _
      | boolValue b =>
          cases b with
          | false => cases spells; exact .boolFalse
          | true => cases spells; exact .boolTrue
      | intValue => cases spells; exact .int _
      | doubleValue => cases spells; exact .double _
      | bytesValue bytes => cases spells; exact .bytes (readHex_hexEncode.mpr rfl)
      | arrayValue => cases spells; exact .array
      | kvlistValue => cases spells; exact .kvlist
  · rintro ⟨spelled⟩
    cases spelled with
    | bytes digits => exact congrArg some (readHex_hexEncode.mp digits)
    | _ => rfl

/-! ## Attributes -/

/-- The last of the attributes with this key that has a value has this one. -/
inductive LastGiven (key value : String) : List KeyValue → Prop
  | last {kv : KeyValue} {rest : List KeyValue} (named : kv.key = key)
      (carries : Carries kv.value value)
      (final : ∀ later ∈ rest, later.key = key → ∀ text, ¬ Carries later.value text) :
      LastGiven key value (kv :: rest)
  | later {kv : KeyValue} {rest : List KeyValue} (given : LastGiven key value rest) :
      LastGiven key value (kv :: rest)

/-- The text of the last value a list of attributes gives a key. -/
def lastValue (attributes : List KeyValue) (key : String) : Option String :=
  (attributes.filterMap fun kv =>
    if kv.key = key then stringValue kv.value else none).getLast?

theorem lastValue_append (front back : List KeyValue) (key : String) :
    lastValue (front ++ back) key = (lastValue back key).or (lastValue front key) := by
  rw [lastValue, List.filterMap_append, List.getLast?_append]
  rfl

theorem lastValue_singleton (kv : KeyValue) (key : String) :
    lastValue [kv] key = if kv.key = key then stringValue kv.value else none := by
  rw [lastValue, List.filterMap_cons, List.filterMap_nil]
  cases (if kv.key = key then stringValue kv.value else none) with
  | none => rfl
  | some value => rfl

theorem lastValue_eq_none {attributes : List KeyValue} {key : String} :
    lastValue attributes key = none ↔
      ∀ kv ∈ attributes, kv.key = key → ∀ text, ¬ Carries kv.value text := by
  rw [lastValue, List.getLast?_eq_none_iff, List.filterMap_eq_nil_iff]
  refine forall₂_congr fun kv _ => ?_
  simp only [ite_eq_right_iff, Option.eq_none_iff_forall_ne_some, ne_eq, stringValue_eq_some]

theorem lastValue_eq_some {attributes : List KeyValue} {key value : String} :
    lastValue attributes key = some value ↔ LastGiven key value attributes := by
  induction attributes with
  | nil =>
      constructor
      · intro impossible
        cases impossible
      · intro impossible
        cases impossible
  | cons kv rest ih =>
      rw [← List.singleton_append, lastValue_append, lastValue_singleton]
      cases more : lastValue rest key with
      | none =>
          have final := lastValue_eq_none.mp more
          rw [Option.none_or, List.singleton_append]
          constructor
          · intro first
            split_ifs at first with named
            exact .last named (stringValue_eq_some.mp first) final
          · intro given
            cases given with
            | last named carries => rw [if_pos named, stringValue_eq_some.mpr carries]
            | later given =>
                rw [ih.mpr given] at more
                cases more
      | some text =>
          rw [Option.some_or, ← more, ih, List.singleton_append]
          constructor
          · exact .later
          · intro given
            cases given with
            | last named carries final =>
                rw [lastValue_eq_none.mpr final] at more
                cases more
            | later given => exact given

theorem mergeAttributes_concat (front : List KeyValue) (kv : KeyValue) (dst : Attributes) :
    mergeAttributes (front ++ [kv]) dst =
      match stringValue kv.value with
      | some value => (mergeAttributes front dst).insert kv.key value
      | none => mergeAttributes front dst := by
  calc mergeAttributes (front ++ [kv]) dst
      = mergeAttributes [kv] (mergeAttributes front dst) := List.foldl_append
    _ = _ := rfl

/-- Merging overwrites exactly the keys that have a value. -/
theorem mergeAttributes_get? (src : List KeyValue) (dst : Attributes) (key : String) :
    (mergeAttributes src dst).get? key = (lastValue src key).or (dst.get? key) := by
  induction src using List.reverseRecOn with
  | nil => rfl
  | append_singleton front kv ih =>
      rw [mergeAttributes_concat, lastValue_append, lastValue_singleton]
      cases value : stringValue kv.value with
      | none => simp [ih]
      | some text =>
          simp only [SortedMap.get?_insert, eq_comm (a := key)]
          split_ifs
          · rfl
          · simp [ih]

/-- The mutable service name follows the attribute of that key. -/
theorem resourceFields_eq (attributes : List KeyValue) :
    resourceFields attributes = (mergeAttributes attributes SortedMap.empty,
      lastValue attributes "service.name") := by
  induction attributes using List.reverseRecOn with
  | nil => rfl
  | append_singleton front kv ih =>
      rw [mergeAttributes_concat, lastValue_append, lastValue_singleton]
      simp only [resourceFields, List.foldl_append, List.foldl_cons, List.foldl_nil] at ih ⊢
      rw [ih]
      cases value : stringValue kv.value with
      | none => simp
      | some text =>
          dsimp only
          split_ifs
          · rfl
          · rfl

/-! ## Records -/

def fieldsOf : Option Resource → Attributes × Option String
  | some resource => resourceFields resource.attributes
  | none => (SortedMap.empty, none)

theorem fieldsOf_eq (place : LogPlace) : fieldsOf place.resource =
    (mergeAttributes place.resourceAttributes SortedMap.empty,
      lastValue place.resourceAttributes "service.name") := by
  unfold LogPlace.resourceAttributes
  cases place.resource with
  | none => rfl
  | some resource => exact resourceFields_eq resource.attributes

def decodePlace (batch : SourceBatch) (entry : SourceEntry) (place : LogPlace)
    (recordIndex : U32) : DecodedLogRecord :=
  decodeRecord batch entry (fieldsOf place.resource) place.scope place.log recordIndex

/-- What the record of a log record has to say. -/
structure RecordAt (batch : SourceBatch) (located : Located) (r : DecodedLogRecord) : Prop where
  sequence : r.source.bufferSequence = batch.sequence
  entryIndex : r.source.entryIndex = located.entry.entryIndex
  recordIndex : r.source.recordIndex.val = located.position
  manifestPath : r.source.manifestPath = batch.manifestPath
  dataPath : r.source.dataPath = batch.dataObjectPath
  ingestionTime : r.source.ingestionTimeMs = located.entry.ingestionTimeMs
  timestamp : r.timestampUnixNano = located.place.log.timeUnixNano
  observed : r.observedTimestampUnixNano = located.place.log.observedTimeUnixNano
  severityNumber : r.severityNumber = located.place.log.severityNumber
  severityText : r.severityText = located.place.log.severityText
  body : Carries located.place.log.body r.body ∨
    r.body = "" ∧ ∀ text, ¬ Carries located.place.log.body text
  traceId : readHex .lower r.traceIdHex.toList = some located.place.log.traceId
  spanId : readHex .lower r.spanIdHex.toList = some located.place.log.spanId
  scopeName : r.scopeName = located.place.scope.map InstrumentationScope.name
  serviceName : ∀ name, r.serviceName = some name ↔
    LastGiven "service.name" name located.place.resourceAttributes
  resourceAttributes : ∀ key value, r.resourceAttributes.get? key = some value ↔
    LastGiven key value located.place.resourceAttributes
  logAttributes : ∀ key value, r.logAttributes.get? key = some value ↔
    LastGiven key value (located.place.log.attributes ++ located.place.scopeAttributes)

section Place

variable (batch : SourceBatch) (entry : SourceEntry) (place : LogPlace) (recordIndex : U32)

theorem decodePlace_body : Carries place.log.body
      (decodePlace batch entry place recordIndex).body ∨
    (decodePlace batch entry place recordIndex).body = "" ∧
      ∀ text, ¬ Carries place.log.body text := by
  change Carries place.log.body (anyValueToString place.log.body) ∨
    anyValueToString place.log.body = "" ∧ _
  rw [anyValueToString]
  cases spells : stringValue place.log.body with
  | none =>
      refine Or.inr ⟨rfl, fun text carries => ?_⟩
      rw [stringValue_eq_some.mpr carries] at spells
      cases spells
  | some text => exact Or.inl (stringValue_eq_some.mp spells)

theorem decodePlace_resourceAttributes (key : String) :
    (decodePlace batch entry place recordIndex).resourceAttributes.get? key =
      lastValue place.resourceAttributes key := by
  change (fieldsOf place.resource).1.get? key = _
  rw [fieldsOf_eq, mergeAttributes_get?]
  exact Option.or_none

theorem decodePlace_serviceName :
    (decodePlace batch entry place recordIndex).serviceName =
      lastValue place.resourceAttributes "service.name" := by
  change (fieldsOf place.resource).2 = _
  rw [fieldsOf_eq]

theorem decodePlace_logAttributes (key : String) :
    (decodePlace batch entry place recordIndex).logAttributes.get? key =
      (lastValue place.scopeAttributes key).or (lastValue place.log.attributes key) := by
  unfold LogPlace.scopeAttributes decodePlace decodeRecord
  cases place.scope with
  | none =>
      change (mergeAttributes place.log.attributes SortedMap.empty).get? key = _
      rw [mergeAttributes_get?]
      exact Option.or_none
  | some scope =>
      change (mergeAttributes scope.attributes
        (mergeAttributes place.log.attributes SortedMap.empty)).get? key = _
      rw [mergeAttributes_get?, mergeAttributes_get?]
      exact congrArg _ Option.or_none

/-- `decode_entry` builds the record of the place. -/
theorem recordAt_decodePlace :
    RecordAt batch ⟨entry, recordIndex.val, place⟩ (decodePlace batch entry place recordIndex) where
  sequence := rfl
  entryIndex := rfl
  recordIndex := rfl
  manifestPath := rfl
  dataPath := rfl
  ingestionTime := rfl
  timestamp := rfl
  observed := rfl
  severityNumber := rfl
  severityText := rfl
  body := decodePlace_body batch entry place recordIndex
  traceId := readHex_hexEncode.mpr rfl
  spanId := readHex_hexEncode.mpr rfl
  scopeName := rfl
  serviceName name := by rw [decodePlace_serviceName, lastValue_eq_some]
  resourceAttributes key value := by rw [decodePlace_resourceAttributes, lastValue_eq_some]
  logAttributes key value := by
    rw [decodePlace_logAttributes, ← lastValue_append, lastValue_eq_some]

end Place

end OpendataIngest.Otel
