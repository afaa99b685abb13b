import OpendataIngest.ClickHouse.DateTimeText
import OpendataIngest.ClickHouse.LogsTable
import OpendataIngest.ClickHouse.RowBinary

/-!
# JSONEachRow bodies

`RowValue::to_json` of `adapter/mod.rs` and `serializer/jsoneachrow.rs`, and the instants
that the date-time columns of the two kinds of bodies denote.  `toVec` is
`serde_json::to_vec`, the text of a JSON value.
-/

set_option autoImplicit false

namespace OpendataIngest.ClickHouse

open MachineInt OpendataIngest.Runtime Otel

/-! ## The writer -/

inductive JsonValue where
  | null
  | number (n : Int)
  | string (s : String)
  | object (entries : List (String × JsonValue))

/-- `format_datetime64_ns`, whose loops end. -/
def datetimeText (ns : U64) : String :=
  (Calendar.formatDatetime64Ns ns).get (Calendar.formatDatetime64Ns_isSome ns)

def RowValue.toJson : RowValue → JsonValue
  | .string s => .string s
  | .lowCardinalityString s => .string s
  | .uint8 v => .number v.toNat
  | .int32 v => .number v.toInt
  | .uint32 v => .number v.val
  | .uint64 v => .number v.val
  | .int64 v => .number v.toInt
  | .dateTime64Nanos ns => .string (datetimeText ns)
  | .nullableDateTime64Nanos none => .null
  | .nullableDateTime64Nanos (some ns) => .string (datetimeText ns)
  | .stringMap m =>
      let obj : SortedMap String JsonValue := SortedMap.empty.insertAll
        (m.entries.map fun entry => (entry.1, .string entry.2))
      .object obj.entries

/-- The object of a row. -/
def rowObject (columns : List String) (row : Row) : SortedMap String JsonValue :=
  SortedMap.empty.insertAll ((columns.zip row).map fun (col, value) => (col, value.toJson))

section Body

variable (toVec : JsonValue → Except String (List UInt8))

/-- `JsonEachRowSerializer::serialize`. -/
def jsonRows (columns : List String) : List Row → Except WriterError (List UInt8)
  | [] => .ok []
  | row :: rest =>
      if row.length ≠ columns.length then
        .error (.serialization (s!"row has {row.length} values but {columns.length} columns are " ++
          "expected"))
      else
        match toVec (.object (rowObject columns row).entries) with
        | .error e => .error (.serialization e)
        | .ok line => (jsonRows columns rest).map fun later => line ++ 10 :: later

def serializeJsonEachRow (chunk : InsertChunk) : Except WriterError (List UInt8) :=
  jsonRows toVec chunk.columns chunk.rows

/-- A line for each of the objects. -/
def jsonLines : List (SortedMap String JsonValue) → Except WriterError (List UInt8)
  | [] => .ok []
  | obj :: rest =>
      match toVec (.object obj.entries) with
      | .error e => .error (.serialization e)
      | .ok line => (jsonLines rest).map fun later => line ++ 10 :: later

theorem jsonRows_eq (columns : List String) (rows : List Row)
    (sized : ∀ row ∈ rows, row.length = columns.length) :
    jsonRows toVec columns rows = jsonLines toVec (rows.map (rowObject columns)) := by
  induction rows with
  | nil => rfl
  | cons row rest ih =>
      have fits : ¬ row.length ≠ columns.length := not_not_intro (sized row List.mem_cons_self)
      have later := ih fun other isOther => sized other (List.mem_cons_of_mem _ isOther)
      rw [jsonRows, if_neg fits, later]
      rfl

end Body

/-! ## Columns -/

theorem lookup_map {A B : Type} (f : A → B) (name : String) (entries : List (String × A)) :
    (entries.map (Prod.map id f)).lookup name = (entries.lookup name).map f := by
  induction entries with
  | nil => rfl
  | cons entry rest ih =>
      obtain ⟨key, value⟩ := entry
      simp only [List.map_cons, Prod.map_apply, id_eq, List.lookup_cons, ih]
      cases name == key <;> rfl

/-- The column of a row in the object of the row. -/
theorem get?_rowObject {row : Row} (sized : row.length = columns.length) {name : String}
    {value : RowValue} (found : columnOf name row = some value) :
    (rowObject columns row).get? name = some value.toJson := by
  obtain ⟨front, back, split, _⟩ := List.lookup_eq_some_iff.mp found
  have member : (name, value) ∈ columns.zip row := by
    rw [split]
    exact List.mem_append_right front List.mem_cons_self
  refine SortedMap.get?_insertAll _ _ ?_ (List.mem_map.mpr ⟨(name, value), member, rfl⟩)
  have names : ((columns.zip row).map fun entry => (entry.1, entry.2.toJson)).map Prod.fst =
      columns := by
    rw [List.map_map]
    exact List.map_fst_zip (Nat.le_of_eq sized.symm)
  rw [names]
  decide

/-- The column of a row in what a reader of the bytes makes of it. -/
theorem lookup_serverValues {row : Row} {name : String} {value : RowValue}
    (found : columnOf name row = some value) :
    (columns.zip (row.map RowValue.serverValue)).lookup name = some value.serverValue := by
  rw [List.zip_map_right, lookup_map]
  exact congrArg (Option.map RowValue.serverValue) found

/-! ## Instants -/

/-- The nanoseconds since the epoch of a date-time column, `some none` for a `NULL`. -/
def JsonValue.instant : JsonValue → Option (Option Int)
  | .string text => (Calendar.parseDatetime64 text).map some
  | .null => some none
  | _ => none

def ServerValue.instant : ServerValue → Option (Option Int)
  | .dateTime ns => some (some ns)
  | .null => some none
  | _ => none

def jsonInstant (obj : SortedMap String JsonValue) (column : String) : Option (Option Int) :=
  (obj.get? column).bind JsonValue.instant

def rowBinaryInstant (names : List String) (row : List ServerValue) (column : String) :
    Option (Option Int) :=
  ((names.zip row).lookup column).bind ServerValue.instant

/-- The date-time columns and what the record says of them. -/
def dateTimeColumns (r : DecodedLogRecord) : List (String × Option U64) :=
  [("Timestamp", some r.timestampUnixNano), ("ObservedTimestamp", some r.observedTimestampUnixNano),
    (gatewayReceivedAt, (r.resourceAttributes.get? gatewayReceivedAt).bind parseU64)]

theorem instant_datetimeText (ns : U64) :
    (JsonValue.string (datetimeText ns)).instant = some (some (ns.val : Int)) := by
  obtain ⟨time, formats, four, seconds⟩ := Calendar.formatDatetime64Ns_spec ns
  have small : ns.val % 1000000000 < 10 ^ 9 := Nat.mod_lt ns.val (by decide)
  have text : datetimeText ns =
      String.ofList (Calendar.renderText time (ns.val % 1000000000)) :=
    Option.get_of_eq_some _ formats
  have count : time.unixSeconds * 1000000000 + (ns.val % 1000000000 : Nat) = (ns.val : Int) := by
    rw [seconds]
    omega
  rw [JsonValue.instant, text, Calendar.parseDatetime64_renderText four small, count]
  rfl

/-- `as i64` wraps from 2⁶³ on. -/
theorem asI64_toInt (ns : U64) :
    (asI64 ns).toInt = if ns.val < 2 ^ 63 then (ns.val : Int) else ns.val - 2 ^ 64 := by
  have value : (asI64 ns).toInt = (BitVec.ofFin ns).toInt := rfl
  rw [value, BitVec.toInt_eq_toNat_cond, BitVec.toNat_ofFin]
  split_ifs <;> omega

/-- What the value of a date-time column says. -/
def RowValue.dateTime? : RowValue → Option (Option U64)
  | .dateTime64Nanos ns => some (some ns)
  | .nullableDateTime64Nanos ns => some ns
  | _ => none

theorem dateTimeColumns_found {config : LogsAdapterConfig} {r : DecodedLogRecord}
    {column : String} {ns : Option U64} (member : (column, ns) ∈ dateTimeColumns r) :
    ∃ value, columnOf column (logRow config r) = some value ∧ value.dateTime? = some ns := by
  simp only [dateTimeColumns, List.mem_cons, Prod.mk.injEq, List.not_mem_nil, or_false] at member
  rcases member with ⟨rfl, rfl⟩ | ⟨rfl, rfl⟩ | ⟨rfl, rfl⟩
  · exact ⟨.dateTime64Nanos r.timestampUnixNano, rfl, rfl⟩
  · exact ⟨.dateTime64Nanos r.observedTimestampUnixNano, rfl, rfl⟩
  · exact ⟨.nullableDateTime64Nanos _, rfl, rfl⟩

section Values

variable {value : RowValue} {ns : Option U64} (holds : value.dateTime? = some ns)
include holds

theorem instant_toJson : value.toJson.instant = some (ns.map fun ns => (ns.val : Int)) := by
  cases value with
  | dateTime64Nanos count =>
      cases holds
      exact instant_datetimeText count
  | nullableDateTime64Nanos inner =>
      cases holds
      cases ns with
      | none => rfl
      | some count => exact instant_datetimeText count
  | _ => cases holds

theorem instant_serverValue : value.serverValue.instant =
    some (ns.map fun ns => if ns.val < 2 ^ 63 then (ns.val : Int) else ns.val - 2 ^ 64) := by
  cases value with
  | dateTime64Nanos count =>
      cases holds
      rw [RowValue.serverValue, asI64_toInt]
      rfl
  | nullableDateTime64Nanos inner =>
      cases holds
      cases ns with
      | none => rfl
      | some count =>
          rw [RowValue.serverValue, asI64_toInt]
          rfl
  | _ => cases holds

end Values

theorem instants_agree_iff (ns : Option U64) :
    (some (ns.map fun ns => if ns.val < 2 ^ 63 then (ns.val : Int) else ns.val - 2 ^ 64) =
      some (ns.map fun ns => (ns.val : Int))) ↔ ∀ n ∈ ns, n.val < 2 ^ 63 := by
  cases ns with
  | none => simp
  | some n =>
      simp only [Option.map_some, Option.some.injEq, Option.mem_def, forall_eq']
      split_ifs with fits
      · exact iff_of_true rfl fits
      · exact iff_of_false (by omega) fits

/-! ## The two bodies -/

/-- Every chunk the adapter emits has a body of each kind, a date-time column denotes the
record's own instant in the one of JSON, and the same in the other exactly where the
nanoseconds fit `i64`; from 2⁶³ on the other denotes an instant 2⁶⁴ nanoseconds before. -/
theorem wire_formats_mean_same_instant_iff (toVec : JsonValue → Except String (List UInt8))
    (config : LogsAdapterConfig) (fingerprint manifestPath : String) (range : SequenceRange)
    (slice : List DecodedLogRecord) (chunkIndex : U32) :
    let chunk := emit config fingerprint manifestPath range slice chunkIndex
    ∃ objects bytes rows,
      serializeJsonEachRow toVec chunk = jsonLines toVec objects ∧
        serializeRowBinary chunk = .ok bytes ∧ readRowBinary bytes = some (columns, rows) ∧
        objects.length = slice.length ∧ rows.length = slice.length ∧
        ∀ (i : Nat) (r : DecodedLogRecord), slice[i]? = some r →
          ∃ obj row, objects[i]? = some obj ∧ rows[i]? = some row ∧
            ∀ column ns, (column, ns) ∈ dateTimeColumns r →
              jsonInstant obj column = some (ns.map fun ns => (ns.val : Int)) ∧
              rowBinaryInstant columns row column = some (ns.map fun ns =>
                if ns.val < 2 ^ 63 then (ns.val : Int) else ns.val - 2 ^ 64) ∧
              (rowBinaryInstant columns row column = jsonInstant obj column ↔
                ∀ n ∈ ns, n.val < 2 ^ 63) := by
  intro chunk
  have log : LogChunk chunk := by
    refine ⟨rfl, fun row isRow => ?_⟩
    obtain ⟨r, _, rfl⟩ := List.mem_map.mp isRow
    exact ⟨config, r, rfl⟩
  have sized : ∀ row ∈ chunk.rows, row.length = chunk.columns.length := by
    intro row isRow
    obtain ⟨config, r, rfl⟩ := log.logs row isRow
    rfl
  obtain ⟨bytes, serialized, readBack⟩ := log.roundTrip
  refine ⟨chunk.rows.map (rowObject columns), bytes,
    chunk.rows.map (List.map RowValue.serverValue),
    jsonRows_eq toVec columns chunk.rows sized, serialized, readBack, ?_, ?_, ?_⟩
  · rw [List.length_map]
    exact List.length_map _
  · rw [List.length_map]
    exact List.length_map _
  intro i r at_i
  have rowAt : chunk.rows[i]? = some (logRow config r) := by
    change (slice.map (logRow config))[i]? = _
    rw [List.getElem?_map, at_i]
    rfl
  refine ⟨rowObject columns (logRow config r), (logRow config r).map RowValue.serverValue, ?_, ?_,
    fun column ns member => ?_⟩
  · rw [List.getElem?_map, rowAt]
    rfl
  · rw [List.getElem?_map, rowAt]
    rfl
  obtain ⟨value, found, holds⟩ : ∃ value, columnOf column (logRow config r) = some value ∧
      value.dateTime? = some ns := dateTimeColumns_found member
  have json : jsonInstant (rowObject columns (logRow config r)) column =
      some (ns.map fun ns => (ns.val : Int)) := by
    rw [jsonInstant, get?_rowObject rfl found, Option.bind_some, instant_toJson holds]
  have binary : rowBinaryInstant columns ((logRow config r).map RowValue.serverValue) column =
      some (ns.map fun ns => if ns.val < 2 ^ 63 then (ns.val : Int) else ns.val - 2 ^ 64) := by
    rw [rowBinaryInstant, lookup_serverValues found, Option.bind_some, instant_serverValue holds]
  refine ⟨json, binary, ?_⟩
  rw [json, binary]
  exact instants_agree_iff ns

/-- A record of the year 2262, one nanosecond past what `i64` holds. -/
def lateRecord : DecodedLogRecord :=
  { plainRecord "m" 0 0 0 "" with timestampUnixNano := ⟨2 ^ 63, by decide⟩ }

/-- Its timestamp is in the year 2262 in one body and in the year 1677 in the other. -/
theorem wire_formats_differ_from_two_pow_63 :
    let chunk := emit (smallChunks 10 900) "986fef379156c65e" "m" ⟨0, 0⟩ [lateRecord] 0
    ∃ obj bytes row,
      (∀ toVec, serializeJsonEachRow toVec chunk = jsonLines toVec [obj]) ∧
        serializeRowBinary chunk = .ok bytes ∧ readRowBinary bytes = some (columns, [row]) ∧
        jsonInstant obj "Timestamp" = some (some (2 ^ 63)) ∧
        rowBinaryInstant columns row "Timestamp" = some (some (-2 ^ 63)) := by
  intro chunk
  have log : LogChunk chunk :=
    ⟨rfl, fun row isRow => ⟨smallChunks 10 900, lateRecord, List.mem_singleton.mp isRow⟩⟩
  obtain ⟨bytes, serialized, readBack⟩ := log.roundTrip
  have found : columnOf "Timestamp" (logRow (smallChunks 10 900) lateRecord) =
      some (.dateTime64Nanos ⟨2 ^ 63, by decide⟩) := rfl
  refine ⟨rowObject columns (logRow (smallChunks 10 900) lateRecord), bytes,
    (logRow (smallChunks 10 900) lateRecord).map RowValue.serverValue, fun toVec => rfl,
    serialized, readBack, ?_, ?_⟩
  · rw [jsonInstant, get?_rowObject rfl found, Option.bind_some]
    exact instant_datetimeText _
  · rw [rowBinaryInstant, lookup_serverValues found, Option.bind_some]
    rfl

end OpendataIngest.ClickHouse
