import OpendataIngest.ClickHouse.CompactJson

/-!
# What the two bodies say

The reader of a `JSONEachRow` body: an object on each line, its members looked up by the
names of the columns and read under their types.  Beside `readRowBinary` it shows where
the two formats of `serializer/mod.rs` say the same of a chunk.
-/

set_option autoImplicit false

namespace OpendataIngest.ClickHouse

open MachineInt OpendataIngest.Runtime Otel ByteCodec JsonText

/-! ## The reader -/

def readUnsigned (bits : Nat) : JsonValue → Option ServerValue
  | .number n => if 0 ≤ n ∧ n < 2 ^ bits then some (.uint n.toNat) else none
  | _ => none

def readSigned (bits : Nat) : JsonValue → Option ServerValue
  | .number n => if -2 ^ (bits - 1) ≤ n ∧ n < 2 ^ (bits - 1) then some (.int n) else none
  | _ => none

def readEntry (readKey readValue : JsonValue → Option ServerValue) (entry : String × JsonValue) :
    Option (ServerValue × ServerValue) :=
  (readKey (.string entry.1)).bind fun key => (readValue entry.2).map fun value => (key, value)

def readMember : ClickHouseType → JsonValue → Option ServerValue
  | .string, .string s => some (.text s)
  | .uint8, value => readUnsigned 8 value
  | .uint32, value => readUnsigned 32 value
  | .uint64, value => readUnsigned 64 value
  | .int32, value => readSigned 32 value
  | .int64, value => readSigned 64 value
  | .dateTime64, .string s => (Calendar.parseDatetime64 s).map .dateTime
  | .lowCardinality inner, value => readMember inner value
  | .nullable _, .null => some .null
  | .nullable inner, value => readMember inner value
  | .map key value, .object entries =>
      (entries.mapM (readEntry (readMember key) (readMember value))).map .map
  | _, _ => none

abbrev TableColumns : Type := List (String × ClickHouseType)

def readObject (table : TableColumns) : JsonValue → Option (List ServerValue)
  | .object members =>
      table.mapM fun column => (members.lookup column.1).bind (readMember column.2)
  | _ => none

/-- The rows of a body, with a parser of its lines. -/
def readJsonEachRow (parse : List UInt8 → Option JsonValue) (table : TableColumns)
    (bytes : List UInt8) : Option (List (List ServerValue)) :=
  (readAll (readUntil 10) bytes.length bytes).bind fun lines =>
    lines.mapM fun line => (parse line).bind (readObject table)

/-- The value as it was given, with no wrap-around of its nanoseconds. -/
def RowValue.meaning : RowValue → ServerValue
  | .dateTime64Nanos ns => .dateTime ns.val
  | .nullableDateTime64Nanos (some ns) => .dateTime ns.val
  | value => value.serverValue

/-- What is relied on of the JSON of a row: `to_vec` writes every value on one line, and a
parser of the line finds the value. -/
structure LineCodec (toVec : JsonValue → Except String (List UInt8))
    (parse : List UInt8 → Option JsonValue) : Prop where
  writes : ∀ value, ∃ line, toVec value = .ok line
  oneLine : ∀ value line, toVec value = .ok line → 10 ∉ line
  parses : ∀ value line, toVec value = .ok line → parse line = some value

theorem lineCodec_compact : LineCodec (fun value => .ok value.compact) parseCompact where
  writes value := ⟨value.compact, rfl⟩
  oneLine := by
    rintro value line ⟨⟩
    exact value.compact_printable.no_newline
  parses := by
    rintro value line ⟨⟩
    exact parseCompact_compact value

/-! ## Values -/

theorem readUnsigned_number {bits n : Nat} (small : n < 2 ^ bits) :
    readUnsigned bits (.number n) = some (.uint n) := by
  have fits : (0 : Int) ≤ n ∧ (n : Int) < 2 ^ bits := by
    exact ⟨Int.natCast_nonneg n, by exact_mod_cast small⟩
  rw [readUnsigned, if_pos fits, Int.toNat_natCast]

theorem readMember_datetimeText (ns : U64) :
    readMember .dateTime64 (.string (datetimeText ns)) = some (.dateTime ns.val) := by
  have parsed : Calendar.parseDatetime64 (datetimeText ns) = some (ns.val : Int) := by
    have instant := instant_datetimeText ns
    rw [JsonValue.instant] at instant
    obtain ⟨count, found, same⟩ := Option.map_eq_some_iff.mp instant
    rw [found, Option.some.inj same]
  rw [readMember, parsed]
  rfl

/-- A value is read back under its type. -/
theorem readMember_toJson (value : RowValue) :
    readMember value.type value.toJson = some value.meaning := by
  cases value with
  | string s => rfl
  | lowCardinalityString s => rfl
  | uint8 v => exact readUnsigned_number v.toNat_lt
  | int32 v =>
      exact if_pos ⟨v.le_toInt, v.toInt_lt⟩
  | uint32 v => exact readUnsigned_number v.isLt
  | uint64 v => exact readUnsigned_number v.isLt
  | int64 v => exact if_pos ⟨v.le_toInt, v.toInt_lt⟩
  | dateTime64Nanos ns => exact readMember_datetimeText ns
  | nullableDateTime64Nanos ns =>
      cases ns with
      | none => rfl
      | some ns => exact readMember_datetimeText ns
  | stringMap m =>
      have texts : (m.entries.map fun entry => (entry.1, JsonValue.string entry.2)).mapM
          (readEntry (readMember (.lowCardinality .string)) (readMember .string)) =
            some (m.entries.map fun entry => (.text entry.1, .text entry.2)) := by
        rw [List.mapM_map]
        exact mapM_some m.entries fun entry _ => rfl
      rw [RowValue.toJson, RowValue.type, SortedMap.entries_insertAll, readMember]
      · exact congrArg (Option.map ServerValue.map) texts
      · exact List.pairwise_map.mpr m.ascending

/-- Where `as i64` changes nothing. -/
theorem meaning_eq_iff (value : RowValue) : value.meaning = value.serverValue ↔
    ∀ ns, value.dateTime? = some (some ns) → ns.val < 2 ^ 63 := by
  have wraps : ∀ ns : U64, ServerValue.dateTime ns.val = .dateTime (asI64 ns).toInt ↔
      ns.val < 2 ^ 63 := by
    intro ns
    rw [asI64_toInt, ServerValue.dateTime.injEq]
    split_ifs with fits
    · exact iff_of_true rfl fits
    · exact iff_of_false (by omega) fits
  cases value with
  | dateTime64Nanos ns =>
      rw [RowValue.meaning, RowValue.serverValue, wraps]
      simp [RowValue.dateTime?]
  | nullableDateTime64Nanos ns =>
      cases ns with
      | none => simp [RowValue.meaning, RowValue.serverValue, RowValue.dateTime?]
      | some ns =>
          rw [RowValue.meaning, RowValue.serverValue, wraps]
          simp [RowValue.dateTime?]
  | _ => simp [RowValue.meaning, RowValue.dateTime?]

/-- Values of one type with one meaning are equal. -/
theorem meaning_injective {left right : RowValue} (sameType : left.type = right.type)
    (same : left.meaning = right.meaning) : left = right := by
  cases left with
  | dateTime64Nanos ns =>
      cases right with
      | dateTime64Nanos ns' =>
          have counts : ns = ns' := Fin.ext (Int.ofNat.inj (ServerValue.dateTime.inj same))
          rw [counts]
      | _ => cases sameType
  | nullableDateTime64Nanos ns =>
      cases right with
      | nullableDateTime64Nanos ns' =>
          cases ns with
          | none =>
              cases ns' with
              | none => rfl
              | some ns' => cases same
          | some ns =>
              cases ns' with
              | none => cases same
              | some ns' =>
                  have counts : ns = ns' := Fin.ext (Int.ofNat.inj (ServerValue.dateTime.inj same))
                  rw [counts]
      | _ => cases sameType
  | _ =>
      refine serverValue_injective sameType ?_
      cases right with
      | dateTime64Nanos ns' => cases sameType
      | nullableDateTime64Nanos ns' => cases sameType
      | _ => exact same

/-! ## Rows -/

theorem row_eq_of_meaning {left right : Row}
    (types : left.map RowValue.type = right.map RowValue.type)
    (values : left.map RowValue.meaning = right.map RowValue.meaning) : left = right := by
  induction left generalizing right with
  | nil =>
      cases right with
      | nil => rfl
      | cons value rest => cases types
  | cons value rest ih =>
      cases right with
      | nil => cases types
      | cons value' rest' =>
          obtain ⟨sameType, sameTypes⟩ := List.cons.inj types
          obtain ⟨sameValue, sameValues⟩ := List.cons.inj values
          rw [meaning_injective sameType sameValue, ih sameTypes sameValues]

/-- The columns of the table. -/
def logsColumns : TableColumns := columns.zip logTypes

theorem readObject_columns {members : List (String × JsonValue)} (names : List String) {row : Row}
    (sized : row.length = names.length)
    (found : ∀ name value, (name, value) ∈ names.zip row →
      members.lookup name = some value.toJson) :
    readObject (names.zip (row.map RowValue.type)) (.object members) =
      some (row.map RowValue.meaning) := by
  rw [readObject]
  induction row generalizing names with
  | nil =>
      rw [List.map_nil, List.zip_nil_right]
      rfl
  | cons value rest ih =>
      cases names with
      | nil => cases sized
      | cons name names =>
          have here := found name value List.mem_cons_self
          have later := ih names (Nat.succ.inj sized) fun other value member =>
            found other value (List.mem_cons_of_mem _ member)
          rw [List.map_cons, List.zip_cons_cons, List.mapM_cons, here, Option.bind_some,
            readMember_toJson, later]
          rfl

theorem readObject_logRow (config : LogsAdapterConfig) (r : DecodedLogRecord) :
    readObject logsColumns (.object (rowObject columns (logRow config r)).entries) =
      some ((logRow config r).map RowValue.meaning) := by
  have sized : (logRow config r).length = columns.length := rfl
  rw [logsColumns, ← logRow_types config r]
  refine readObject_columns columns sized fun name value member => ?_
  rw [SortedMap.lookup_entries]
  refine SortedMap.get?_insertAll _ _ ?_ (List.mem_map.mpr ⟨(name, value), member, rfl⟩)
  have names : ((columns.zip (logRow config r)).map fun entry =>
      (entry.1, entry.2.toJson)).map Prod.fst = columns := by
    rw [List.map_map]
    exact List.map_fst_zip (Nat.le_of_eq sized.symm)
  rw [names]
  decide

/-! ## Chunks -/

section Chunk

variable {toVec : JsonValue → Except String (List UInt8)}
  {parse : List UInt8 → Option JsonValue} (codec : LineCodec toVec parse)

include codec

/-- The lines of a body. -/
theorem LineCodec.body (objects : List (SortedMap String JsonValue)) :
    ∃ lines : List (List UInt8), lines.length = objects.length ∧
      jsonLines toVec objects = .ok (lines.flatMap fun line => line ++ [10]) ∧
      (∀ line ∈ lines, 10 ∉ line) ∧
      lines.mapM parse = some (objects.map fun obj => .object obj.entries) := by
  induction objects with
  | nil => exact ⟨[], rfl, rfl, List.forall_mem_nil _, rfl⟩
  | cons obj rest ih =>
      obtain ⟨lines, sized, written, free, parsed⟩ := ih
      obtain ⟨line, isLine⟩ := codec.writes (.object obj.entries)
      refine ⟨line :: lines, congrArg Nat.succ sized, ?_, ?_, ?_⟩
      · rw [jsonLines, isLine, written, List.flatMap_cons, List.append_assoc]
        rfl
      · exact List.forall_mem_cons.mpr ⟨codec.oneLine _ _ isLine, free⟩
      · rw [List.mapM_cons, codec.parses _ _ isLine, parsed]
        rfl

variable {chunk chunk' : InsertChunk} (log : LogChunk chunk)

include log

theorem LogChunk.jsonRoundTrip : ∃ text, serializeJsonEachRow toVec chunk = .ok text ∧
    readJsonEachRow parse logsColumns text =
      some (chunk.rows.map (List.map RowValue.meaning)) := by
  have sized : ∀ row ∈ chunk.rows, row.length = chunk.columns.length := by
    intro row isRow
    obtain ⟨config, r, rfl⟩ := log.logs row isRow
    rw [log.header]
    rfl
  obtain ⟨lines, _, written, free, parsed⟩ := codec.body (chunk.rows.map (rowObject columns))
  refine ⟨lines.flatMap fun line => line ++ [10], ?_, ?_⟩
  · rw [serializeJsonEachRow, jsonRows_eq toVec chunk.columns chunk.rows sized, log.header, written]
  have nonempty : ∀ line ∈ lines, line ++ [(10 : UInt8)] ≠ [] := fun line _ => by simp
  have split := readAll_flatMap lines (fun line member => reads_until (free line member)) nonempty _
    (length_le_flatMap lines nonempty)
  rw [List.map_id'] at split
  rw [readJsonEachRow, split, Option.bind_some, mapM_bind parsed, List.mapM_map, List.mapM_map]
  refine mapM_some chunk.rows fun row isRow => ?_
  obtain ⟨config, r, rfl⟩ := log.logs row isRow
  exact readObject_logRow config r

omit codec in
theorem LogChunk.rows_eq_of_meaning (log' : LogChunk chunk')
    (same : chunk.rows.map (List.map RowValue.meaning) =
      chunk'.rows.map (List.map RowValue.meaning)) : chunk.rows = chunk'.rows := by
  refine List.ext_getElem? fun position => ?_
  have atPosition := congrArg (fun rows => rows[position]?) same
  simp only [List.getElem?_map] at atPosition
  cases present : chunk.rows[position]? with
  | none =>
      rw [present, Option.map_none] at atPosition
      exact (Option.map_eq_none_iff.mp atPosition.symm).symm
  | some row =>
      rw [present, Option.map_some] at atPosition
      obtain ⟨row', present', values⟩ := Option.map_eq_some_iff.mp atPosition.symm
      obtain ⟨config, r, rfl⟩ := log.logs row (List.mem_of_getElem? present)
      obtain ⟨config', r', rfl⟩ := log'.logs row' (List.mem_of_getElem? present')
      have types : (logRow config r).map RowValue.type =
          (logRow config' r').map RowValue.type := rfl
      rw [present', row_eq_of_meaning types values.symm]

end Chunk

theorem logRow_dateTimes_iff (config : LogsAdapterConfig) (r : DecodedLogRecord) :
    (∀ value ∈ logRow config r, ∀ ns, value.dateTime? = some (some ns) → ns.val < 2 ^ 63) ↔
      ∀ column ns, (column, ns) ∈ dateTimeColumns r → ∀ n ∈ ns, n.val < 2 ^ 63 := by
  simp [logRow, dateTimeColumns, RowValue.dateTime?, or_imp, forall_and]

/-- Every planned chunk has a body of each format, and both are read back row by row: the one
of JSON as the values are, so it determines them, the other with the nanoseconds wrapped.
The two are read alike exactly where every date-time of the chunk's records fits `i64`. -/
theorem wire_formats_read_alike_iff {toVec : JsonValue → Except String (List UInt8)}
    {parse : List UInt8 → Option JsonValue} (codec : LineCodec toVec parse) {σ : Nat}
    {sha256Prefix : String → String} {config : LogsAdapterConfig} {batch : ClickHouseAdapterBatch}
    {chunks : List InsertChunk} (planned : plan σ sha256Prefix config batch = some (.ok chunks))
    {chunk : InsertChunk} (member : chunk ∈ chunks) :
    ∃ (slice : List DecodedLogRecord) (text bytes : List UInt8),
      chunk.rows = slice.map (logRow config) ∧
      serializeJsonEachRow toVec chunk = .ok text ∧
      readJsonEachRow parse logsColumns text =
        some (chunk.rows.map (List.map RowValue.meaning)) ∧
      serializeRowBinary chunk = .ok bytes ∧
      readRowBinary bytes = some (columns, chunk.rows.map (List.map RowValue.serverValue)) ∧
      (readJsonEachRow parse logsColumns text = (readRowBinary bytes).map Prod.snd ↔
        ∀ r ∈ slice, ∀ column ns, (column, ns) ∈ dateTimeColumns r → ∀ n ∈ ns, n.val < 2 ^ 63) ∧
      ∀ σ' sha256Prefix' config' batch' chunks',
        plan σ' sha256Prefix' config' batch' = some (.ok chunks') → ∀ chunk' ∈ chunks',
          serializeJsonEachRow toVec chunk' = .ok text → chunk'.rows = chunk.rows := by
  have log := logChunk_of_plan planned member
  obtain ⟨manifestPath, slice, _, _, isEmit⟩ := plan_chunk planned member
  have rows : chunk.rows = slice.map (logRow config) := by
    rw [isEmit]
    rfl
  obtain ⟨text, written, readBack⟩ := log.jsonRoundTrip codec
  obtain ⟨bytes, serialized, readBinary⟩ := log.roundTrip
  rw [log.header] at readBinary
  refine ⟨slice, text, bytes, rows, written, readBack, serialized, readBinary, ?_, ?_⟩
  · rw [readBack, readBinary, Option.map_some, Option.some.injEq, List.map_inj_left, rows,
      List.forall_mem_map]
    refine forall₂_congr fun r _ => ?_
    rw [List.map_inj_left, ← logRow_dateTimes_iff config r]
    exact forall₂_congr fun value _ => meaning_eq_iff value
  · intro σ' sha256Prefix' config' batch' chunks' planned' chunk' member' written'
    have log' := logChunk_of_plan planned' member'
    obtain ⟨text', isText, readBack'⟩ := log'.jsonRoundTrip codec
    rw [written'] at isText
    cases isText
    rw [readBack] at readBack'
    exact (log.rows_eq_of_meaning log' (Option.some.inj readBack')).symm

/-- A chunk with a record of the year 2262: its bodies are read apart. -/
theorem wire_formats_read_apart : ∃ text bytes,
    let chunk := emit (smallChunks 10 900) "986fef379156c65e" "m" ⟨0, 0⟩
      [plainRecord "m" 0 0 0 "a", lateRecord] 0
    serializeJsonEachRow (fun value => .ok value.compact) chunk = .ok text ∧
      serializeRowBinary chunk = .ok bytes ∧
      readJsonEachRow parseCompact logsColumns text ≠ (readRowBinary bytes).map Prod.snd := by
  have planned : plan 288 (fun _ => "986fef379156c65e") (smallChunks 10 900) ⟨firstRange 1,
      [plainRecord "m" 0 0 0 "a", lateRecord]⟩ =
    some (.ok [emit (smallChunks 10 900) "986fef379156c65e" "m" ⟨0, 0⟩
      [plainRecord "m" 0 0 0 "a", lateRecord] 0]) := rfl
  obtain ⟨slice, text, bytes, rows, written, _, serialized, _, alike, _⟩ :=
    wire_formats_read_alike_iff lineCodec_compact planned List.mem_cons_self
  refine ⟨text, bytes, written, serialized, fun same => ?_⟩
  obtain ⟨r, inSlice, isRow⟩ : ∃ r ∈ slice, logRow (smallChunks 10 900) r =
      logRow (smallChunks 10 900) lateRecord := by
    rw [← List.mem_map, ← rows]
    exact List.mem_cons_of_mem _ List.mem_cons_self
  have late : r.timestampUnixNano = ⟨2 ^ 63, by decide⟩ :=
    RowValue.dateTime64Nanos.inj (List.cons.inj isRow).1
  have small := alike.mp same r inSlice "Timestamp" _ List.mem_cons_self _ rfl
  rw [late] at small
  exact absurd small (by decide)

end OpendataIngest.ClickHouse
