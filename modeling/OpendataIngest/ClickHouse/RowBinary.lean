import OpendataIngest.ClickHouse.AdapterPlan
import OpendataIngest.ClickHouse.Writer
import OpendataIngest.Lib.ByteCodec

/-!
# RowBinary bodies

`serializer/rowbinary.rs` and `RowValue::write_row_binary` of `adapter/mod.rs`, and the
reader of `RowBinaryWithNamesAndTypes` that the comments there describe.  The reader knows
only the bytes: it takes the types of the values from the header.
-/

set_option autoImplicit false

namespace OpendataIngest.ClickHouse

open MachineInt OpendataIngest.Runtime Otel ByteCodec

/-! ## The writer -/

/-- `ns as i64`. -/
def asI64 (ns : U64) : Int64 := Int64.ofBitVec (BitVec.ofFin ns)

def i64Bytes (value : Int64) : List UInt8 := leBytes 8 value.toBitVec.toNat

def RowValue.writeRowBinary : RowValue → List UInt8
  | .string s => writeText s
  | .lowCardinalityString s => writeText s
  | .uint8 v => [v]
  | .int32 v => leBytes 4 v.toBitVec.toNat
  | .uint32 v => leBytes 4 v.val
  | .uint64 v => leBytes 8 v.val
  | .int64 v => i64Bytes v
  | .dateTime64Nanos ns => i64Bytes (asI64 ns)
  | .nullableDateTime64Nanos none => [1]
  | .nullableDateTime64Nanos (some ns) => [0] ++ i64Bytes (asI64 ns)
  | .stringMap m =>
      writeVaruint m.entries.length ++
        m.entries.flatMap fun entry => writeText entry.1 ++ writeText entry.2

def writeTypes : List String → Except WriterError (List UInt8)
  | [] => .ok []
  | name :: rest => do
      let ty ← clickhouseTypeForColumn name
      let later ← writeTypes rest
      return writeText ty ++ later

def writeRows (columnCount : Nat) : List Row → Except WriterError (List UInt8)
  | [] => .ok []
  | row :: rest =>
      if row.length ≠ columnCount then
        .error (.serialization (s!"row has {row.length} values but {columnCount} columns are " ++
          "expected"))
      else do
        let later ← writeRows columnCount rest
        return row.flatMap RowValue.writeRowBinary ++ later

/-- `RowBinarySerializer::serialize`. -/
def serializeRowBinary (chunk : InsertChunk) : Except WriterError (List UInt8) := do
  let types ← writeTypes chunk.columns
  let rows ← writeRows chunk.columns.length chunk.rows
  return writeVaruint chunk.columns.length ++ chunk.columns.flatMap writeText ++ types ++ rows

/-- The bytes of a body. -/
def InsertBody.rowBinary (body : InsertBody) : List UInt8 :=
  writeVaruint body.columns.length ++ body.columns.flatMap writeText ++
    body.columnTypes.flatMap writeText ++
    body.rows.flatMap fun row => row.flatMap RowValue.writeRowBinary

theorem writeTypes_eq (names : List String) :
    writeTypes names = (columnTypes names).map fun types => types.flatMap writeText := by
  induction names with
  | nil => rfl
  | cons name rest ih =>
      unfold writeTypes columnTypes
      rw [ih]
      cases clickhouseTypeForColumn name with
      | error e => rfl
      | ok ty =>
          cases columnTypes rest with
          | error e => rfl
          | ok types => rfl

theorem writeRows_eq (columnCount : Nat) (rows : List Row) :
    writeRows columnCount rows = (checkRows columnCount rows).map fun _ =>
      rows.flatMap fun row => row.flatMap RowValue.writeRowBinary := by
  induction rows with
  | nil => rfl
  | cons row rest ih =>
      unfold writeRows checkRows
      split_ifs with short
      · rfl
      · rw [ih]
        cases checkRows columnCount rest with
        | error e => rfl
        | ok checked => rfl

/-- The bytes carry the body of the request, and fail where it fails. -/
theorem serializeRowBinary_eq (chunk : InsertChunk) :
    serializeRowBinary chunk = (serialize .rowBinary chunk).map InsertBody.rowBinary := by
  unfold serializeRowBinary serialize
  rw [writeTypes_eq, writeRows_eq]
  cases columnTypes chunk.columns with
  | error e => rfl
  | ok types =>
      dsimp only
      cases checkRows chunk.columns.length chunk.rows with
      | error e => rfl
      | ok checked => rfl

/-! ## The types of the header -/

inductive ClickHouseType where
  | string
  | uint8
  | uint32
  | uint64
  | int32
  | int64
  | dateTime64
  | lowCardinality (inner : ClickHouseType)
  | nullable (inner : ClickHouseType)
  | map (key value : ClickHouseType)
  deriving DecidableEq

abbrev TypeParser (A : Type) : Type := StateT (List Char) Option A

def expect (token : String) : TypeParser Unit := fun chars =>
  if token.toList.isPrefixOf chars then some ((), chars.drop token.toList.length) else none

def atomicType : TypeParser ClickHouseType :=
  (do expect "String"; return .string) <|>
  (do expect "UInt8"; return .uint8) <|>
  (do expect "UInt32"; return .uint32) <|>
  (do expect "UInt64"; return .uint64) <|>
  (do expect "Int32"; return .int32) <|>
  (do expect "Int64"; return .int64) <|>
  (do expect "DateTime64(9)"; return .dateTime64)

/-- A type with at most so many constructors inside each other. -/
def typeExpr : Nat → TypeParser ClickHouseType
  | 0 => atomicType
  | depth + 1 =>
      (do expect "LowCardinality("
          let inner ← typeExpr depth
          expect ")"
          return .lowCardinality inner) <|>
      (do expect "Nullable("
          let inner ← typeExpr depth
          expect ")"
          return .nullable inner) <|>
      (do expect "Map("
          let key ← typeExpr depth
          expect ", "
          let value ← typeExpr depth
          expect ")"
          return .map key value) <|>
      atomicType

def parseType (text : String) : Option ClickHouseType :=
  match (typeExpr text.length).run text.toList with
  | some (ty, []) => some ty
  | _ => none

/-! ## The reader -/

inductive ServerValue where
  | text (s : String)
  | uint (value : Nat)
  | int (value : Int)
  | dateTime (ns : Int)
  | null
  | map (entries : List (ServerValue × ServerValue))

/-- The two's complement of so many bits. -/
def signed (bits value : Nat) : Int := (BitVec.ofNat bits value).toInt

def readValue : ClickHouseType → Reader ServerValue
  | .string => ServerValue.text <$> readText
  | .uint8 => (fun byte => ServerValue.uint byte.toNat) <$> readByte
  | .uint32 => ServerValue.uint <$> readLe 4
  | .uint64 => ServerValue.uint <$> readLe 8
  | .int32 => (fun value => ServerValue.int (signed 32 value)) <$> readLe 4
  | .int64 => (fun value => ServerValue.int (signed 64 value)) <$> readLe 8
  | .dateTime64 => (fun value => ServerValue.dateTime (signed 64 value)) <$> readLe 8
  | .lowCardinality inner => readValue inner
  | .nullable inner => do
      let marker ← readByte
      if marker = 0 then readValue inner
      else if marker = 1 then return .null
      else failure
  | .map key value => do
      let count ← readVaruint
      let entries ← readCount (do
        let k ← readValue key
        let v ← readValue value
        return (k, v)) count
      return .map entries

def readRow : List ClickHouseType → Reader (List ServerValue)
  | [] => return []
  | ty :: rest => do
      let value ← readValue ty
      let later ← readRow rest
      return value :: later

def readHeader : Reader (List String × List ClickHouseType) := do
  let count ← readVaruint
  let names ← readCount readText count
  let types ← readCount readText count
  match types.mapM parseType with
  | some types => return (names, types)
  | none => failure

/-- The columns and rows of a body. -/
def readRowBinary (bytes : List UInt8) : Option (List String × List (List ServerValue)) :=
  (readHeader.run bytes).bind fun result =>
    (readAll (readRow result.1.2) result.2.length result.2).map fun rows => (result.1.1, rows)

/-- What a reader makes of a value. -/
def RowValue.serverValue : RowValue → ServerValue
  | .string s => .text s
  | .lowCardinalityString s => .text s
  | .uint8 v => .uint v.toNat
  | .int32 v => .int v.toInt
  | .uint32 v => .uint v.val
  | .uint64 v => .uint v.val
  | .int64 v => .int v.toInt
  | .dateTime64Nanos ns => .dateTime (asI64 ns).toInt
  | .nullableDateTime64Nanos none => .null
  | .nullableDateTime64Nanos (some ns) => .dateTime (asI64 ns).toInt
  | .stringMap m => .map (m.entries.map fun entry => (.text entry.1, .text entry.2))

/-! ## Values -/

def RowValue.type : RowValue → ClickHouseType
  | .string _ => .string
  | .lowCardinalityString _ => .lowCardinality .string
  | .uint8 _ => .uint8
  | .int32 _ => .int32
  | .uint32 _ => .uint32
  | .uint64 _ => .uint64
  | .int64 _ => .int64
  | .dateTime64Nanos _ => .dateTime64
  | .nullableDateTime64Nanos _ => .nullable .dateTime64
  | .stringMap _ => .map (.lowCardinality .string) .string

theorem signed_toNat {bits : Nat} (value : BitVec bits) :
    signed bits value.toNat = value.toInt := by
  rw [signed, BitVec.ofNat_toNat, BitVec.setWidth_eq]

theorem reads_dateTime (ns : U64) : Reads (readValue .dateTime64) (i64Bytes (asI64 ns))
    (.dateTime (asI64 ns).toInt) := by
  have read := (reads_le 8 (asI64 ns).toBitVec.toNat (asI64 ns).toBitVec.isLt).map
    (f := fun value => ServerValue.dateTime (signed 64 value))
  rw [signed_toNat] at read
  exact read

theorem reads_pair (entry : String × String) :
    Reads (do
      let k ← readValue (.lowCardinality .string)
      let v ← readValue .string
      return (k, v)) (writeText entry.1 ++ writeText entry.2)
      (ServerValue.text entry.1, ServerValue.text entry.2) :=
  (reads_text entry.1).map.bind ((reads_text entry.2).map.finish (Reads.pure _))

/-- A value is read back under its type. -/
theorem reads_value (value : RowValue) :
    Reads (readValue value.type) value.writeRowBinary value.serverValue := by
  cases value with
  | string s => exact (reads_text s).map
  | lowCardinalityString s => exact (reads_text s).map
  | uint8 v => exact (reads_byte v).map
  | int32 v =>
      have read := (reads_le 4 v.toBitVec.toNat v.toBitVec.isLt).map
        (f := fun value => ServerValue.int (signed 32 value))
      rw [signed_toNat] at read
      exact read
  | uint32 v => exact (reads_le 4 v.val v.isLt).map
  | uint64 v => exact (reads_le 8 v.val v.isLt).map
  | int64 v =>
      have read := (reads_le 8 v.toBitVec.toNat v.toBitVec.isLt).map
        (f := fun value => ServerValue.int (signed 64 value))
      rw [signed_toNat] at read
      exact read
  | dateTime64Nanos ns => exact reads_dateTime ns
  | nullableDateTime64Nanos value =>
      cases value with
      | none => exact (reads_byte 1).finish (Reads.pure _)
      | some ns => exact (reads_byte 0).bind (reads_dateTime ns)
  | stringMap m =>
      refine (reads_varuint m.entries.length).bind ?_
      exact (reads_count m.entries fun entry _ => reads_pair entry).finish (Reads.pure _)

theorem asI64_injective {left right : U64} (same : (asI64 left).toInt = (asI64 right).toInt) :
    left = right := by
  have bits := congrArg Int64.toBitVec (Int64.toInt_inj.mp same)
  exact congrArg BitVec.toFin bits

/-- Values of one type that are read alike are equal. -/
theorem serverValue_injective {left right : RowValue} (sameType : left.type = right.type)
    (same : left.serverValue = right.serverValue) : left = right := by
  cases left with
  | string s =>
      cases right with
      | string s' => exact congrArg _ (ServerValue.text.inj same)
      | _ => cases sameType
  | lowCardinalityString s =>
      cases right with
      | lowCardinalityString s' => exact congrArg _ (ServerValue.text.inj same)
      | _ => cases sameType
  | uint8 v =>
      cases right with
      | uint8 v' => exact congrArg _ (UInt8.toNat_inj.mp (ServerValue.uint.inj same))
      | _ => cases sameType
  | int32 v =>
      cases right with
      | int32 v' => exact congrArg _ (Int32.toInt_inj.mp (ServerValue.int.inj same))
      | _ => cases sameType
  | uint32 v =>
      cases right with
      | uint32 v' => exact congrArg _ (Fin.ext (ServerValue.uint.inj same))
      | _ => cases sameType
  | uint64 v =>
      cases right with
      | uint64 v' => exact congrArg _ (Fin.ext (ServerValue.uint.inj same))
      | _ => cases sameType
  | int64 v =>
      cases right with
      | int64 v' => exact congrArg _ (Int64.toInt_inj.mp (ServerValue.int.inj same))
      | _ => cases sameType
  | dateTime64Nanos ns =>
      cases right with
      | dateTime64Nanos ns' => exact congrArg _ (asI64_injective (ServerValue.dateTime.inj same))
      | _ => cases sameType
  | nullableDateTime64Nanos ns =>
      cases right with
      | nullableDateTime64Nanos ns' =>
          cases ns with
          | none =>
              cases ns' with
              | none => rfl
              | some ns' => cases same
          | some ns =>
              cases ns' with
              | none => cases same
              | some ns' => rw [asI64_injective (ServerValue.dateTime.inj same)]
      | _ => cases sameType
  | stringMap m =>
      cases right with
      | stringMap m' =>
          have entries : m.entries = m'.entries := by
            refine List.map_injective_iff.mpr ?_ (ServerValue.map.inj same)
            rintro ⟨k, v⟩ ⟨k', v'⟩ sameEntry
            simpa using sameEntry
          obtain ⟨entries', _⟩ := m'
          cases m
          cases entries
          rfl
      | _ => cases sameType

/-! ## Rows -/

theorem reads_row (row : Row) : Reads (readRow (row.map RowValue.type))
    (row.flatMap RowValue.writeRowBinary) (row.map RowValue.serverValue) := by
  induction row with
  | nil => exact Reads.pure []
  | cons value rest ih => exact (reads_value value).bind (ih.finish (Reads.pure _))

theorem row_eq {left right : Row} (types : left.map RowValue.type = right.map RowValue.type)
    (values : left.map RowValue.serverValue = right.map RowValue.serverValue) : left = right := by
  induction left generalizing right with
  | nil =>
      cases right with
      | nil => rfl
      | cons value rest => cases types
  | cons value rest ih =>
      cases right with
      | nil => cases types
      | cons value' rest' =>
          obtain ⟨sameType, sameTypes⟩ := List.cons.inj types
          obtain ⟨sameValue, sameValues⟩ := List.cons.inj values
          rw [serverValue_injective sameType sameValue, ih sameTypes sameValues]

/-! ## Planned chunks -/

def logTypes : List ClickHouseType :=
  [.dateTime64, .dateTime64, .lowCardinality .string, .uint8, .lowCardinality .string, .string,
    .map (.lowCardinality .string) .string, .map (.lowCardinality .string) .string, .string,
    .string, .uint64, .uint32, .uint32, .lowCardinality .string, .string, .int64, .uint32,
    .nullable .dateTime64]

/-- The two tables agree: the row of a record has the types that the header announces. -/
theorem logRow_types (config : LogsAdapterConfig) (r : DecodedLogRecord) :
    (logRow config r).map RowValue.type = logTypes := rfl

theorem columnTypes_columns : ∃ types, columnTypes columns = .ok types ∧
    types.length = columns.length ∧ types.mapM parseType = some logTypes := by
  refine ⟨_, rfl, rfl, ?_⟩
  decide

theorem checkRows_ok {columnCount : Nat} (rows : List Row)
    (sized : ∀ row ∈ rows, row.length = columnCount) : checkRows columnCount rows = .ok () := by
  induction rows with
  | nil => rfl
  | cons row rest ih =>
      rw [checkRows, if_neg (by simp [sized row])]
      exact ih fun other isOther => sized other (List.mem_cons_of_mem _ isOther)

/-- The header announces the columns and their types. -/
theorem reads_header {types : List String} (sameLength : types.length = columns.length)
    (parsed : types.mapM parseType = some logTypes) :
    Reads readHeader (writeVaruint columns.length ++ columns.flatMap writeText ++
      types.flatMap writeText) (columns, logTypes) := by
  have names := reads_count columns fun name _ => reads_text name
  have typeNames := reads_count types fun ty _ => reads_text ty
  rw [List.map_id'] at names typeNames
  rw [sameLength] at typeNames
  rw [List.append_assoc]
  refine (reads_varuint columns.length).bind (names.bind (typeNames.finish ?_))
  rw [parsed]
  exact Reads.pure _

/-- What every chunk of a plan is made of. -/
structure LogChunk (chunk : InsertChunk) : Prop where
  header : chunk.columns = columns
  logs : ∀ row ∈ chunk.rows, ∃ config r, row = logRow config r

theorem logChunk_of_plan {σ : Nat} {sha256Prefix : String → String} {config : LogsAdapterConfig}
    {batch : ClickHouseAdapterBatch} {chunks : List InsertChunk}
    (planned : plan σ sha256Prefix config batch = some (.ok chunks)) {chunk : InsertChunk}
    (member : chunk ∈ chunks) : LogChunk chunk := by
  obtain ⟨manifestPath, slice, _, _, isEmit⟩ := plan_chunk planned member
  rw [isEmit]
  refine ⟨rfl, fun row isRow => ?_⟩
  obtain ⟨r, _, rfl⟩ := List.mem_map.mp isRow
  exact ⟨config, r, rfl⟩

section Chunk

variable {chunk : InsertChunk} (log : LogChunk chunk)
include log

theorem LogChunk.serialized : ∃ types : List String, types.length = columns.length ∧
    types.mapM parseType = some logTypes ∧
    serializeRowBinary chunk = .ok (writeVaruint columns.length ++ columns.flatMap writeText ++
      types.flatMap writeText ++
      chunk.rows.flatMap fun row => row.flatMap RowValue.writeRowBinary) := by
  obtain ⟨types, named, sameLength, parsed⟩ := columnTypes_columns
  have checked : checkRows columns.length chunk.rows = .ok () := by
    refine checkRows_ok chunk.rows fun row isRow => ?_
    obtain ⟨config, r, rfl⟩ := log.logs row isRow
    rfl
  refine ⟨types, sameLength, parsed, ?_⟩
  unfold serializeRowBinary
  rw [log.header, writeTypes_eq, writeRows_eq, named, checked]
  rfl

theorem LogChunk.readRows :
    let bytes := chunk.rows.flatMap fun row => row.flatMap RowValue.writeRowBinary
    readAll (readRow logTypes) bytes.length bytes =
      some (chunk.rows.map (List.map RowValue.serverValue)) := by
  have nonempty : ∀ row ∈ chunk.rows, row.flatMap RowValue.writeRowBinary ≠ [] := by
    intro row isRow
    obtain ⟨config, r, rfl⟩ := log.logs row isRow
    simp [logRow, RowValue.writeRowBinary, i64Bytes, leBytes]
  refine readAll_flatMap chunk.rows (fun row isRow => ?_) nonempty _
    (length_le_flatMap chunk.rows nonempty)
  obtain ⟨config, r, rfl⟩ := log.logs row isRow
  rw [← logRow_types config r]
  exact reads_row (logRow config r)

theorem LogChunk.roundTrip : ∃ bytes, serializeRowBinary chunk = .ok bytes ∧
    readRowBinary bytes = some (chunk.columns, chunk.rows.map (List.map RowValue.serverValue)) := by
  obtain ⟨types, sameLength, parsed, serialized⟩ := log.serialized
  refine ⟨_, serialized, ?_⟩
  unfold readRowBinary
  rw [reads_header sameLength parsed, Option.bind_some, log.readRows, log.header]
  rfl

/-- The rows of two chunks that are read alike are the same. -/
theorem LogChunk.rows_eq {chunk' : InsertChunk} (log' : LogChunk chunk')
    (same : chunk.rows.map (List.map RowValue.serverValue) =
      chunk'.rows.map (List.map RowValue.serverValue)) : chunk.rows = chunk'.rows := by
  refine List.ext_getElem? fun position => ?_
  have atPosition := congrArg (fun rows => rows[position]?) same
  simp only [List.getElem?_map] at atPosition
  cases present : chunk.rows[position]? with
  | none =>
      cases present' : chunk'.rows[position]? with
      | none => rfl
      | some row' =>
          rw [present, present'] at atPosition
          cases atPosition
  | some row =>
      cases present' : chunk'.rows[position]? with
      | none =>
          rw [present, present'] at atPosition
          cases atPosition
      | some row' =>
          rw [present, present'] at atPosition
          obtain ⟨config, r, rfl⟩ := log.logs row (List.mem_of_getElem? present)
          obtain ⟨config', r', rfl⟩ := log'.logs row' (List.mem_of_getElem? present')
          have types : (logRow config r).map RowValue.type =
              (logRow config' r').map RowValue.type := rfl
          rw [row_eq types (Option.some.inj atPosition)]

end Chunk

/-- Every planned chunk serializes, its bytes are read back as its columns and rows, and
chunks with the same bytes have the same rows. -/
theorem row_binary_round_trip {σ : Nat} {sha256Prefix : String → String}
    {config : LogsAdapterConfig} {batch : ClickHouseAdapterBatch} {chunks : List InsertChunk}
    (planned : plan σ sha256Prefix config batch = some (.ok chunks)) {chunk : InsertChunk}
    (member : chunk ∈ chunks) : ∃ bytes, serializeRowBinary chunk = .ok bytes ∧
      readRowBinary bytes = some (chunk.columns, chunk.rows.map (List.map RowValue.serverValue)) ∧
      ∀ σ' sha256Prefix' config' batch' chunks',
        plan σ' sha256Prefix' config' batch' = some (.ok chunks') → ∀ chunk' ∈ chunks',
          serializeRowBinary chunk' = .ok bytes → chunk'.rows = chunk.rows := by
  have log := logChunk_of_plan planned member
  obtain ⟨bytes, serialized, readBack⟩ := log.roundTrip
  refine ⟨bytes, serialized, readBack, ?_⟩
  intro σ' sha256Prefix' config' batch' chunks' planned' chunk' member' serialized'
  have log' := logChunk_of_plan planned' member'
  obtain ⟨bytes', isBytes, readBack'⟩ := log'.roundTrip
  rw [serialized'] at isBytes
  cases isBytes
  rw [readBack] at readBack'
  have sameRows := (Prod.mk.inj (Option.some.inj readBack')).2
  exact (log.rows_eq log' sameRows).symm

/-- A chunk of three rows. -/
theorem row_binary_round_trip_three_rows : ∃ bytes,
    let chunk := emit (smallChunks 10 900) "986fef379156c65e" "m" ⟨0, 0⟩
      [plainRecord "m" 0 0 0 "a", plainRecord "m" 0 0 1 "é", plainRecord "m" 0 0 2 ""] 0
    serializeRowBinary chunk = .ok bytes ∧ (readRowBinary bytes).map Prod.fst = some columns := by
  have planned : plan 288 (fun _ => "986fef379156c65e") (smallChunks 10 900) ⟨firstRange 1,
      [plainRecord "m" 0 0 0 "a", plainRecord "m" 0 0 1 "é", plainRecord "m" 0 0 2 ""]⟩ =
    some (.ok [emit (smallChunks 10 900) "986fef379156c65e" "m" ⟨0, 0⟩
      [plainRecord "m" 0 0 0 "a", plainRecord "m" 0 0 1 "é", plainRecord "m" 0 0 2 ""] 0]) := rfl
  obtain ⟨bytes, serialized, readBack, _⟩ := row_binary_round_trip planned List.mem_cons_self
  exact ⟨bytes, serialized, by rw [readBack]; rfl⟩

end OpendataIngest.ClickHouse
