import OpendataIngest.ClickHouse.Adapter
import OpendataIngest.Lib.DedupStore

/-!
# The ClickHouse writer

`execute_all`, `execute_chunk` and `execute_once` of `writer.rs`.  A call is suspended
while it waits for an answer and while it backs off, so it is a machine whose steps are
the pieces between two suspensions; what the HTTP client reports is an argument.

A request is kept as what the server reads from its URL and body.  The two serializers
differ in the bytes of the body, not in the columns and rows these stand for.
-/

set_option autoImplicit false

namespace OpendataIngest.ClickHouse

open MachineInt

/-! ## Errors -/

inductive WriterErrorClass where
  | retryable
  | nonRetryable
  | retryBudgetExhausted
  deriving DecidableEq

inductive WriterError where
  | retryable (message : String)
  | nonRetryable (message : String)
  | retryBudgetExhausted (message : String)
  | serialization (message : String)
  deriving DecidableEq

namespace WriterError

def errorClass : WriterError → WriterErrorClass
  | .retryable _ => .retryable
  | .retryBudgetExhausted _ => .retryBudgetExhausted
  | .nonRetryable _ => .nonRetryable
  | .serialization _ => .nonRetryable

def text : WriterError → String
  | .retryable message => s!"clickhouse insert failed (retryable): {message}"
  | .nonRetryable message => s!"clickhouse insert failed (non-retryable): {message}"
  | .retryBudgetExhausted message =>
      s!"clickhouse insert failed (retry budget exhausted): {message}"
  | .serialization message => s!"serialization error: {message}"

end WriterError

/-! ## Bodies -/

inductive SerializationFormat where
  | jsonEachRow
  | rowBinary
  deriving DecidableEq

def SerializationFormat.formatKeyword : SerializationFormat → String
  | .jsonEachRow => "JSONEachRow"
  | .rowBinary => "RowBinaryWithNamesAndTypes"

def clickhouseTypeForColumn (name : String) : Except WriterError String :=
  match name with
  | "Timestamp" => .ok "DateTime64(9)"
  | "ObservedTimestamp" => .ok "DateTime64(9)"
  | "SeverityText" => .ok "LowCardinality(String)"
  | "SeverityNumber" => .ok "UInt8"
  | "ServiceName" => .ok "LowCardinality(String)"
  | "Body" => .ok "String"
  | "ResourceAttributes" => .ok "Map(LowCardinality(String), String)"
  | "LogAttributes" => .ok "Map(LowCardinality(String), String)"
  | "TraceId" => .ok "String"
  | "SpanId" => .ok "String"
  | "_odb_sequence" => .ok "UInt64"
  | "_odb_entry_index" => .ok "UInt32"
  | "_odb_record_index" => .ok "UInt32"
  | "_odb_manifest_path" => .ok "LowCardinality(String)"
  | "_odb_data_path" => .ok "String"
  | "_odb_ingestion_time_ms" => .ok "Int64"
  | "_adapter_version" => .ok "UInt32"
  | "_odb_gateway_received_at" => .ok "Nullable(DateTime64(9))"
  | other => .error (.serialization (s!"no RowBinary type table entry for column " ++
      String.quote other ++ "; update `clickhouse_type_for_column` to match the adapter DDL"))

/-- What a serialized chunk says: the columns, with their types where the format has
them, and the rows. -/
structure InsertBody where
  format : SerializationFormat
  columns : List String
  columnTypes : List String
  rows : List Row

/-- The check both serializers make before they write a row. -/
def checkRows (columnCount : Nat) : List Row → Except WriterError Unit
  | [] => .ok ()
  | row :: rest =>
      if row.length ≠ columnCount then
        .error (.serialization (s!"row has {row.length} values but {columnCount} columns are " ++
          "expected"))
      else checkRows columnCount rest

def columnTypes : List String → Except WriterError (List String)
  | [] => .ok []
  | name :: rest =>
      match clickhouseTypeForColumn name with
      | .error e => .error e
      | .ok ty => match columnTypes rest with
          | .error e => .error e
          | .ok types => .ok (ty :: types)

/-- `ChunkSerializer::serialize`. -/
def serialize (format : SerializationFormat) (chunk : InsertChunk) :
    Except WriterError InsertBody :=
  let types : Except WriterError (List String) := match format with
    | .jsonEachRow => .ok []
    | .rowBinary => columnTypes chunk.columns
  match types with
  | .error e => .error e
  | .ok types =>
      match checkRows chunk.columns.length chunk.rows with
      | .error e => .error e
      | .ok _ => .ok ⟨format, chunk.columns, types, chunk.rows⟩

/-! ## Requests and their outcomes -/

structure InsertRequest where
  sql : String
  insertDeduplicationToken : Option String
  insertQuorum : Option String
  body : InsertBody

def renderInsertSqlClean (chunk : InsertChunk) (format : SerializationFormat) : String :=
  s!"INSERT INTO {chunk.database}.{chunk.table} FORMAT {format.formatKeyword}"

def insertRequest (chunk : InsertChunk) (body : InsertBody) : InsertRequest where
  sql := renderInsertSqlClean chunk body.format
  insertDeduplicationToken :=
    if chunk.settings.applyDeduplicationToken then some chunk.settings.insertDeduplicationToken
    else none
  insertQuorum := chunk.settings.insertQuorum
  body := body

/-- What the server makes of a request. -/
def InsertRequest.insert (request : InsertRequest) : Insert String Row :=
  ⟨request.insertDeduplicationToken, request.body.rows⟩

inductive ReqwestErrorKind where
  | timeout
  | connect
  | status
  | other
  deriving DecidableEq

structure ReqwestError where
  kind : ReqwestErrorKind
  text : String
  deriving DecidableEq

inductive HttpOutcome where
  | failed (error : ReqwestError)
  | response (status : Nat) (body : String)
  deriving DecidableEq

def HttpOutcome.isSuccess : HttpOutcome → Bool
  | .failed _ => false
  | .response status _ => decide (200 ≤ status ∧ status < 300)

def classifyReqwest (error : ReqwestError) : WriterError :=
  match error.kind with
  | .timeout => .retryable s!"network/timeout: {error.text}"
  | .connect => .retryable s!"network/timeout: {error.text}"
  | .status => .retryable s!"http status: {error.text}"
  | .other => .retryable s!"request error: {error.text}"

def classifyStatus (status : Nat) (body : String) : WriterError :=
  if status = 429 ∨ 500 ≤ status ∧ status < 600 then .retryable s!"status {status}: {body}"
  else .nonRetryable s!"status {status}: {body}"

/-- `execute_once` from the client's report on. -/
def executeOnce (outcome : HttpOutcome) : Except WriterError Unit :=
  match outcome with
  | .failed error => .error (classifyReqwest error)
  | .response status body =>
      if outcome.isSuccess then .ok () else .error (classifyStatus status body)

/-! ## The retry loop -/

structure WriterConfig where
  maxAttempts : U32
  serializationFormat : SerializationFormat

/-- Where `execute_all` stands: before `execute_once` sends, waiting for its answer, or in
the backoff.  `attempt` is the loop's counter, `rest` the chunks still to come. -/
inductive WriterState where
  | posting (attempt : Nat) (body : InsertBody) (chunk : InsertChunk) (rest : List InsertChunk)
  | awaiting (attempt : Nat) (body : InsertBody) (chunk : InsertChunk) (rest : List InsertChunk)
  | backingOff (attempt : Nat) (body : InsertBody) (chunk : InsertChunk)
      (rest : List InsertChunk)
  | done (result : Except WriterError Unit)

/-- `execute_all` at the next chunk. -/
def executeAll (config : WriterConfig) : List InsertChunk → WriterState
  | [] => .done (.ok ())
  | chunk :: rest =>
      match serialize config.serializationFormat chunk with
      | .error e => .done (.error e)
      | .ok body => .posting 1 body chunk rest

/-- The `match` of `execute_chunk` on the result of an attempt. -/
def afterAttempt (config : WriterConfig) (attempt : Nat) (body : InsertBody)
    (chunk : InsertChunk) (rest : List InsertChunk) (result : Except WriterError Unit) :
    WriterState :=
  match result with
  | .ok _ => executeAll config rest
  | .error err =>
      match err.errorClass with
      | .retryable =>
          if attempt < config.maxAttempts.val then .backingOff attempt body chunk rest
          else .done (.error (.retryBudgetExhausted
            s!"retry budget ({config.maxAttempts.val}) exhausted: {err.text}"))
      | .retryBudgetExhausted => .done (.error err)
      | .nonRetryable => .done (.error err)

/-! ## Progress of a call -/

theorem serialize_rows {format : SerializationFormat} {chunk : InsertChunk} {body : InsertBody}
    (serialized : serialize format chunk = .ok body) : body.rows = chunk.rows := by
  unfold serialize at serialized
  dsimp only at serialized
  split at serialized
  · cases serialized
  · split at serialized
    · cases serialized
    · cases serialized
      rfl

/-- The chunks before the current one have landed, and the body is the current chunk's. -/
def WriterState.Sound (landed : InsertChunk → Prop) (chunks : List InsertChunk) :
    WriterState → Prop
  | .posting _ body chunk rest | .awaiting _ body chunk rest
  | .backingOff _ body chunk rest => body.rows = chunk.rows ∧
      ∃ sent, chunks = sent ++ chunk :: rest ∧ ∀ earlier ∈ sent, landed earlier
  | .done (.ok _) => ∀ chunk ∈ chunks, landed chunk
  | .done (.error _) => True

section Sound

variable {config : WriterConfig} {landed : InsertChunk → Prop} {chunks : List InsertChunk}

theorem executeAll_sound (sent : List InsertChunk) {rest : List InsertChunk}
    (cut : chunks = sent ++ rest)
    (done : ∀ chunk ∈ sent, landed chunk) : (executeAll config rest).Sound landed chunks := by
  cases rest with
  | nil =>
      rw [List.append_nil] at cut
      exact cut ▸ done
  | cons chunk rest =>
      cases serialized : serialize config.serializationFormat chunk with
      | error e =>
          simp only [executeAll, serialized]
          trivial
      | ok body =>
          simp only [executeAll, serialized]
          exact ⟨serialize_rows serialized, sent, cut, done⟩

theorem afterAttempt_sound {attempt : Nat} {body : InsertBody} {chunk : InsertChunk}
    {rest : List InsertChunk} {result : Except WriterError Unit}
    (sound : (WriterState.awaiting attempt body chunk rest).Sound landed chunks)
    (confirmed : result = .ok () → landed chunk) :
    (afterAttempt config attempt body chunk rest result).Sound landed chunks := by
  obtain ⟨sameRows, sent, cut, done⟩ := sound
  cases result with
  | ok value =>
      refine executeAll_sound (sent ++ [chunk]) (by rw [cut, List.append_cons]) ?_
      intro other member
      rcases List.mem_append.mp member with earlier | current
      · exact done other earlier
      · rw [List.mem_singleton.mp current]
        exact confirmed rfl
  | error err =>
      unfold afterAttempt
      dsimp only
      split
      · split_ifs
        · exact ⟨sameRows, sent, cut, done⟩
        · trivial
      · trivial
      · trivial

theorem WriterState.Sound.mono {landed' : InsertChunk → Prop}
    (more : ∀ chunk, landed chunk → landed' chunk) {state : WriterState}
    (sound : state.Sound landed chunks) : state.Sound landed' chunks := by
  cases state with
  | done result =>
      cases result with
      | ok value => exact fun chunk member => more chunk (sound chunk member)
      | error e => trivial
  | _ =>
      obtain ⟨sameRows, sent, cut, done⟩ := sound
      exact ⟨sameRows, sent, cut, fun earlier member => more earlier (done earlier member)⟩

end Sound

end OpendataIngest.ClickHouse
