import OpendataIngest.ClickHouse.WireFormats
import OpendataIngest.Lib.QueryString
import Mathlib.Data.List.DropRight

/-!
# The posted insert

The URL, headers and bytes of a request as `execute_once` and `build_insert_url` of
`writer.rs` make them, and their reader.  A request of the writer's model is what this
reader finds.  `encode` is `urlencoding::encode` and `decode` the server's inverse of it.
-/

set_option autoImplicit false

namespace OpendataIngest.ClickHouse

open MachineInt OpendataIngest.Runtime Otel ByteCodec JsonText QueryString

/-! ## The request -/

/-- What the writer's configuration says of a request, the timeout in nanoseconds. -/
structure EndpointConfig where
  endpoint : String
  user : String
  password : String
  requestTimeout : Nat

structure HttpPost where
  url : String
  headers : List (String × String)
  body : List UInt8

def trimEndMatches (c : Char) (text : String) : String :=
  String.ofList (text.toList.rdropWhile fun d => d = c)

section Post

variable (encode : String → String)

def buildInsertUrl (endpoint : String) (chunk : InsertChunk) (timeout : Nat) : String :=
  trimEndMatches '/' endpoint ++ "/?async_insert=0" ++ "&date_time_input_format=best_effort" ++
    (if chunk.settings.applyDeduplicationToken then
      "&insert_deduplication_token=" ++ encode chunk.settings.insertDeduplicationToken
    else "") ++
    (match chunk.settings.insertQuorum with
      | some quorum => "&insert_quorum=" ++ encode quorum
      | none => "") ++
    (if 0 < timeout then "&max_execution_time=" ++ toString (timeout / 1000000000) else "")

/-- The request of `execute_once` for a serialized chunk. -/
def insertPost (config : EndpointConfig) (chunk : InsertChunk) (format : SerializationFormat)
    (body : List UInt8) : HttpPost :=
  let combined := utf8 (renderInsertSqlClean chunk format) ++ 10 :: body
  { url := buildInsertUrl encode config.endpoint chunk config.requestTimeout
    headers := ("content-length", toString combined.length) ::
      ((if config.user.isEmpty then [] else [("X-ClickHouse-User", config.user)]) ++
        if config.password.isEmpty then [] else [("X-ClickHouse-Key", config.password)])
    body := combined }

end Post

/-- The serializer that `build_serializer` picks. -/
def serializeBytes (toVec : JsonValue → Except String (List UInt8)) (format : SerializationFormat)
    (chunk : InsertChunk) : Except WriterError (List UInt8) :=
  match format with
  | .jsonEachRow => serializeJsonEachRow toVec chunk
  | .rowBinary => serializeRowBinary chunk

/-! ## The reader -/

structure PostedInsert where
  database : String
  table : String
  keyword : String
  settings : List (String × String)
  data : List UInt8

def readSql (sql : List Char) : Option (List Char × List Char × List Char) :=
  ((expect "INSERT INTO ").run sql).bind fun into =>
    (splitFirst '.' into.2).bind fun target =>
      (splitFirst ' ' target.2).bind fun named =>
        ((expect "FORMAT ").run named.2).map fun format => (target.1, named.1, format.2)

def readSetting (decode : String → Option String) (param : Param) : Option (String × String) :=
  (decode (String.ofList param.2)).map fun value => (String.ofList param.1, value)

/-- A client keeps the fragment of a URL to itself. -/
def sentUrl (url : String) : List Char := url.toList.takeWhile fun c => c ≠ '#'

def readUrl (decode : String → Option String) (url : String) : Option (List (String × String)) :=
  (splitFirst '?' (sentUrl url)).bind fun parts =>
    (parseParams parts.2).bind fun params => params.mapM (readSetting decode)

def readPost (decode : String → Option String) (post : HttpPost) : Option PostedInsert :=
  ((readUntil 10).run post.body).bind fun body =>
    (String.fromUTF8? ⟨body.1.toArray⟩).bind fun sql =>
      (readSql sql.toList).bind fun clause =>
        (readUrl decode post.url).map fun settings =>
          ⟨String.ofList clause.1, String.ofList clause.2.1, String.ofList clause.2.2, settings,
            body.2⟩

/-- The rows in the data of an insert, by its format. -/
def PostedInsert.rows (parse : List UInt8 → Option JsonValue) (posted : PostedInsert) :
    Option (List (List ServerValue)) :=
  if posted.keyword = SerializationFormat.jsonEachRow.formatKeyword then
    readJsonEachRow parse logsColumns posted.data
  else if posted.keyword = SerializationFormat.rowBinary.formatKeyword then
    (readRowBinary posted.data).map Prod.snd
  else none

/-- What is relied on of the percent encoding. -/
structure UrlEncoding (encode : String → String) (decode : String → Option String) : Prop where
  decodes : ∀ text, decode (encode text) = some text
  plain : ∀ text, ∀ c ∈ (encode text).toList, isUnreserved c = true ∨ c = '%'
  keeps : ∀ text, (∀ c ∈ text.toList, isUnreserved c = true) → decode text = some text

theorem urlEncoding_percent : UrlEncoding percentEncode percentDecode where
  decodes := percentDecode_percentEncode
  plain := percentEncode_plain
  keeps _ plain := percentDecode_plain plain

/-! ## The URL -/

def fixedSettings : List (String × String) :=
  [("async_insert", "0"), ("date_time_input_format", "best_effort")]

def chunkSettings (chunk : InsertChunk) : List (String × String) :=
  (if chunk.settings.applyDeduplicationToken then
    [("insert_deduplication_token", chunk.settings.insertDeduplicationToken)] else []) ++
    chunk.settings.insertQuorum.toList.map fun quorum => ("insert_quorum", quorum)

def timeoutSettings (timeout : Nat) : List (String × String) :=
  if 0 < timeout then [("max_execution_time", toString (timeout / 1000000000))] else []

def toParam (setting : String × String) : Param := (setting.1.toList, setting.2.toList)

def urlSettings (encode : String → String) (chunk : InsertChunk) (timeout : Nat) :
    List (String × String) :=
  fixedSettings ++ (chunkSettings chunk).map (Prod.map id encode) ++ timeoutSettings timeout

/-- Settings that follow others. -/
def joined (settings : List (String × String)) : List Char :=
  settings.flatMap fun setting => '&' :: renderParam (toParam setting)

theorem joined_append (front back : List (String × String)) :
    joined (front ++ back) = joined front ++ joined back :=
  List.flatMap_append

theorem joined_chunkSettings (encode : String → String) (chunk : InsertChunk) :
    joined ((chunkSettings chunk).map (Prod.map id encode)) =
      (if chunk.settings.applyDeduplicationToken then
        "&insert_deduplication_token=" ++ encode chunk.settings.insertDeduplicationToken
      else "").toList ++
        (match chunk.settings.insertQuorum with
          | some quorum => "&insert_quorum=" ++ encode quorum
          | none => "").toList := by
  rw [chunkSettings, List.map_append, joined_append]
  congr 1
  · split_ifs
    · simp [joined, renderParam, toParam]
    · rfl
  · cases chunk.settings.insertQuorum with
    | none => rfl
    | some quorum => simp [joined, renderParam, toParam]

theorem joined_timeoutSettings (timeout : Nat) : joined (timeoutSettings timeout) =
    (if 0 < timeout then
      "&max_execution_time=" ++ toString (timeout / 1000000000) else "").toList := by
  rw [timeoutSettings]
  split_ifs
  · simp [joined, renderParam, toParam]
  · rfl

theorem buildInsertUrl_chars (encode : String → String) (endpoint : String) (chunk : InsertChunk)
    (timeout : Nat) : (buildInsertUrl encode endpoint chunk timeout).toList =
      ((trimEndMatches '/' endpoint).toList ++ ['/']) ++ '?' ::
        renderParams ((urlSettings encode chunk timeout).map toParam) := by
  have first : renderParams ((urlSettings encode chunk timeout).map toParam) =
      "async_insert=0".toList ++ (joined [("date_time_input_format", "best_effort")] ++
        (joined ((chunkSettings chunk).map (Prod.map id encode)) ++
          joined (timeoutSettings timeout))) := by
    rw [← joined_append, ← joined_append]
    change renderParams (toParam ("async_insert", "0") :: List.map toParam _) = _
    rw [renderParams_cons, List.flatMap_map]
    rfl
  rw [first, joined_chunkSettings, joined_timeoutSettings]
  simp only [buildInsertUrl, String.toList_append, List.append_assoc]
  rfl

/-! ## Reading the URL -/

section Url

variable {encode : String → String} {decode : String → Option String}
  (url : UrlEncoding encode decode) (chunk : InsertChunk) (timeout : Nat)

theorem fixedSettings_plain : ∀ setting ∈ fixedSettings,
    (∀ c ∈ setting.1.toList, isUnreserved c = true) ∧
      ∀ c ∈ setting.2.toList, isUnreserved c = true := by
  have all : fixedSettings.all (fun setting => setting.1.toList.all isUnreserved &&
      setting.2.toList.all isUnreserved) = true := rfl
  intro setting member
  obtain ⟨key, value⟩ := Bool.and_eq_true_iff.mp (List.all_eq_true.mp all setting member)
  exact ⟨List.all_eq_true.mp key, List.all_eq_true.mp value⟩

theorem toString_plain (n : Nat) : ∀ c ∈ (toString n).toList, isUnreserved c = true := by
  intro c member
  rw [Nat.toString_eq_repr, Nat.toList_repr] at member
  have digit : c.isDigit = true := Nat.isDigit_of_mem_toDigits (by decide) (by decide) member
  rw [isUnreserved, Char.isAlphanum, digit, Bool.or_true, Bool.true_or]

theorem timeoutSettings_plain : ∀ setting ∈ timeoutSettings timeout,
    (∀ c ∈ setting.1.toList, isUnreserved c = true) ∧
      ∀ c ∈ setting.2.toList, isUnreserved c = true := by
  intro setting member
  unfold timeoutSettings at member
  have key : "max_execution_time".toList.all isUnreserved = true := rfl
  split_ifs at member with limited
  · rw [List.mem_singleton.mp member]
    exact ⟨List.all_eq_true.mp key, toString_plain _⟩
  · cases member

theorem chunkSettings_key : ∀ setting ∈ chunkSettings chunk,
    ∀ c ∈ setting.1.toList, isUnreserved c = true := by
  have tokenKey : "insert_deduplication_token".toList.all isUnreserved = true := rfl
  have quorumKey : "insert_quorum".toList.all isUnreserved = true := rfl
  intro setting member
  rcases List.mem_append.mp member with token | quorum
  · split_ifs at token
    · rw [List.mem_singleton.mp token]
      exact List.all_eq_true.mp tokenKey
    · cases token
  · obtain ⟨value, _, rfl⟩ := List.mem_map.mp quorum
    exact List.all_eq_true.mp quorumKey

/-- A reserved character is in no setting, but for the separator and the percent signs. -/
theorem toParam_free {setting : String × String} {c : Char}
    (key : ∀ c ∈ setting.1.toList, isUnreserved c = true)
    (value : ∀ c ∈ setting.2.toList, isUnreserved c = true ∨ c = '%')
    (reserved : isUnreserved c = false) (noPercent : c ≠ '%') (noEquals : c ≠ '=') :
    c ∉ renderParam (toParam setting) := by
  intro member
  rcases List.mem_append.mp member with inKey | later
  · rw [key c inKey] at reserved
    cases reserved
  · rcases List.mem_cons.mp later with same | inValue
    · exact noEquals same
    · rcases value c inValue with unreserved | same
      · rw [unreserved] at reserved
        cases reserved
      · exact noPercent same

theorem toParam_plain {setting : String × String}
    (key : ∀ c ∈ setting.1.toList, isUnreserved c = true)
    (value : ∀ c ∈ setting.2.toList, isUnreserved c = true ∨ c = '%') :
    (toParam setting).Plain where
  key member := by
    have unreserved := key '=' member
    cases unreserved
  joined := toParam_free key value rfl (by decide) (by decide)

theorem front_free {endpoint : String} {c : Char} (absent : c ∉ endpoint.toList)
    (noSlash : c ≠ '/') : c ∉ (trimEndMatches '/' endpoint).toList ++ ['/'] := by
  rw [trimEndMatches, String.toList_ofList, List.mem_append, not_or, List.mem_singleton]
  exact ⟨fun member => absent ((List.rdropWhile_prefix _ _).subset member), noSlash⟩

include url

theorem urlSettings_chars : ∀ setting ∈ urlSettings encode chunk timeout,
    (∀ c ∈ setting.1.toList, isUnreserved c = true) ∧
      ∀ c ∈ setting.2.toList, isUnreserved c = true ∨ c = '%' := by
  intro setting member
  rcases List.mem_append.mp member with front | limited
  · rcases List.mem_append.mp front with fixed | encoded
    · obtain ⟨key, value⟩ := fixedSettings_plain setting fixed
      exact ⟨key, fun c inValue => Or.inl (value c inValue)⟩
    · obtain ⟨source, isSource, rfl⟩ := List.mem_map.mp encoded
      exact ⟨chunkSettings_key chunk source isSource, url.plain source.2⟩
  · obtain ⟨key, value⟩ := timeoutSettings_plain timeout setting limited
    exact ⟨key, fun c inValue => Or.inl (value c inValue)⟩

theorem urlSettings_plain : ∀ param ∈ (urlSettings encode chunk timeout).map toParam,
    param.Plain := by
  intro param member
  obtain ⟨setting, isSetting, rfl⟩ := List.mem_map.mp member
  obtain ⟨key, value⟩ := urlSettings_chars url chunk timeout setting isSetting
  exact toParam_plain key value

/-- The whole URL is sent. -/
theorem sentUrl_buildInsertUrl {endpoint : String} (noFragment : '#' ∉ endpoint.toList) :
    sentUrl (buildInsertUrl encode endpoint chunk timeout) =
      (buildInsertUrl encode endpoint chunk timeout).toList := by
  have query : '#' ∉ renderParams ((urlSettings encode chunk timeout).map toParam) := by
    refine not_mem_renderParams (by decide) fun param member => ?_
    obtain ⟨setting, isSetting, rfl⟩ := List.mem_map.mp member
    obtain ⟨key, value⟩ := urlSettings_chars url chunk timeout setting isSetting
    exact toParam_free key value rfl (by decide) (by decide)
  refine List.takeWhile_eq_self_iff.mpr fun c member => ?_
  rw [buildInsertUrl_chars] at member
  rw [decide_eq_true_eq]
  rintro rfl
  rcases List.mem_append.mp member with inFront | later
  · exact front_free noFragment (by decide) inFront
  · rcases List.mem_cons.mp later with same | inQuery
    · cases same
    · exact query inQuery

/-- The server finds the settings. -/
theorem readUrl_buildInsertUrl {endpoint : String} (noQuery : '?' ∉ endpoint.toList)
    (noFragment : '#' ∉ endpoint.toList) :
    readUrl decode (buildInsertUrl encode endpoint chunk timeout) =
      some (fixedSettings ++ chunkSettings chunk ++ timeoutSettings timeout) := by
  have front := front_free noQuery (by decide)
  have nonempty : (urlSettings encode chunk timeout).map toParam ≠ [] := List.cons_ne_nil _ _
  have found := parseParams_renderParams nonempty (urlSettings_plain url chunk timeout)
  have plain : ∀ settings : List (String × String),
      (∀ setting ∈ settings, ∀ c ∈ setting.2.toList, isUnreserved c = true) →
        (settings.map toParam).mapM (readSetting decode) = some settings := by
    intro settings values
    have each : ∀ setting ∈ settings,
        (readSetting decode ∘ toParam) setting = some (id setting) := by
      intro setting member
      rw [Function.comp_apply, readSetting, toParam, String.ofList_toList, String.ofList_toList,
        url.keeps setting.2 (values setting member)]
      rfl
    rw [List.mapM_map, mapM_some settings each, List.map_id]
  have encoded : (((chunkSettings chunk).map (Prod.map id encode)).map toParam).mapM
      (readSetting decode) = some (chunkSettings chunk) := by
    have each : ∀ setting ∈ chunkSettings chunk,
        (readSetting decode ∘ (toParam ∘ Prod.map id encode)) setting = some (id setting) := by
      intro setting _
      rw [Function.comp_apply, Function.comp_apply, readSetting, toParam, Prod.map_fst,
        Prod.map_snd, String.ofList_toList, String.ofList_toList, url.decodes]
      rfl
    rw [List.map_map, List.mapM_map, mapM_some (chunkSettings chunk) each, List.map_id]
  have fixed := plain fixedSettings fun setting member => (fixedSettings_plain setting member).2
  have limited := plain (timeoutSettings timeout) fun setting member =>
    (timeoutSettings_plain timeout setting member).2
  rw [readUrl, sentUrl_buildInsertUrl url chunk timeout noFragment, buildInsertUrl_chars,
    splitFirst_append front, Option.bind_some, found,
    Option.bind_some, urlSettings, List.map_append, List.map_append, List.mapM_append,
    List.mapM_append, fixed, encoded, limited]
  rfl

end Url

/-! ## Reading the statement -/

/-- A name that needs no quotes. -/
def isPlainName (name : String) : Bool := name.toList.all fun c => c.isAlphanum || c == '_'

theorem not_mem_plainName {name : String} (plain : isPlainName name = true) {c : Char}
    (special : (c.isAlphanum || c == '_') = false) : c ∉ name.toList := by
  intro member
  have kept := List.all_eq_true.mp plain c member
  rw [special] at kept
  cases kept

theorem expect_run (token : String) (rest : List Char) :
    (expect token).run (token.toList ++ rest) = some ((), rest) := by
  have starts : token.toList.isPrefixOf (token.toList ++ rest) = true :=
    List.isPrefixOf_iff_prefix.mpr (List.prefix_append _ _)
  change (if _ then _ else _) = _
  rw [if_pos starts, List.drop_left]

section Sql

variable {chunk : InsertChunk} (format : SerializationFormat)
  (database : isPlainName chunk.database = true)
  (table : isPlainName chunk.table = true)

theorem sql_chars : (renderInsertSqlClean chunk format).toList = "INSERT INTO ".toList ++
    (chunk.database.toList ++ '.' :: (chunk.table.toList ++ ' ' :: ("FORMAT ".toList ++
      format.formatKeyword.toList))) := by
  have text : renderInsertSqlClean chunk format = "INSERT INTO " ++ chunk.database ++ "." ++
      chunk.table ++ " FORMAT " ++ format.formatKeyword := rfl
  rw [text]
  simp only [String.toList_append, List.append_assoc]
  rfl

include database table

theorem readSql_chars : readSql (renderInsertSqlClean chunk format).toList =
    some (chunk.database.toList, chunk.table.toList, format.formatKeyword.toList) := by
  have into := expect_run "INSERT INTO " (chunk.database.toList ++ '.' :: (chunk.table.toList ++
    ' ' :: ("FORMAT ".toList ++ format.formatKeyword.toList)))
  have dot := splitFirst_append (not_mem_plainName database (c := '.') rfl)
    (chunk.table.toList ++ ' ' :: ("FORMAT ".toList ++ format.formatKeyword.toList))
  have space := splitFirst_append (not_mem_plainName table (c := ' ') rfl)
    ("FORMAT ".toList ++ format.formatKeyword.toList)
  have keyword := expect_run "FORMAT " format.formatKeyword.toList
  rw [readSql, sql_chars, into, Option.bind_some, dot, Option.bind_some, space, Option.bind_some,
    keyword]
  rfl

/-- The statement is one line. -/
theorem sql_oneLine : 10 ∉ utf8 (renderInsertSqlClean chunk format) := by
  intro member
  obtain ⟨c, isChar, newline⟩ := mem_utf8 (by decide) member
  have isNewline : c = '\n' := Char.toNat_inj.mp newline
  subst isNewline
  have keyword : '\n' ∉ format.formatKeyword.toList := by
    cases format <;> decide
  rw [sql_chars] at isChar
  simp only [List.mem_append, List.mem_cons, not_mem_plainName database (c := '\n') rfl,
    not_mem_plainName table (c := '\n') rfl, keyword] at isChar
  revert isChar
  decide

end Sql

/-! ## Reading the request -/

section Reading

variable {encode : String → String} {decode : String → Option String}
  (url : UrlEncoding encode decode) {config : EndpointConfig}
  (noQuery : '?' ∉ config.endpoint.toList) (noFragment : '#' ∉ config.endpoint.toList)
  {chunk : InsertChunk}
  (database : isPlainName chunk.database = true) (table : isPlainName chunk.table = true)

include url noQuery noFragment database table

/-- The server finds what was put in, whatever the bytes of the chunk. -/
theorem readPost_insertPost (format : SerializationFormat) (body : List UInt8) :
    readPost decode (insertPost encode config chunk format body) =
      some ⟨chunk.database, chunk.table, format.formatKeyword,
        fixedSettings ++ chunkSettings chunk ++ timeoutSettings config.requestTimeout, body⟩ := by
  have split := reads_until (sql_oneLine format database table) body
  rw [List.append_assoc, List.singleton_append] at split
  have settings := readUrl_buildInsertUrl url chunk config.requestTimeout noQuery noFragment
  rw [readPost, insertPost]
  dsimp only
  rw [split, Option.bind_some, fromUTF8?_utf8, Option.bind_some,
    readSql_chars format database table, Option.bind_some, settings]
  simp only [Option.map_some, String.ofList_toList]

end Reading

/-- What a format keeps of a value. -/
def RowValue.readAs : SerializationFormat → RowValue → ServerValue
  | .jsonEachRow => RowValue.meaning
  | .rowBinary => RowValue.serverValue

theorem LogChunk.bytes {toVec : JsonValue → Except String (List UInt8)}
    {parse : List UInt8 → Option JsonValue} (codec : LineCodec toVec parse) {chunk : InsertChunk}
    (log : LogChunk chunk) (format : SerializationFormat) : ∃ body bytes,
      serialize format chunk = .ok body ∧ serializeBytes toVec format chunk = .ok bytes ∧
        ∀ database table settings, PostedInsert.rows parse
          ⟨database, table, format.formatKeyword, settings, bytes⟩ =
            some (body.rows.map (List.map (RowValue.readAs format))) := by
  have checked : checkRows chunk.columns.length chunk.rows = .ok () := by
    refine checkRows_ok chunk.rows fun row isRow => ?_
    obtain ⟨config, r, rfl⟩ := log.logs row isRow
    rw [log.header]
    rfl
  cases format with
  | jsonEachRow =>
      obtain ⟨text, written, readBack⟩ := log.jsonRoundTrip codec
      refine ⟨⟨.jsonEachRow, chunk.columns, [], chunk.rows⟩, text, ?_, written, ?_⟩
      · simp only [serialize, checked]
      · intro database table settings
        exact (if_pos rfl).trans readBack
  | rowBinary =>
      obtain ⟨bytes, serialized, readBack⟩ := log.roundTrip
      obtain ⟨types, named, _⟩ := columnTypes_columns
      refine ⟨⟨.rowBinary, chunk.columns, types, chunk.rows⟩, bytes, ?_, serialized, ?_⟩
      · simp only [serialize, log.header, named] at checked ⊢
        simp only [checked]
      · intro database table settings
        have other : SerializationFormat.rowBinary.formatKeyword ≠
            SerializationFormat.jsonEachRow.formatKeyword := by decide
        rw [PostedInsert.rows, if_neg other, if_pos rfl, readBack]
        rfl

theorem serialize_format {format : SerializationFormat} {chunk : InsertChunk} {body : InsertBody}
    (serialized : serialize format chunk = .ok body) : body.format = format := by
  unfold serialize at serialized
  dsimp only at serialized
  split at serialized
  · cases serialized
  · split at serialized
    · cases serialized
    · cases serialized
      rfl

/-- Each setting is found under its name. -/
theorem lookup_settings (chunk : InsertChunk) (body : InsertBody) (timeout : Nat) :
    let settings := fixedSettings ++ chunkSettings chunk ++ timeoutSettings timeout
    settings.lookup "insert_deduplication_token" =
        (insertRequest chunk body).insertDeduplicationToken ∧
      settings.lookup "insert_quorum" = (insertRequest chunk body).insertQuorum ∧
      settings.lookup "max_execution_time" =
        (if 0 < timeout then some (toString (timeout / 1000000000)) else none) := by
  simp only [fixedSettings, chunkSettings, timeoutSettings, insertRequest]
  cases chunk.settings.insertQuorum with
  | none => split_ifs <;> exact ⟨rfl, rfl, rfl⟩
  | some quorum => split_ifs <;> exact ⟨rfl, rfl, rfl⟩

/-- A request of the writer's model is what a server reads from the bytes that are posted: the
statement, the token, the quorum and the rows, under either format. -/
theorem post_carries_request {encode : String → String} {decode : String → Option String}
    (url : UrlEncoding encode decode) {toVec : JsonValue → Except String (List UInt8)}
    {parse : List UInt8 → Option JsonValue} (codec : LineCodec toVec parse)
    {config : EndpointConfig} (noQuery : '?' ∉ config.endpoint.toList)
    (noFragment : '#' ∉ config.endpoint.toList) {σ : Nat}
    {sha256Prefix : String → String} {logs : LogsAdapterConfig}
    (database : isPlainName logs.database = true) (table : isPlainName logs.table = true)
    {batch : ClickHouseAdapterBatch} {chunks : List InsertChunk}
    (planned : plan σ sha256Prefix logs batch = some (.ok chunks)) {chunk : InsertChunk}
    (member : chunk ∈ chunks) (format : SerializationFormat) : ∃ body bytes posted,
      serialize format chunk = .ok body ∧ serializeBytes toVec format chunk = .ok bytes ∧
      readPost decode (insertPost encode config chunk format bytes) = some posted ∧
      s!"INSERT INTO {posted.database}.{posted.table} FORMAT {posted.keyword}" =
        (insertRequest chunk body).sql ∧
      posted.settings.lookup "insert_deduplication_token" =
        (insertRequest chunk body).insertDeduplicationToken ∧
      posted.settings.lookup "insert_quorum" = (insertRequest chunk body).insertQuorum ∧
      posted.settings.lookup "async_insert" = some "0" ∧
      posted.settings.lookup "date_time_input_format" = some "best_effort" ∧
      posted.settings.lookup "max_execution_time" = (if 0 < config.requestTimeout then
        some (toString (config.requestTimeout / 1000000000)) else none) ∧
      posted.rows parse =
        some ((insertRequest chunk body).body.rows.map (List.map (RowValue.readAs format))) := by
  have log := logChunk_of_plan planned member
  obtain ⟨manifestPath, slice, _, _, isEmit⟩ := plan_chunk planned member
  have sameDatabase : chunk.database = logs.database := by rw [isEmit, emit]
  have sameTable : chunk.table = logs.table := by rw [isEmit, emit]
  rw [← sameDatabase] at database
  rw [← sameTable] at table
  obtain ⟨body, bytes, serialized, isBytes, rows⟩ := log.bytes codec format
  have posted := readPost_insertPost url noQuery noFragment database table format bytes
  obtain ⟨token, quorum, limit⟩ := lookup_settings chunk body config.requestTimeout
  refine ⟨body, bytes, _, serialized, isBytes, posted, ?_, token, quorum, rfl, rfl, limit,
    rows _ _ _⟩
  rw [insertRequest, serialize_format serialized]
  rfl

/-- The default endpoint and the chunk of one record. -/
theorem post_carries_request_by_default : ∃ (bytes : List UInt8) (posted : PostedInsert),
    let chunk := emit (smallChunks 10 900) "986fef379156c65e" "m" ⟨0, 0⟩
      [plainRecord "m" 0 0 0 "a"] 0
    readPost percentDecode (insertPost percentEncode
        ⟨"http://localhost:8123", "default", "", 30000000000⟩ chunk .jsonEachRow bytes) =
      some posted ∧ posted.settings.lookup "insert_deduplication_token" =
        some chunk.idempotencyToken := by
  have planned : plan 288 (fun _ => "986fef379156c65e") (smallChunks 10 900) ⟨firstRange 1,
      [plainRecord "m" 0 0 0 "a"]⟩ =
    some (.ok [emit (smallChunks 10 900) "986fef379156c65e" "m" ⟨0, 0⟩
      [plainRecord "m" 0 0 0 "a"] 0]) := rfl
  let config : EndpointConfig := ⟨"http://localhost:8123", "default", "", 30000000000⟩
  have noQuery : '?' ∉ config.endpoint.toList := by decide
  have noFragment : '#' ∉ config.endpoint.toList := by decide
  obtain ⟨body, bytes, posted, _, _, found, _, token, _⟩ :=
    post_carries_request urlEncoding_percent lineCodec_compact noQuery noFragment rfl rfl
      planned List.mem_cons_self .jsonEachRow
  exact ⟨bytes, posted, found, token⟩

end OpendataIngest.ClickHouse
