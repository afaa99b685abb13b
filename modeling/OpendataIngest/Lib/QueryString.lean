import OpendataIngest.Lib.ByteCodec
import OpendataIngest.Lib.Hex
import Mathlib.Data.Char

/-!
# Query strings

Parameters joined by `&`, and percent-encoded texts in them.  Where no key and no value
holds a separator, the parameters are read back from the query string.
-/

set_option autoImplicit false

namespace OpendataIngest.QueryString

open ByteCodec Hex

/-! ## Separators -/

/-- What stands before and after the first separator. -/
def splitFirst (separator : Char) : List Char → Option (List Char × List Char)
  | [] => none
  | c :: rest =>
      if c = separator then some ([], rest)
      else (splitFirst separator rest).map fun parts => (c :: parts.1, parts.2)

theorem splitFirst_append {separator : Char} {front : List Char}
    (free : separator ∉ front) (back : List Char) :
    splitFirst separator (front ++ separator :: back) = some (front, back) := by
  induction front with
  | nil => exact if_pos rfl
  | cons c rest ih =>
      obtain ⟨differs, later⟩ := List.ne_and_not_mem_of_not_mem_cons free
      rw [List.cons_append, splitFirst, if_neg (Ne.symm differs), ih later]
      rfl

/-! ## Parameters -/

abbrev Param : Type := List Char × List Char

def renderParam (param : Param) : List Char := param.1 ++ '=' :: param.2

def renderParams (params : List Param) : List Char := ['&'].intercalate (params.map renderParam)

theorem renderParams_cons (first : Param) (rest : List Param) : renderParams (first :: rest) =
    renderParam first ++ rest.flatMap fun param => '&' :: renderParam param := by
  induction rest generalizing first with
  | nil => simp [renderParams]
  | cons second rest ih =>
      have later := ih second
      rw [renderParams] at later ⊢
      rw [List.map_cons, List.map_cons, List.intercalate_cons_cons, ← List.map_cons, later]
      simp

theorem not_mem_renderParams {c : Char} {params : List Param} (joins : c ≠ '&')
    (free : ∀ param ∈ params, c ∉ renderParam param) : c ∉ renderParams params := by
  cases params with
  | nil => exact List.not_mem_nil
  | cons first rest =>
      rw [renderParams_cons, List.mem_append, List.mem_flatMap]
      rintro (inFirst | ⟨param, member, inParam⟩)
      · exact free first List.mem_cons_self inFirst
      · rcases List.mem_cons.mp inParam with same | inText
        · exact joins same
        · exact free param (List.mem_cons_of_mem first member) inText

def parseParams (query : List Char) : Option (List Param) :=
  (query.splitOn '&').mapM (splitFirst '=')

/-- A parameter without separators of its own. -/
structure Param.Plain (param : Param) : Prop where
  key : '=' ∉ param.1
  joined : '&' ∉ renderParam param

theorem parseParams_renderParams {params : List Param} (nonempty : params ≠ [])
    (plain : ∀ param ∈ params, param.Plain) : parseParams (renderParams params) = some params := by
  have texts : ∀ text ∈ params.map renderParam, '&' ∉ text := by
    intro text member
    obtain ⟨param, isParam, rfl⟩ := List.mem_map.mp member
    exact (plain param isParam).joined
  have some_texts : params.map renderParam ≠ [] := by simpa using nonempty
  rw [parseParams, renderParams, List.splitOn_intercalate '&' texts some_texts, List.mapM_map]
  have each : ∀ param ∈ params, (splitFirst '=' ∘ renderParam) param = some (id param) :=
    fun param member => splitFirst_append (plain param member).key param.2
  rw [mapM_some params each, List.map_id]

/-! ## Percent encoding -/

/-- The characters that stand for themselves. -/
def isUnreserved (c : Char) : Bool := c.isAlphanum || ['-', '.', '_', '~'].contains c

def percentByte (byte : UInt8) : List Char :=
  if isUnreserved (Char.ofNat byte.toNat) then [Char.ofNat byte.toNat]
  else '%' :: hexByte .upper byte

def percentEncode (text : String) : String := String.ofList ((utf8 text).flatMap percentByte)

def percentBytes : List Char → Option (List UInt8)
  | [] => some []
  | c :: rest =>
      if c = '%' then
        match rest with
        | high :: low :: later =>
            (hexValue .upper high).bind fun h => (hexValue .upper low).bind fun l =>
              (percentBytes later).map (UInt8.ofNat (16 * h + l) :: ·)
        | _ => none
      else (percentBytes rest).map (UInt8.ofNat c.toNat :: ·)

def percentDecode (text : String) : Option String :=
  (percentBytes text.toList).bind fun bytes => String.fromUTF8? ⟨bytes.toArray⟩

theorem toNat_byteChar (byte : UInt8) : (Char.ofNat byte.toNat).toNat = byte.toNat := by
  have valid : byte.toNat.isValidChar := Or.inl (Nat.lt_trans byte.toNat_lt (by decide))
  rw [Char.ofNat, dif_pos valid]
  rfl

theorem not_percent_of_isUnreserved {c : Char} (unreserved : isUnreserved c = true) : c ≠ '%' := by
  rintro rfl
  cases unreserved

theorem percentBytes_percentByte (byte : UInt8) (rest : List Char) :
    percentBytes (percentByte byte ++ rest) = (percentBytes rest).map (byte :: ·) := by
  unfold percentByte
  split_ifs with unreserved
  · rw [List.singleton_append, percentBytes.eq_def]
    dsimp only
    rw [if_neg (not_percent_of_isUnreserved unreserved), toNat_byteChar, UInt8.ofNat_toNat]
  · simp only [hexByte, List.cons_append, List.nil_append, percentBytes, hexValue_high,
      hexValue_low, Option.bind_some, byte_of_digits]
    rfl

theorem percentDecode_percentEncode (text : String) :
    percentDecode (percentEncode text) = some text := by
  have bytes : ∀ bytes : List UInt8, percentBytes (bytes.flatMap percentByte) = some bytes := by
    intro bytes
    induction bytes with
    | nil => rfl
    | cons byte rest ih =>
        rw [List.flatMap_cons, percentBytes_percentByte, ih]
        rfl
  rw [percentDecode, percentEncode, String.toList_ofList, bytes, Option.bind_some, fromUTF8?_utf8]

theorem isUnreserved_ascii {c : Char} (unreserved : isUnreserved c = true) : c.toNat ≤ 127 := by
  rw [isUnreserved, Bool.or_eq_true, List.contains_iff_mem] at unreserved
  rcases unreserved with alphanum | special
  · delta Char.isAlphanum Char.isAlpha Char.isUpper Char.isLower Char.isDigit at alphanum
    simp only [Bool.or_eq_true, Bool.and_eq_true, decide_eq_true_eq, UInt32.le_iff_toNat_le,
      ge_iff_le] at alphanum
    change ((65 ≤ c.toNat ∧ c.toNat ≤ 90) ∨ (97 ≤ c.toNat ∧ c.toNat ≤ 122)) ∨
      (48 ≤ c.toNat ∧ c.toNat ≤ 57) at alphanum
    omega
  · simp only [List.mem_cons, List.not_mem_nil, or_false] at special
    rcases special with rfl | rfl | rfl | rfl <;> decide

/-- A text without reserved characters is what it encodes. -/
theorem percentDecode_plain {text : String} (plain : ∀ c ∈ text.toList, isUnreserved c = true) :
    percentDecode text = some text := by
  have bytes : percentBytes text.toList = some (utf8 text) := by
    rw [utf8_eq]
    generalize text.toList = chars at plain
    induction chars with
    | nil => rfl
    | cons c rest ih =>
        obtain ⟨unreserved, later⟩ := List.forall_mem_cons.mp plain
        have single : String.utf8EncodeChar c = [UInt8.ofNat c.toNat] :=
          if_pos (isUnreserved_ascii unreserved)
        rw [percentBytes.eq_def]
        dsimp only
        rw [if_neg (not_percent_of_isUnreserved unreserved), ih later, List.flatMap_cons, single]
        rfl
  rw [percentDecode, bytes, Option.bind_some, fromUTF8?_utf8]

theorem percentEncode_plain (text : String) :
    ∀ c ∈ (percentEncode text).toList, isUnreserved c = true ∨ c = '%' := by
  have digits : ∀ digit < 16, isUnreserved (hexDigit .upper digit) = true := by decide
  rw [percentEncode, String.toList_ofList]
  intro c member
  obtain ⟨byte, _, inByte⟩ := List.mem_flatMap.mp member
  have small := byte.toNat_lt
  unfold percentByte at inByte
  split_ifs at inByte with unreserved
  · rw [List.mem_singleton.mp inByte]
    exact Or.inl unreserved
  · simp only [hexByte, List.mem_cons, List.not_mem_nil, or_false] at inByte
    rcases inByte with rfl | rfl | rfl
    · exact Or.inr rfl
    · exact Or.inl (digits _ (by omega))
    · exact Or.inl (digits _ (by omega))

end OpendataIngest.QueryString
