import OpendataIngest.Lib.ByteCodec
import OpendataIngest.Lib.Hex
import Mathlib.Data.List.TakeWhile
import Mathlib.Algebra.Order.Ring.Int

/-!
# The texts of JSON

Strings and integers as a compact JSON text spells them, byte for byte, and their readers.
No byte of such a text is a control character, so a line end is never part of one.
-/

set_option autoImplicit false

namespace OpendataIngest.JsonText

open ByteCodec Hex

/-! ## Lines -/

def readUntil (stop : UInt8) : Reader (List UInt8)
  | [] => none
  | byte :: rest =>
      if byte = stop then some ([], rest)
      else (readUntil stop rest).map fun result => (byte :: result.1, result.2)

theorem reads_until {stop : UInt8} {bytes : List UInt8} (free : stop ∉ bytes) :
    Reads (readUntil stop) (bytes ++ [stop]) bytes := by
  intro rest
  induction bytes with
  | nil => exact if_pos rfl
  | cons byte more ih =>
      obtain ⟨differs, later⟩ := List.ne_and_not_mem_of_not_mem_cons free
      have read : readUntil stop (more ++ [stop] ++ rest) = some (more, rest) := ih later
      change (if _ then _ else _) = _
      rw [if_neg (Ne.symm differs)]
      change Option.map _ (readUntil stop (more ++ [stop] ++ rest)) = _
      rw [read]
      rfl

def expectByte (byte : UInt8) : Reader Unit
  | [] => none
  | head :: rest => if head = byte then some ((), rest) else none

theorem reads_expected (byte : UInt8) : Reads (expectByte byte) [byte] () := by
  intro rest
  exact if_pos rfl

/-- What follows the part that the first reader takes. -/
theorem run_reads {A B : Type} {reader : Reader A} {bytes : List UInt8} {a : A}
    (reads : Reads reader bytes a) (next : A → Reader B) (rest : List UInt8) :
    (reader >>= next).run (bytes ++ rest) = (next a).run rest := by
  rw [StateT.run_bind, reads rest]
  rfl

/-! ## Strings -/

def byteOf (c : Char) : UInt8 := UInt8.ofNat c.toNat

def charOf (byte : UInt8) : Char := Char.ofNat byte.toNat

theorem toNat_byteOf {c : Char} (ascii : c.toNat ≤ 127) : (byteOf c).toNat = c.toNat := by
  rw [byteOf, UInt8.toNat_ofNat']
  omega

theorem charOf_byteOf {c : Char} (ascii : c.toNat ≤ 127) : charOf (byteOf c) = c := by
  rw [charOf, toNat_byteOf ascii, Char.ofNat_toNat]

theorem hexDigit_ascii {digit : Nat} (small : digit < 16) : (hexDigit .lower digit).toNat ≤ 127 :=
  (toNat_hexDigit .lower small).2.trans (by decide)

/-- The bytes that a letter after a backslash stands for. -/
def escapes : List (UInt8 × UInt8) :=
  [(34, 34), (92, 92), (8, 98), (9, 116), (10, 110), (12, 102), (13, 114)]

def escapeByte (byte : UInt8) : List UInt8 :=
  match escapes.lookup byte with
  | some letter => [92, letter]
  | none =>
      if byte.toNat < 32 then
        [92, 117, 48, 48] ++ (hexByte .lower byte).map byteOf
      else [byte]

/-- Where a reader is in a string: between two characters, after a backslash, or at a
digit of `\u` with so many digits to come. -/
inductive StringMode where
  | plain
  | escaped
  | unicode (toCome value : Nat)

def pushByte (byte : UInt8) : Option (List UInt8 × List UInt8) → Option (List UInt8 × List UInt8) :=
  Option.map fun result => (byte :: result.1, result.2)

/-- The bytes of a string up to its closing quote.  Of the `\u` escapes those of one byte
are read. -/
def readChars : StringMode → Reader (List UInt8)
  | _, [] => none
  | .plain, byte :: rest =>
      if byte = 34 then some ([], rest)
      else if byte = 92 then readChars .escaped rest
      else pushByte byte (readChars .plain rest)
  | .escaped, byte :: rest =>
      if byte = 117 then readChars (.unicode 3 0) rest
      else
        match escapes.find? fun entry => entry.2 = byte with
        | some entry => pushByte entry.1 (readChars .plain rest)
        | none => none
  | .unicode toCome value, byte :: rest =>
      match hexValue .lower (charOf byte) with
      | none => none
      | some digit =>
          match toCome with
          | 0 =>
              if 16 * value + digit < 128 then
                pushByte (UInt8.ofNat (16 * value + digit)) (readChars .plain rest)
              else none
          | toCome + 1 => readChars (.unicode toCome (16 * value + digit)) rest

theorem readChars_control {byte : UInt8} (control : byte.toNat < 32) (rest : List UInt8) :
    readChars .plain ([92, 117, 48, 48] ++ (hexByte .lower byte).map byteOf ++ rest) =
      pushByte byte (readChars .plain rest) := by
  have high : charOf (byteOf (hexDigit .lower (byte.toNat / 16))) = _ :=
    charOf_byteOf (hexDigit_ascii (by omega))
  have low : charOf (byteOf (hexDigit .lower (byte.toNat % 16))) = _ :=
    charOf_byteOf (hexDigit_ascii (by omega))
  have both : 16 * (16 * 0 + byte.toNat / 16) + byte.toNat % 16 = byte.toNat := by omega
  change readChars (.unicode 1 0) (byteOf (hexDigit .lower (byte.toNat / 16)) ::
    byteOf (hexDigit .lower (byte.toNat % 16)) :: rest) = _
  simp only [readChars, high, low, hexValue_high, hexValue_low, both, UInt8.ofNat_toNat]
  exact if_pos (by omega)

theorem readChars_escapeByte (byte : UInt8) (rest : List UInt8) :
    readChars .plain (escapeByte byte ++ rest) = pushByte byte (readChars .plain rest) := by
  unfold escapeByte
  cases listed : escapes.lookup byte with
  | some letter =>
      obtain ⟨front, back, split, _⟩ := List.lookup_eq_some_iff.mp listed
      have member : (byte, letter) ∈ escapes := by
        rw [split]
        exact List.mem_append_right front List.mem_cons_self
      simp only [escapes, List.mem_cons, Prod.mk.injEq, List.not_mem_nil, or_false] at member
      rcases member with ⟨rfl, rfl⟩ | ⟨rfl, rfl⟩ | ⟨rfl, rfl⟩ | ⟨rfl, rfl⟩ | ⟨rfl, rfl⟩ |
        ⟨rfl, rfl⟩ | ⟨rfl, rfl⟩ <;> rfl
  | none =>
      dsimp only
      by_cases control : byte.toNat < 32
      · rw [if_pos control]
        exact readChars_control control rest
      · have noQuote : byte ≠ 34 := by
          rintro rfl
          cases listed
        have noBackslash : byte ≠ 92 := by
          rintro rfl
          cases listed
        rw [if_neg control, List.singleton_append, readChars, if_neg noQuote, if_neg noBackslash]

theorem reads_chars (bytes : List UInt8) :
    Reads (readChars .plain) (bytes.flatMap escapeByte ++ [34]) bytes := by
  intro rest
  change readChars .plain (bytes.flatMap escapeByte ++ [34] ++ rest) = some (bytes, rest)
  induction bytes with
  | nil => rfl
  | cons byte more ih =>
      rw [List.flatMap_cons, List.append_assoc, List.append_assoc, readChars_escapeByte,
        ← List.append_assoc, ih]
      rfl

def writeString (text : String) : List UInt8 := 34 :: ((utf8 text).flatMap escapeByte ++ [34])

def readString : Reader String := do
  expectByte 34
  let bytes ← readChars .plain
  match String.fromUTF8? ⟨bytes.toArray⟩ with
  | some text => return text
  | none => failure

theorem reads_string (text : String) : Reads readString (writeString text) text := by
  refine (reads_expected 34).bind ((reads_chars (utf8 text)).finish ?_)
  rw [fromUTF8?_utf8]
  exact Reads.pure text

/-! ## Integers -/

def isDigit (byte : UInt8) : Bool := (charOf byte).isDigit

theorem isDigit_ascii {c : Char} (digit : c.isDigit = true) : c.toNat ≤ 127 :=
  (Char.isDigit_iff_toNat.mp digit).2.trans (by decide)

/-- What follows a number is no digit. -/
def EndsNumber (rest : List UInt8) : Prop := rest.takeWhile isDigit = []

theorem endsNumber_nil : EndsNumber [] := rfl

theorem endsNumber_cons {byte : UInt8} (other : isDigit byte = false) (rest : List UInt8) :
    EndsNumber (byte :: rest) := by
  rw [EndsNumber, List.takeWhile_cons, other]
  rfl

def writeNat (n : Nat) : List UInt8 := (Nat.toDigits 10 n).map byteOf

def readNat : Reader Nat := fun bytes =>
  let digits := bytes.takeWhile isDigit
  if digits.isEmpty then none
  else some (Nat.ofDigitChars 10 (digits.map charOf) 0, bytes.drop digits.length)

theorem isDigit_of_mem_writeNat {n : Nat} {byte : UInt8} (member : byte ∈ writeNat n) :
    isDigit byte = true := by
  obtain ⟨c, isChar, rfl⟩ := List.mem_map.mp member
  have digit : c.isDigit = true := Nat.isDigit_of_mem_toDigits (by decide) (by decide) isChar
  rw [isDigit, charOf_byteOf (isDigit_ascii digit)]
  exact digit

theorem map_charOf_writeNat (n : Nat) : (writeNat n).map charOf = Nat.toDigits 10 n := by
  rw [writeNat, List.map_map]
  refine (List.map_congr_left fun c member => ?_).trans (List.map_id _)
  exact charOf_byteOf (isDigit_ascii
    (Nat.isDigit_of_mem_toDigits (by decide) (by decide) member))

theorem writeNat_ne_nil (n : Nat) : writeNat n ≠ [] := by
  rw [writeNat, ne_eq, List.map_eq_nil_iff]
  exact Nat.toDigits_ne_nil

theorem readNat_writeNat (n : Nat) {rest : List UInt8} (ends : EndsNumber rest) :
    readNat (writeNat n ++ rest) = some (n, rest) := by
  have digits : (writeNat n ++ rest).takeWhile isDigit = writeNat n := by
    rw [List.takeWhile_append_of_pos fun byte member => isDigit_of_mem_writeNat member, ends,
      List.append_nil]
  have some_digits : (writeNat n).isEmpty = false := by
    rw [List.isEmpty_eq_false_iff]
    exact writeNat_ne_nil n
  simp only [readNat, digits, some_digits, map_charOf_writeNat, List.drop_left,
    Nat.ofDigitChars_ten_toDigits]
  rfl

def writeInt : Int → List UInt8
  | .ofNat n => writeNat n
  | .negSucc n => 45 :: writeNat (n + 1)

def readInt : Reader Int
  | [] => none
  | byte :: rest =>
      if byte = 45 then (readNat rest).map fun result => (-(result.1 : Int), result.2)
      else (readNat (byte :: rest)).map fun result => ((result.1 : Int), result.2)

/-- A number starts as nothing else does. -/
theorem writeInt_head (n : Int) :
    ∃ byte rest, writeInt n = byte :: rest ∧ (isDigit byte = true ∨ byte = 45) := by
  cases n with
  | ofNat n =>
      obtain ⟨byte, rest, shape⟩ := List.exists_cons_of_ne_nil (writeNat_ne_nil n)
      exact ⟨byte, rest, shape, Or.inl (isDigit_of_mem_writeNat (shape ▸ List.mem_cons_self))⟩
  | negSucc n => exact ⟨45, writeNat (n + 1), rfl, Or.inr rfl⟩

theorem readInt_writeInt (n : Int) {rest : List UInt8} (ends : EndsNumber rest) :
    readInt (writeInt n ++ rest) = some (n, rest) := by
  cases n with
  | ofNat n =>
      obtain ⟨byte, more, shape⟩ := List.exists_cons_of_ne_nil (writeNat_ne_nil n)
      have noMinus : byte ≠ 45 := by
        rintro rfl
        have digit : isDigit 45 = true := isDigit_of_mem_writeNat (shape ▸ List.mem_cons_self)
        cases digit
      have read := readNat_writeNat n ends
      rw [writeInt, shape, List.cons_append, readInt, if_neg noMinus, ← List.cons_append, ← shape,
        read]
      rfl
  | negSucc n =>
      have read := readNat_writeNat (n + 1) ends
      rw [writeInt, List.cons_append, readInt, if_pos rfl, read]
      rfl

/-! ## No line ends -/

def Printable (bytes : List UInt8) : Prop := ∀ byte ∈ bytes, 32 ≤ byte.toNat

theorem Printable.append {front back : List UInt8} (first : Printable front)
    (second : Printable back) : Printable (front ++ back) := by
  intro byte member
  exact (List.mem_append.mp member).elim (first byte) (second byte)

theorem Printable.cons {byte : UInt8} {rest : List UInt8} (least : 32 ≤ byte.toNat)
    (later : Printable rest) : Printable (byte :: rest) :=
  List.forall_mem_cons.mpr ⟨least, later⟩

theorem Printable.no_newline {bytes : List UInt8} (printable : Printable bytes) :
    10 ∉ bytes := by
  intro member
  exact absurd (printable 10 member) (by decide)

theorem escapeByte_printable (byte : UInt8) : Printable (escapeByte byte) := by
  unfold escapeByte
  cases listed : escapes.lookup byte with
  | some letter =>
      have least : escapes.all (fun entry => decide (32 ≤ entry.2.toNat)) = true := rfl
      obtain ⟨front, back, split, _⟩ := List.lookup_eq_some_iff.mp listed
      have member : (byte, letter) ∈ escapes := by
        rw [split]
        exact List.mem_append_right front List.mem_cons_self
      intro other isOther
      simp only [List.mem_cons, List.not_mem_nil, or_false] at isOther
      rcases isOther with rfl | rfl
      · decide
      · exact of_decide_eq_true (List.all_eq_true.mp least _ member)
  | none =>
      dsimp only
      split_ifs with control
      · have digit : ∀ digit < 16, 32 ≤ (byteOf (hexDigit .lower digit)).toNat := by
          intro digit small
          rw [toNat_byteOf (hexDigit_ascii small)]
          exact Nat.le_trans (by decide) (toNat_hexDigit .lower small).1
        have escape : Printable [92, 117, 48, 48] := by
          intro other isOther
          simp only [List.mem_cons, List.not_mem_nil, or_false] at isOther
          rcases isOther with rfl | rfl | rfl | rfl <;> decide
        exact escape.append (Printable.cons (digit _ (by omega)) (Printable.cons
          (digit _ (by omega)) (List.forall_mem_nil _)))
      · intro other isOther
        rw [List.mem_singleton.mp isOther]
        exact Nat.le_of_not_lt control

theorem writeString_printable (text : String) : Printable (writeString text) := by
  have quote : Printable [34] := Printable.cons (by decide) (List.forall_mem_nil _)
  refine Printable.cons (by decide) (Printable.append ?_ quote)
  intro byte member
  obtain ⟨source, _, isByte⟩ := List.mem_flatMap.mp member
  exact escapeByte_printable source byte isByte

theorem writeNat_printable (n : Nat) : Printable (writeNat n) := by
  intro byte member
  obtain ⟨c, isChar, rfl⟩ := List.mem_map.mp member
  have digit : c.isDigit = true := Nat.isDigit_of_mem_toDigits (by decide) (by decide) isChar
  have least : 48 ≤ c.toNat := (Char.isDigit_iff_toNat.mp digit).1
  rw [toNat_byteOf (isDigit_ascii digit)]
  omega

theorem writeInt_printable (n : Int) : Printable (writeInt n) := by
  cases n with
  | ofNat n => exact writeNat_printable n
  | negSucc n => exact Printable.cons (by decide) (writeNat_printable (n + 1))

end OpendataIngest.JsonText
