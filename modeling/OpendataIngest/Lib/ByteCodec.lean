import Mathlib.Data.Nat.Basic
import Mathlib.Algebra.Group.Nat.Defs

/-!
# Writing and reading bytes

A reader takes a value from the front of the bytes.  `Reads reader bytes value` says that
the reader takes exactly `bytes`, whatever follows them; such facts compose along the
reader.
-/

set_option autoImplicit false

namespace OpendataIngest.ByteCodec

abbrev Reader (A : Type) : Type := StateT (List UInt8) Option A

def Reads {A : Type} (reader : Reader A) (bytes : List UInt8) (value : A) : Prop :=
  ∀ rest, reader.run (bytes ++ rest) = some (value, rest)

section Compose

variable {A B : Type} {reader : Reader A} {bytes bytes' : List UInt8} {a : A} {b : B}

theorem Reads.pure (a : A) : Reads (Pure.pure a) [] a := fun _ => rfl

theorem Reads.bind {next : A → Reader B} (first : Reads reader bytes a)
    (second : Reads (next a) bytes' b) : Reads (reader >>= next) (bytes ++ bytes') b := by
  intro rest
  rw [List.append_assoc, StateT.run_bind, first]
  exact second rest

theorem Reads.map {f : A → B} (first : Reads reader bytes a) :
    Reads (f <$> reader) bytes (f a) := by
  intro rest
  rw [StateT.run_map, first]
  rfl

/-- A last step that reads nothing. -/
theorem Reads.finish {next : A → Reader B} (first : Reads reader bytes a)
    (last : Reads (next a) [] b) : Reads (reader >>= next) bytes b := by
  have both := first.bind last
  rwa [List.append_nil] at both

end Compose

/-! ## Bytes -/

def readByte : Reader UInt8 := fun bytes =>
  match bytes with
  | [] => none
  | byte :: rest => some (byte, rest)

theorem reads_byte (byte : UInt8) : Reads readByte [byte] byte := fun _ => rfl

def readBytes (count : Nat) : Reader (List UInt8) := fun bytes =>
  if count ≤ bytes.length then some (bytes.take count, bytes.drop count) else none

theorem reads_bytes (bytes : List UInt8) : Reads (readBytes bytes.length) bytes bytes := by
  intro rest
  have enough : bytes.length ≤ (bytes ++ rest).length := by simp
  change (if _ then _ else _) = _
  rw [if_pos enough, List.take_left, List.drop_left]

/-! ## LEB128 -/

/-- Seven bits a byte, low bits first, the high bit set on all bytes but the last. -/
def writeVaruint (value : Nat) : List UInt8 :=
  if value / 128 = 0 then [UInt8.ofNat (value % 128)]
  else UInt8.ofNat (value % 128 + 128) :: writeVaruint (value / 128)
termination_by value
decreasing_by omega

def readVaruint : Reader Nat
  | [] => none
  | byte :: rest =>
      if byte.toNat < 128 then some (byte.toNat, rest)
      else (readVaruint rest).map fun result => (byte.toNat - 128 + 128 * result.1, result.2)

theorem reads_varuint (value : Nat) : Reads readVaruint (writeVaruint value) value := by
  intro rest
  induction value using Nat.strongRecOn with
  | ind value ih =>
      unfold writeVaruint
      split_ifs with last
      · have byte : (UInt8.ofNat (value % 128)).toNat = value := by
          rw [UInt8.toNat_ofNat']
          omega
        change (if _ then _ else _) = _
        rw [byte, if_pos (by omega)]
        rfl
      · have byte : (UInt8.ofNat (value % 128 + 128)).toNat = value % 128 + 128 := by
          rw [UInt8.toNat_ofNat']
          omega
        have later : readVaruint (writeVaruint (value / 128) ++ rest) = some (value / 128, rest) :=
          ih (value / 128) (by omega)
        change (if _ then _ else _) = _
        rw [byte, if_neg (by omega)]
        change Option.map _ (readVaruint (writeVaruint (value / 128) ++ rest)) = _
        rw [later, Option.map_some]
        congr 2
        omega

theorem one_le_length_varuint (value : Nat) : 1 ≤ (writeVaruint value).length := by
  unfold writeVaruint
  split_ifs
  · exact Nat.le_refl 1
  · exact Nat.le_add_left 1 _

theorem length_varuint_of_lt {value : Nat} (small : value < 128) :
    (writeVaruint value).length = 1 := by
  unfold writeVaruint
  rw [if_pos (Nat.div_eq_of_lt small)]
  rfl

/-! ## Little-endian numbers -/

def leBytes : Nat → Nat → List UInt8
  | 0, _ => []
  | width + 1, value => UInt8.ofNat (value % 256) :: leBytes width (value / 256)

def readLe : Nat → Reader Nat
  | 0 => Pure.pure 0
  | width + 1 => do
      let byte ← readByte
      let high ← readLe width
      return byte.toNat + 256 * high

theorem reads_le (width value : Nat) (fits : value < 256 ^ width) :
    Reads (readLe width) (leBytes width value) value := by
  induction width generalizing value with
  | zero =>
      have zero : value = 0 := by simpa using fits
      rw [zero]
      exact Reads.pure 0
  | succ width ih =>
      have high : value / 256 < 256 ^ width := by
        rw [Nat.div_lt_iff_lt_mul (by decide)]
        rwa [Nat.pow_succ] at fits
      have sum : (UInt8.ofNat (value % 256)).toNat + 256 * (value / 256) = value := by
        rw [UInt8.toNat_ofNat']
        omega
      refine (reads_byte (UInt8.ofNat (value % 256))).bind ((ih (value / 256) high).finish ?_)
      rw [sum]
      exact Reads.pure value

theorem length_le (width value : Nat) : (leBytes width value).length = width := by
  induction width generalizing value with
  | zero => rfl
  | succ width ih => rw [leBytes, List.length_cons, ih]

/-! ## Texts -/

def utf8 (text : String) : List UInt8 := text.toByteArray.data.toList

def writeText (text : String) : List UInt8 := writeVaruint (utf8 text).length ++ utf8 text

def readText : Reader String := do
  let length ← readVaruint
  let bytes ← readBytes length
  match String.fromUTF8? ⟨bytes.toArray⟩ with
  | some text => return text
  | none => failure

theorem fromUTF8?_utf8 (text : String) : String.fromUTF8? ⟨(utf8 text).toArray⟩ = some text := by
  unfold utf8 String.fromUTF8?
  rw [Array.toArray_toList]
  exact dif_pos text.isValidUTF8

theorem utf8_eq (text : String) : utf8 text = text.toList.flatMap String.utf8EncodeChar := by
  have chars : text.toByteArray = text.toList.utf8Encode := by
    rw [← String.toByteArray_ofList, String.ofList_toList]
  rw [utf8, chars, List.utf8Encode, List.data_toByteArray]

/-- A byte below 128 is a character of its own. -/
theorem utf8EncodeChar_ascii {c : Char} {byte : UInt8} (ascii : byte.toNat < 128)
    (member : byte ∈ String.utf8EncodeChar c) : c.toNat = byte.toNat := by
  have apart : ∀ n, 128 ≤ n → n < 256 → byte ≠ UInt8.ofNat n := by
    rintro n least most rfl
    rw [UInt8.toNat_ofNat'] at ascii
    omega
  unfold String.utf8EncodeChar at member
  dsimp only at member
  split_ifs at member with one two three
  · have value : c.toNat = c.val.toNat := rfl
    rw [List.mem_singleton.mp member, UInt8.toNat_ofNat', value]
    omega
  all_goals simp only [List.mem_cons, List.not_mem_nil, or_false] at member
  · rcases member with isByte | isByte <;>
      exact absurd isByte (apart _ (by omega) (by omega))
  · rcases member with isByte | isByte | isByte <;>
      exact absurd isByte (apart _ (by omega) (by omega))
  · rcases member with isByte | isByte | isByte | isByte <;>
      exact absurd isByte (apart _ (by omega) (by omega))

theorem mem_utf8 {byte : UInt8} (ascii : byte.toNat < 128) {text : String}
    (member : byte ∈ utf8 text) : ∃ c ∈ text.toList, c.toNat = byte.toNat := by
  rw [utf8_eq] at member
  obtain ⟨c, isChar, inChar⟩ := List.mem_flatMap.mp member
  exact ⟨c, isChar, utf8EncodeChar_ascii ascii inChar⟩

theorem reads_text (text : String) : Reads readText (writeText text) text := by
  refine (reads_varuint (utf8 text).length).bind ((reads_bytes (utf8 text)).finish ?_)
  rw [fromUTF8?_utf8]
  exact Reads.pure text

theorem length_text (text : String) : (writeText text).length =
    (writeVaruint (utf8 text).length).length + (utf8 text).length :=
  List.length_append

theorem one_le_length_text (text : String) : 1 ≤ (writeText text).length := by
  rw [length_text]
  exact Nat.le_add_right_of_le (one_le_length_varuint _)

theorem length_text_of_short {text : String} (short : (utf8 text).length < 128) :
    (writeText text).length = 1 + (utf8 text).length := by
  rw [length_text, length_varuint_of_lt short]

/-- Only the empty text is one byte long. -/
theorem length_text_eq_one_iff (text : String) : (writeText text).length = 1 ↔ text = "" := by
  constructor
  · intro single
    have counted := one_le_length_varuint (utf8 text).length
    rw [length_text] at single
    have noBytes : utf8 text = utf8 "" := List.length_eq_zero_iff.mp (by omega)
    have same := fromUTF8?_utf8 text
    rw [noBytes, fromUTF8?_utf8] at same
    exact (Option.some.inj same).symm
  · rintro rfl
    exact length_text_of_short (by decide)

/-! ## Sequences -/

section Sequences

variable {A B : Type} {reader : Reader B} {write : A → List UInt8} {value : A → B}

def readCount (reader : Reader B) : Nat → Reader (List B)
  | 0 => Pure.pure []
  | count + 1 => do
      let first ← reader
      let rest ← readCount reader count
      return first :: rest

theorem reads_count (items : List A) (each : ∀ a ∈ items, Reads reader (write a) (value a)) :
    Reads (readCount reader items.length) (items.flatMap write) (items.map value) := by
  induction items with
  | nil => exact Reads.pure []
  | cons first rest ih =>
      have later := ih fun a member => each a (List.mem_cons_of_mem _ member)
      exact (each first List.mem_cons_self).bind (later.finish (Reads.pure _))

/-- Reads until the bytes are used up. -/
def readAll (reader : Reader B) : Nat → List UInt8 → Option (List B)
  | _, [] => some []
  | 0, _ :: _ => none
  | fuel + 1, bytes@(_ :: _) =>
      (reader.run bytes).bind fun result =>
        (readAll reader fuel result.2).map fun later => result.1 :: later

theorem readAll_flatMap (items : List A) (each : ∀ a ∈ items, Reads reader (write a) (value a))
    (nonempty : ∀ a ∈ items, write a ≠ []) (fuel : Nat) (enough : items.length ≤ fuel) :
    readAll reader fuel (items.flatMap write) = some (items.map value) := by
  induction items generalizing fuel with
  | nil =>
      rw [List.flatMap_nil]
      cases fuel with
      | zero => rfl
      | succ fuel => rfl
  | cons first rest ih =>
      cases fuel with
      | zero => simp at enough
      | succ fuel =>
          obtain ⟨byte, more, shape⟩ := List.exists_cons_of_ne_nil (nonempty first (by simp))
          have head := each first List.mem_cons_self (rest.flatMap write)
          have later := ih (fun a member => each a (List.mem_cons_of_mem _ member))
            (fun a member => nonempty a (List.mem_cons_of_mem _ member)) fuel
            (by simpa using enough)
          rw [List.flatMap_cons]
          rw [shape, List.cons_append] at head ⊢
          rw [readAll, head, Option.bind_some, later]
          rfl

theorem length_le_flatMap (items : List A) (nonempty : ∀ a ∈ items, write a ≠ []) :
    items.length ≤ (items.flatMap write).length := by
  induction items with
  | nil => simp
  | cons first rest ih =>
      have head := List.length_pos_iff.mpr (nonempty first List.mem_cons_self)
      have later := ih fun a member => nonempty a (List.mem_cons_of_mem _ member)
      rw [List.flatMap_cons, List.length_append, List.length_cons]
      omega

/-- Items of at least one byte each: as many bytes as items means one byte each. -/
theorem length_flatMap_eq_iff (items : List A) (nonempty : ∀ a ∈ items, write a ≠ []) :
    (items.flatMap write).length = items.length ↔ ∀ a ∈ items, (write a).length = 1 := by
  induction items with
  | nil => simp
  | cons first rest ih =>
      have head := List.length_pos_iff.mpr (nonempty first List.mem_cons_self)
      have later : ∀ a ∈ rest, write a ≠ [] :=
        fun a member => nonempty a (List.mem_cons_of_mem _ member)
      have atLeast := length_le_flatMap rest later
      rw [List.forall_mem_cons, ← ih later, List.flatMap_cons, List.length_append,
        List.length_cons]
      omega

end Sequences

/-! ## Every item -/

theorem mapM_some {A B : Type} {read : A → Option B} {value : A → B} (items : List A)
    (each : ∀ a ∈ items, read a = some (value a)) : items.mapM read = some (items.map value) := by
  induction items with
  | nil => rfl
  | cons first rest ih =>
      have later := ih fun a member => each a (List.mem_cons_of_mem _ member)
      rw [List.mapM_cons, each first List.mem_cons_self, later]
      rfl

theorem mapM_bind {A B C : Type} {first : A → Option B} {second : B → Option C} {items : List A}
    {found : List B} (firsts : items.mapM first = some found) :
    items.mapM (fun a => (first a).bind second) = found.mapM second := by
  induction items generalizing found with
  | nil =>
      cases firsts
      rfl
  | cons a rest ih =>
      rw [List.mapM_cons] at firsts
      obtain ⟨b, isFirst, more⟩ := Option.bind_eq_some_iff.mp firsts
      obtain ⟨later, isLater, isFound⟩ := Option.bind_eq_some_iff.mp more
      cases isFound
      rw [List.mapM_cons, List.mapM_cons, isFirst, ih isLater]
      rfl

end OpendataIngest.ByteCodec
