import OpendataIngest.ClickHouse.JsonEachRow
import OpendataIngest.Lib.JsonText

/-!
# Compact JSON

The text of a JSON value without blanks, and its reader.  The members of an object keep
their order.
-/

set_option autoImplicit false

namespace OpendataIngest.ClickHouse

open ByteCodec JsonText

/-! ## The text -/

/-- What stands before the members to come. -/
def comma : List (String × JsonValue) → List UInt8
  | [] => []
  | _ :: _ => [44]

mutual

def JsonValue.compact : JsonValue → List UInt8
  | .null => [110, 117, 108, 108]
  | .number n => writeInt n
  | .string s => writeString s
  | .object entries => 123 :: compactMembers entries

def compactMembers : List (String × JsonValue) → List UInt8
  | [] => [125]
  | (key, value) :: rest =>
      writeString key ++ 58 :: (value.compact ++ (comma rest ++ compactMembers rest))

end

/-- The recursion of values. -/
theorem JsonValue.onValues {P : JsonValue → Prop} (null : P .null) (number : ∀ n, P (.number n))
    (string : ∀ s, P (.string s))
    (object : ∀ entries, (∀ entry ∈ entries, P entry.2) → P (.object entries)) :
    ∀ value, P value :=
  @JsonValue.rec P (fun entries => ∀ entry ∈ entries, P entry.2) (fun entry => P entry.2)
    null number string object (List.forall_mem_nil _)
    (fun _ _ first later => List.forall_mem_cons.mpr ⟨first, later⟩) (fun _ _ holds => holds)

/-! ## The reader -/

def readNull : Reader JsonValue := do
  expectByte 117
  expectByte 108
  expectByte 108
  return .null

mutual

/-- Values with at most so many parts inside each other. -/
def readJson : Nat → Reader JsonValue
  | _, [] => none
  | 0, _ :: _ => none
  | fuel + 1, byte :: rest =>
      if byte = 110 then readNull.run rest
      else if byte = 34 then (JsonValue.string <$> readString).run (byte :: rest)
      else if byte = 123 then
        if rest.head? = some 125 then some (.object [], rest.tail)
        else (readMembers fuel rest).map fun result => (.object result.1, result.2)
      else (readInt (byte :: rest)).map fun result => (.number result.1, result.2)

def readMembers : Nat → Reader (List (String × JsonValue))
  | 0 => failure
  | fuel + 1 => do
      let key ← readString
      expectByte 58
      let value ← readJson fuel
      let separator ← readByte
      if separator = 125 then return [(key, value)]
      else if separator = 44 then
        let rest ← readMembers fuel
        return (key, value) :: rest
      else failure

end

def parseCompact (bytes : List UInt8) : Option JsonValue :=
  match readJson bytes.length bytes with
  | some (value, []) => some value
  | _ => none

/-! ## The round trip -/

def JsonValue.Readable (value : JsonValue) : Prop :=
  ∀ fuel rest, value.compact.length ≤ fuel → EndsNumber rest →
    readJson fuel (value.compact ++ rest) = some (value, rest)

/-- Nothing but a comma or a brace follows a member. -/
theorem members_end (entries : List (String × JsonValue)) (rest : List UInt8) :
    EndsNumber (comma entries ++ compactMembers entries ++ rest) := by
  cases entries with
  | nil =>
      rw [compactMembers]
      exact endsNumber_cons rfl _
  | cons entry later => exact endsNumber_cons rfl _

theorem readMembers_compact {entries : List (String × JsonValue)}
    (each : ∀ entry ∈ entries, entry.2.Readable) {fuel : Nat}
    (nonempty : entries ≠ []) (enough : (compactMembers entries).length ≤ fuel)
    (rest : List UInt8) :
    (readMembers fuel).run (compactMembers entries ++ rest) = some (entries, rest) := by
  induction entries generalizing fuel with
  | nil => exact absurd rfl nonempty
  | cons entry more ih =>
      obtain ⟨key, value⟩ := entry
      have readable : value.Readable := each (key, value) List.mem_cons_self
      have later : ∀ entry ∈ more, entry.2.Readable :=
        fun entry member => each entry (List.mem_cons_of_mem _ member)
      simp only [compactMembers, List.length_append, List.length_cons] at enough
      cases fuel with
      | zero => omega
      | succ fuel =>
          have first : (readJson fuel).run
              (value.compact ++ (comma more ++ compactMembers more ++ rest)) =
                some (value, comma more ++ compactMembers more ++ rest) :=
            readable fuel _ (by omega) (members_end more rest)
          have colon := fun next : Unit → Reader (List (String × JsonValue)) =>
            run_reads (reads_expected 58) next
              (value.compact ++ (comma more ++ compactMembers more ++ rest))
          rw [List.singleton_append] at colon
          simp only [compactMembers, List.append_assoc, List.cons_append] at first colon ⊢
          rw [readMembers, run_reads (reads_string key), colon, StateT.run_bind, first,
            Option.bind_eq_bind, Option.bind_some]
          cases more with
          | nil => rfl
          | cons entry more =>
              have others : (readMembers fuel).run (compactMembers (entry :: more) ++ rest) =
                  some (entry :: more, rest) := ih later (List.cons_ne_nil _ _) (by omega)
              change ((readMembers fuel).run (compactMembers (entry :: more) ++ rest)).bind _ = _
              rw [others]
              rfl

theorem JsonValue.readable : ∀ value : JsonValue, value.Readable := by
  refine JsonValue.onValues ?_ ?_ ?_ ?_
  · intro fuel rest enough _
    cases fuel with
    | zero => cases enough
    | succ fuel => rfl
  · intro n fuel rest enough ends
    obtain ⟨byte, digits, shape, start⟩ := writeInt_head n
    have read := readInt_writeInt n ends
    rw [JsonValue.compact, shape] at enough ⊢
    rw [shape, List.cons_append] at read
    have starts : byte ≠ 110 ∧ byte ≠ 34 ∧ byte ≠ 123 := by
      refine ⟨?_, ?_, ?_⟩
      all_goals
        rintro rfl
        rcases start with digit | minus
        · cases digit
        · cases minus
    cases fuel with
    | zero => cases enough
    | succ fuel =>
        rw [List.cons_append, readJson, if_neg starts.1, if_neg starts.2.1, if_neg starts.2.2, read]
        rfl
  · intro text fuel rest enough _
    cases fuel with
    | zero => cases enough
    | succ fuel =>
        have read := (reads_string text).map (f := JsonValue.string) rest
        exact read
  · intro entries each fuel rest enough _
    cases fuel with
    | zero => cases enough
    | succ fuel =>
        cases entries with
        | nil => rfl
        | cons entry more =>
            obtain ⟨key, value⟩ := entry
            have members : readMembers fuel (compactMembers ((key, value) :: more) ++ rest) =
                some ((key, value) :: more, rest) :=
              readMembers_compact each (List.cons_ne_nil _ _) (Nat.le_of_succ_le_succ enough) rest
            have nonempty : (compactMembers ((key, value) :: more) ++ rest).head? ≠ some 125 := by
              rw [compactMembers, writeString]
              exact fun same => absurd (Option.some.inj same) (by decide)
            rw [JsonValue.compact, List.cons_append, readJson]
            simp only [if_neg nonempty, members]
            rfl

theorem JsonValue.compact_printable : ∀ value : JsonValue, Printable value.compact := by
  refine JsonValue.onValues ?_ ?_ ?_ ?_
  · intro byte member
    simp only [JsonValue.compact, List.mem_cons, List.not_mem_nil, or_false] at member
    rcases member with rfl | rfl | rfl | rfl <;> decide
  · intro n
    exact writeInt_printable n
  · intro text
    exact writeString_printable text
  · intro entries each
    refine Printable.cons (by decide) ?_
    induction entries with
    | nil => exact Printable.cons (by decide) (List.forall_mem_nil _)
    | cons entry more ih =>
        obtain ⟨key, value⟩ := entry
        have first : Printable value.compact := each (key, value) List.mem_cons_self
        have later := ih fun entry member => each entry (List.mem_cons_of_mem _ member)
        have separator : Printable (comma more) := by
          cases more with
          | nil => exact List.forall_mem_nil _
          | cons entry more => exact Printable.cons (by decide) (List.forall_mem_nil _)
        rw [compactMembers]
        exact (writeString_printable key).append
          ((first.append (separator.append later)).cons (by decide))

theorem parseCompact_compact (value : JsonValue) : parseCompact value.compact = some value := by
  have read := value.readable value.compact.length [] (Nat.le_refl _) endsNumber_nil
  rw [List.append_nil] at read
  rw [parseCompact, read]

end OpendataIngest.ClickHouse
