import OpendataIngest.ClickHouse.Calendar
import Mathlib.Data.String.Basic
import Mathlib.Order.Fin.Basic

/-!
# Date-time texts

What the text of a `DateTime64(9)` column denotes, read with no reference to the writer,
and the facts about the texts the writer produces: every nanosecond count of 64 bits has
one, it is 29 characters long, it is read back, and the texts sort as the counts do.
-/

set_option autoImplicit false

namespace OpendataIngest.ClickHouse.Calendar

open MachineInt Gregorian Numerals

/-! ## Reading -/

def readDateTime : TextReader (DateTime × Nat) := do
  let year ← numeral 4
  literal '-'
  let month ← numeral 2
  literal '-'
  let day ← numeral 2
  literal ' '
  let hour ← numeral 2
  literal ':'
  let minute ← numeral 2
  literal ':'
  let second ← numeral 2
  literal '.'
  let nanos ← numeral 9
  return (⟨⟨year, month, day⟩, hour, minute, second⟩, nanos)

/-- The nanoseconds since the epoch that a text denotes, if it is a date and a time. -/
def parseDatetime64 (text : String) : Option Int :=
  match readDateTime.run text.toList with
  | some ((time, nanos), []) =>
      if time.Valid then some (time.unixSeconds * 1000000000 + nanos) else none
  | _ => none

def renderText (time : DateTime) (nanos : Nat) : List Char :=
  dateText time.date ++ ' ' :: (timeText time ++ '.' :: zeroPad 9 nanos)

/-- A date and a time whose year has four digits. -/
structure FourDigit (time : DateTime) : Prop where
  valid : time.Valid
  year_nonneg : 0 ≤ time.date.year
  year_lt : time.date.year < 10000

section Texts

variable {time time' : DateTime} {nanos nanos' : Nat}

theorem FourDigit.month_lt (four : FourDigit time) : time.date.month < 10 ^ 2 := by
  have bound := four.valid.date.month_le
  omega

theorem FourDigit.day_lt (four : FourDigit time) : time.date.day < 10 ^ 2 := by
  have bound := four.valid.date.day_le
  have short := daysInMonth_le (Gregorian.isLeap time.date.year) time.date.month
  omega

theorem FourDigit.yearText (four : FourDigit time) :
    padSigned 4 time.date.year = zeroPad 4 time.date.year.toNat := by
  rw [padSigned, if_neg (not_lt.mpr four.year_nonneg)]

theorem FourDigit.toNat_lt (four : FourDigit time) : time.date.year.toNat < 10 ^ 4 := by
  have nonneg := four.year_nonneg
  have small := four.year_lt
  omega

theorem dateText_length (four : FourDigit time) : (dateText time.date).length = 10 := by
  have year := zeroPad_length (by decide) four.toNat_lt
  have month := zeroPad_length (by decide) four.month_lt
  have day := zeroPad_length (by decide) four.day_lt
  simp only [dateText, four.yearText, List.length_append, List.length_cons, year, month, day]

theorem DateTime.Valid.two_digits (valid : time.Valid) :
    time.hour < 10 ^ 2 ∧ time.minute < 10 ^ 2 ∧ time.second < 10 ^ 2 :=
  ⟨Nat.lt_trans valid.hour (by decide), Nat.lt_trans valid.minute (by decide),
    Nat.lt_trans valid.second (by decide)⟩

theorem timeText_length (valid : time.Valid) : (timeText time).length = 8 := by
  obtain ⟨hourSmall, minuteSmall, secondSmall⟩ := DateTime.Valid.two_digits valid
  have hour := zeroPad_length (by decide) hourSmall
  have minute := zeroPad_length (by decide) minuteSmall
  have second := zeroPad_length (by decide) secondSmall
  simp only [timeText, List.length_append, List.length_cons, hour, minute, second]

theorem renderText_length (four : FourDigit time) (small : nanos < 10 ^ 9) :
    (renderText time nanos).length = 29 := by
  have digits := zeroPad_length (by decide) small
  simp only [renderText, List.length_append, List.length_cons, dateText_length four,
    timeText_length four.valid, digits]

/-! ## The round trip -/

theorem readDateTime_renderText (four : FourDigit time) (small : nanos < 10 ^ 9) :
    readDateTime.run (renderText time nanos) = some ((time, nanos), []) := by
  obtain ⟨hour, minute, second⟩ := DateTime.Valid.two_digits four.valid
  have year : (time.date.year.toNat : Int) = time.date.year :=
    Int.toNat_of_nonneg four.year_nonneg
  simp only [renderText, dateText, timeText, four.yearText, List.append_assoc, List.cons_append]
  rw [← List.append_nil (zeroPad 9 nanos), readDateTime, run_numeral (by decide) four.toNat_lt,
    run_literal, run_numeral (by decide) four.month_lt, run_literal,
    run_numeral (by decide) four.day_lt, run_literal, run_numeral (by decide) hour, run_literal,
    run_numeral (by decide) minute, run_literal, run_numeral (by decide) second, run_literal,
    run_numeral (by decide) small, year]
  rfl

theorem parseDatetime64_renderText (four : FourDigit time) (small : nanos < 10 ^ 9) :
    parseDatetime64 (String.ofList (renderText time nanos)) =
      some (time.unixSeconds * 1000000000 + nanos) := by
  rw [parseDatetime64, String.toList_ofList, readDateTime_renderText four small]
  simp only [if_pos four.valid]

/-! ## The order -/

theorem dateText_lt (four : FourDigit time) (four' : FourDigit time')
    (less : time.date.dayNumber < time'.date.dayNumber) :
    dateText time.date < dateText time'.date := by
  have keys := Date.key_lt_of_dayNumber_lt four.valid.date four'.valid.date less
  have nonneg := four.year_nonneg
  have nonneg' := four'.year_nonneg
  simp only [dateText, four.yearText, four'.yearText]
  refine zeroPad_append_lt (by decide) four.toNat_lt four'.toNat_lt ?_
  rcases Prod.Lex.toLex_lt_toLex.mp keys with years | ⟨sameYear, later⟩
  · left
    simp only at years
    omega
  · right
    refine ⟨congrArg Int.toNat sameYear, cons_lt_cons ?_⟩
    refine zeroPad_append_lt (by decide) four.month_lt four'.month_lt ?_
    rcases Prod.Lex.toLex_lt_toLex.mp later with months | ⟨sameMonth, days⟩
    · exact Or.inl months
    · exact Or.inr ⟨sameMonth, cons_lt_cons (zeroPad_lt (by decide) days four'.day_lt)⟩

theorem timeText_lt (valid : time.Valid) (valid' : time'.Valid)
    (less : time.secondOfDay < time'.secondOfDay) : timeText time < timeText time' := by
  obtain ⟨hour, minute, second⟩ := DateTime.Valid.two_digits valid
  obtain ⟨hour', minute', second'⟩ := DateTime.Valid.two_digits valid'
  have minuteBound := valid.minute
  have minuteBound' := valid'.minute
  have secondBound := valid.second
  have secondBound' := valid'.second
  unfold DateTime.secondOfDay at less
  refine zeroPad_append_lt (by decide) hour hour' ?_
  rcases Nat.lt_trichotomy time.hour time'.hour with hours | sameHour | later
  · exact Or.inl hours
  · refine Or.inr ⟨sameHour, cons_lt_cons ?_⟩
    refine zeroPad_append_lt (by decide) minute minute' ?_
    rcases Nat.lt_trichotomy time.minute time'.minute with minutes | sameMinute | later
    · exact Or.inl minutes
    · have seconds : time.second < time'.second := by omega
      exact Or.inr ⟨sameMinute, cons_lt_cons (zeroPad_lt (by decide) seconds second')⟩
    · omega
  · omega

/-- Texts of different instants are in the order of the instants. -/
theorem renderText_lt (four : FourDigit time) (four' : FourDigit time')
    (small : nanos < 10 ^ 9) (small' : nanos' < 10 ^ 9)
    (less : time.unixSeconds * 1000000000 + nanos < time'.unixSeconds * 1000000000 + nanos') :
    renderText time nanos < renderText time' nanos' := by
  have bound := four.valid.secondOfDay_lt
  have bound' := four'.valid.secondOfDay_lt
  have dates : (dateText time.date).length = (dateText time'.date).length := by
    rw [dateText_length four, dateText_length four']
  have times : (timeText time).length = (timeText time').length := by
    rw [timeText_length four.valid, timeText_length four'.valid]
  unfold DateTime.unixSeconds at less
  rcases lt_trichotomy time.date.dayNumber time'.date.dayNumber with days | sameDay | later
  · exact append_lt_append dates (dateText_lt four four' days)
  · have sameDate := Date.dayNumber_injective four.valid.date four'.valid.date sameDay
    rw [renderText, renderText, sameDate]
    refine List.append_left_lt (cons_lt_cons ?_)
    rcases Nat.lt_trichotomy time.secondOfDay time'.secondOfDay with seconds | sameSecond | later
    · exact append_lt_append times (timeText_lt four.valid four'.valid seconds)
    · have sameTime : time = time' := DateTime.unixSeconds_injective four.valid four'.valid (by
        unfold DateTime.unixSeconds
        rw [sameDay, sameSecond])
      rw [sameTime]
      refine List.append_left_lt (cons_lt_cons (zeroPad_lt (by decide) ?_ small'))
      omega
    · omega
  · omega

end Texts

/-! ## The texts of `format_datetime64_ns` -/

theorem fourDigit_of_unixSeconds {time : DateTime} (valid : time.Valid)
    (nonneg : 0 ≤ time.unixSeconds) (small : time.unixSeconds < 2 ^ 35) : FourDigit time := by
  have inDay := valid.secondOfDay_lt
  have inYear := valid.date.dayOfYear_bounds
  have longest := (daysInYear_pos (Gregorian.isLeap time.date.year)).2
  have epochDay : epoch.dayNumber = 719162 := by decide
  rw [DateTime.unixSeconds, epochDay, Date.dayNumber_eq, daysBeforeYear] at nonneg small
  exact ⟨valid, by omega, by omega⟩

/-- The text of an instant. -/
theorem formatDatetime64Ns_spec (ns : U64) :
    ∃ time, formatDatetime64Ns ns = some (String.ofList (renderText time (ns.val % 1000000000))) ∧
      FourDigit time ∧ time.unixSeconds = ns.val / 1000000000 := by
  have bound := ns.isLt
  have secs : (Int64.ofNat (ns.val / 1000000000)).toInt = ns.val / 1000000000 := by
    rw [Int64.toInt_ofNat_of_lt (by omega)]
    rfl
  have nanos : asU32 ((ns.val % 1000000000 : Nat) : Int) = ns.val % 1000000000 := by
    unfold asU32
    omega
  obtain ⟨time, ran, valid, same⟩ := parts_spec (ns.val / 1000000000)
  refine ⟨time, ?_, fourDigit_of_unixSeconds valid (by omega) (by omega), same⟩
  simp only [formatDatetime64Ns, secs, nanos, format, ran, Option.map_some]
  rfl

theorem formatDatetime64Ns_isSome (ns : U64) : (formatDatetime64Ns ns).isSome = true := by
  obtain ⟨time, formats, _⟩ := formatDatetime64Ns_spec ns
  rw [formats]
  rfl

/-- Both loops of the calendar end, at the one date and time with the given distance from
the epoch, and `format_datetime64_ns` gives every count of nanoseconds a text of 29
characters that denotes it and sorts as it does. -/
theorem calendar_exact :
    (∀ secs : Int64,
      (∃ time, parts secs.toInt = some time ∧ (time.Valid ∧ time.unixSeconds = secs.toInt) ∧
        ∀ other : DateTime, other.Valid ∧ other.unixSeconds = secs.toInt → other = time) ∧
      ∃ year days, yearLoop ((secs.toInt / 86400).natAbs + 1) 1970 (secs.toInt / 86400) =
          some (year, days) ∧
        ∀ rounds, ∀ month ∈ monthsVisited year rounds 1 days, 1 ≤ month ∧ month ≤ 12) ∧
      ∃ text : U64 → String,
        (∀ ns, formatDatetime64Ns ns = some (text ns) ∧ (text ns).length = 29 ∧
          parseDatetime64 (text ns) = some (ns.val : Int)) ∧
        ∀ left right, left < right ↔ text left < text right := by
  refine ⟨fun secs => ⟨?_, ?_⟩, ?_⟩
  · obtain ⟨time, ran, valid, same⟩ := parts_spec secs.toInt
    refine ⟨time, ran, ⟨valid, same⟩, ?_⟩
    rintro other ⟨otherValid, otherSame⟩
    exact parts_unique ran other otherValid otherSame
  · obtain ⟨year, days, ran, _⟩ := yearLoop_spec ((secs.toInt / 86400).natAbs + 1) 1970
      (secs.toInt / 86400) (Nat.lt_succ_self _)
    exact ⟨year, days, ran, parts_months secs.toInt year days ran⟩
  · choose time formats four seconds using formatDatetime64Ns_spec
    have small : ∀ ns : U64, ns.val % 1000000000 < 10 ^ 9 :=
      fun ns => Nat.mod_lt ns.val (by decide)
    have count : ∀ ns : U64, (time ns).unixSeconds * 1000000000 + (ns.val % 1000000000 : Nat) =
        (ns.val : Int) := by
      intro ns
      rw [seconds ns]
      omega
    have increasing : StrictMono fun ns =>
        String.ofList (renderText (time ns) (ns.val % 1000000000)) := by
      intro left right less
      have lessVal : left.val < right.val := less
      rw [String.lt_iff_toList_lt, String.toList_ofList, String.toList_ofList]
      refine renderText_lt (four left) (four right) (small left) (small right) ?_
      rw [count left, count right]
      omega
    refine ⟨fun ns => String.ofList (renderText (time ns) (ns.val % 1000000000)), ?_, ?_⟩
    · intro ns
      refine ⟨formats ns, ?_, ?_⟩
      · rw [String.length_ofList]
        exact renderText_length (four ns) (small ns)
      · rw [parseDatetime64_renderText (four ns) (small ns), count ns]
    · intro left right
      exact increasing.lt_iff_lt.symm

example : format 1700000000 0 = some "2023-11-14 22:13:20.000000000" := by decide

example : format (-62135596801) 7 = some "0000-12-31 23:59:59.000000007" := by decide +kernel

end OpendataIngest.ClickHouse.Calendar
