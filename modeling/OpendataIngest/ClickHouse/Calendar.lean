import OpendataIngest.Lib.Gregorian
import OpendataIngest.Lib.MachineInt
import OpendataIngest.Lib.Numerals

/-!
# The hand-written calendar

`format_datetime64_ns` and `chrono_internal` of `adapter/mod.rs`.  Both loops of `parts`
run without a bound in the source; here they get a number of rounds, and `none` says that
a loop has not left its last round.  The days move by at most one year's length a round, so
`|days| + 1` rounds are enough, and the month loop starts at 1 and gets one round for each
of the months 1 to 12.

No sum or product of `parts` leaves `i64`, so its values are integers.
-/

set_option autoImplicit false

namespace OpendataIngest.ClickHouse.Calendar

open MachineInt Gregorian Numerals

/-- `%` on `i64` takes the sign of the year. -/
def isLeap (year : Int) : Bool :=
  (year.tmod 4 == 0 && year.tmod 100 != 0) || year.tmod 400 == 0

def daysInMonth (year : Int) (month : Nat) : Nat :=
  match month with
  | 1 | 3 | 5 | 7 | 8 | 10 | 12 => 31
  | 4 | 6 | 9 | 11 => 30
  | 2 => if isLeap year then 29 else 28
  | _ => 0

def yearLoop : Nat → Int → Int → Option (Int × Int)
  | 0, _, _ => none
  | rounds + 1, year, days =>
      let dy := if isLeap year then 366 else 365
      if days ≥ dy then yearLoop rounds (year + 1) (days - dy)
      else if days < 0 then
        let dyPrev := if isLeap (year - 1) then 366 else 365
        yearLoop rounds (year - 1) (days + dyPrev)
      else some (year, days)

def monthLoop (year : Int) : Nat → Nat → Int → Option (Nat × Int)
  | 0, _, _ => none
  | rounds + 1, month, days =>
      let dim : Int := daysInMonth year month
      if days ≥ dim then monthLoop year rounds (month + 1) (days - dim)
      else some (month, days)

/-- The months a run of the month loop asks `days_in_month` for. -/
def monthsVisited (year : Int) : Nat → Nat → Int → List Nat
  | 0, _, _ => []
  | rounds + 1, month, days =>
      let dim : Int := daysInMonth year month
      month :: if days ≥ dim then monthsVisited year rounds (month + 1) (days - dim) else []

/-- `as u32`. -/
def asU32 (n : Int) : Nat := (n % 2 ^ 32).toNat

def parts (secs : Int) : Option DateTime :=
  -- the divisor is positive, so the euclidean division of the source is `/`
  let days := secs / 86400
  let secOfDay := secs % 86400
  let hour := asU32 (secOfDay.tdiv 3600)
  let secOfHour := secOfDay.tmod 3600
  let minute := asU32 (secOfHour.tdiv 60)
  let second := asU32 (secOfHour.tmod 60)
  (yearLoop (days.natAbs + 1) 1970 days).bind fun (year, days) =>
    (monthLoop year 12 1 days).map fun (month, days) =>
      ⟨⟨year, month, asU32 (days + 1)⟩, hour, minute, second⟩

/-- `{:0width}` of a signed number, whose sign counts as a column. -/
def padSigned (width : Nat) (n : Int) : List Char :=
  if n < 0 then '-' :: zeroPad (width - 1) n.natAbs else zeroPad width n.toNat

def dateText (date : Date) : List Char :=
  padSigned 4 date.year ++ '-' :: (zeroPad 2 date.month ++ '-' :: zeroPad 2 date.day)

def timeText (time : DateTime) : List Char :=
  zeroPad 2 time.hour ++ ':' :: (zeroPad 2 time.minute ++ ':' :: zeroPad 2 time.second)

def format (secs : Int) (nanos : Nat) : Option String :=
  (parts secs).map fun time =>
    String.ofList (dateText time.date ++ ' ' :: (timeText time ++ '.' :: zeroPad 9 nanos))

def formatDatetime64Ns (unixNanos : U64) : Option String :=
  let secs := (Int64.ofNat (unixNanos.val / 1000000000)).toInt
  let nanos := asU32 ((unixNanos.val % 1000000000 : Nat) : Int)
  format secs nanos

/-! ## The rules of the calendar -/

theorem isLeap_eq (year : Int) : isLeap year = Gregorian.isLeap year := by
  have divides : ∀ n : Int, year.tmod n = 0 ↔ year % n = 0 := by
    intro n
    rw [← Int.dvd_iff_tmod_eq_zero, Int.dvd_iff_emod_eq_zero]
  rw [Bool.eq_iff_iff]
  simp [isLeap, Gregorian.isLeap, divides]

theorem daysInMonth_eq (year : Int) (month : Nat) :
    daysInMonth year month = Gregorian.daysInMonth (Gregorian.isLeap year) month := by
  unfold daysInMonth Gregorian.daysInMonth
  rw [isLeap_eq]
  split
  case h_13 => split <;> first | rfl | contradiction
  all_goals rfl

/-! ## The loops -/

theorem yearLoop_spec (rounds : Nat) (year days : Int) (enough : days.natAbs < rounds) :
    ∃ year' days', yearLoop rounds year days = some (year', days') ∧ 0 ≤ days' ∧
      days' < daysInYear (Gregorian.isLeap year') ∧
      daysBeforeYear year' + days' = daysBeforeYear year + days := by
  have lengths : ∀ y : Int, (if Gregorian.isLeap y then (366 : Int) else 365) =
      daysInYear (Gregorian.isLeap y) := by
    intro y
    cases Gregorian.isLeap y <;> rfl
  have bounds : ∀ y : Int, 365 ≤ daysInYear (Gregorian.isLeap y) ∧
      daysInYear (Gregorian.isLeap y) ≤ 366 := fun y => daysInYear_pos _
  induction rounds generalizing year days with
  | zero => omega
  | succ rounds ih =>
      simp only [yearLoop, isLeap_eq, lengths]
      have here := bounds year
      have before := bounds (year - 1)
      split_ifs with above below
      · have next := daysBeforeYear_succ year
        obtain ⟨year', days', ran, nonneg, inYear, same⟩ :=
          ih (year + 1) (days - daysInYear (Gregorian.isLeap year)) (by omega)
        exact ⟨year', days', ran, nonneg, inYear, by omega⟩
      · have previous := daysBeforeYear_succ (year - 1)
        rw [Int.sub_add_cancel] at previous
        by_cases still : days + daysInYear (Gregorian.isLeap (year - 1)) < 0
        · obtain ⟨year', days', ran, nonneg, inYear, same⟩ :=
            ih (year - 1) (days + daysInYear (Gregorian.isLeap (year - 1))) (by omega)
          exact ⟨year', days', ran, nonneg, inYear, by omega⟩
        · -- the year is reached: one more round, which leaves the loop
          cases rounds with
          | zero => omega
          | succ rounds =>
              have notAbove : ¬ days + (daysInYear (Gregorian.isLeap (year - 1)) : Int) ≥
                  daysInYear (Gregorian.isLeap (year - 1)) := by omega
              refine ⟨year - 1, days + daysInYear (Gregorian.isLeap (year - 1)), ?_, by omega,
                by omega, by omega⟩
              simp only [yearLoop, isLeap_eq, lengths, if_neg notAbove, if_neg still]
      · exact ⟨year, days, rfl, by omega, by omega, rfl⟩

theorem monthLoop_spec (year : Int) (rounds month : Nat) (days : Int)
    (counted : month + rounds = 13) (nonneg : 0 ≤ days)
    (inYear : daysBeforeMonth (Gregorian.isLeap year) month + days <
      daysInYear (Gregorian.isLeap year)) :
    ∃ month' days', monthLoop year rounds month days = some (month', days') ∧ month ≤ month' ∧
      month' ≤ 12 ∧ 0 ≤ days' ∧ days' < Gregorian.daysInMonth (Gregorian.isLeap year) month' ∧
      daysBeforeMonth (Gregorian.isLeap year) month' + days' =
        daysBeforeMonth (Gregorian.isLeap year) month + days := by
  induction rounds generalizing month days with
  | zero =>
      have whole := daysBeforeMonth_thirteen (Gregorian.isLeap year)
      rw [Nat.add_zero] at counted
      rw [counted] at inYear
      omega
  | succ rounds ih =>
      have next : daysBeforeMonth (Gregorian.isLeap year) (month + 1) =
          daysBeforeMonth (Gregorian.isLeap year) month +
            Gregorian.daysInMonth (Gregorian.isLeap year) month := rfl
      simp only [monthLoop, daysInMonth_eq]
      split_ifs with above
      · obtain ⟨month', days', ran, later, le, nonneg', inMonth, same⟩ :=
          ih (month + 1) (days - Gregorian.daysInMonth (Gregorian.isLeap year) month) (by omega)
            (by omega) (by omega)
        exact ⟨month', days', ran, by omega, le, nonneg', inMonth, by omega⟩
      · exact ⟨month, days, rfl, Nat.le_refl _, by omega, nonneg, by omega, rfl⟩

/-- However long it runs, the loop asks for the months 1 to 12 only. -/
theorem monthsVisited_le (year : Int) (rounds month : Nat) (days : Int) (started : 1 ≤ month)
    (nonneg : 0 ≤ days)
    (inYear : daysBeforeMonth (Gregorian.isLeap year) month + days <
      daysInYear (Gregorian.isLeap year)) :
    ∀ visited ∈ monthsVisited year rounds month days, 1 ≤ visited ∧ visited ≤ 12 := by
  induction rounds generalizing month days with
  | zero => intro visited member; cases member
  | succ rounds ih =>
      have le : month ≤ 12 := by
        by_contra late
        have whole := daysBeforeMonth_mono (Gregorian.isLeap year) (Nat.lt_of_not_le late)
        rw [Nat.succ_eq_add_one, daysBeforeMonth_thirteen] at whole
        omega
      have next : daysBeforeMonth (Gregorian.isLeap year) (month + 1) =
          daysBeforeMonth (Gregorian.isLeap year) month +
            Gregorian.daysInMonth (Gregorian.isLeap year) month := rfl
      intro visited member
      simp only [monthsVisited, daysInMonth_eq] at member
      rcases List.mem_cons.mp member with same | later
      · rw [same]
        exact ⟨started, le⟩
      · split_ifs at later
        · exact ih (month + 1) _ (by omega) (by omega) (by omega) visited later
        · cases later

/-! ## The fields -/

theorem asU32_of_lt (n : Int) (nonneg : 0 ≤ n) (small : n < 2 ^ 32) : (asU32 n : Int) = n := by
  unfold asU32
  omega

/-- The date and the time of day of every second, and no other. -/
theorem parts_spec (secs : Int) :
    ∃ time, parts secs = some time ∧ time.Valid ∧ time.unixSeconds = secs := by
  obtain ⟨year, dayOfYear, ranYears, nonneg, inYear, sameDay⟩ :=
    yearLoop_spec ((secs / 86400).natAbs + 1) 1970 (secs / 86400) (Nat.lt_succ_self _)
  have january := daysBeforeMonth_one (Gregorian.isLeap year)
  obtain ⟨month, dayOfMonth, ranMonths, first, last, nonneg', inMonth, sameMonth⟩ :=
    monthLoop_spec year 12 1 dayOfYear rfl nonneg (by omega)
  have short := daysInMonth_le (Gregorian.isLeap year) month
  have epochDay : epoch.dayNumber = daysBeforeYear 1970 := by decide
  have day := asU32_of_lt (dayOfMonth + 1) (by omega) (by omega)
  -- the time of day, on non-negative numbers
  have secOfDay : 0 ≤ secs % 86400 ∧ secs % 86400 < 86400 := by omega
  have byHour : (secs % 86400).tdiv 3600 = secs % 86400 / 3600 ∧
      (secs % 86400).tmod 3600 = secs % 86400 % 3600 :=
    ⟨Int.tdiv_eq_ediv_of_nonneg secOfDay.1, Int.tmod_eq_emod_of_nonneg secOfDay.1⟩
  have secOfHour : 0 ≤ secs % 86400 % 3600 := by omega
  have byMinute : (secs % 86400 % 3600).tdiv 60 = secs % 86400 % 3600 / 60 ∧
      (secs % 86400 % 3600).tmod 60 = secs % 86400 % 3600 % 60 :=
    ⟨Int.tdiv_eq_ediv_of_nonneg secOfHour, Int.tmod_eq_emod_of_nonneg secOfHour⟩
  have hour := asU32_of_lt (secs % 86400 / 3600) (by omega) (by omega)
  have minute := asU32_of_lt (secs % 86400 % 3600 / 60) (by omega) (by omega)
  have second := asU32_of_lt (secs % 86400 % 3600 % 60) (by omega) (by omega)
  refine ⟨⟨⟨year, month, asU32 (dayOfMonth + 1)⟩, asU32 (secs % 86400 / 3600),
    asU32 (secs % 86400 % 3600 / 60), asU32 (secs % 86400 % 3600 % 60)⟩, ?_, ?_, ?_⟩
  · simp only [parts, ranYears, ranMonths, Option.bind_some, Option.map_some, byHour.1, byHour.2,
      byMinute.1, byMinute.2]
  · refine ⟨⟨first, last, ?_, ?_⟩, ?_, ?_, ?_⟩
    all_goals
      simp only
      omega
  · rw [DateTime.unixSeconds, DateTime.secondOfDay, epochDay]
    simp only [Date.dayNumber]
    omega

theorem parts_unique {secs : Int} {time : DateTime} (ran : parts secs = some time)
    (other : DateTime) (valid : other.Valid) (same : other.unixSeconds = secs) :
    other = time := by
  obtain ⟨found, isFound, foundValid, foundSecs⟩ := parts_spec secs
  rw [ran] at isFound
  cases isFound
  exact DateTime.unixSeconds_injective valid foundValid (same.trans foundSecs.symm)

/-- The months the month loop asks for in a run of `parts`. -/
theorem parts_months (secs year days : Int)
    (reached : yearLoop ((secs / 86400).natAbs + 1) 1970 (secs / 86400) = some (year, days))
    (rounds : Nat) : ∀ month ∈ monthsVisited year rounds 1 days, 1 ≤ month ∧ month ≤ 12 := by
  obtain ⟨year', days', ran, nonneg, inYear, _⟩ :=
    yearLoop_spec ((secs / 86400).natAbs + 1) 1970 (secs / 86400) (Nat.lt_succ_self _)
  rw [reached] at ran
  cases ran
  have january := daysBeforeMonth_one (Gregorian.isLeap year)
  exact monthsVisited_le year rounds 1 days (Nat.le_refl 1) nonneg (by omega)

end OpendataIngest.ClickHouse.Calendar
