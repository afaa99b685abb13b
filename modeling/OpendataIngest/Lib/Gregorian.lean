import Mathlib.Data.Prod.Lex
import Mathlib.Order.Basic

/-!
# The proleptic Gregorian calendar

Dates with a year of either sign, counted in days.  The number of days before a year has
a closed form in floor divisions; a year adds its own length to it, which is the leap rule.
Counting days is strictly monotone in the order of the fields, so a date is determined by
its day number, and a date with its time of day by its second.
-/

set_option autoImplicit false

namespace OpendataIngest.Gregorian

def isLeap (year : Int) : Bool :=
  decide (year % 4 = 0 ∧ year % 100 ≠ 0 ∨ year % 400 = 0)

def daysInYear (leap : Bool) : Nat := if leap then 366 else 365

def daysInMonth (leap : Bool) : Nat → Nat
  | 1 => 31
  | 2 => if leap then 29 else 28
  | 3 => 31
  | 4 => 30
  | 5 => 31
  | 6 => 30
  | 7 => 31
  | 8 => 31
  | 9 => 30
  | 10 => 31
  | 11 => 30
  | 12 => 31
  | _ => 0

/-- The days of the months before a month. -/
def daysBeforeMonth (leap : Bool) : Nat → Nat
  | 0 => 0
  | month + 1 => daysBeforeMonth leap month + daysInMonth leap month

/-- The days from the first day of year 1 to the first day of a year. -/
def daysBeforeYear (year : Int) : Int :=
  365 * (year - 1) + (year - 1) / 4 - (year - 1) / 100 + (year - 1) / 400

structure Date where
  year : Int
  month : Nat
  day : Nat
  deriving DecidableEq

structure Date.Valid (date : Date) : Prop where
  month_pos : 1 ≤ date.month
  month_le : date.month ≤ 12
  day_pos : 1 ≤ date.day
  day_le : date.day ≤ daysInMonth (isLeap date.year) date.month

instance (date : Date) : Decidable date.Valid :=
  decidable_of_iff (1 ≤ date.month ∧ date.month ≤ 12 ∧ 1 ≤ date.day ∧
      date.day ≤ daysInMonth (isLeap date.year) date.month)
    ⟨fun ⟨a, b, c, d⟩ => ⟨a, b, c, d⟩, fun valid =>
      ⟨valid.month_pos, valid.month_le, valid.day_pos, valid.day_le⟩⟩

/-- The first day of year 1 has number 0. -/
def Date.dayNumber (date : Date) : Int :=
  daysBeforeYear date.year + daysBeforeMonth (isLeap date.year) date.month + (date.day - 1 : Int)

def epoch : Date := ⟨1970, 1, 1⟩

structure DateTime where
  date : Date
  hour : Nat
  minute : Nat
  second : Nat
  deriving DecidableEq

structure DateTime.Valid (time : DateTime) : Prop where
  date : time.date.Valid
  hour : time.hour < 24
  minute : time.minute < 60
  second : time.second < 60

instance (time : DateTime) : Decidable time.Valid :=
  decidable_of_iff (time.date.Valid ∧ time.hour < 24 ∧ time.minute < 60 ∧ time.second < 60)
    ⟨fun ⟨a, b, c, d⟩ => ⟨a, b, c, d⟩, fun valid =>
      ⟨valid.date, valid.hour, valid.minute, valid.second⟩⟩

def DateTime.secondOfDay (time : DateTime) : Nat :=
  time.hour * 3600 + time.minute * 60 + time.second

/-- The distance from midnight of the epoch. -/
def DateTime.unixSeconds (time : DateTime) : Int :=
  (time.date.dayNumber - epoch.dayNumber) * 86400 + time.secondOfDay

/-! ## Years -/

theorem daysBeforeYear_succ (year : Int) :
    daysBeforeYear (year + 1) = daysBeforeYear year + daysInYear (isLeap year) := by
  unfold daysBeforeYear daysInYear isLeap
  split_ifs with leap
  · have rule := of_decide_eq_true leap
    omega
  · have rule : ¬ (year % 4 = 0 ∧ year % 100 ≠ 0 ∨ year % 400 = 0) := by simpa using leap
    omega

theorem daysBeforeYear_mono {year later : Int} (le : year ≤ later) :
    daysBeforeYear year ≤ daysBeforeYear later := by
  unfold daysBeforeYear
  omega

theorem daysInYear_pos (leap : Bool) : 365 ≤ daysInYear leap ∧ daysInYear leap ≤ 366 := by
  cases leap <;> decide

/-! ## Months -/

theorem daysBeforeMonth_thirteen (leap : Bool) : daysBeforeMonth leap 13 = daysInYear leap := by
  cases leap <;> rfl

theorem daysBeforeMonth_one (leap : Bool) : daysBeforeMonth leap 1 = 0 := by
  cases leap <;> rfl

theorem daysBeforeMonth_mono (leap : Bool) {month later : Nat} (le : month ≤ later) :
    daysBeforeMonth leap month ≤ daysBeforeMonth leap later := by
  induction le with
  | refl => exact Nat.le_refl _
  | step _ ih => exact Nat.le_trans ih (Nat.le_add_right _ _)

theorem daysInMonth_le (leap : Bool) (month : Nat) : daysInMonth leap month ≤ 31 := by
  unfold daysInMonth
  split <;> try split
  all_goals omega

/-! ## Days -/

namespace Date

/-- The position of a date within its year. -/
def dayOfYear (date : Date) : Int :=
  daysBeforeMonth (isLeap date.year) date.month + (date.day - 1 : Int)

theorem Valid.dayOfYear_bounds {date : Date} (valid : date.Valid) :
    0 ≤ date.dayOfYear ∧ date.dayOfYear < daysInYear (isLeap date.year) := by
  have inYear : daysBeforeMonth (isLeap date.year) (date.month + 1) ≤
      daysInYear (isLeap date.year) := by
    rw [← daysBeforeMonth_thirteen]
    exact daysBeforeMonth_mono _ (Nat.succ_le_succ valid.month_le)
  have step : daysBeforeMonth (isLeap date.year) (date.month + 1) =
      daysBeforeMonth (isLeap date.year) date.month +
        daysInMonth (isLeap date.year) date.month := rfl
  have first := valid.day_pos
  have last := valid.day_le
  unfold dayOfYear
  omega

theorem dayNumber_eq (date : Date) :
    date.dayNumber = daysBeforeYear date.year + date.dayOfYear := by
  unfold dayNumber dayOfYear
  omega

/-- The order of the fields. -/
def key (date : Date) : Int ×ₗ Nat ×ₗ Nat :=
  toLex (date.year, toLex (date.month, date.day))

theorem key_injective {left right : Date} (same : left.key = right.key) : left = right := by
  obtain ⟨year, month, day⟩ := left
  obtain ⟨year', month', day'⟩ := right
  simp only [key, EmbeddingLike.apply_eq_iff_eq, Prod.mk.injEq] at same
  obtain ⟨rfl, rfl, rfl⟩ := same
  rfl

theorem dayNumber_strictMono {left right : Date} (valid : left.Valid) (valid' : right.Valid)
    (less : left.key < right.key) : left.dayNumber < right.dayNumber := by
  rw [dayNumber_eq, dayNumber_eq]
  have leftBounds := valid.dayOfYear_bounds
  have rightBounds := valid'.dayOfYear_bounds
  rcases Prod.Lex.toLex_lt_toLex.mp less with earlierYear | ⟨sameYear, earlier⟩
  · have next := daysBeforeYear_succ left.year
    have later : daysBeforeYear (left.year + 1) ≤ daysBeforeYear right.year :=
      daysBeforeYear_mono earlierYear
    omega
  · simp only at sameYear earlier
    have within : left.dayOfYear < right.dayOfYear := by
      unfold dayOfYear
      rw [← sameYear]
      have lastOfLeft := valid.day_le
      have firstOfRight := valid'.day_pos
      have firstOfLeft := valid.day_pos
      rcases Prod.Lex.toLex_lt_toLex.mp earlier with earlierMonth | ⟨sameMonth, earlierDay⟩
      · have next := daysBeforeMonth_mono (isLeap left.year) (Nat.succ_le_of_lt earlierMonth)
        have step : daysBeforeMonth (isLeap left.year) (left.month + 1) =
            daysBeforeMonth (isLeap left.year) left.month +
              daysInMonth (isLeap left.year) left.month := rfl
        simp only [Nat.succ_eq_add_one] at next
        omega
      · simp only at sameMonth earlierDay
        rw [sameMonth]
        omega
    rw [sameYear]
    omega

theorem key_lt_of_dayNumber_lt {left right : Date} (valid : left.Valid) (valid' : right.Valid)
    (less : left.dayNumber < right.dayNumber) : left.key < right.key := by
  rcases lt_trichotomy left.key right.key with before | same | after
  · exact before
  · rw [key_injective same] at less
    exact absurd less (lt_irrefl _)
  · exact absurd (dayNumber_strictMono valid' valid after) (lt_asymm less)

theorem dayNumber_injective {left right : Date} (valid : left.Valid) (valid' : right.Valid)
    (same : left.dayNumber = right.dayNumber) : left = right := by
  rcases lt_trichotomy left.key right.key with before | equal | after
  · exact absurd same (ne_of_lt (dayNumber_strictMono valid valid' before))
  · exact key_injective equal
  · exact absurd same.symm (ne_of_lt (dayNumber_strictMono valid' valid after))

end Date

/-! ## Seconds -/

namespace DateTime

theorem Valid.secondOfDay_lt {time : DateTime} (valid : time.Valid) :
    time.secondOfDay < 86400 := by
  have hour := valid.hour
  have minute := valid.minute
  have second := valid.second
  unfold secondOfDay
  omega

/-- A second lies in one day, at one place. -/
theorem split_unixSeconds {left right : DateTime} (valid : left.Valid) (valid' : right.Valid)
    (same : left.unixSeconds = right.unixSeconds) :
    left.date.dayNumber = right.date.dayNumber ∧ left.secondOfDay = right.secondOfDay := by
  have leftBound := valid.secondOfDay_lt
  have rightBound := valid'.secondOfDay_lt
  unfold unixSeconds at same
  omega

/-- The distance from the epoch determines the date and the time. -/
theorem unixSeconds_injective {left right : DateTime} (valid : left.Valid)
    (valid' : right.Valid) (same : left.unixSeconds = right.unixSeconds) : left = right := by
  obtain ⟨sameDay, sameTime⟩ := split_unixSeconds valid valid' same
  have sameDate := Date.dayNumber_injective valid.date valid'.date sameDay
  obtain ⟨date, hour, minute, second⟩ := left
  obtain ⟨date', hour', minute', second'⟩ := right
  have minuteBound : minute < 60 := valid.minute
  have minuteBound' : minute' < 60 := valid'.minute
  have secondBound : second < 60 := valid.second
  have secondBound' : second' < 60 := valid'.second
  simp only [secondOfDay] at sameTime
  have sameHour : hour = hour' := by omega
  have sameMinute : minute = minute' := by omega
  have sameSecond : second = second' := by omega
  simp only at sameDate
  rw [sameDate, sameHour, sameMinute, sameSecond]

end DateTime

end OpendataIngest.Gregorian
