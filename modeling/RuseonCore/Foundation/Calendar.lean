import Mathlib.Tactic

/-!
# The Gregorian calendar

Days are numbered from 1 January 1970, in both directions.  A day is turned into
a date by counting years from March, so that the leap day is the last day of a
year: eras of 400 years, centuries, cycles of four years, and years are cut off in
turn.
-/

namespace RuseonCore
namespace Calendar

/-- A calendar date. -/
structure Date where
  year : Int
  month : Nat
  day : Nat
  deriving DecidableEq

def isLeap (year : Int) : Bool :=
  year % 4 == 0 && (year % 100 != 0 || year % 400 == 0)

theorem isLeap_iff (year : Int) :
    isLeap year = true ↔ year % 4 = 0 ∧ (year % 100 ≠ 0 ∨ year % 400 = 0) := by
  simp [isLeap]

/-- Number of days of a month. -/
def daysIn (month : Nat) (year : Int) : Nat :=
  match month with
  | 2 => if isLeap year then 29 else 28
  | 4 | 6 | 9 | 11 => 30
  | _ => 31

/-- Days before a month in a year that is not a leap year. -/
def daysBefore (month : Nat) : Nat :=
  [0, 31, 59, 90, 120, 151, 181, 212, 243, 273, 304, 334].getD (month - 1) 365

/-- Days between the start of the year 0 and the start of a year. -/
def daysBeforeYear (year : Int) : Int :=
  365 * year + (year + 3) / 4 - (year + 99) / 100 + (year + 399) / 400

/-- Number of a day.  Days beyond the end of the month count on. -/
def dayNumber (year : Int) (month : Nat) (day : Int) : Int :=
  daysBeforeYear year + daysBefore month +
    (if isLeap year && decide (2 < month) then 1 else 0) + day - 1 - 719528

/-- The date exists. -/
structure Date.Valid (date : Date) : Prop where
  month_pos : 1 ≤ date.month
  month_le : date.month ≤ 12
  day_pos : 1 ≤ date.day
  day_le : date.day ≤ daysIn date.month date.year

/-- Days between 1 March of the year 0 and 1 March of a year. -/
def daysBeforeMarch (year : Int) : Int :=
  365 * year + year / 4 - year / 100 + year / 400

/-- Date of a day of a year that is counted from March. -/
def marchDate (year : Int) (inYear : Nat) : Date :=
  let march := (5 * inYear + 2) / 153
  let day := inYear - (153 * march + 2) / 5 + 1
  if march < 10 then ⟨year, march + 3, day⟩ else ⟨year + 1, march - 9, day⟩

/-- Date of a day. -/
def civil (n : Int) : Date :=
  let days := n + 719468
  let era := days / 146097
  let inEra := days % 146097
  let century := min 3 (inEra / 36524)
  let inCentury := inEra - 36524 * century
  let cycle := inCentury / 1461
  let inCycle := inCentury - 1461 * cycle
  let year := min 3 (inCycle / 365)
  marchDate (400 * era + 100 * century + 4 * cycle + year) (inCycle - 365 * year).toNat

/-- 1 March comes 60 days after 1 January of the same leap year. -/
theorem daysBeforeYear_march (year : Int) :
    daysBeforeYear year + (if isLeap year then 60 else 59) = daysBeforeMarch year + 60 := by
  have leap := isLeap_iff year
  unfold daysBeforeYear daysBeforeMarch
  split
  · rename_i isTrue
    have := leap.mp isTrue
    omega
  · rename_i isFalse
    have := mt leap.mpr isFalse
    omega

/-- 1 January comes 306 days after 1 March of the year before. -/
theorem daysBeforeYear_succ (year : Int) :
    daysBeforeYear (year + 1) = daysBeforeMarch year + 366 := by
  unfold daysBeforeYear daysBeforeMarch
  omega

/-- Months from March on begin after 153 days for every five of them. -/
theorem daysBefore_march
    {march : Nat}
    (early : march < 10) :
    daysBefore (march + 3) = (153 * march + 2) / 5 + 59 := by
  interval_cases march <;> rfl

theorem daysIn_march
    {march : Nat}
    (early : march < 10)
    (year : Int) :
    daysIn (march + 3) year = (153 * march + 155) / 5 - (153 * march + 2) / 5 := by
  interval_cases march <;> rfl

/-- A day of a year from March is numbered accordingly. -/
theorem dayNumber_marchDate
    (year : Int)
    {inYear : Nat}
    (bound : inYear ≤ 365) :
    dayNumber (marchDate year inYear).year (marchDate year inYear).month
      (marchDate year inYear).day = daysBeforeMarch year + inYear - 719468 := by
  unfold marchDate
  dsimp only
  split
  · rename_i early
    have start := daysBeforeYear_march year
    have month := daysBefore_march early
    have later : (isLeap year && decide (2 < (5 * inYear + 2) / 153 + 3)) = isLeap year := by
      simp
    simp only [dayNumber, month, later]
    cases leap : isLeap year with
    | true =>
        simp only [leap, if_true] at start ⊢
        omega
    | false =>
        simp only [leap, Bool.false_eq_true, if_false] at start ⊢
        omega
  · rename_i late
    have start := daysBeforeYear_succ year
    have months : (5 * inYear + 2) / 153 = 10 ∨ (5 * inYear + 2) / 153 = 11 := by omega
    rcases months with january | february
    · have early : (isLeap (year + 1) && decide (2 < 10 - 9)) = false := by simp
      have month : daysBefore (10 - 9) = 0 := rfl
      rw [january]
      simp only [dayNumber, start, early, month, Bool.false_eq_true, if_false]
      omega
    · have early : (isLeap (year + 1) && decide (2 < 11 - 9)) = false := by simp
      have month : daysBefore (11 - 9) = 31 := rfl
      rw [february]
      simp only [dayNumber, start, early, month, Bool.false_eq_true, if_false]
      omega

theorem valid_marchDate
    {year : Int}
    {inYear : Nat}
    (bound : inYear ≤ 365)
    (last : inYear = 365 → isLeap (year + 1) = true) :
    (marchDate year inYear).Valid := by
  unfold marchDate
  dsimp only
  split
  · rename_i early
    have length := daysIn_march early year
    exact ⟨by dsimp only; omega, by dsimp only; omega, by dsimp only; omega,
      by dsimp only; omega⟩
  · rename_i late
    have months : (5 * inYear + 2) / 153 = 10 ∨ (5 * inYear + 2) / 153 = 11 := by omega
    rcases months with january | february
    · refine ⟨by simp [january], by simp [january], by simp, ?_⟩
      simp only [january, daysIn]
      omega
    · refine ⟨by simp [february], by simp [february], by simp, ?_⟩
      simp only [february, daysIn]
      split
      · omega
      · rename_i ordinary
        have := mt last ordinary
        omega

section Cycles

variable {era century cycle year : Int}

/-- Days of eras, centuries, cycles and years. -/
theorem daysBeforeMarch_cycles
    (centuries : 0 ≤ century ∧ century ≤ 3)
    (cycles : 0 ≤ cycle ∧ cycle ≤ 24)
    (years : 0 ≤ year ∧ year ≤ 3) :
    daysBeforeMarch (400 * era + 100 * century + 4 * cycle + year) =
      146097 * era + 36524 * century + 1461 * cycle + 365 * year := by
  have fourth : (400 * era + 100 * century + 4 * cycle + year) / 4 =
      100 * era + 25 * century + cycle := by omega
  have hundredth : (400 * era + 100 * century + 4 * cycle + year) / 100 =
      4 * era + century := by omega
  have last : (400 * era + 100 * century + 4 * cycle + year) / 400 = era := by omega
  rw [daysBeforeMarch, fourth, hundredth, last]
  ring

/-- The last year of a cycle ends with a leap day, unless it also ends a century but no
era. -/
theorem isLeap_cycles
    (cycles : 0 ≤ cycle ∧ cycle ≤ 24)
    (ends : year = 3)
    (leaps : cycle < 24 ∨ century = 3) :
    isLeap (400 * era + 100 * century + 4 * cycle + year + 1) = true := by
  rw [isLeap_iff]
  constructor
  · omega
  · rcases leaps with inside | final
    · left
      omega
    · by_cases inside : cycle < 24
      · left
        omega
      · right
        omega

end Cycles

/-- What `civil` cuts off adds up. -/
theorem civil_eq_marchDate (n : Int) :
    ∃ year inYear, civil n = marchDate year inYear ∧ inYear ≤ 365 ∧
      (inYear = 365 → isLeap (year + 1) = true) ∧
      n = daysBeforeMarch year + inYear - 719468 := by
  obtain ⟨era, eraEq⟩ : ∃ era, era = (n + 719468) / 146097 := ⟨_, rfl⟩
  obtain ⟨inEra, inEraEq⟩ : ∃ inEra, inEra = (n + 719468) % 146097 := ⟨_, rfl⟩
  obtain ⟨century, centuryEq⟩ : ∃ century, century = min 3 (inEra / 36524) := ⟨_, rfl⟩
  obtain ⟨cycle, cycleEq⟩ : ∃ cycle, cycle = (inEra - 36524 * century) / 1461 := ⟨_, rfl⟩
  obtain ⟨inCycle, inCycleEq⟩ : ∃ inCycle, inCycle = inEra - 36524 * century - 1461 * cycle :=
    ⟨_, rfl⟩
  obtain ⟨year, yearEq⟩ : ∃ year, year = min 3 (inCycle / 365) := ⟨_, rfl⟩
  have centuries : 0 ≤ century ∧ century ≤ 3 := by omega
  have cycles : 0 ≤ cycle ∧ cycle ≤ 24 := by omega
  have years : 0 ≤ year ∧ year ≤ 3 := by omega
  have days : 0 ≤ inCycle - 365 * year ∧ inCycle - 365 * year ≤ 365 := by omega
  refine ⟨400 * era + 100 * century + 4 * cycle + year, (inCycle - 365 * year).toNat, ?_, ?_, ?_,
    ?_⟩
  · rw [civil, eraEq, yearEq, inCycleEq, cycleEq, centuryEq, inEraEq]
  · omega
  · intro leapDay
    exact isLeap_cycles cycles (by omega) (by omega)
  · rw [daysBeforeMarch_cycles centuries cycles years]
    omega

theorem dayNumber_civil (n : Int) :
    dayNumber (civil n).year (civil n).month (civil n).day = n := by
  obtain ⟨year, inYear, date, bound, _, number⟩ := civil_eq_marchDate n
  rw [date, dayNumber_marchDate year bound, number]

theorem valid_civil (n : Int) : (civil n).Valid := by
  obtain ⟨year, inYear, date, bound, last, _⟩ := civil_eq_marchDate n
  rw [date]
  exact valid_marchDate bound last

end Calendar
end RuseonCore
