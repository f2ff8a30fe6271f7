import Gazetteer.Time.Instant
import Mathlib.Tactic.IntervalCases

/-!
# The calendar counts days

`Date.ofDays` splits a day into an era, a year within it counted from March, and a day of that year; `Date.days` puts
them together again.  That they are inverse rests on two facts about the parts: a day belongs to the year whose first
day is the last not after it (`firstDay_yearOfDay_le`, `lt_firstDay_yearOfDay`), and the months from March on start by
a linear rule, so that a day of the year and its month and day of the month determine each other.
-/

namespace Gazetteer.Time

set_option autoImplicit false

/-! ## Years of an era -/

/-- The year that a day of an era belongs to. -/
def yearOfDay (day : Int) : Int := (day - day / 1460 + day / 36524 - day / 146096) / 365

/-- The first day of a year of an era. -/
def firstDay (year : Int) : Int := 365 * year + year / 4 - year / 100

theorem yearOfDay_mono {a b : Int} (least : 0 ≤ a) (order : a ≤ b) : yearOfDay a ≤ yearOfDay b := by
  have step (n : Int) (least : 0 ≤ n) : yearOfDay n ≤ yearOfDay (n + 1) := by
    unfold yearOfDay
    omega
  obtain ⟨k, rfl⟩ := Int.le.dest order
  induction k with
  | zero => simp
  | succ k ih =>
    have above := step (a + k) (by omega)
    have below := ih (by omega)
    rw [Int.natCast_succ, ← Int.add_assoc]
    omega

/-- The first and the last day of each of the 400 years. -/
theorem yearOfDay_ends : ∀ year : Fin 400,
    yearOfDay (firstDay year) = year ∧ yearOfDay (firstDay (year + 1) - 1) = year := by
  decide +kernel

theorem yearOfDay_lt {day : Int} (least : 0 ≤ day) (most : day < 146097) :
    0 ≤ yearOfDay day ∧ yearOfDay day < 400 := by
  unfold yearOfDay
  omega

theorem firstDay_yearOfDay_le {day : Int} (least : 0 ≤ day) (most : day < 146097) :
    firstDay (yearOfDay day) ≤ day := by
  obtain ⟨low, high⟩ := yearOfDay_lt least most
  apply Int.not_lt.1
  intro early
  -- then the day is not after the last day of the year before
  obtain first | later := Int.le_iff_lt_or_eq.1 low
  · have ends := (yearOfDay_ends ⟨(yearOfDay day - 1).toNat, by omega⟩).2
    have before := yearOfDay_mono least (Int.le_sub_one_of_lt early)
    have toNat : (((yearOfDay day - 1).toNat : Nat) : Int) = yearOfDay day - 1 := by omega
    simp only [toNat, Int.sub_add_cancel] at ends
    omega
  · rw [← later] at early
    have zero : firstDay 0 = 0 := rfl
    omega

theorem lt_firstDay_yearOfDay {day : Int} (least : 0 ≤ day) (most : day < 146096) :
    day < firstDay (yearOfDay day + 1) := by
  obtain ⟨low, high⟩ := yearOfDay_lt least (by omega)
  apply Int.not_le.1
  intro late
  -- then the day is not before the first day of the year after
  by_cases last : yearOfDay day = 399
  · rw [last, show firstDay (399 + 1) = 146096 from rfl] at late
    omega
  · have ends := (yearOfDay_ends ⟨(yearOfDay day + 1).toNat, by omega⟩).1
    have toNat : (((yearOfDay day + 1).toNat : Nat) : Int) = yearOfDay day + 1 := by omega
    have after := yearOfDay_mono (by simp only [firstDay]; omega) late
    simp only [toNat] at ends
    omega

/-- A year that is a day longer ends in the year of a leap day. -/
theorem firstDay_succ (year : Int) :
    firstDay (year + 1) = firstDay year + 365 ∨
      firstDay (year + 1) = firstDay year + 366 ∧ isLeap (year + 1) = true := by
  simp only [firstDay, isLeap, Bool.and_eq_true, Bool.or_eq_true, decide_eq_true_eq, bne_iff_ne]
  omega

/-! ## Months of a year -/

/-- The date of a day of a year, both counted from March. -/
def ofYearDay (year day : Int) : Date :=
  let march := (5 * day + 2) / 153
  let month := if march < 10 then march + 3 else march - 9
  ⟨year + (if month ≤ 2 then 1 else 0), month.toNat, (day - (153 * march + 2) / 5 + 1).toNat⟩

section Months

variable {year day : Int}

theorem exists_month (low : 0 ≤ day) (high : day ≤ 365) :
    ∃ march : Int, march = (5 * day + 2) / 153 ∧ 0 ≤ march ∧ march ≤ 11 := ⟨_, rfl, by omega, by omega⟩

theorem valid_ofYearDay (low : 0 ≤ day) (high : day < 365 ∨ day = 365 ∧ isLeap (year + 1) = true) :
    (ofYearDay year day).valid = true := by
  obtain ⟨march, month, least, most⟩ := exists_month low (by omega : day ≤ 365)
  simp only [ofYearDay, Date.valid, monthLength, ← month]
  obtain short | ⟨rfl, leap⟩ := high
  · interval_cases march <;> simp <;> (try split) <;> omega
  · obtain rfl : march = 11 := by omega
    simp [leap]

theorem days_ofYearDay (low : 0 ≤ day) (high : day ≤ 365) :
    (ofYearDay year day).days = year / 400 * 146097 + firstDay (year % 400) + day - Date.epoch := by
  obtain ⟨march, month, least, most⟩ := exists_month low high
  simp only [ofYearDay, Date.days, firstDay, ← month]
  interval_cases march <;> simp <;> omega

end Months

/-! ## The two directions -/

/-- A day as an era, a year of it and a day of that year. -/
theorem ofDays_parts (n : Int) : ∃ era year day : Int, 0 ≤ year ∧ year < 400 ∧ 0 ≤ day ∧
    (day < 365 ∨ day = 365 ∧ isLeap (year + 1) = true) ∧
    n + Date.epoch = era * 146097 + firstDay year + day ∧ Date.ofDays n = ofYearDay (year + era * 400) day := by
  have least : 0 ≤ (n + Date.epoch) % 146097 := by omega
  have most : (n + Date.epoch) % 146097 < 146097 := by omega
  obtain ⟨low, high⟩ := yearOfDay_lt least most
  have starts := firstDay_yearOfDay_le least most
  refine ⟨(n + Date.epoch) / 146097, yearOfDay ((n + Date.epoch) % 146097),
    (n + Date.epoch) % 146097 - firstDay (yearOfDay ((n + Date.epoch) % 146097)), low, high, by omega, ?_, by omega,
    rfl⟩
  by_cases last : (n + Date.epoch) % 146097 = 146096
  · rw [last]
    exact .inr ⟨rfl, rfl⟩
  · have ends := lt_firstDay_yearOfDay least (by omega)
    obtain plain | ⟨longer, leap⟩ := firstDay_succ (yearOfDay ((n + Date.epoch) % 146097))
    · exact .inl (by omega)
    · by_cases inside : (n + Date.epoch) % 146097 - firstDay (yearOfDay ((n + Date.epoch) % 146097)) < 365
      · exact .inl inside
      · exact .inr ⟨by omega, leap⟩

theorem isLeap_era (year era : Int) : isLeap (year + era * 400 + 1) = isLeap (year + 1) := by
  have four : (year + era * 400 + 1) % 4 = (year + 1) % 4 := by omega
  have hundred : (year + era * 400 + 1) % 100 = (year + 1) % 100 := by omega
  have whole : (year + era * 400 + 1) % 400 = (year + 1) % 400 := by omega
  rw [isLeap, isLeap, four, hundred, whole]

/-- Every day has a date of the calendar. -/
theorem valid_ofDays (n : Int) : (Date.ofDays n).valid = true := by
  obtain ⟨era, year, day, _, _, low, high, _, date⟩ := ofDays_parts n
  rw [date]
  rw [← isLeap_era year era] at high
  exact valid_ofYearDay low high

/-- The date of a day stands for that day. -/
theorem days_ofDays (n : Int) : (Date.ofDays n).days = n := by
  obtain ⟨era, year, day, least, most, low, high, sum, date⟩ := ofDays_parts n
  have inEra : (year + era * 400) / 400 = era ∧ (year + era * 400) % 400 = year := by omega
  rw [date, days_ofYearDay low (by omega), inEra.1, inEra.2]
  omega

theorem monthLength_le (year : Int) (month : Nat) : monthLength year month ≤ 31 := by
  unfold monthLength
  split
  · split <;> decide
  · split <;> decide

/-- The years of the days of representable times. -/
theorem year_ofDays {n : Int} (least : -96465292 ≤ n) (most : n ≤ 95026236) :
    -262143 ≤ (Date.ofDays n).year ∧ (Date.ofDays n).year ≤ 262142 := by
  obtain ⟨era, year, day, yearLeast, yearMost, low, high, sum, date⟩ := ofDays_parts n
  have epoch : Date.epoch = 719468 := rfl
  rw [date]
  simp only [ofYearDay, firstDay] at sum ⊢
  have early : era < -656 ∨ era = -656 ∨ -656 < era := by omega
  have late : era < 655 ∨ era = 655 ∨ 655 < era := by omega
  constructor
  · rcases early with early | rfl | early <;> split <;> split <;> omega
  · rcases late with late | rfl | late <;> split <;> split <;> omega

end Gazetteer.Time
