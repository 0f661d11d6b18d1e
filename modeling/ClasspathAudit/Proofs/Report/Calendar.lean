import ClasspathAudit.Report.Timestamp
import Mathlib.Tactic

/-!
Days and dates of the Gregorian calendar. Years are counted from March on, in eras of 400 years; within an
era the year of a day is found from the leap days that passed.
-/

namespace ClasspathAudit.Date

/-- A day of an era by its year and its place in that year. Only years that end with a leap day have a
day 365. -/
structure IsDay (dayOfEra yearOfEra : Int) (dayOfYear : Nat) : Prop where
  since : 0 ≤ yearOfEra
  before : yearOfEra < 400
  within : dayOfYear < 365 ∨ dayOfYear = 365 ∧ isLeapYear (yearOfEra + 1) = true
  passed : dayOfEra = 365 * yearOfEra + yearOfEra / 4 - yearOfEra / 100 + dayOfYear

/-- A day of an era lies in a century, in a group of four years there, and in a year of that group. -/
theorem exists_groups {dayOfEra : Int} (low : 0 ≤ dayOfEra) (high : dayOfEra < 146097) :
    ∃ century group year : Int, ∃ dayOfYear : Nat,
      0 ≤ century ∧ century ≤ 3 ∧ 0 ≤ group ∧ group ≤ 24 ∧ 0 ≤ year ∧ year ≤ 3 ∧
        (dayOfYear ≤ 364 ∨ dayOfYear = 365 ∧ year = 3 ∧ (group < 24 ∨ century = 3)) ∧
        dayOfEra = 36524 * century + 1461 * group + 365 * year + dayOfYear := by
  let century := min (dayOfEra / 36524) 3
  let rest := dayOfEra - 36524 * century
  let year := min (rest % 1461 / 365) 3
  refine ⟨century, rest / 1461, year, (rest % 1461 - 365 * year).toNat, ?_⟩
  omega

/-- The year of a day counts the days without the leap days before them. -/
theorem yearOfEra_eq {century group year dayOfEra : Int} {dayOfYear : Nat} (low : 0 ≤ century)
    (high : century ≤ 3) (groupLow : 0 ≤ group) (groupHigh : group ≤ 24) (yearLow : 0 ≤ year)
    (yearHigh : year ≤ 3)
    (within : dayOfYear ≤ 364 ∨ dayOfYear = 365 ∧ year = 3 ∧ (group < 24 ∨ century = 3))
    (passed : dayOfEra = 36524 * century + 1461 * group + 365 * year + dayOfYear) :
    (dayOfEra - dayOfEra / 1460 + dayOfEra / 36524 - dayOfEra / 146096) / 365 =
      100 * century + 4 * group + year := by
  rcases eq_or_ne dayOfEra 146096 with last | inner
  · omega
  · have eras : dayOfEra / 146096 = 0 := by omega
    have centuries : dayOfEra / 36524 = century := by
      rw [Int.ediv_eq_iff_of_pos (by decide)]
      omega
    have leapDays :
        dayOfEra / 1460 = 25 * century + group ∧
            24 * century + group + 365 * year + dayOfYear < 1460 ∨
          dayOfEra / 1460 = 25 * century + group + 1 ∧
            1460 ≤ 24 * century + group + 365 * year + dayOfYear := by
      simp only [Int.ediv_eq_iff_of_pos (show (0 : Int) < 1460 by decide)]
      omega
    rw [eras, centuries, Int.ediv_eq_iff_of_pos (by decide)]
    rcases leapDays with ⟨count, -⟩ | ⟨count, -⟩ <;> rw [count] <;> omega

/-- Every day of an era is a day of the year that the count without leap days finds. -/
theorem exists_isDay {dayOfEra : Int} (low : 0 ≤ dayOfEra) (high : dayOfEra < 146097) :
    ∃ yearOfEra dayOfYear, IsDay dayOfEra yearOfEra dayOfYear ∧
      (dayOfEra - dayOfEra / 1460 + dayOfEra / 36524 - dayOfEra / 146096) / 365 = yearOfEra := by
  obtain ⟨century, group, year, dayOfYear, _, _, _, _, _, _, within, passed⟩ := exists_groups low high
  refine ⟨_, dayOfYear, ⟨by omega, by omega, ?_, by omega⟩,
    yearOfEra_eq ‹_› ‹_› ‹_› ‹_› ‹_› ‹_› within passed⟩
  rcases within with usual | ⟨last, rfl, inner⟩
  · exact .inl (by omega)
  · refine .inr ⟨last, ?_⟩
    have fourth : (100 * century + 4 * group + 3 + 1) % 4 = 0 := by omega
    have leap : (100 * century + 4 * group + 3 + 1) % 100 ≠ 0 ∨
        (100 * century + 4 * group + 3 + 1) % 400 = 0 := by omega
    simpa [isLeapYear, fourth] using leap

theorem IsDay.lt {dayOfEra yearOfEra : Int} {dayOfYear : Nat} (day : IsDay dayOfEra yearOfEra dayOfYear) :
    dayOfYear < 366 := by
  rcases day.within with usual | ⟨last, -⟩ <;> omega

theorem isLeapYear_add (year era : Int) : isLeapYear (year + era * 400) = isLeapYear year := by
  have fourth : (year + era * 400) % 4 = year % 4 := by omega
  have hundredth : (year + era * 400) % 100 = year % 100 := by omega
  rw [isLeapYear, isLeapYear, fourth, hundredth, Int.add_mul_emod_self_right]

/-- The month of a day, counted from March on, and the day in it. -/
def shiftedMonth (dayOfYear : Nat) : Nat := (5 * dayOfYear + 2) / 153

def monthOf (dayOfYear : Nat) : Nat :=
  if shiftedMonth dayOfYear < 10 then shiftedMonth dayOfYear + 3 else shiftedMonth dayOfYear - 9

def dayOf (dayOfYear : Nat) : Nat := dayOfYear - (153 * shiftedMonth dayOfYear + 2) / 5 + 1

theorem monthOf_spec : ∀ dayOfYear < 366,
    (monthOf dayOfYear + 9) % 12 = shiftedMonth dayOfYear ∧ 1 ≤ monthOf dayOfYear ∧
      monthOf dayOfYear ≤ 12 ∧ (153 * shiftedMonth dayOfYear + 2) / 5 ≤ dayOfYear := by
  decide +kernel

/-- Only the last day of the year, counted from March on, is a leap day. -/
theorem dayOf_le : ∀ dayOfYear < 366,
    dayOf dayOfYear ≤ daysInMonth 1 (monthOf dayOfYear) ∨
      dayOfYear = 365 ∧ monthOf dayOfYear = 2 ∧ dayOf dayOfYear = 29 := by
  decide +kernel

theorem daysInMonth_mono (year : Int) (month : Nat) : daysInMonth 1 month ≤ daysInMonth year month := by
  unfold daysInMonth
  split
  · cases isLeapYear year <;> decide
  · exact le_rfl

theorem daysInMonth_le (year : Int) (month : Nat) : daysInMonth year month ≤ 31 := by
  unfold daysInMonth
  split <;> split <;> decide

/-- The date of a day, by the day of its era. -/
theorem ofDays_eq (days : Int) : ∃ yearOfEra dayOfYear,
    IsDay ((days + epochDays) % 146097) yearOfEra dayOfYear ∧
      ofDays days =
        ⟨yearOfEra + (days + epochDays) / 146097 * 400 + (if monthOf dayOfYear ≤ 2 then 1 else 0),
        monthOf dayOfYear, dayOf dayOfYear⟩ := by
  obtain ⟨yearOfEra, dayOfYear, day, year⟩ :=
      exists_isDay (Int.emod_nonneg (days + epochDays) (by decide))
    (Int.emod_lt_of_pos (days + epochDays) (by decide))
  refine ⟨yearOfEra, dayOfYear, day, ?_⟩
  have place :
      (days + epochDays) % 146097 - (365 * yearOfEra + yearOfEra / 4 - yearOfEra / 100) = dayOfYear := by
    have passed := day.passed
    omega
  have month : ((5 * (dayOfYear : Int) + 2) / 153).toNat = shiftedMonth dayOfYear := by
    rw [shiftedMonth]
    omega
  have inMonth :
      ((dayOfYear : Int) - (153 * (shiftedMonth dayOfYear : Int) + 2) / 5 + 1).toNat =
      dayOf dayOfYear := by
    have behind := (monthOf_spec dayOfYear day.lt).2.2.2
    rw [dayOf]
    omega
  simp only [ofDays, year, place, month, inMonth]
  rfl

/-- The date of a day is that of no other. -/
theorem toDays_ofDays (days : Int) : (ofDays days).toDays = days := by
  obtain ⟨yearOfEra, dayOfYear, day, date⟩ := ofDays_eq days
  obtain ⟨month, -, -, behind⟩ := monthOf_spec dayOfYear day.lt
  obtain ⟨since, before, -, passed⟩ := day
  have inYear :
      (153 * (((monthOf dayOfYear : Int) + 9) % 12) + 2) / 5 + (dayOf dayOfYear : Int) - 1 =
      dayOfYear := by
    have shifted : ((monthOf dayOfYear : Int) + 9) % 12 = shiftedMonth dayOfYear := by
      omega
    rw [shifted, dayOf]
    omega
  generalize eras : (days + epochDays) / 146097 = era at date
  have year : (if monthOf dayOfYear ≤ 2 then
      yearOfEra + era * 400 + (if monthOf dayOfYear ≤ 2 then 1 else 0) - 1
      else yearOfEra + era * 400 + (if monthOf dayOfYear ≤ 2 then 1 else 0)) = yearOfEra + era * 400 := by
    split <;> omega
  have count : (yearOfEra + era * 400) / 400 = era := by omega
  have rest : (yearOfEra + era * 400) % 400 = yearOfEra := by omega
  rw [date]
  simp only [toDays, year, count, rest, inYear]
  omega

/-- The date of a day is one of the calendar. -/
theorem ofDays_valid (days : Int) : 1 ≤ (ofDays days).month ∧ (ofDays days).month ≤ 12 ∧
    1 ≤ (ofDays days).day ∧ (ofDays days).day ≤ daysInMonth (ofDays days).year (ofDays days).month := by
  obtain ⟨yearOfEra, dayOfYear, day, date⟩ := ofDays_eq days
  obtain ⟨-, low, high, -⟩ := monthOf_spec dayOfYear day.lt
  rw [date]
  refine ⟨low, high, Nat.le_add_left 1 _, ?_⟩
  rcases dayOf_le dayOfYear day.lt with usual | ⟨last, february, leapDay⟩
  · exact le_trans usual (daysInMonth_mono _ _)
  · rcases day.within with less | ⟨-, leap⟩
    · omega
    · have year : isLeapYear (yearOfEra + (days + epochDays) / 146097 * 400 + 1) = true := by
        rw [add_right_comm, isLeapYear_add, leap]
      simp [february, leapDay, daysInMonth, year]

/-- A number that dates are compared by: no month has more than 31 days, and no year more than 15
months. -/
def rank (d : Date) : Int := d.year * 512 + d.month * 32 + d.day

/-- What a day of a year counted from March on adds to the rank of its year. -/
def dayRank (dayOfYear : Nat) : Nat :=
  (if monthOf dayOfYear ≤ 2 then 512 else 0) + monthOf dayOfYear * 32 + dayOf dayOfYear

theorem dayRank_succ : ∀ dayOfYear < 365, dayRank dayOfYear < dayRank (dayOfYear + 1) := by
  decide +kernel

/-- The last day of a year counted from March on is below the first day of the next one. -/
theorem dayRank_bounds : ∀ dayOfYear < 366, 97 ≤ dayRank dayOfYear ∧ dayRank dayOfYear < 609 := by
  decide +kernel

theorem dayRank_lt {first second : Nat} (below : first < second) (inside : second < 366) :
    dayRank first < dayRank second := by
  induction second with
  | zero => exact absurd below (Nat.not_lt_zero first)
  | succ second ih =>
    have step := dayRank_succ second (by omega)
    rcases Nat.lt_succ_iff_lt_or_eq.mp below with earlier | rfl
    · exact (ih earlier (by omega)).trans step
    · exact step

/-- The days before a year counted from March on. -/
def daysBefore (year : Int) : Int := 365 * year + year / 4 - year / 100 + year / 400

/-- A later year begins after all days of this one. -/
theorem daysBefore_lt {year later : Int} {dayOfYear : Nat} (below : year < later)
    (within : dayOfYear < 365 ∨ dayOfYear = 365 ∧ isLeapYear (year + 1) = true) :
    daysBefore year + dayOfYear < daysBefore later := by
  have leapDay : dayOfYear < 365 ∨ dayOfYear = 365 ∧ (year + 1) % 4 = 0 ∧
      ((year + 1) % 100 ≠ 0 ∨ (year + 1) % 400 = 0) := by
    simpa [isLeapYear] using within
  unfold daysBefore
  omega

/-- A day by its year, counted from March on, and its place in that year. -/
theorem exists_rank (days : Int) : ∃ (year : Int) (dayOfYear : Nat),
    days + epochDays = daysBefore year + dayOfYear ∧ dayOfYear < 366 ∧
    (dayOfYear < 365 ∨ dayOfYear = 365 ∧ isLeapYear (year + 1) = true) ∧
    rank (ofDays days) = year * 512 + dayRank dayOfYear := by
  obtain ⟨yearOfEra, dayOfYear, day, date⟩ := ofDays_eq days
  refine ⟨yearOfEra + (days + epochDays) / 146097 * 400, dayOfYear, ?_, day.lt, ?_, ?_⟩
  · obtain ⟨since, before, -, passed⟩ := day
    unfold daysBefore
    omega
  · rw [add_right_comm, isLeapYear_add]
    exact day.within
  · rw [date, rank, dayRank]
    split <;> push_cast <;> ring

/-- A later day has a later date. -/
theorem rank_ofDays_lt {first second : Int} (below : first < second) :
    rank (ofDays first) < rank (ofDays second) := by
  obtain ⟨year, day, passed, inside, within, order⟩ := exists_rank first
  obtain ⟨year', day', passed', inside', within', order'⟩ := exists_rank second
  have bounds := dayRank_bounds day inside
  have bounds' := dayRank_bounds day' inside'
  rw [order, order']
  rcases lt_trichotomy year year' with earlier | rfl | later
  · omega
  · have days := dayRank_lt (show day < day' by omega) inside'
    omega
  · have contradiction := daysBefore_lt later within'
    omega

end ClasspathAudit.Date
