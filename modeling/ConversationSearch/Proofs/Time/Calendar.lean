import Mathlib.Tactic.IntervalCases
import ConversationSearch.Time.Calendar

/-!
# Days and their dates

The date of a day is a day of the calendar, and its number is that of the day. Four hundred years
are taken apart into centuries, spans of four years and the days that are left; in these parts the
year and the day of the year are linear.
-/

namespace ConversationSearch.Time.Date

/-! ## The years of a cycle -/

/-- The year that a day of the cycle falls in, counted from the start of the cycle. -/
def yearOf (day : Int) : Int :=
  (day - day / 1460 + day / 36524 - day / 146096) / 365

/-- The day of the year on which a day of the cycle falls. -/
def dayOf (day : Int) : Int :=
  day - (365 * yearOf day + yearOf day / 4 - yearOf day / 100)

/-- A day of the cycle, taken apart: centuries, spans of four years, years and days. The span at
the end of a century is a day shorter, except in the last one. -/
structure Parts (day : Int) where
  century : Int
  span : Int
  year : Int
  rest : Int
  day_eq : day = 36524 * century + 1461 * span + 365 * year + rest
  century_le : 0 ≤ century ∧ century ≤ 3
  span_le : 0 ≤ span ∧ span ≤ 24
  year_le : 0 ≤ year ∧ year ≤ 3
  rest_le : 0 ≤ rest ∧ rest ≤ 365
  leap : rest = 365 → year = 3 ∧ (span = 24 → century = 3)

theorem exists_parts {day : Int} (hday : 0 ≤ day ∧ day < daysInCycle) :
    Nonempty (Parts day) := by
  have hcycle : daysInCycle = 146097 := rfl
  -- the last day of the cycle and of a long span would start a part that is not there
  obtain ⟨century, hcentury⟩ : ∃ c, c = if day = 146096 then 3 else day / 36524 := ⟨_, rfl⟩
  obtain ⟨inCentury, hinCentury⟩ : ∃ d, d = day - 36524 * century := ⟨_, rfl⟩
  obtain ⟨inSpan, hinSpan⟩ : ∃ d, d = inCentury - 1461 * (inCentury / 1461) := ⟨_, rfl⟩
  obtain ⟨year, hyear⟩ : ∃ y, y = if inSpan = 1460 then 3 else inSpan / 365 := ⟨_, rfl⟩
  have hcenturyBounds : 0 ≤ inCentury ∧ inCentury ≤ 36524 ∧ 0 ≤ century ∧ century ≤ 3 ∧
      (inCentury = 36524 → century = 3) := by
    split at hcentury <;> omega
  have hyearBounds : 0 ≤ year ∧ year ≤ 3 ∧ 0 ≤ inSpan - 365 * year ∧
      inSpan - 365 * year ≤ 365 ∧ (inSpan - 365 * year = 365 → inSpan = 1460 ∧ year = 3) := by
    split at hyear <;> omega
  exact ⟨{
    century := century
    span := inCentury / 1461
    year := year
    rest := inSpan - 365 * year
    day_eq := by omega
    century_le := by omega
    span_le := by omega
    year_le := by omega
    rest_le := by omega
    leap := by omega }⟩

namespace Parts

variable {day : Int} (p : Parts day)

theorem inCentury_le :
    1461 * p.span + 365 * p.year + p.rest ≤ 36523 ∨
      1461 * p.span + 365 * p.year + p.rest = 36524 ∧ p.century = 3 := by
  have hspan := p.span_le
  have hyear := p.year_le
  have hrest := p.rest_le
  have hleap := p.leap
  by_cases hlast : p.rest = 365
  · obtain ⟨hyear, hcentury⟩ := hleap hlast
    by_cases hend : p.span = 24
    · have := hcentury hend
      omega
    · omega
  · omega

/-- The centuries, counted without the day that ends the cycle. -/
theorem centuries_eq :
    day / 36524 - day / 146096 = p.century := by
  have hday := p.day_eq
  have hcentury := p.century_le
  have hspan := p.span_le
  have hyear := p.year_le
  have hrest := p.rest_le
  rcases p.inCentury_le with hin | ⟨hin, hlast⟩
  · have hcenturies : day / 36524 = p.century := by omega
    have hcycle : day / 146096 = 0 := by omega
    omega
  · have hcenturies : day / 36524 = 4 := by omega
    have hcycle : day / 146096 = 1 := by omega
    omega

/-- The spans of four years, of which one more is counted near the end of the last year. -/
theorem spans_eq :
    day / 1460 = 25 * p.century + p.span ∧ p.rest ≤ 364 ∨
      day / 1460 = 25 * p.century + p.span + 1 ∧ p.year = 3 ∧ 1 ≤ p.rest := by
  have hday := p.day_eq
  have hcentury := p.century_le
  have hspan := p.span_le
  have hyear := p.year_le
  have hrest := p.rest_le
  have hleap := p.leap
  by_cases hearly : 24 * p.century + p.span + 365 * p.year + p.rest < 1460
  · exact .inl ⟨by omega, by omega⟩
  · exact .inr ⟨by omega, by omega, by omega⟩

theorem yearOf_eq :
    yearOf day = 100 * p.century + 4 * p.span + p.year := by
  have hday := p.day_eq
  have hyear := p.year_le
  have hrest := p.rest_le
  have hcenturies := p.centuries_eq
  unfold yearOf
  rcases p.spans_eq with ⟨hspans, hearly⟩ | ⟨hspans, hlast, hlate⟩
  · have hdays : day - day / 1460 + day / 36524 - day / 146096 =
        365 * (100 * p.century + 4 * p.span + p.year) + p.rest := by
      omega
    rw [hdays]
    omega
  · have hdays : day - day / 1460 + day / 36524 - day / 146096 =
        365 * (100 * p.century + 4 * p.span + p.year) + (p.rest - 1) := by
      omega
    rw [hdays]
    omega

theorem dayOf_eq :
    dayOf day = p.rest := by
  have hday := p.day_eq
  have hspan := p.span_le
  have hyear := p.year_le
  unfold dayOf
  rw [p.yearOf_eq]
  have hspans : (100 * p.century + 4 * p.span + p.year) / 4 = 25 * p.century + p.span := by omega
  have hcenturies : (100 * p.century + 4 * p.span + p.year) / 100 = p.century := by omega
  omega

end Parts

/-! ## Dates of days -/

/-- The day of the cycle on which a day falls. -/
def cycleDay (n : Int) : Int :=
  (n + daysToEpoch) % daysInCycle

theorem cycleDay_bounds (n : Int) :
    0 ≤ cycleDay n ∧ cycleDay n < daysInCycle := by
  unfold cycleDay daysInCycle
  omega

/-- The month of a day of the year, counted from March. -/
def monthOf (dayOfYear : Int) : Int :=
  (5 * dayOfYear + 2) / 153

/-- The year of a day, counted from March. -/
def marchYear (n : Int) : Int :=
  yearOf (cycleDay n) + (n + daysToEpoch) / daysInCycle * 400

theorem dayOf_cycleDay_bounds (n : Int) :
    0 ≤ dayOf (cycleDay n) ∧ dayOf (cycleDay n) ≤ 365 := by
  obtain ⟨p⟩ := exists_parts (cycleDay_bounds n)
  rw [p.dayOf_eq]
  exact p.rest_le

theorem isLeapYear_iff (year : Int) :
    isLeapYear year = true ↔ year % 4 = 0 ∧ (year % 100 ≠ 0 ∨ year % 400 = 0) := by
  simp [isLeapYear]

/-- A year of 366 days ends with the twenty-ninth of February. -/
theorem isLeapYear_of_dayOf {n : Int} (hlast : dayOf (cycleDay n) = 365) :
    isLeapYear (marchYear n + 1) = true := by
  obtain ⟨p⟩ := exists_parts (cycleDay_bounds n)
  rw [p.dayOf_eq] at hlast
  obtain ⟨hyear, hcentury⟩ := p.leap hlast
  have hspan := p.span_le
  rw [isLeapYear_iff, marchYear, p.yearOf_eq]
  by_cases hend : p.span = 24
  · have := hcentury hend
    omega
  · omega

/-- The date of a day: its month counted from March, and its day of the month. -/
theorem ofDays_cases (n : Int) :
    ∃ m day : Nat, m < 12 ∧
      (day : Int) = dayOf (cycleDay n) - (153 * m + 2) / 5 + 1 ∧
      1 ≤ day ∧ day ≤ 31 ∧
      (m = 1 ∨ m = 3 ∨ m = 6 ∨ m = 8 → day ≤ 30) ∧
      (m = 11 → day ≤ 29 ∧ (day = 29 → dayOf (cycleDay n) = 365)) ∧
      ofDays n = if m < 10 then ⟨marchYear n, m + 3, day⟩ else ⟨marchYear n + 1, m - 9, day⟩ := by
  have hbounds := dayOf_cycleDay_bounds n
  have hdate : ofDays n =
      if monthOf (dayOf (cycleDay n)) < 10 then
        ⟨marchYear n, (monthOf (dayOf (cycleDay n)) + 3).toNat,
          (dayOf (cycleDay n) - (153 * monthOf (dayOf (cycleDay n)) + 2) / 5 + 1).toNat⟩
      else
        ⟨marchYear n + 1, (monthOf (dayOf (cycleDay n)) - 9).toNat,
          (dayOf (cycleDay n) - (153 * monthOf (dayOf (cycleDay n)) + 2) / 5 + 1).toNat⟩ :=
    rfl
  rw [hdate]
  generalize dayOf (cycleDay n) = d at hbounds ⊢
  have hmonth : 0 ≤ monthOf d ∧ monthOf d < 12 ∧ 0 ≤ d - (153 * monthOf d + 2) / 5 ∧
      d - (153 * monthOf d + 2) / 5 < 31 := by
    unfold monthOf
    omega
  obtain ⟨m, hm⟩ := Int.eq_ofNat_of_zero_le hmonth.1
  have hmonthOf : (m : Int) = (5 * d + 2) / 153 := hm.symm
  rw [hm] at hmonth ⊢
  refine ⟨m, (d - (153 * (m : Int) + 2) / 5 + 1).toNat, by omega, by omega, by omega, by omega,
    by omega, by omega, ?_⟩
  by_cases hearly : m < 10
  · have hmonthNat : ((m : Int) + 3).toNat = m + 3 := by omega
    rw [if_pos hearly, if_pos (by omega), hmonthNat]
  · have hmonthNat : ((m : Int) - 9).toNat = m - 9 := by omega
    rw [if_neg hearly, if_neg (by omega), hmonthNat]

theorem isReal_iff (d : Date) :
    d.isReal = true ↔ 1 ≤ d.day ∧ d.day ≤ daysInMonth d.year d.month := by
  simp [isReal]

/-- The date of a day is a day of the calendar. -/
theorem isReal_ofDays (n : Int) :
    (ofDays n).isReal = true := by
  obtain ⟨m, day, hm, -, hlow, hhigh, hshort, hfebruary, hdate⟩ := ofDays_cases n
  rw [hdate, isReal_iff]
  by_cases hlast : m = 11
  · obtain ⟨hday, hend⟩ := hfebruary hlast
    subst hlast
    simp only [Nat.reduceLT, if_false, Nat.reduceSub, daysInMonth]
    split
    · omega
    · next hplain =>
      have hne : day ≠ 29 := fun h => hplain (isLeapYear_of_dayOf (hend h))
      omega
  · interval_cases m <;> simp [daysInMonth] <;> omega

theorem month_ofDays (n : Int) :
    1 ≤ (ofDays n).month ∧ (ofDays n).month ≤ 12 := by
  obtain ⟨m, day, hm, -, -, -, -, -, hdate⟩ := ofDays_cases n
  rw [hdate]
  by_cases hearly : m < 10
  · rw [if_pos hearly]
    change 1 ≤ m + 3 ∧ m + 3 ≤ 12
    omega
  · rw [if_neg hearly]
    change 1 ≤ m - 9 ∧ m - 9 ≤ 12
    omega

theorem day_ofDays (n : Int) :
    1 ≤ (ofDays n).day ∧ (ofDays n).day ≤ 31 := by
  obtain ⟨m, day, -, -, hlow, hhigh, -, -, hdate⟩ := ofDays_cases n
  rw [hdate]
  by_cases hearly : m < 10
  · rw [if_pos hearly]
    exact ⟨hlow, hhigh⟩
  · rw [if_neg hearly]
    exact ⟨hlow, hhigh⟩

/-- The number of a day, by its year and month counted from March. -/
theorem toDays_eq {d : Date} {y m : Int} (hy : (if d.month ≤ 2 then d.year - 1 else d.year) = y)
    (hm : ((d.month : Int) + 9) % 12 = m) :
    d.toDays = y / 400 * daysInCycle +
      (y % 400 * 365 + y % 400 / 4 - y % 400 / 100 + ((153 * m + 2) / 5 + d.day - 1)) -
      daysToEpoch := by
  subst hy hm
  rfl

/-- The number of the date of a day is the day. -/
theorem toDays_ofDays (n : Int) :
    (ofDays n).toDays = n := by
  obtain ⟨m, day, hm, hday, -, -, -, -, hdate⟩ := ofDays_cases n
  have hdayOf : dayOf (cycleDay n) = cycleDay n -
      (365 * yearOf (cycleDay n) + yearOf (cycleDay n) / 4 - yearOf (cycleDay n) / 100) := rfl
  have hcycle : cycleDay n = (n + daysToEpoch) % daysInCycle := rfl
  have hyear : marchYear n / 400 = (n + daysToEpoch) / daysInCycle ∧
      marchYear n % 400 = yearOf (cycleDay n) := by
    obtain ⟨p⟩ := exists_parts (cycleDay_bounds n)
    have hyear := p.yearOf_eq
    have hcentury := p.century_le
    have hspan := p.span_le
    have hyearBounds := p.year_le
    unfold marchYear
    omega
  have hparts : (if (ofDays n).month ≤ 2 then (ofDays n).year - 1 else (ofDays n).year) =
        marchYear n ∧ (((ofDays n).month : Int) + 9) % 12 = m ∧ (ofDays n).day = day := by
    rw [hdate]
    by_cases hearly : m < 10
    · rw [if_pos hearly]
      refine ⟨if_neg ?_, ?_, rfl⟩ <;> dsimp only <;> omega
    · rw [if_neg hearly]
      refine ⟨?_, ?_, rfl⟩
      · rw [if_pos (by dsimp only; omega)]
        exact Int.add_sub_cancel _ _
      · dsimp only
        omega
  obtain ⟨hmarch, hmonth, hdayOfMonth⟩ := hparts
  rw [toDays_eq hmarch hmonth, hyear.1, hyear.2, hdayOfMonth, hday, hdayOf, hcycle]
  unfold daysInCycle
  omega

end ConversationSearch.Time.Date
