import ConversationSearch.Proofs.Time.Calendar

/-!
# Counting days

The numbers of days go up by one from each day of the calendar to the next, across the ends of
months and years. Different days have different numbers, so a day of the calendar is the date of its
number, and the years begin at the numbers of their first days.
-/

namespace ConversationSearch.Time.Date

/-- The day after a day. -/
def next (d : Date) : Date :=
  if d.day < daysInMonth d.year d.month then ⟨d.year, d.month, d.day + 1⟩
  else if d.month < 12 then ⟨d.year, d.month + 1, 1⟩
  else ⟨d.year + 1, 1, 1⟩

/-! ## Years that start with March -/

/-- The days of the years before one, counted from March of the year zero. -/
def daysBefore (year : Int) : Int :=
  365 * year + year / 4 - year / 100 + year / 400

theorem daysBefore_eq (year : Int) :
    daysBefore year =
      year / 400 * daysInCycle + (year % 400 * 365 + year % 400 / 4 - year % 400 / 100) := by
  unfold daysBefore daysInCycle
  omega

theorem daysBefore_succ (year : Int) :
    daysBefore (year + 1) = daysBefore year + if isLeapYear (year + 1) then 366 else 365 := by
  have hleap := isLeapYear_iff (year + 1)
  unfold daysBefore
  split
  · next h =>
    have := hleap.mp h
    omega
  · next h =>
    have := mt hleap.mpr h
    omega

theorem daysBefore_mono {a b : Int} (h : a ≤ b) :
    daysBefore a ≤ daysBefore b := by
  unfold daysBefore
  omega

/-- The days of a year that starts with March before its month with the given place. -/
def daysBeforeMonth (place : Int) : Int :=
  (153 * place + 2) / 5

section

variable (d : Date)

/-- The year of a day, counted from March. -/
def yearFromMarch : Int :=
  if d.month ≤ 2 then d.year - 1 else d.year

/-- The place of the month in that year. -/
def placeFromMarch : Int :=
  ((d.month : Int) + 9) % 12

/-- The days of that year before the day. -/
def dayFromMarch : Int :=
  daysBeforeMonth d.placeFromMarch + d.day - 1

theorem toDays_eq_daysBefore :
    d.toDays = daysBefore d.yearFromMarch + d.dayFromMarch - daysToEpoch := by
  rw [toDays_eq rfl rfl, daysBefore_eq, Int.add_assoc]
  rfl

end

/-- The months have the lengths by which the days before them grow, except for February, which ends
the year. -/
theorem daysInMonth_eq (year : Int) {month : Nat} (hlow : 1 ≤ month) (hhigh : month ≤ 12) :
    (daysInMonth year month : Int) =
      if month = 2 then (if isLeapYear year then 29 else 28)
      else daysBeforeMonth (((month : Int) + 9) % 12 + 1) -
        daysBeforeMonth (((month : Int) + 9) % 12) := by
  by_cases hfebruary : month = 2
  · subst hfebruary
    rw [if_pos rfl, daysInMonth]
    split <;> rfl
  · rw [if_neg hfebruary]
    obtain rfl | hlate : month = 1 ∨ 3 ≤ month := by omega
    · rfl
    · interval_cases month <;> rfl

theorem daysInMonth_le (year : Int) (month : Nat) :
    daysInMonth year month ≤ 31 := by
  fun_cases daysInMonth year month <;> grind

section

variable {d : Date} (hd : d.isReal = true)
include hd

theorem month_of_isReal :
    1 ≤ d.month ∧ d.month ≤ 12 := by
  obtain ⟨hlow, hhigh⟩ := (isReal_iff d).mp hd
  unfold daysInMonth at hhigh
  split at hhigh <;> omega

theorem day_le_of_isReal :
    d.day ≤ 31 := by
  obtain ⟨-, hhigh⟩ := (isReal_iff d).mp hd
  exact Nat.le_trans hhigh (daysInMonth_le d.year d.month)

theorem day_of_isReal :
    1 ≤ (d.day : Int) ∧ (d.day : Int) ≤
      if d.month = 2 then (if isLeapYear d.year then 29 else 28)
      else daysBeforeMonth (d.placeFromMarch + 1) - daysBeforeMonth d.placeFromMarch := by
  obtain ⟨hlow, hhigh⟩ := (isReal_iff d).mp hd
  obtain ⟨hfirst, hlast⟩ := month_of_isReal hd
  have hlength := daysInMonth_eq d.year hfirst hlast
  unfold placeFromMarch
  rw [← hlength]
  omega

/-- A day lies in its month. -/
theorem dayFromMarch_in_month :
    daysBeforeMonth d.placeFromMarch ≤ d.dayFromMarch ∧
      d.dayFromMarch < daysBeforeMonth (d.placeFromMarch + 1) := by
  obtain ⟨hlow, hhigh⟩ := day_of_isReal hd
  unfold dayFromMarch
  by_cases hfebruary : d.month = 2
  · have hplace : d.placeFromMarch = 11 := by
      rw [placeFromMarch, hfebruary]
      rfl
    have hdays : daysBeforeMonth 11 = 337 ∧ daysBeforeMonth (11 + 1) = 367 := ⟨rfl, rfl⟩
    rw [if_pos hfebruary] at hhigh
    rw [hplace]
    split at hhigh <;> omega
  · rw [if_neg hfebruary] at hhigh
    omega

/-- A day lies in its year. -/
theorem dayFromMarch_in_year :
    0 ≤ d.dayFromMarch ∧
      daysBefore d.yearFromMarch + d.dayFromMarch < daysBefore (d.yearFromMarch + 1) := by
  obtain ⟨hlow, hhigh⟩ := day_of_isReal hd
  obtain ⟨hstart, hend⟩ := dayFromMarch_in_month hd
  have hmonth := month_of_isReal hd
  have hnext := daysBefore_succ d.yearFromMarch
  have hplace : d.placeFromMarch = ((d.month : Int) + 9) % 12 := rfl
  have hnonneg : 0 ≤ daysBeforeMonth d.placeFromMarch := by
    unfold daysBeforeMonth
    omega
  refine ⟨by omega, ?_⟩
  by_cases hfebruary : d.month = 2
  · have hyear : d.yearFromMarch + 1 = d.year := by
      unfold yearFromMarch
      rw [if_pos (by omega)]
      omega
    have hday : d.dayFromMarch = 337 + d.day - 1 := by
      rw [dayFromMarch, placeFromMarch, hfebruary]
      rfl
    rw [if_pos hfebruary] at hhigh
    rw [hyear] at hnext ⊢
    by_cases hleap : isLeapYear d.year = true
    · rw [if_pos hleap] at hhigh hnext
      omega
    · rw [if_neg hleap] at hhigh hnext
      omega
  · have hbefore : d.placeFromMarch ≤ 10 := by omega
    have hearly : daysBeforeMonth (d.placeFromMarch + 1) ≤ 337 := by
      unfold daysBeforeMonth
      omega
    have hshort : daysBefore d.yearFromMarch + 365 ≤ daysBefore (d.yearFromMarch + 1) := by
      rw [hnext]
      split <;> omega
    omega

end

/-! ## The next day -/

theorem isReal_first (year : Int) {month : Nat} (hlow : 1 ≤ month) (hhigh : month ≤ 12) :
    isReal ⟨year, month, 1⟩ = true := by
  have hlength := daysInMonth_eq year hlow hhigh
  have hpos : 1 ≤ daysInMonth year month := by
    unfold daysBeforeMonth at hlength
    split at hlength
    · split at hlength <;> omega
    · omega
  exact (isReal_iff _).mpr ⟨Nat.le_refl 1, hpos⟩

theorem dayFromMarch_eq (year : Int) (month day : Nat) :
    dayFromMarch ⟨year, month, day⟩ = (153 * (((month : Int) + 9) % 12) + 2) / 5 + day - 1 :=
  rfl

/-- Within a month the days of the year go up by one. -/
theorem toDays_succ (year : Int) (month day : Nat) :
    toDays ⟨year, month, day + 1⟩ = toDays ⟨year, month, day⟩ + 1 := by
  rw [toDays_eq_daysBefore, toDays_eq_daysBefore]
  unfold dayFromMarch yearFromMarch placeFromMarch
  dsimp only
  omega

/-- The first of March comes after the last day of February. -/
theorem toDays_first_of_march {year : Int} {day : Nat} (hday : day = daysInMonth year 2) :
    toDays ⟨year, 3, 1⟩ = toDays ⟨year, 2, day⟩ + 1 := by
  have hyear := daysBefore_succ (year - 1)
  rw [Int.sub_add_cancel] at hyear
  have hthis : yearFromMarch ⟨year, 3, 1⟩ = year := rfl
  have hlast : yearFromMarch ⟨year, 2, day⟩ = year - 1 := rfl
  have hfirstDay := dayFromMarch_eq year 3 1
  have hlastDay := dayFromMarch_eq year 2 day
  have hlength : daysInMonth year 2 = if isLeapYear year then 29 else 28 := rfl
  rw [toDays_eq_daysBefore, toDays_eq_daysBefore, hthis, hlast]
  rw [hlength] at hday
  by_cases hleap : isLeapYear year = true
  · rw [if_pos hleap] at hday hyear
    omega
  · rw [if_neg hleap] at hday hyear
    omega

/-- The first of another month comes after the last day of the month before. -/
theorem toDays_first_of_month {year : Int} {month day : Nat} (hlow : 1 ≤ month) (hhigh : month < 12)
    (hmonth : month ≠ 2) (hday : day = daysInMonth year month) :
    toDays ⟨year, month + 1, 1⟩ = toDays ⟨year, month, day⟩ + 1 := by
  have hlength := daysInMonth_eq year hlow (Nat.le_of_lt hhigh)
  rw [if_neg hmonth, ← hday] at hlength
  have hyear : yearFromMarch ⟨year, month + 1, 1⟩ = yearFromMarch ⟨year, month, day⟩ := by
    unfold yearFromMarch
    dsimp only
    split <;> split <;> omega
  have hplace : placeFromMarch ⟨year, month + 1, 1⟩ = placeFromMarch ⟨year, month, day⟩ + 1 := by
    unfold placeFromMarch
    dsimp only
    omega
  have hthis : placeFromMarch ⟨year, month, day⟩ = ((month : Int) + 9) % 12 := rfl
  rw [toDays_eq_daysBefore, toDays_eq_daysBefore, hyear, dayFromMarch, dayFromMarch, hplace, hthis]
  dsimp only
  omega

/-- The first of January comes after the last day of December. -/
theorem toDays_first_of_january (year : Int) :
    toDays ⟨year + 1, 1, 1⟩ = toDays ⟨year, 12, 31⟩ + 1 := by
  have hyear : yearFromMarch ⟨year + 1, 1, 1⟩ = yearFromMarch ⟨year, 12, 31⟩ :=
    Int.add_sub_cancel year 1
  rw [toDays_eq_daysBefore, toDays_eq_daysBefore, hyear]
  have hfirst := dayFromMarch_eq (year + 1) 1 1
  have hlast := dayFromMarch_eq year 12 31
  omega

/-- The day after a day of the calendar is one, and its number is one more. -/
theorem toDays_next {d : Date} (hd : d.isReal = true) :
    d.next.isReal = true ∧ d.next.toDays = d.toDays + 1 := by
  obtain ⟨hlow, hhigh⟩ := (isReal_iff d).mp hd
  obtain ⟨hfirst, hlast⟩ := month_of_isReal hd
  obtain ⟨year, month, day⟩ := d
  dsimp only at hlow hhigh hfirst hlast
  by_cases hmonth : day < daysInMonth year month
  · have hnext : next ⟨year, month, day⟩ = ⟨year, month, day + 1⟩ := if_pos hmonth
    rw [hnext]
    exact ⟨(isReal_iff _).mpr ⟨Nat.succ_pos _, hmonth⟩, toDays_succ year month day⟩
  · have hday : day = daysInMonth year month := by omega
    by_cases hyear : month < 12
    · have hnext : next ⟨year, month, day⟩ = ⟨year, month + 1, 1⟩ :=
        (if_neg hmonth).trans (if_pos hyear)
      rw [hnext]
      refine ⟨isReal_first year (by omega) hyear, ?_⟩
      by_cases hfebruary : month = 2
      · subst hfebruary
        exact toDays_first_of_march hday
      · exact toDays_first_of_month hfirst hyear hfebruary hday
    · obtain rfl : month = 12 := by omega
      have hnext : next ⟨year, 12, day⟩ = ⟨year + 1, 1, 1⟩ := (if_neg hmonth).trans (if_neg hyear)
      rw [hnext, hday]
      exact ⟨isReal_first (year + 1) (by decide) (by decide), toDays_first_of_january year⟩

/-! ## Days and numbers -/

/-- A day lies in one year only. -/
theorem year_eq_of_daysBefore_add {a b da db : Int} (h : daysBefore a + da = daysBefore b + db)
    (hda : 0 ≤ da ∧ daysBefore a + da < daysBefore (a + 1))
    (hdb : 0 ≤ db ∧ daysBefore b + db < daysBefore (b + 1)) :
    a = b := by
  rcases Int.lt_trichotomy a b with hlt | heq | hlt
  · have := daysBefore_mono (show a + 1 ≤ b from hlt)
    omega
  · exact heq
  · have := daysBefore_mono (show b + 1 ≤ a from hlt)
    omega

/-- Different days of the calendar have different numbers. -/
theorem toDays_inj {d e : Date} (hd : d.isReal = true) (he : e.isReal = true)
    (h : d.toDays = e.toDays) :
    d = e := by
  rw [toDays_eq_daysBefore, toDays_eq_daysBefore] at h
  have hyear : d.yearFromMarch = e.yearFromMarch :=
    year_eq_of_daysBefore_add (by omega) (dayFromMarch_in_year hd) (dayFromMarch_in_year he)
  have hday : d.dayFromMarch = e.dayFromMarch := by
    rw [hyear] at h
    omega
  have hplace : d.placeFromMarch = e.placeFromMarch := by
    have hinD := dayFromMarch_in_month hd
    have hinE := dayFromMarch_in_month he
    rw [hday] at hinD
    unfold daysBeforeMonth at hinD hinE
    omega
  have hmonthD := month_of_isReal hd
  have hmonthE := month_of_isReal he
  obtain ⟨yearD, monthD, dayD⟩ := d
  obtain ⟨yearE, monthE, dayE⟩ := e
  obtain rfl : monthD = monthE := by
    unfold placeFromMarch at hplace
    dsimp only at *
    omega
  obtain rfl : dayD = dayE := by
    unfold dayFromMarch at hday
    rw [hplace] at hday
    dsimp only at hday
    omega
  obtain rfl : yearD = yearE := by
    unfold yearFromMarch at hyear
    dsimp only at hyear
    split at hyear <;> omega
  rfl

/-- A day of the calendar is the date of its number. -/
theorem ofDays_toDays {d : Date} (hd : d.isReal = true) :
    ofDays d.toDays = d :=
  toDays_inj (isReal_ofDays _) hd (toDays_ofDays _)

/-! ## Years -/

/-- The number of the first day of a year. -/
def newYear (year : Int) : Int :=
  toDays ⟨year, 1, 1⟩

theorem newYear_eq (year : Int) :
    newYear year = daysBefore (year - 1) + 306 - daysToEpoch := by
  have hday := dayFromMarch_eq year 1 1
  have hyear : yearFromMarch ⟨year, 1, 1⟩ = year - 1 := rfl
  rw [newYear, toDays_eq_daysBefore, hyear]
  omega

/-- A day is in a year or a later one exactly where it is not before the first day of the year. -/
theorem newYear_le_iff {d : Date} (hd : d.isReal = true) (year : Int) :
    newYear year ≤ d.toDays ↔ year ≤ d.year := by
  obtain ⟨hnonneg, hyear⟩ := dayFromMarch_in_year hd
  obtain ⟨hstart, hend⟩ := dayFromMarch_in_month hd
  have hmonth := month_of_isReal hd
  have hplace : d.placeFromMarch = ((d.month : Int) + 9) % 12 := rfl
  rw [newYear_eq, toDays_eq_daysBefore]
  by_cases hearly : d.month ≤ 2
  · have hfrom : d.yearFromMarch = d.year - 1 := if_pos hearly
    have hlate : 10 ≤ d.placeFromMarch := by omega
    have hday : 306 ≤ d.dayFromMarch := by
      unfold daysBeforeMonth at hstart
      omega
    rw [hfrom] at hyear ⊢
    constructor
    · intro h
      by_contra hlt
      have := daysBefore_mono (show d.year - 1 + 1 ≤ year - 1 by omega)
      omega
    · intro h
      have := daysBefore_mono (show year - 1 ≤ d.year - 1 by omega)
      omega
  · have hfrom : d.yearFromMarch = d.year := if_neg hearly
    have hbefore : d.placeFromMarch ≤ 9 := by omega
    have hday : d.dayFromMarch < 306 := by
      unfold daysBeforeMonth at hend
      omega
    rw [hfrom] at hyear ⊢
    constructor
    · intro h
      by_contra hlt
      have := daysBefore_mono (show d.year ≤ year - 1 by omega)
      omega
    · intro h
      have hsucc := daysBefore_succ (year - 1)
      rw [Int.sub_add_cancel] at hsucc
      have := daysBefore_mono h
      split at hsucc <;> omega

/-- The numbers of the days in the years of four digits. -/
theorem plainYear_iff {d : Date} (hd : d.isReal = true) :
    0 ≤ d.year ∧ d.year ≤ 9999 ↔ -719528 ≤ d.toDays ∧ d.toDays ≤ 2932896 := by
  have hfirst : newYear 0 = -719528 := by decide
  have hlast : newYear 10000 = 2932897 := by decide
  have hlow := newYear_le_iff hd 0
  have hhigh := newYear_le_iff hd 10000
  omega

end ConversationSearch.Time.Date
