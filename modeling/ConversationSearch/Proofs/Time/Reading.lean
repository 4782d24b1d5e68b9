import ConversationSearch.Proofs.Time.Distinct
import ConversationSearch.Proofs.Time.Written

/-!
# What timestamps are read as

A text is a timestamp exactly when it is, without the blanks around it, a date and time of day with
an offset, or a bare date. The first stands for the local time less the offset, to the millisecond;
the second for midnight UTC, as the same date with `T00:00:00Z` behind it does. Bare dates are read
that are not of the documented form. The text of an instant is read as the instant to the
millisecond in the years 0 to 9999, and in no other year. No text stands for a leap second within
its minute; what is written of it stands for the second that follows.
-/

namespace ConversationSearch.Time

/-! ## Two kinds of timestamps -/

theorem WrittenTime.colon_mem_text (w : WrittenTime) :
    ':' ∈ w.text := by
  simp [text]

/-- What timestamps are read as. -/
theorem parse_eq_ok_iff {s : String} {t : Instant} :
    parse s = .ok t ↔
      (∃ w : WrittenTime, (Text.trim s).toList = w.text ∧ t = w.instant.toMillis) ∨
        ∃ d, IsBareDate (Text.trim s).toList d ∧ t.IsMidnight d := by
  unfold parse
  cases htime : readDateTime (Text.trim s).toList with
  | some u =>
    obtain ⟨w, hw, rfl⟩ := readDateTime_eq_some_iff.mp htime
    simp only [htime]
    constructor
    · intro h
      exact .inl ⟨w, hw, (Except.ok.inj h).symm⟩
    · rintro (⟨w', hw', rfl⟩ | ⟨d, hd, -⟩)
      · rw [hw', w'.readDateTime_text] at htime
        rw [Option.some.inj htime]
      · exact absurd (hd.isDateChar _ (hw ▸ w.colon_mem_text)) (by decide)
  | none =>
    have hnone : ¬∃ w : WrittenTime, (Text.trim s).toList = w.text ∧ t = w.instant.toMillis := by
      rintro ⟨w, hw, -⟩
      rw [hw, w.readDateTime_text] at htime
      contradiction
    simp only [htime, hnone, false_or]
    rw [← readDate_eq_some_iff (Text.trimStart_trim s)]
    cases readDate (Text.trim s).toList with
    | none => simp
    | some u => simp

/-- No timestamp stands for an instant in a leap second within its minute. -/
theorem leapEndsMinute_of_parse {s : String} {t : Instant} (h : parse s = .ok t) :
    t.LeapEndsMinute := by
  rcases parse_eq_ok_iff.mp h with ⟨w, -, rfl⟩ | ⟨d, -, hmidnight⟩
  · exact Instant.leapEndsMinute_toMillis_iff.mpr w.leapEndsMinute_instant
  · exact hmidnight.leapEndsMinute

/-- A timestamp is read to the millisecond. -/
theorem toMillis_of_parse {s : String} {t : Instant} (h : parse s = .ok t) :
    t.toMillis = t := by
  rcases parse_eq_ok_iff.mp h with ⟨w, -, rfl⟩ | ⟨d, -, hmidnight⟩
  · exact Instant.toMillis_toMillis _
  · rw [Instant.toMillis_eq_self_iff, hmidnight.2]
    rfl

/-! ## Bare dates of the documented form -/

/-- A day of the calendar whose year has four digits. -/
def Date.IsPlain (d : Date) : Prop :=
  d.isReal = true ∧ 0 ≤ d.year ∧ d.year ≤ 9999

theorem yearWritten_padded (n : Nat) :
    YearWritten (Text.padded 4 n) (Text.number (Text.padded 4 n)) :=
  .plain (Text.padded_ne_nil (by decide) n) (Text.length_padded 4 n).le
    fun c hc => Text.isDigit_of_mem_padded hc

theorem partWritten_padded {n : Nat} (hn : n < 100) :
    PartWritten (Text.padded 2 n) n := by
  have hnumber : Text.number (Text.padded 2 n) = n := Text.number_padded hn
  have hpart := PartWritten.mk (List.forall_mem_nil _) (Text.padded_ne_nil (by decide) n)
    (Text.length_padded 2 n).le fun c hc => Text.isDigit_of_mem_padded hc
  rwa [hnumber, List.nil_append] at hpart

namespace Date.IsPlain

variable {d : Date} (hd : d.IsPlain)
include hd

theorem isBareDate_text :
    IsBareDate d.text d := by
  obtain ⟨hreal, hlow, hhigh⟩ := hd
  have hmonth := Date.month_of_isReal hreal
  have hday := Date.day_le_of_isReal hreal
  have hbound : d.year.toNat < Nat.pow 10 4 := by
    change d.year.toNat < 10000
    omega
  have hnumber : (Text.number (Text.padded 4 d.year.toNat) : Int) = d.year := by
    rw [Text.number_padded hbound, Int.toNat_of_nonneg hlow]
  have hyear := yearWritten_padded d.year.toNat
  rw [hnumber] at hyear
  exact ⟨hreal, _, _, _, hyear, partWritten_padded (by omega), partWritten_padded (by omega),
    by simp [Date.text]⟩

/-- The date with midnight UTC behind it. -/
def atMidnight : WrittenTime where
  year := d.year.toNat
  month := d.month
  day := d.day
  separator := 'T'
  hour := 0
  minute := 0
  second := 0
  fraction := []
  offset := .utc 'Z' (.inl rfl)
  year_le := by
    obtain ⟨-, hlow, hhigh⟩ := hd
    omega
  isReal := by
    obtain ⟨hreal, hlow, -⟩ := hd
    rwa [Int.toNat_of_nonneg hlow]
  isSeparator := .inl rfl
  hour_le := by decide
  minute_le := by decide
  second_le := by decide
  isDigit_fraction := List.forall_mem_nil _

theorem date_atMidnight :
    hd.atMidnight.date = d := by
  obtain ⟨-, hlow, -⟩ := hd
  have hyear : (d.year.toNat : Int) = d.year := Int.toNat_of_nonneg hlow
  simp only [WrittenTime.date, atMidnight, hyear]

theorem text_atMidnight :
    hd.atMidnight.text = d.text ++ "T00:00:00Z".toList := by
  have hzero : Text.padded 2 0 = ['0', '0'] := by decide
  rw [WrittenTime.text, hd.date_atMidnight]
  simp [atMidnight, hzero, fractionText, WrittenOffset.text]

theorem isMidnight_atMidnight :
    hd.atMidnight.instant.toMillis.IsMidnight d := by
  obtain ⟨hseconds, hnanos⟩ := hd.atMidnight.toMillis_instant
  have hlocal : hd.atMidnight.localSeconds = d.toDays * secondsPerDay := by
    rw [WrittenTime.localSeconds, hd.date_atMidnight]
    exact Int.add_zero _
  have hahead : hd.atMidnight.offset.ahead = 0 := rfl
  have hmillis : Text.number (firstDigits 3 []) = 0 := by decide
  have hfraction : hd.atMidnight.fraction = [] := rfl
  refine ⟨?_, ?_⟩
  · rw [hseconds, hlocal, hahead]
    omega
  · rw [hnanos, hfraction, hmillis]
    rfl

end Date.IsPlain

/-! ## What timestamps stand for -/

/-- A date and time of day, with any blanks around it, stands for the local time less the offset,
its fraction cut to three places, and the local time is on the date that is written. A bare date
stands for midnight, as it does with `T00:00:00Z` behind it. Days are counted from the first of
January 1970, one by one. -/
theorem timestamps_denote {before after : List Char}
    (hbefore : ∀ c ∈ before, Text.isBlank c = true)
    (hafter : ∀ c ∈ after, Text.isBlank c = true) :
    (∀ w : WrittenTime, ∃ t, parse (String.ofList (before ++ w.text ++ after)) = .ok t ∧
      t.seconds + 60 * w.offset.ahead = w.date.toDays * secondsPerDay + w.secondOfDay ∧
      t.nanos = Text.number (firstDigits 3 w.fraction) * nanosPerMilli +
        (if w.second = 60 then nanosPerSecond else 0) ∧
      Date.ofDays ((t.seconds + 60 * w.offset.ahead) / secondsPerDay) = w.date) ∧
    (∀ d : Date, d.IsPlain → ∃ t, t.IsMidnight d ∧
      parse (String.ofList (before ++ d.text ++ after)) = .ok t ∧
      parse (String.ofList (before ++ (d.text ++ "T00:00:00Z".toList) ++ after)) = .ok t) ∧
    (Date.toDays ⟨1970, 1, 1⟩ = 0 ∧
      ∀ d : Date, d.isReal = true → d.next.isReal = true ∧ d.next.toDays = d.toDays + 1) := by
  refine ⟨fun w => ?_, fun d hd => ?_, by decide, fun d hd => Date.toDays_next hd⟩
  · obtain ⟨hseconds, hnanos⟩ := w.toMillis_instant
    have hlocal : w.instant.toMillis.seconds + 60 * w.offset.ahead =
        w.date.toDays * secondsPerDay + w.secondOfDay := by
      rw [hseconds, Int.sub_add_cancel, WrittenTime.localSeconds]
    have hday : (w.date.toDays * secondsPerDay + w.secondOfDay) / secondsPerDay =
        w.date.toDays := by
      have hsecond := w.secondOfDay_lt
      unfold secondsPerDay
      omega
    refine ⟨_, parse_eq_ok_iff.mpr (.inl ⟨w, w.trim_text hbefore hafter, rfl⟩), hlocal, hnanos, ?_⟩
    rw [hlocal, hday]
    exact Date.ofDays_toDays w.isReal
  · refine ⟨_, hd.isMidnight_atMidnight, parse_eq_ok_iff.mpr (.inr ⟨d, ?_, ?_⟩),
      parse_eq_ok_iff.mpr (.inl ⟨hd.atMidnight, ?_, rfl⟩)⟩
    · rw [d.trim_text hbefore hafter]
      exact hd.isBareDate_text
    · exact hd.isMidnight_atMidnight
    · rw [← hd.text_atMidnight, hd.atMidnight.trim_text hbefore hafter]

/-- The last second of the year 9999, a minute behind UTC, lies in the next year, and the 29th of
February starts with its midnight. -/
theorem last_second_and_leap_day_denote :
    (∀ c ∈ [' ', '\t'], Text.isBlank c = true) ∧ (∀ c ∈ ['\n'], Text.isBlank c = true) ∧
      (∃ t, parse " \t9999-12-31T23:59:59.9996-00:01\n" = .ok t ∧ t.seconds = 253402300859 ∧
        t.nanos = 999000000 ∧ t.date = ⟨10000, 1, 1⟩) ∧
      (⟨2024, 2, 29⟩ : Date).IsPlain ∧
      ∃ t, parse " \t2024-02-29\n" = .ok t ∧ parse " \t2024-02-29T00:00:00Z\n" = .ok t ∧
        t.seconds = 1709164800 ∧ t.nanos = 0 := by
  have hbefore : ∀ c ∈ [' ', '\t'], Text.isBlank c = true := List.all_eq_true.mp (by decide)
  have hafter : ∀ c ∈ ['\n'], Text.isBlank c = true := List.all_eq_true.mp (by decide)
  have hleap : (⟨2024, 2, 29⟩ : Date).IsPlain := ⟨by decide, by decide, by decide⟩
  obtain ⟨htimes, hdates, -⟩ := timestamps_denote hbefore hafter
  refine ⟨hbefore, hafter, ?_, hleap, ?_⟩
  · obtain ⟨t, hparse, hseconds, hnanos, -⟩ := htimes {
      year := 9999, month := 12, day := 31, separator := 'T', hour := 23, minute := 59, second := 59
      fraction := "9996".toList
      offset := .shifted '-' 0 1 (by decide) (by decide) (by decide)
      year_le := by decide
      isReal := by decide
      isSeparator := .inl rfl
      hour_le := by decide
      minute_le := by decide
      second_le := by decide
      isDigit_fraction := List.all_eq_true.mp (by decide) }
    have hshifted : t.seconds + 60 * -1 = 253402300799 := hseconds.trans (by decide)
    have hafterYear : t.seconds = 253402300859 := by omega
    refine ⟨t, hparse, hafterYear, hnanos.trans (by decide), ?_⟩
    rw [Instant.date, hafterYear]
    decide
  · obtain ⟨t, ⟨hseconds, hnanos⟩, hdate, htime⟩ := hdates _ hleap
    exact ⟨t, hdate, htime, hseconds.trans (by decide), hnanos⟩

/-! ## Timestamps beyond the documented ones -/

/-- The documented timestamps: dates and times of day with an offset, and bare dates with four, two
and two digits. -/
def IsDocumented (s : String) : Prop :=
  (∃ w : WrittenTime, (Text.trim s).toList = w.text) ∨
    ∃ d : Date, d.IsPlain ∧ (Text.trim s).toList = d.text

theorem exists_parse_iff {s : String} :
    (∃ t, parse s = .ok t) ↔
      (∃ w : WrittenTime, (Text.trim s).toList = w.text) ∨
        ∃ d, IsBareDate (Text.trim s).toList d ∧ -262143 ≤ d.year ∧ d.year ≤ 262142 := by
  constructor
  · rintro ⟨t, ht⟩
    rcases parse_eq_ok_iff.mp ht with ⟨w, hw, -⟩ | ⟨d, hd, hmidnight⟩
    · exact .inl ⟨w, hw⟩
    · exact .inr ⟨d, hd, (exists_isMidnight_iff hd.1).mp ⟨t, hmidnight⟩⟩
  · rintro (⟨w, hw⟩ | ⟨d, hd, hyear⟩)
    · exact ⟨_, parse_eq_ok_iff.mpr (.inl ⟨w, hw, rfl⟩)⟩
    · obtain ⟨t, hmidnight⟩ := (exists_isMidnight_iff hd.1).mpr hyear
      exact ⟨t, parse_eq_ok_iff.mpr (.inr ⟨d, hd, hmidnight⟩)⟩

/-- A bare date of the documented form has a year of four digits. -/
theorem IsBareDate.isPlain {d : Date} (hd : IsBareDate d.text d) :
    d.IsPlain := by
  have hyear := takeYear_eq_some (yearWritten_padded d.year.toNat)
    (Text.padded 2 d.month ++ '-' :: Text.padded 2 d.day)
  obtain ⟨_, _, hread, -, -⟩ := hd.exists_parts
  rw [Date.text, List.append_assoc, List.cons_append, hyear] at hread
  obtain ⟨hnumber, -⟩ := Prod.mk.inj (Option.some.inj hread)
  have hdigits : ∀ c ∈ Text.padded 4 d.year.toNat, Text.isDigit c = true :=
    fun c hc => Text.isDigit_of_mem_padded hc
  obtain ⟨-, hbound⟩ := Text.padded_number hdigits
  have hlimit : Nat.pow 10 4 = 10000 := rfl
  rw [Text.length_padded, hlimit] at hbound
  exact ⟨hd.1, by omega, by omega⟩

/-- Every documented timestamp is accepted, in whatever year its date and offset put it. What is
accepted beyond them are the bare dates in the range of instants that are not written with four,
two and two digits. -/
theorem accepted_timestamps (s : String) :
    ((∃ t, parse s = .ok t) ↔
      (∃ w : WrittenTime, (Text.trim s).toList = w.text) ∨
        ∃ d, IsBareDate (Text.trim s).toList d ∧ -262143 ≤ d.year ∧ d.year ≤ 262142) ∧
    (IsDocumented s → ∃ t, parse s = .ok t) ∧
    ((∃ t, parse s = .ok t) ∧ ¬IsDocumented s ↔
      ∃ d, IsBareDate (Text.trim s).toList d ∧ -262143 ≤ d.year ∧ d.year ≤ 262142 ∧
        (Text.trim s).toList ≠ d.text) := by
  refine ⟨exists_parse_iff, fun hs => exists_parse_iff.mpr ?_, ?_⟩
  · rcases hs with hs | ⟨d, hd, htext⟩
    · exact .inl hs
    · have hread : IsBareDate (Text.trim s).toList d := htext ▸ hd.isBareDate_text
      obtain ⟨-, hlow, hhigh⟩ := hd
      exact .inr ⟨d, hread, by omega, by omega⟩
  · rw [exists_parse_iff]
    constructor
    · rintro ⟨hw | ⟨d, hd, hlow, hhigh⟩, hs⟩
      · exact absurd (.inl hw) hs
      · refine ⟨d, hd, hlow, hhigh, fun htext => hs (.inr ⟨d, ?_, htext⟩)⟩
        rw [htext] at hd
        exact hd.isPlain
    · rintro ⟨d, hd, hlow, hhigh, hne⟩
      refine ⟨.inr ⟨d, hd, hlow, hhigh⟩, ?_⟩
      rintro (⟨w, hw⟩ | ⟨e, he, htext⟩)
      · exact absurd (hd.isDateChar _ (hw ▸ w.colon_mem_text)) (by decide)
      · rw [htext] at hd hne
        exact hne (congrArg Date.text (hd.unique he.isBareDate_text)).symm

theorem Date.length_text (d : Date) :
    d.text.length = 10 := by
  simp [Date.text, Text.length_padded]

theorem IsDocumented.ten_le_length {s : String} (hs : IsDocumented s) :
    10 ≤ (Text.trim s).toList.length := by
  rcases hs with ⟨w, hw⟩ | ⟨d, -, hd⟩
  · rw [hw, WrittenTime.text]
    simp [Date.length_text]
  · rw [hd, Date.length_text]

/-- A year of two digits is accepted, as the year 24. -/
theorem two_digit_year_is_accepted :
    (∃ t, parse "24-01-17" = .ok t ∧ t.IsMidnight ⟨24, 1, 17⟩ ∧ t.seconds = -61408454400) ∧
      ¬IsDocumented "24-01-17" := by
  have htrim : Text.trim "24-01-17" = "24-01-17" := by decide
  have hyear : YearWritten "24".toList 24 :=
    .plain (by decide) (by decide) (List.all_eq_true.mp (by decide))
  have hmonth : PartWritten "01".toList 1 := partWritten_padded (n := 1) (by decide)
  have hday : PartWritten "17".toList 17 := partWritten_padded (n := 17) (by decide)
  have hd : IsBareDate (Text.trim "24-01-17").toList ⟨24, 1, 17⟩ :=
    ⟨by decide, _, _, _, hyear, hmonth, hday, by rw [htrim]; rfl⟩
  constructor
  · obtain ⟨t, ht⟩ := (exists_isMidnight_iff hd.1).mpr ⟨by decide, by decide⟩
    exact ⟨t, parse_eq_ok_iff.mpr (.inr ⟨_, hd, ht⟩), ht, ht.1.trans (by decide)⟩
  · intro hs
    have hlength := hs.ten_le_length
    rw [htrim] at hlength
    exact absurd hlength (by decide)

/-! ## The texts of instants -/

/-- The instants whose year has four digits are those from the start of the year 0 to the last
second of the year 9999. -/
theorem Instant.hasPlainYear_iff (t : Instant) :
    t.HasPlainYear ↔ -62167219200 ≤ t.seconds ∧ t.seconds ≤ 253402300799 := by
  have hreal : t.date.isReal = true := Date.isReal_ofDays _
  have hday : secondsPerDay = 86400 := rfl
  rw [HasPlainYear, Date.plainYear_iff hreal, t.toDays_date, hday]
  omega

/-- The text of an instant is read as the instant to the millisecond if its year has four digits,
and is refused if not. Two instants have the same text exactly when they are the same to the
millisecond. In both, a leap second within its minute counts as the second that follows. -/
theorem Instant.text_round_trip (t u : Instant) :
    (parse t.text = if 0 ≤ t.date.year ∧ t.date.year ≤ 9999 then .ok t.asWritten.toMillis
      else .error ⟨t.text⟩) ∧
    (0 ≤ t.date.year ∧ t.date.year ≤ 9999 ↔
      -62167219200 ≤ t.seconds ∧ t.seconds ≤ 253402300799) ∧
    (t.text = u.text ↔ t.asWritten.toMillis = u.asWritten.toMillis) ∧
    (t.LeapEndsMinute → t.asWritten = t) ∧
    (¬t.LeapEndsMinute → t.asWritten.seconds = t.seconds + 1 ∧
      t.asWritten.nanos = t.nanos - nanosPerSecond) := by
  obtain ⟨hplain, hsigned⟩ := t.parse_text
  refine ⟨?_, t.hasPlainYear_iff, text_eq_iff, asWritten_eq_self,
    fun h => ⟨seconds_asWritten h, nanos_asWritten h⟩⟩
  split
  · next hyear => exact hplain hyear
  · next hyear => exact hsigned hyear

/-- The leap second at the end of 2016 is read back, and the second behind it has another text. -/
theorem last_leap_second_round_trip :
    let leap : Instant := ⟨1483228799, 1250000000, by decide, by decide, by decide⟩
    let next : Instant := ⟨1483228800, 250000000, by decide, by decide, by decide⟩
    leap.LeapEndsMinute ∧ next.LeapEndsMinute ∧ leap.text = "2016-12-31T23:59:60.250Z" ∧
      parse leap.text = .ok leap ∧ leap.text ≠ next.text := by
  intro leap next
  have hleap : leap.LeapEndsMinute := by decide
  have hnext : next.LeapEndsMinute := by decide
  obtain ⟨hparse, hyear, htext, hwritten, -⟩ := leap.text_round_trip next
  obtain ⟨-, -, -, hwrittenNext, -⟩ := next.text_round_trip leap
  rw [if_pos (hyear.mpr (by decide)), hwritten hleap] at hparse
  rw [hwritten hleap, hwrittenNext hnext] at htext
  exact ⟨hleap, hnext, by decide, hparse.trans (by decide), mt htext.mp (by decide)⟩

/-- A leap second within the first minute of 1970 has the text of the second that follows, and is
read as that one. -/
theorem leap_second_within_minute_reads_later :
    let leap : Instant := ⟨4, 1333000000, by decide, by decide, by decide⟩
    let next : Instant := ⟨5, 333000000, by decide, by decide, by decide⟩
    0 ≤ leap.date.year ∧ leap.date.year ≤ 9999 ∧ leap.text = "1970-01-01T00:00:05.333Z" ∧
      parse leap.text = .ok next ∧ parse leap.text ≠ .ok leap.toMillis ∧
      leap.text = next.text ∧ leap.toMillis ≠ next.toMillis := by
  intro leap next
  have hparse : parse leap.text = .ok next := by
    rw [leap.parse_text.1 (leap.hasPlainYear_iff.mpr (by decide))]
    decide
  refine ⟨by decide, by decide, by decide, hparse, ?_, by decide, by decide⟩
  rw [hparse]
  decide

end ConversationSearch.Time
