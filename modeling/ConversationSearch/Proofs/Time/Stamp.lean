import ConversationSearch.Proofs.Time.BareDate

/-!
# Instants and their texts

The text of an instant whose year has four digits is read as the instant to the millisecond, with
however many places its fraction is written. Only a leap second within its minute is read as the
second that follows, since it has the same text. The text of any other instant is no timestamp: its
year is signed, which a date and time of day does not allow, and it has a time of day, which a bare
date does not allow.
-/

namespace ConversationSearch.Time

/-! ## The parts of a text -/

theorem takeDigits_padded (width : Nat) {n : Nat} (hn : n < 10 ^ width) (rest : List Char) :
    takeDigits width (Text.padded width n ++ rest) = some (n, rest) := by
  have hlength := Text.length_padded width n
  have htake : (Text.padded width n ++ rest).take width = Text.padded width n := by
    rw [List.take_append_of_le_length (by omega), List.take_of_length_le (by omega)]
  have hdrop : (Text.padded width n ++ rest).drop width = rest := by
    rw [List.drop_append_of_le_length (by omega), List.drop_of_length_le (by omega),
      List.nil_append]
  have hdigits : (Text.padded width n).all Text.isDigit = true :=
    List.all_eq_true.mpr fun c hc => Text.isDigit_of_mem_padded hc
  simp only [takeDigits, htake, hdrop, hlength, hdigits, and_self, if_true,
    Text.number_padded hn]

theorem takeFraction_digits {ds rest : List Char} {stop : Char} (hne : ds ≠ [])
    (hds : ∀ c ∈ ds, Text.isDigit c = true) (hstop : Text.isDigit stop = false) :
    takeFraction ('.' :: (ds ++ stop :: rest)) = some (fractionNanos ds, stop :: rest) := by
  cases ds with
  | nil => contradiction
  | cons d ds => simp only [takeFraction, Text.spanDigits_append hds hstop]

/-- The nanoseconds that the last of a number of places stands for. -/
def placeUnit (places : Nat) : Nat :=
  Nat.pow 10 (9 - places)

theorem placeUnit_pos (places : Nat) :
    0 < placeUnit places :=
  Nat.pow_pos (by decide)

theorem placeUnit_dvd_nanosPerSecond (places : Nat) :
    placeUnit places ∣ nanosPerSecond := by
  have hdvd : 10 ^ (9 - places) ∣ 10 ^ 9 := Nat.pow_dvd_pow 10 (Nat.sub_le 9 places)
  exact hdvd

theorem pow_mul_placeUnit {places : Nat} (hplaces : places ≤ 9) :
    Nat.pow 10 places * placeUnit places = nanosPerSecond := by
  have hpow : 10 ^ places * 10 ^ (9 - places) = 10 ^ 9 := by
    rw [← Nat.pow_add, Nat.add_sub_cancel' hplaces]
  exact hpow

theorem fractionNanos_padded {places k : Nat} (hplaces : places ≤ 9)
    (hk : k < Nat.pow 10 places) :
    fractionNanos (Text.padded places k) = k * placeUnit places := by
  have hlength := Text.length_padded places k
  have hpad : (Text.padded places k ++ List.replicate 9 '0').take 9 =
      Text.padded places k ++ List.replicate (9 - places) '0' := by
    rw [List.take_append, List.take_of_length_le (by omega), List.take_replicate, hlength,
      Nat.min_eq_left (Nat.sub_le 9 places)]
  rw [fractionNanos, hpad, Text.number_append_zeros, Text.number_padded hk]
  rfl

/-- The characters that may stand between the date and the time of day. -/
def IsSeparator (c : Char) : Prop :=
  c = 'T' ∨ c = 't' ∨ c = ' '

/-- A date and time of day, by its parts. -/
theorem readDateTime_parts {year month day hour minute second nanos : Nat} {ahead : Int}
    {separator : Char} (hseparator : IsSeparator separator)
    (hyear : year < 10000) (hmonth : month < 100) (hday : day < 100) (hhour : hour < 100)
    (hminute : minute < 100) (hsecond : second < 100) {fraction offset : List Char}
    (hfraction : takeFraction (fraction ++ offset) = some (nanos, offset))
    (hoffset : takeOffset offset = some (ahead, [])) :
    readDateTime (Text.padded 4 year ++ '-' :: Text.padded 2 month ++ '-' :: Text.padded 2 day ++
        separator :: Text.padded 2 hour ++ ':' :: Text.padded 2 minute ++
        ':' :: Text.padded 2 second ++ fraction ++ offset) =
      if (⟨year, month, day⟩ : Date).isReal ∧ hour ≤ 23 ∧ minute ≤ 59 ∧ second ≤ 60 then
        Instant.of?
          ((⟨year, month, day⟩ : Date).toDays * secondsPerDay +
            (3600 * hour + 60 * minute + (min second 59 : Nat)) - 60 * ahead)
          (if second = 60 then nanos + nanosPerSecond else nanos)
      else none := by
  unfold readDateTime
  rcases hseparator with rfl | rfl | rfl <;>
    simp only [List.append_assoc, List.cons_append,
      takeDigits_padded 4 hyear, takeDigits_padded 2 hmonth,
      takeDigits_padded 2 hday, takeDigits_padded 2 hhour,
      takeDigits_padded 2 hminute, takeDigits_padded 2 hsecond,
      takeChar_cons, bind, Option.bind, hfraction, hoffset, List.isEmpty_nil, true_and]

/-! ## The text of an instant -/

namespace Instant

variable (t : Instant)

/-- The year of an instant has four digits. -/
def HasPlainYear : Prop :=
  0 ≤ t.date.year ∧ t.date.year ≤ 9999

instance : Decidable t.HasPlainYear :=
  inferInstanceAs (Decidable (_ ∧ _))

theorem toMillis_toMillis :
    t.toMillis.toMillis = t.toMillis := by
  have hnanos : ∀ n : Nat, n - n % nanosPerMilli - (n - n % nanosPerMilli) % nanosPerMilli =
      n - n % nanosPerMilli := by
    intro n
    unfold nanosPerMilli
    omega
  simp only [toMillis, hnanos]

theorem secondOfDay_lt :
    t.secondOfDay < 86400 := by
  unfold secondOfDay secondsPerDay
  omega

theorem toDays_date :
    t.date.toDays = t.seconds / secondsPerDay :=
  Date.toDays_ofDays _

/-- The second that is written, a leap second being the sixty-first of its minute. -/
def writtenSecond : Nat :=
  t.secondOfDay % 60 + if t.isLeap then 1 else 0

theorem writtenSecond_le :
    t.writtenSecond ≤ 60 := by
  unfold writtenSecond
  split <;> omega

theorem isLeap_iff :
    t.isLeap = true ↔ nanosPerSecond ≤ t.nanos := by
  simp [isLeap]

theorem nanosOfSecond_lt :
    t.nanosOfSecond < nanosPerSecond := by
  have hbound := t.nanos_lt
  unfold nanosOfSecond
  by_cases hleap : t.isLeap = true
  · rw [if_pos hleap]
    omega
  · rw [if_neg hleap]
    exact Nat.not_le.mp (mt t.isLeap_iff.mpr hleap)

section

variable {t} (hminute : t.LeapEndsMinute)
include hminute

/-- The sixty-first second of a minute is written for the leap seconds and for no other. -/
theorem writtenSecond_eq_sixty_iff :
    t.writtenSecond = 60 ↔ t.isLeap = true := by
  unfold writtenSecond
  constructor
  · intro h
    split at h
    · next hleap => exact hleap
    · omega
  · intro hleap
    have hlast := hminute (t.isLeap_iff.mp hleap)
    have hsecond : t.secondOfDay % 60 = 59 := by
      unfold secondOfDay secondsPerDay
      omega
    rw [if_pos hleap, hsecond]

theorem min_writtenSecond :
    min t.writtenSecond 59 = t.secondOfDay % 60 := by
  have hsixty := writtenSecond_eq_sixty_iff hminute
  unfold writtenSecond at hsixty ⊢
  by_cases hleap : t.isLeap = true
  · have := hsixty.mpr hleap
    rw [if_pos hleap] at this ⊢
    omega
  · rw [if_neg hleap]
    omega

end

/-- The fraction as it is written. -/
def fraction (places : Nat) : List Char :=
  if places = 0 then []
  else '.' :: Text.padded places (t.nanosOfSecond / placeUnit places)

theorem textWithPlaces_eq (places : Nat) :
    t.textWithPlaces places = yearText t.date.year ++ '-' :: Text.padded 2 t.date.month ++
      '-' :: Text.padded 2 t.date.day ++ 'T' :: Text.padded 2 (t.secondOfDay / 3600) ++
      ':' :: Text.padded 2 (t.secondOfDay / 60 % 60) ++ ':' :: Text.padded 2 t.writtenSecond ++
      t.fraction places ++ ['Z'] :=
  rfl

/-- The instant without what is below the last place. -/
def truncated (places : Nat) : Instant where
  seconds := t.seconds
  nanos := t.nanos - t.nanos % placeUnit places
  first_le := t.first_le
  le_last := t.le_last
  nanos_lt := Nat.lt_of_le_of_lt (Nat.sub_le _ _) t.nanos_lt

theorem truncated_three :
    t.truncated 3 = t.toMillis :=
  rfl

theorem nanos_mod_placeUnit (places : Nat) :
    t.nanosOfSecond % placeUnit places = t.nanos % placeUnit places := by
  obtain ⟨count, hcount⟩ := placeUnit_dvd_nanosPerSecond places
  unfold nanosOfSecond
  by_cases hleap : t.isLeap = true
  · have hnanos : t.nanos = t.nanos - nanosPerSecond + placeUnit places * count := by
      have hlarge := t.isLeap_iff.mp hleap
      omega
    rw [if_pos hleap]
    conv_rhs => rw [hnanos, Nat.add_mul_mod_self_left]
  · rw [if_neg hleap]

theorem truncated_neededPlaces :
    t.truncated t.neededPlaces = t := by
  have hzero : t.nanosOfSecond % placeUnit t.neededPlaces = 0 := by
    simp only [neededPlaces]
    split
    · next hnone => rw [hnone, Nat.zero_mod]
    · split
      · next hmillis => exact hmillis
      · split
        · next hmicros => exact hmicros
        · exact Nat.mod_one _
  have hnanos : t.nanos - t.nanos % placeUnit t.neededPlaces = t.nanos := by
    rw [← t.nanos_mod_placeUnit, hzero, Nat.sub_zero]
  obtain ⟨seconds, nanos, _, _, _⟩ := t
  simp only [truncated, hnanos]

theorem takeFraction_fraction {places : Nat} (hplaces : places ≤ 9) :
    takeFraction (t.fraction places ++ ['Z']) =
      some (t.nanosOfSecond / placeUnit places * placeUnit places, ['Z']) := by
  have hnanos := t.nanosOfSecond_lt
  rw [← pow_mul_placeUnit hplaces] at hnanos
  have hbound : t.nanosOfSecond / placeUnit places < Nat.pow 10 places :=
    (Nat.div_lt_iff_lt_mul (placeUnit_pos places)).mpr hnanos
  unfold fraction
  by_cases hnone : places = 0
  · subst hnone
    have hzero : t.nanosOfSecond / placeUnit 0 = 0 := Nat.lt_one_iff.mp hbound
    rw [hzero, Nat.zero_mul, if_pos rfl]
    rfl
  · have hne := Text.padded_ne_nil (Nat.pos_of_ne_zero hnone)
      (t.nanosOfSecond / placeUnit places)
    rw [if_neg hnone, List.cons_append, takeFraction_digits hne
      (fun c hc => Text.isDigit_of_mem_padded hc) (by decide), fractionNanos_padded hplaces hbound]

/-- The fraction and the second that are written give the nanoseconds of the instant down to the
last place. -/
theorem nanos_truncated (hminute : t.LeapEndsMinute) (places : Nat) :
    (if t.writtenSecond = 60
      then t.nanosOfSecond / placeUnit places * placeUnit places + nanosPerSecond
      else t.nanosOfSecond / placeUnit places * placeUnit places) = (t.truncated places).nanos := by
  have hfraction : t.nanosOfSecond / placeUnit places * placeUnit places =
      t.nanosOfSecond - t.nanos % placeUnit places := by
    have hdiv := Nat.div_add_mod' t.nanosOfSecond (placeUnit places)
    rw [t.nanos_mod_placeUnit] at hdiv
    omega
  have hle : t.nanos % placeUnit places ≤ t.nanosOfSecond := by
    rw [← t.nanos_mod_placeUnit]
    exact Nat.mod_le _ _
  have htruncated : (t.truncated places).nanos = t.nanos - t.nanos % placeUnit places := rfl
  rw [hfraction, htruncated]
  by_cases hleap : t.isLeap = true
  · have hlarge := t.isLeap_iff.mp hleap
    have hnanos : t.nanosOfSecond = t.nanos - nanosPerSecond := if_pos hleap
    rw [if_pos ((writtenSecond_eq_sixty_iff hminute).mpr hleap)]
    omega
  · have hnanos : t.nanosOfSecond = t.nanos := if_neg hleap
    rw [if_neg (mt (writtenSecond_eq_sixty_iff hminute).mp hleap), hnanos]

/-- A date and time of day with a year of four digits is read as it was written. -/
theorem readDateTime_textWithPlaces (hyear : t.HasPlainYear) (hminute : t.LeapEndsMinute)
    {places : Nat} (hplaces : places ≤ 9) :
    readDateTime (t.textWithPlaces places) = some (t.truncated places) := by
  obtain ⟨hlow, hhigh⟩ := hyear
  have hday := t.secondOfDay_lt
  have hmonth := Date.month_ofDays (t.seconds / secondsPerDay)
  have hdayOfMonth := Date.day_ofDays (t.seconds / secondsPerDay)
  have hdate : (⟨(t.date.year.toNat : Int), t.date.month, t.date.day⟩ : Date) = t.date := by
    rw [Int.toNat_of_nonneg hlow]
  have htext : yearText t.date.year = Text.padded 4 t.date.year.toNat := by
    unfold yearText
    rw [if_pos ⟨hlow, hhigh⟩]
  have hwritten := t.writtenSecond_le
  rw [textWithPlaces_eq, htext, readDateTime_parts (.inl rfl) (by omega) (by unfold date; omega)
    (by unfold date; omega) (by omega) (by omega) (by omega) (t.takeFraction_fraction hplaces) rfl,
    hdate, t.toDays_date, min_writtenSecond hminute, t.nanos_truncated hminute]
  have hreal : t.date.isReal = true := Date.isReal_ofDays _
  rw [if_pos ⟨hreal, by omega, by omega, hwritten⟩]
  have hseconds : t.seconds / secondsPerDay * secondsPerDay +
      (3600 * (t.secondOfDay / 3600 : Nat) + 60 * (t.secondOfDay / 60 % 60 : Nat) +
        (t.secondOfDay % 60 : Nat)) - 60 * 0 = t.seconds := by
    unfold secondOfDay secondsPerDay
    omega
  rw [hseconds]
  exact of?_eq_some_iff.mpr ⟨rfl, rfl, fun hleap => hminute (Nat.le_trans hleap (Nat.sub_le _ _))⟩

/-- The first character of the text of a year: a digit, or a sign where it has not four digits. -/
theorem exists_head_yearText (year : Int) :
    ∃ c rest, yearText year = c :: rest ∧
      (if 0 ≤ year ∧ year ≤ 9999 then Text.isDigit c = true else c = '-' ∨ c = '+') := by
  unfold yearText
  by_cases hplain : 0 ≤ year ∧ year ≤ 9999
  · have hne := Text.padded_ne_nil (show 0 < 4 by decide) year.toNat
    obtain ⟨c, rest, hcs⟩ := List.exists_cons_of_ne_nil hne
    refine ⟨c, rest, ?_, ?_⟩
    · rw [if_pos hplain, hcs]
    · rw [if_pos hplain]
      exact Text.isDigit_of_mem_padded (hcs ▸ List.mem_cons_self)
  · refine ⟨_, _, if_neg hplain, ?_⟩
    rw [if_neg hplain]
    split
    · exact .inl rfl
    · exact .inr rfl

/-- A date and time of day does not start with a sign. -/
theorem readDateTime_eq_none {c : Char} (hc : Text.isDigit c = false) (rest : List Char) :
    readDateTime (c :: rest) = none := by
  have hyear : takeDigits 4 (c :: rest) = none := by
    simp [takeDigits, hc]
  simp only [readDateTime, hyear, bind, Option.bind]

theorem exists_textWithPlaces (places : Nat) :
    ∃ c middle, t.textWithPlaces places = c :: (middle ++ ['Z']) ∧ Text.isBlank c = false ∧
      (¬t.HasPlainYear → Text.isDigit c = false) := by
  obtain ⟨c, rest, hyear, hhead⟩ := exists_head_yearText t.date.year
  refine ⟨c, _, by rw [textWithPlaces_eq, hyear]; rfl, ?_, ?_⟩
  · split at hhead
    · exact Text.isBlank_of_isDigit hhead
    · rcases hhead with rfl | rfl <;> decide
  · intro hplain
    have hyear : ¬(0 ≤ t.date.year ∧ t.date.year ≤ 9999) := hplain
    rw [if_neg hyear] at hhead
    rcases hhead with rfl | rfl <;> decide

/-- There are no blanks around the text of an instant. -/
theorem trim_textWithPlaces (places : Nat) :
    Text.trim (String.ofList (t.textWithPlaces places)) =
      String.ofList (t.textWithPlaces places) := by
  obtain ⟨c, middle, htext, hblank, -⟩ := t.exists_textWithPlaces places
  rw [htext]
  exact Text.trim_ofList_of_ends hblank (by decide)

/-! ## Leap seconds within a minute -/

/-- The instant that is written. A leap second within its minute is written as the second that
follows. -/
def asWritten : Instant :=
  if h : t.LeapEndsMinute then t
  else
    { seconds := t.seconds + 1
      nanos := t.nanos - nanosPerSecond
      first_le := Int.le_add_one t.first_le
      le_last := by
        have hle := t.le_last
        unfold LeapEndsMinute at h
        unfold lastSecond at *
        omega
      nanos_lt := Nat.lt_of_le_of_lt (Nat.sub_le _ _) t.nanos_lt }

section

variable {t}

theorem asWritten_eq_self (h : t.LeapEndsMinute) :
    t.asWritten = t :=
  dif_pos h

theorem seconds_asWritten (h : ¬t.LeapEndsMinute) :
    t.asWritten.seconds = t.seconds + 1 := by
  rw [asWritten, dif_neg h]

theorem nanos_asWritten (h : ¬t.LeapEndsMinute) :
    t.asWritten.nanos = t.nanos - nanosPerSecond := by
  rw [asWritten, dif_neg h]

end

theorem leapEndsMinute_asWritten :
    t.asWritten.LeapEndsMinute := by
  by_cases h : t.LeapEndsMinute
  · rwa [asWritten_eq_self h]
  · have hbound := t.nanos_lt
    apply leapEndsMinute_of_lt
    rw [nanos_asWritten h]
    omega

/-- The second that follows a leap second within its minute lies in the same minute, so that only
the seconds differ in the parts of the two, and these are written alike. -/
theorem parts_asWritten :
    t.asWritten.date = t.date ∧ t.asWritten.secondOfDay / 60 = t.secondOfDay / 60 ∧
      t.asWritten.writtenSecond = t.writtenSecond ∧
      t.asWritten.nanosOfSecond = t.nanosOfSecond := by
  by_cases h : t.LeapEndsMinute
  · rw [asWritten_eq_self h]
    exact ⟨rfl, rfl, rfl, rfl⟩
  · have hseconds := seconds_asWritten h
    have hnanos := nanos_asWritten h
    have hplain : ¬t.asWritten.isLeap = true := by
      have hbound := t.nanos_lt
      rw [isLeap_iff, hnanos]
      omega
    obtain ⟨hlarge, hminute⟩ := Classical.not_imp.mp h
    have hleap := t.isLeap_iff.mpr hlarge
    refine ⟨?_, ?_, ?_, ?_⟩
    · have hday : (t.seconds + 1) / secondsPerDay = t.seconds / secondsPerDay := by
        unfold secondsPerDay
        omega
      rw [date, hseconds, hday, date]
    · unfold secondOfDay secondsPerDay
      omega
    · rw [writtenSecond, writtenSecond, if_neg hplain, if_pos hleap]
      unfold secondOfDay secondsPerDay
      omega
    · rw [nanosOfSecond, nanosOfSecond, if_neg hplain, if_pos hleap, hnanos]

theorem hasPlainYear_asWritten :
    t.asWritten.HasPlainYear ↔ t.HasPlainYear := by
  rw [HasPlainYear, HasPlainYear, t.parts_asWritten.1]

theorem textWithPlaces_asWritten (places : Nat) :
    t.asWritten.textWithPlaces places = t.textWithPlaces places := by
  obtain ⟨hdate, hminutes, hsecond, hnanos⟩ := t.parts_asWritten
  have hhour : t.asWritten.secondOfDay / 3600 = t.secondOfDay / 3600 := by omega
  have hminute : t.asWritten.secondOfDay / 60 % 60 = t.secondOfDay / 60 % 60 := by rw [hminutes]
  simp only [textWithPlaces_eq, fraction, hdate, hhour, hminute, hsecond, hnanos]

theorem text_asWritten :
    t.asWritten.text = t.text :=
  congrArg String.ofList (t.textWithPlaces_asWritten 3)

theorem neededPlaces_asWritten :
    t.asWritten.neededPlaces = t.neededPlaces := by
  obtain ⟨-, -, -, hnanos⟩ := t.parts_asWritten
  simp only [neededPlaces, hnanos]

/-! ## Reading a text -/

theorem parse_textWithPlaces {places : Nat} (hplaces : places ≤ 9) :
    (t.HasPlainYear → parse (String.ofList (t.textWithPlaces places)) =
      .ok (t.asWritten.truncated places).toMillis) ∧
    (¬t.HasPlainYear → parse (String.ofList (t.textWithPlaces places)) =
      .error ⟨String.ofList (t.textWithPlaces places)⟩) := by
  obtain ⟨c, middle, htext, hblank, hsign⟩ := t.exists_textWithPlaces places
  unfold parse
  simp only [t.trim_textWithPlaces places, String.toList_ofList]
  constructor
  · intro hplain
    have hread := t.asWritten.readDateTime_textWithPlaces (t.hasPlainYear_asWritten.mpr hplain)
      t.leapEndsMinute_asWritten hplaces
    rw [textWithPlaces_asWritten] at hread
    rw [hread]
  · intro hplain
    have hT : 'T' ∈ t.textWithPlaces places := by
      rw [textWithPlaces_eq]
      simp
    have hstart : Text.trimStart (t.textWithPlaces places) = t.textWithPlaces places := by
      rw [htext, Text.trimStart_cons hblank]
    rw [readDate_eq_none hstart hT (by decide), htext, readDateTime_eq_none (hsign hplain)]

/-- The text of an instant is read as the instant to the millisecond where its year has four
digits, and is no timestamp otherwise. -/
theorem parse_text :
    (t.HasPlainYear → parse t.text = .ok t.asWritten.toMillis) ∧
      (¬t.HasPlainYear → parse t.text = .error ⟨t.text⟩) := by
  have hparse := t.parse_textWithPlaces (show 3 ≤ 9 by decide)
  rw [truncated_three, toMillis_toMillis] at hparse
  exact hparse

theorem neededPlaces_le :
    t.neededPlaces ≤ 9 := by
  simp only [neededPlaces]
  split
  · decide
  · split
    · decide
    · split <;> decide

/-- So is the text with the whole fraction, which is read without what is below a millisecond. -/
theorem parse_fullText :
    (t.HasPlainYear → parse t.fullText = .ok t.asWritten.toMillis) ∧
      (¬t.HasPlainYear → parse t.fullText = .error ⟨t.fullText⟩) := by
  have hparse := t.parse_textWithPlaces t.neededPlaces_le
  rw [← neededPlaces_asWritten, truncated_neededPlaces, neededPlaces_asWritten] at hparse
  exact hparse

end Instant

/-! ## Blanks around a timestamp -/

theorem parse_trim (s : String) :
    parse (Text.trim s) = parse s := by
  unfold parse
  rw [Text.trim_trim]

/-- A text of blanks alone is no timestamp. -/
theorem nonBlank_of_parse {s : String} {t : Instant} (h : parse s = .ok t) :
    Text.nonBlank s = some (Text.trim s) := by
  have hne : Text.trim s ≠ "" := by
    intro hblank
    rw [← parse_trim, hblank] at h
    contradiction
  simp only [Text.nonBlank, if_neg hne]

end ConversationSearch.Time
