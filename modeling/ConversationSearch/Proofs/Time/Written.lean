import ConversationSearch.Proofs.Time.Stamp

/-!
# Dates and times of day as they are written

A date and time of day is written with a year of four digits, a separator, the time of day, perhaps
a fraction of the second, and the offset of local time from UTC. A text is read exactly when it is
written so, and it stands for the local time less the offset. A fraction may have any number of
digits; three of them show in the instant to the millisecond.
-/

namespace ConversationSearch.Time

theorem takeDigits_eq_some_iff {width n : Nat} {cs rest : List Char} :
    takeDigits width cs = some (n, rest) ↔ n < 10 ^ width ∧ cs = Text.padded width n ++ rest := by
  constructor
  · intro h
    simp only [takeDigits] at h
    split at h
    · next hdigits =>
      obtain ⟨hlength, hall⟩ := hdigits
      obtain ⟨rfl, rfl⟩ := Prod.mk.inj (Option.some.inj h)
      obtain ⟨hpadded, hbound⟩ := Text.padded_number (List.all_eq_true.mp hall)
      rw [hlength] at hpadded hbound
      rw [hpadded, List.take_append_drop]
      exact ⟨hbound, rfl⟩
    · contradiction
  · rintro ⟨hn, rfl⟩
    exact takeDigits_padded width hn rest

/-! ## Fractions -/

/-- The digits of a fraction as they are written, with the point before them. -/
def fractionText : List Char → List Char
  | [] => []
  | d :: ds => '.' :: d :: ds

theorem exists_of_takeFraction {cs rest : List Char} {nanos : Nat}
    (h : takeFraction cs = some (nanos, rest)) :
    ∃ ds, (∀ c ∈ ds, Text.isDigit c = true) ∧ cs = fractionText ds ++ rest ∧
      nanos = fractionNanos ds := by
  unfold takeFraction at h
  split at h
  · next cs =>
    split at h
    · contradiction
    · next ds behind hne hspan =>
      obtain ⟨rfl, rfl⟩ := Prod.mk.inj (Option.some.inj h)
      obtain ⟨rfl, rfl⟩ := Prod.mk.inj hspan
      refine ⟨cs.takeWhile Text.isDigit, fun c hc => List.mem_takeWhile_imp hc, ?_, rfl⟩
      cases hds : cs.takeWhile Text.isDigit with
      | nil => exact absurd hds hne
      | cons d ds =>
        rw [fractionText, ← hds, List.cons_append, List.takeWhile_append_dropWhile]
  · obtain ⟨rfl, rfl⟩ := Prod.mk.inj (Option.some.inj h)
    exact ⟨[], List.forall_mem_nil _, rfl, rfl⟩

theorem takeFraction_fractionText {ds : List Char} {stop : Char}
    (hds : ∀ c ∈ ds, Text.isDigit c = true) (hstop : Text.isDigit stop = false)
    (hpoint : stop ≠ '.') (rest : List Char) :
    takeFraction (fractionText ds ++ stop :: rest) = some (fractionNanos ds, stop :: rest) := by
  cases ds with
  | nil =>
    rw [fractionText, List.nil_append]
    unfold takeFraction
    split
    · next heq => exact absurd (List.cons.inj heq).1 hpoint
    · rfl
  | cons d ds =>
    exact takeFraction_digits (List.cons_ne_nil d ds) hds hstop

/-- The first digits of a fraction, zeros standing for those that are missing. -/
def firstDigits (count : Nat) (ds : List Char) : List Char :=
  (ds ++ List.replicate count '0').take count

theorem length_firstDigits (count : Nat) (ds : List Char) :
    (firstDigits count ds).length = count := by
  rw [firstDigits, List.length_take, List.length_append, List.length_replicate]
  omega

theorem take_firstDigits {fewer count : Nat} (h : fewer ≤ count) (ds : List Char) :
    (firstDigits count ds).take fewer = firstDigits fewer ds := by
  have hzeros : min (fewer - ds.length) count = min (fewer - ds.length) fewer := by omega
  rw [firstDigits, firstDigits, List.take_take, Nat.min_eq_left h, List.take_append,
    List.take_append, List.take_replicate, List.take_replicate, hzeros]

section

variable {ds : List Char} (hds : ∀ c ∈ ds, Text.isDigit c = true)
include hds

theorem isDigit_of_mem_firstDigits {count : Nat} {c : Char} (hc : c ∈ firstDigits count ds) :
    Text.isDigit c = true := by
  rcases List.mem_append.mp (List.mem_of_mem_take hc) with hc | hc
  · exact hds c hc
  · rw [List.eq_of_mem_replicate hc]
    decide

theorem number_firstDigits_lt (count : Nat) :
    Text.number (firstDigits count ds) < 10 ^ count := by
  obtain ⟨-, hbound⟩ := Text.padded_number fun c hc => isDigit_of_mem_firstDigits hds hc
  rwa [length_firstDigits] at hbound

theorem fractionNanos_lt :
    fractionNanos ds < nanosPerSecond :=
  number_firstDigits_lt hds 9

/-- The milliseconds are what the first three digits of a fraction say. -/
theorem fractionNanos_div :
    fractionNanos ds - fractionNanos ds % nanosPerMilli =
      Text.number (firstDigits 3 ds) * nanosPerMilli := by
  have hdigits : ∀ c ∈ (firstDigits 9 ds).drop 3, Text.isDigit c = true :=
    fun c hc => isDigit_of_mem_firstDigits hds (List.mem_of_mem_drop hc)
  have hlength : ((firstDigits 9 ds).drop 3).length = 6 := by
    rw [List.length_drop, length_firstDigits]
  have hsplit := Text.number_append (firstDigits 3 ds) _ hdigits
  obtain ⟨-, hbelow⟩ := Text.padded_number hdigits
  rw [← take_firstDigits (show 3 ≤ 9 by decide), List.take_append_drop, hlength,
    take_firstDigits (by decide)] at hsplit
  rw [hlength] at hbelow
  have hnanos : fractionNanos ds = Text.number (firstDigits 9 ds) := rfl
  have hunit : nanosPerMilli = Nat.pow 10 6 := rfl
  rw [hnanos, hsplit, hunit, Nat.mul_add_mod_self_right, Nat.mod_eq_of_lt hbelow,
    Nat.add_sub_cancel]

end

/-! ## Offsets -/

/-- The offset of local time from UTC as it is written: a letter for none, or a sign, hours and
minutes. -/
inductive WrittenOffset
  | utc (letter : Char) (isLetter : letter = 'Z' ∨ letter = 'z')
  | shifted (sign : Char) (hours minutes : Nat) (isSign : sign = '+' ∨ sign = '-' ∨ sign = '−')
      (hours_le : hours ≤ 23) (minutes_le : minutes ≤ 59)

namespace WrittenOffset

/-- The text of an offset. -/
def text : WrittenOffset → List Char
  | utc letter _ => [letter]
  | shifted sign hours minutes _ _ _ =>
    sign :: (Text.padded 2 hours ++ ':' :: Text.padded 2 minutes)

/-- The minutes that local time is ahead of UTC. -/
def ahead : WrittenOffset → Int
  | utc _ _ => 0
  | shifted sign hours minutes _ _ _ =>
    if sign = '+' then 60 * hours + minutes else -(60 * hours + minutes)

theorem ahead_bounds (o : WrittenOffset) :
    -1439 ≤ o.ahead ∧ o.ahead ≤ 1439 := by
  cases o with
  | utc letter _ => simp [ahead]
  | shifted sign hours minutes _ hhours hminutes =>
    unfold ahead
    dsimp only
    split <;> omega

theorem exists_head_text (o : WrittenOffset) :
    ∃ c rest, o.text = c :: rest ∧ Text.isDigit c = false ∧ c ≠ '.' := by
  cases o with
  | utc letter hletter =>
    refine ⟨letter, [], rfl, ?_⟩
    rcases hletter with rfl | rfl <;> decide
  | shifted sign hours minutes hsign _ _ =>
    refine ⟨sign, _, rfl, ?_⟩
    rcases hsign with rfl | rfl | rfl <;> decide

theorem exists_last_text (o : WrittenOffset) :
    ∃ front last, o.text = front ++ [last] ∧ Text.isBlank last = false := by
  cases o with
  | utc letter hletter =>
    refine ⟨[], letter, rfl, ?_⟩
    rcases hletter with rfl | rfl <;> decide
  | shifted sign hours minutes _ _ _ =>
    refine ⟨sign :: (Text.padded 2 hours ++ ':' :: Text.padded 1 (minutes / 10)),
      Text.digit minutes, ?_, Text.isBlank_of_isDigit (Text.isDigit_digit minutes)⟩
    simp [text, Text.padded]

theorem takeOffset_text (o : WrittenOffset) (rest : List Char) :
    takeOffset (o.text ++ rest) = some (o.ahead, rest) := by
  cases o with
  | utc letter hletter => exact if_pos hletter
  | shifted sign hours minutes hsign hhours hminutes =>
    have hutc : ¬(sign = 'Z' ∨ sign = 'z') := by
      rcases hsign with rfl | rfl | rfl <;> decide
    rw [text, List.cons_append, takeOffset, if_neg hutc, if_pos hsign, List.append_assoc,
      List.cons_append]
    simp only [bind, Option.bind, takeDigits_padded 2 (show hours < 10 ^ 2 by omega),
      takeDigits_padded 2 (show minutes < 10 ^ 2 by omega), takeChar_cons]
    rw [if_pos ⟨hhours, hminutes⟩]
    rfl

end WrittenOffset

theorem takeOffset_eq_some_iff {cs rest : List Char} {ahead : Int} :
    takeOffset cs = some (ahead, rest) ↔
      ∃ o : WrittenOffset, cs = o.text ++ rest ∧ ahead = o.ahead := by
  constructor
  · intro h
    cases cs with
    | nil => contradiction
    | cons c cs =>
      rw [takeOffset] at h
      by_cases hutc : c = 'Z' ∨ c = 'z'
      · rw [if_pos hutc] at h
        obtain ⟨rfl, rfl⟩ := Prod.mk.inj (Option.some.inj h)
        exact ⟨.utc c hutc, rfl, rfl⟩
      · rw [if_neg hutc] at h
        by_cases hsign : c = '+' ∨ c = '-' ∨ c = '−'
        · rw [if_pos hsign] at h
          simp only [bind, Option.bind_eq_some_iff] at h
          obtain ⟨⟨hours, cs₁⟩, hhours, cs₂, hcolon, ⟨minutes, cs₃⟩, hminutes, hend⟩ := h
          obtain ⟨-, rfl⟩ := takeDigits_eq_some_iff.mp hhours
          obtain rfl := takeChar_eq_some_iff.mp hcolon
          obtain ⟨-, rfl⟩ := takeDigits_eq_some_iff.mp hminutes
          dsimp only at hend
          by_cases hbounds : hours ≤ 23 ∧ minutes ≤ 59
          · rw [if_pos hbounds] at hend
            obtain ⟨rfl, rfl⟩ := Prod.mk.inj (Option.some.inj hend)
            refine ⟨.shifted c hours minutes hsign hbounds.1 hbounds.2, ?_, rfl⟩
            simp [WrittenOffset.text]
          · rw [if_neg hbounds] at hend
            contradiction
        · rw [if_neg hsign] at h
          contradiction
  · rintro ⟨o, rfl, rfl⟩
    exact o.takeOffset_text rest

/-! ## Dates and times of day -/

/-- A date and time of day with an offset, as it is written: a day of the calendar in a year of four
digits, the parts of the time of day, the sixtieth second being a leap second, and the digits of the
fraction, if there are any. -/
structure WrittenTime where
  year : Nat
  month : Nat
  day : Nat
  separator : Char
  hour : Nat
  minute : Nat
  second : Nat
  fraction : List Char
  offset : WrittenOffset
  year_le : year ≤ 9999
  isReal : (⟨year, month, day⟩ : Date).isReal = true
  isSeparator : IsSeparator separator
  hour_le : hour ≤ 23
  minute_le : minute ≤ 59
  second_le : second ≤ 60
  isDigit_fraction : ∀ c ∈ fraction, Text.isDigit c = true

/-- A bare date as it is documented: four digits for the year, two for the month, two for the
day. -/
def Date.text (d : Date) : List Char :=
  Text.padded 4 d.year.toNat ++ '-' :: Text.padded 2 d.month ++ '-' :: Text.padded 2 d.day

theorem Date.exists_ends_text (d : Date) :
    ∃ first middle last, d.text = first :: (middle ++ [last]) ∧ Text.isBlank first = false ∧
      Text.isBlank last = false := by
  have hlast : Text.padded 2 d.day = Text.padded 1 (d.day / 10) ++ [Text.digit d.day] := rfl
  obtain ⟨first, front, hfront⟩ :=
    List.exists_cons_of_ne_nil (Text.padded_ne_nil (show 0 < 4 by decide) d.year.toNat)
  have hfirst : Text.isDigit first = true :=
    Text.isDigit_of_mem_padded (hfront ▸ List.mem_cons_self)
  refine ⟨first, front ++ '-' :: Text.padded 2 d.month ++ '-' :: Text.padded 1 (d.day / 10),
    Text.digit d.day, ?_, Text.isBlank_of_isDigit hfirst,
    Text.isBlank_of_isDigit (Text.isDigit_digit d.day)⟩
  simp [text, hfront, hlast]

/-- A bare date may have any blanks around it. -/
theorem Date.trim_text (d : Date) {before after : List Char}
    (hbefore : ∀ c ∈ before, Text.isBlank c = true)
    (hafter : ∀ c ∈ after, Text.isBlank c = true) :
    (Text.trim (String.ofList (before ++ d.text ++ after))).toList = d.text := by
  obtain ⟨first, middle, last, htext, hfirst, hlast⟩ := d.exists_ends_text
  rw [htext, Text.trim_ofList_between hbefore hafter hfirst hlast, String.toList_ofList]

namespace WrittenTime

variable (w : WrittenTime)

/-- The date. -/
def date : Date :=
  ⟨w.year, w.month, w.day⟩

/-- The text. -/
def text : List Char :=
  w.date.text ++ w.separator :: Text.padded 2 w.hour ++ ':' :: Text.padded 2 w.minute ++
    ':' :: Text.padded 2 w.second ++ fractionText w.fraction ++ w.offset.text

/-- The seconds since midnight, a leap second counting as the second before it. -/
def secondOfDay : Nat :=
  3600 * w.hour + 60 * w.minute + min w.second 59

/-- The seconds of local time: those of the days that have passed and those since midnight. -/
def localSeconds : Int :=
  w.date.toDays * secondsPerDay + w.secondOfDay

/-- The nanoseconds within the second. -/
def nanos : Nat :=
  if w.second = 60 then fractionNanos w.fraction + nanosPerSecond else fractionNanos w.fraction

theorem secondOfDay_lt :
    w.secondOfDay < 86400 := by
  have hhour := w.hour_le
  have hminute := w.minute_le
  unfold secondOfDay
  omega

theorem toDays_bounds :
    -719528 ≤ w.date.toDays ∧ w.date.toDays ≤ 2932896 := by
  have hle := w.year_le
  have hyear : 0 ≤ w.date.year ∧ w.date.year ≤ 9999 := by
    change 0 ≤ (w.year : Int) ∧ (w.year : Int) ≤ 9999
    omega
  exact (Date.plainYear_iff w.isReal).mp hyear

theorem nanos_lt :
    w.nanos < 2 * nanosPerSecond := by
  have hfraction := fractionNanos_lt w.isDigit_fraction
  unfold nanos
  split <;> omega

/-- The instant: local time less the offset. -/
def instant : Instant where
  seconds := w.localSeconds - 60 * w.offset.ahead
  nanos := w.nanos
  first_le := by
    have hday := w.secondOfDay_lt
    have hdate := w.toDays_bounds
    have hoffset := w.offset.ahead_bounds
    unfold localSeconds secondsPerDay firstSecond
    omega
  le_last := by
    have hday := w.secondOfDay_lt
    have hdate := w.toDays_bounds
    have hoffset := w.offset.ahead_bounds
    unfold localSeconds secondsPerDay lastSecond
    omega
  nanos_lt := w.nanos_lt

/-- The offset is one of whole minutes, so that a leap second ends a minute of UTC as well. -/
theorem leapEndsMinute_instant :
    w.instant.LeapEndsMinute := by
  have hfraction := fractionNanos_lt w.isDigit_fraction
  change nanosPerSecond ≤ w.nanos → (w.localSeconds - 60 * w.offset.ahead) % 60 = 59
  unfold nanos localSeconds secondOfDay secondsPerDay
  split <;> omega

theorem instant_eq_of? :
    Instant.of? (w.date.toDays * secondsPerDay +
        (3600 * w.hour + 60 * w.minute + (min w.second 59 : Nat)) - 60 * w.offset.ahead) w.nanos =
      some w.instant := by
  have hseconds : w.date.toDays * secondsPerDay +
      (3600 * w.hour + 60 * w.minute + (min w.second 59 : Nat)) - 60 * w.offset.ahead =
        w.instant.seconds := by
    have hinstant : w.instant.seconds = w.localSeconds - 60 * w.offset.ahead := rfl
    rw [hinstant, localSeconds, secondOfDay]
    push_cast
    rfl
  rw [hseconds]
  exact Instant.of?_eq_some_iff.mpr ⟨rfl, rfl, w.leapEndsMinute_instant⟩

/-- What is written is read. -/
theorem readDateTime_text :
    readDateTime w.text = some w.instant := by
  have hyear := w.year_le
  have hmonth : 1 ≤ w.month ∧ w.month ≤ 12 := Date.month_of_isReal w.isReal
  have hday : w.day ≤ 31 := Date.day_le_of_isReal w.isReal
  have hhour := w.hour_le
  have hminute := w.minute_le
  have hsecond := w.second_le
  obtain ⟨stop, rest, htext, hstop, hpoint⟩ := w.offset.exists_head_text
  have hfraction := takeFraction_fractionText w.isDigit_fraction hstop hpoint rest
  rw [← htext] at hfraction
  have hoffset := w.offset.takeOffset_text []
  rw [List.append_nil] at hoffset
  have hread := readDateTime_parts w.isSeparator (show w.year < 10000 by omega)
    (show w.month < 100 by omega) (show w.day < 100 by omega) (show w.hour < 100 by omega)
    (show w.minute < 100 by omega) (show w.second < 100 by omega) hfraction hoffset
  rw [if_pos ⟨w.isReal, hhour, hminute, hsecond⟩] at hread
  exact hread.trans w.instant_eq_of?

end WrittenTime

/-- What is read behind a date is read behind a separator. -/
theorem exists_separator {next : List Char → Option Instant} {cs : List Char} {t : Instant}
    (h : (match cs with
      | 'T' :: cs => (some cs).bind next
      | 't' :: cs => (some cs).bind next
      | ' ' :: cs => (some cs).bind next
      | _ => none.bind next) = some t) :
    ∃ c rest, IsSeparator c ∧ cs = c :: rest ∧ next rest = some t := by
  split at h
  · exact ⟨'T', _, .inl rfl, rfl, h⟩
  · exact ⟨'t', _, .inr (.inl rfl), rfl, h⟩
  · exact ⟨' ', _, .inr (.inr rfl), rfl, h⟩
  · contradiction

/-- A text is read as a date and time of day exactly where it is written as one. -/
theorem readDateTime_eq_some_iff {cs : List Char} {t : Instant} :
    readDateTime cs = some t ↔ ∃ w : WrittenTime, cs = w.text ∧ t = w.instant := by
  constructor
  · intro h
    obtain ⟨⟨year, _⟩, hyear, h⟩ := Option.bind_eq_some_iff.mp h
    obtain ⟨_, hdash, h⟩ := Option.bind_eq_some_iff.mp h
    obtain ⟨⟨month, _⟩, hmonth, h⟩ := Option.bind_eq_some_iff.mp h
    obtain ⟨_, hdash', h⟩ := Option.bind_eq_some_iff.mp h
    obtain ⟨⟨day, _⟩, hday, h⟩ := Option.bind_eq_some_iff.mp h
    obtain ⟨separator, _, hseparator, hbehind, h⟩ := exists_separator h
    obtain ⟨⟨hour, _⟩, hhour, h⟩ := Option.bind_eq_some_iff.mp h
    obtain ⟨_, hcolon, h⟩ := Option.bind_eq_some_iff.mp h
    obtain ⟨⟨minute, _⟩, hminute, h⟩ := Option.bind_eq_some_iff.mp h
    obtain ⟨_, hcolon', h⟩ := Option.bind_eq_some_iff.mp h
    obtain ⟨⟨second, _⟩, hsecond, h⟩ := Option.bind_eq_some_iff.mp h
    obtain ⟨⟨nanos, _⟩, hfraction, h⟩ := Option.bind_eq_some_iff.mp h
    obtain ⟨⟨ahead, rest⟩, hoffset, hend⟩ := Option.bind_eq_some_iff.mp h
    obtain ⟨hyearBound, rfl⟩ := takeDigits_eq_some_iff.mp hyear
    obtain rfl := takeChar_eq_some_iff.mp hdash
    obtain ⟨-, rfl⟩ := takeDigits_eq_some_iff.mp hmonth
    obtain rfl := takeChar_eq_some_iff.mp hdash'
    obtain ⟨-, rfl⟩ := takeDigits_eq_some_iff.mp hday
    obtain rfl := hbehind
    obtain ⟨-, rfl⟩ := takeDigits_eq_some_iff.mp hhour
    obtain rfl := takeChar_eq_some_iff.mp hcolon
    obtain ⟨-, rfl⟩ := takeDigits_eq_some_iff.mp hminute
    obtain rfl := takeChar_eq_some_iff.mp hcolon'
    obtain ⟨-, rfl⟩ := takeDigits_eq_some_iff.mp hsecond
    obtain ⟨fraction, hdigits, rfl, rfl⟩ := exists_of_takeFraction hfraction
    obtain ⟨offset, rfl, rfl⟩ := takeOffset_eq_some_iff.mp hoffset
    dsimp only at hend
    split at hend
    · next hbounds =>
      obtain ⟨hempty, hreal, hhours, hminutes, hsixty⟩ := hbounds
      obtain rfl := List.isEmpty_iff.mp hempty
      let w : WrittenTime := {
        year, month, day, separator, hour, minute, second, fraction, offset
        year_le := by omega
        isReal := hreal
        isSeparator := hseparator
        hour_le := hhours
        minute_le := hminutes
        second_le := hsixty
        isDigit_fraction := hdigits }
      refine ⟨w, ?_, Option.some.inj (hend.symm.trans w.instant_eq_of?)⟩
      simp [w, WrittenTime.text, WrittenTime.date, Date.text]
    · contradiction
  · rintro ⟨w, rfl, rfl⟩
    exact w.readDateTime_text

namespace WrittenTime

variable (w : WrittenTime)

/-! ## What is kept of a fraction -/

theorem toMillis_instant :
    w.instant.toMillis.seconds = w.localSeconds - 60 * w.offset.ahead ∧
      w.instant.toMillis.nanos = Text.number (firstDigits 3 w.fraction) * nanosPerMilli +
        if w.second = 60 then nanosPerSecond else 0 := by
  refine ⟨rfl, ?_⟩
  have hmillis := fractionNanos_div w.isDigit_fraction
  have hnanos : w.instant.toMillis.nanos = w.nanos - w.nanos % nanosPerMilli := rfl
  rw [hnanos, nanos, ← hmillis]
  split
  · unfold nanosPerSecond nanosPerMilli
    omega
  · rfl

/-! ## Blanks around a date and time of day -/

theorem exists_ends_text :
    ∃ first middle last, w.text = first :: (middle ++ [last]) ∧ Text.isBlank first = false ∧
      Text.isBlank last = false := by
  obtain ⟨first, front, next, hfront, hfirst, -⟩ := w.date.exists_ends_text
  obtain ⟨back, last, hback, hlast⟩ := w.offset.exists_last_text
  obtain ⟨inner, hinner⟩ : ∃ inner, w.text = w.date.text ++ (inner ++ w.offset.text) :=
    ⟨w.separator :: Text.padded 2 w.hour ++ ':' :: Text.padded 2 w.minute ++
      ':' :: Text.padded 2 w.second ++ fractionText w.fraction, by simp [text]⟩
  exact ⟨first, front ++ next :: (inner ++ back), last, by simp [hinner, hfront, hback], hfirst,
    hlast⟩

/-- A date and time of day may have any blanks around it. -/
theorem trim_text {before after : List Char} (hbefore : ∀ c ∈ before, Text.isBlank c = true)
    (hafter : ∀ c ∈ after, Text.isBlank c = true) :
    (Text.trim (String.ofList (before ++ w.text ++ after))).toList = w.text := by
  obtain ⟨first, middle, last, htext, hfirst, hlast⟩ := w.exists_ends_text
  rw [htext, Text.trim_ofList_between hbefore hafter hfirst hlast, String.toList_ofList]

end WrittenTime
end ConversationSearch.Time
