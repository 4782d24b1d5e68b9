import ConversationSearch.Proofs.Text.Digits
import ConversationSearch.Proofs.Time.Counting
import ConversationSearch.Proofs.Time.Order
import ConversationSearch.Time.Stamp

/-!
# Bare dates as they are read

A bare date is read with more than the four, two and two digits that are documented: its year may
have fewer digits, or a sign and any number of them, and its month and its day may have one digit
and blanks in front. A text is read as a bare date exactly when it is such a one for a day of the
calendar in the range of instants, and it stands for midnight of that day.
-/

namespace ConversationSearch.Time

/-! ## Characters and runs of digits -/

theorem takeChar_eq_some_iff {c : Char} {cs rest : List Char} :
    takeChar c cs = some rest ↔ cs = c :: rest := by
  cases cs with
  | nil => simp [takeChar]
  | cons d cs => simp [takeChar, eq_comm]

theorem takeChar_cons (c : Char) (rest : List Char) :
    takeChar c (c :: rest) = some rest :=
  takeChar_eq_some_iff.mpr rfl

theorem takeWhile_take_run {ds rest : List Char} {limit : Nat} (hlength : ds.length ≤ limit)
    (hds : ∀ c ∈ ds, Text.isDigit c = true) (hrest : ∀ c ∈ rest.head?, Text.isDigit c = false) :
    ((ds ++ rest).take limit).takeWhile Text.isDigit = ds := by
  have hstop : (rest.take (limit - ds.length)).takeWhile Text.isDigit = [] := by
    cases rest with
    | nil => rw [List.take_nil, List.takeWhile_nil]
    | cons c rest =>
      cases limit - ds.length with
      | zero => rfl
      | succ more =>
        rw [List.take_succ_cons, List.takeWhile_cons_of_neg (by simp [hrest c rfl])]
  rw [List.take_append, List.take_of_length_le hlength, List.takeWhile_append_of_pos hds, hstop,
    List.append_nil]

theorem run_append_drop (limit : Nat) (cs : List Char) :
    (cs.take limit).takeWhile Text.isDigit ++
      cs.drop ((cs.take limit).takeWhile Text.isDigit).length = cs := by
  obtain ⟨rest, hrest⟩ := (List.takeWhile_prefix Text.isDigit).trans (List.take_prefix limit cs)
  generalize (cs.take limit).takeWhile Text.isDigit = run at hrest ⊢
  rw [← hrest, List.drop_left]

theorem length_run_le (limit : Nat) (cs : List Char) :
    ((cs.take limit).takeWhile Text.isDigit).length ≤ limit :=
  Nat.le_trans (List.takeWhile_prefix _).length_le (List.length_take_le limit cs)

/-! ## The parts of a bare date -/

/-- How the year of a bare date may be written: up to four digits, or a sign and any number of
digits. -/
inductive YearWritten : List Char → Int → Prop
  | plain {ds : List Char} (hne : ds ≠ []) (hlength : ds.length ≤ 4)
      (hds : ∀ c ∈ ds, Text.isDigit c = true) : YearWritten ds (Text.number ds)
  | minus {ds : List Char} (hne : ds ≠ []) (hds : ∀ c ∈ ds, Text.isDigit c = true) :
      YearWritten ('-' :: ds) (-(Text.number ds : Int))
  | plus {ds : List Char} (hne : ds ≠ []) (hds : ∀ c ∈ ds, Text.isDigit c = true) :
      YearWritten ('+' :: ds) (Text.number ds)

/-- How the month or the day of a bare date may be written: one or two digits, perhaps behind
blanks. -/
inductive PartWritten : List Char → Nat → Prop
  | mk {blanks ds : List Char} (hblanks : ∀ c ∈ blanks, Text.isBlank c = true) (hne : ds ≠ [])
      (hlength : ds.length ≤ 2) (hds : ∀ c ∈ ds, Text.isDigit c = true) :
      PartWritten (blanks ++ ds) (Text.number ds)

theorem trimStart_digits {ds : List Char} (hne : ds ≠ []) (hds : ∀ c ∈ ds, Text.isDigit c = true)
    (rest : List Char) :
    Text.trimStart (ds ++ rest) = ds ++ rest := by
  obtain ⟨d, ds, rfl⟩ := List.exists_cons_of_ne_nil hne
  have hblank := Text.isBlank_of_isDigit (hds d List.mem_cons_self)
  rw [List.cons_append, Text.trimStart_cons hblank]

theorem takePart_eq_some {front rest : List Char} {n : Nat} (h : PartWritten front n)
    (hrest : ∀ c ∈ rest.head?, Text.isDigit c = false) :
    takePart (front ++ rest) = some (n, rest) := by
  obtain ⟨hblanks, hne, hlength, hds⟩ := h
  next blanks ds =>
  have hstart : Text.trimStart (blanks ++ ds ++ rest) = ds ++ rest := by
    rw [List.append_assoc, Text.trimStart_append_of_blanks hblanks, trimStart_digits hne hds]
  simp only [takePart, hstart, takeWhile_take_run hlength hds hrest, List.drop_left]

theorem exists_of_takePart {cs rest : List Char} {n : Nat} (h : takePart cs = some (n, rest)) :
    ∃ front, PartWritten front n ∧ cs = front ++ rest := by
  simp only [takePart] at h
  split at h
  · contradiction
  · next hne =>
    obtain ⟨rfl, rfl⟩ := Prod.mk.inj (Option.some.inj h)
    refine ⟨cs.takeWhile Text.isBlank ++ ((Text.trimStart cs).take 2).takeWhile Text.isDigit,
      ⟨fun c hc => List.mem_takeWhile_imp hc, hne, length_run_le 2 _,
        fun c hc => List.mem_takeWhile_imp hc⟩, ?_⟩
    rw [List.append_assoc, run_append_drop, Text.trimStart, List.takeWhile_append_dropWhile]

theorem takeYear_eq_some {front : List Char} {year : Int} (h : YearWritten front year)
    (rest : List Char) :
    takeYear (front ++ '-' :: rest) = some (year, '-' :: rest) := by
  have hdash : Text.isDigit '-' = false := by decide
  unfold takeYear
  cases h with
  | minus hne hds | plus hne hds =>
    obtain ⟨d, ds, rfl⟩ := List.exists_cons_of_ne_nil hne
    rw [List.cons_append, Text.trimStart_cons (by decide)]
    simp only [Text.spanDigits_append hds hdash]
  | plain hne hlength hds =>
    have hrest : ∀ c ∈ ('-' :: rest).head?, Text.isDigit c = false := by
      intro c hc
      obtain rfl := Option.some.inj hc
      exact hdash
    have hrun := takeWhile_take_run hlength hds hrest
    rw [trimStart_digits hne hds]
    obtain ⟨d, ds, rfl⟩ := List.exists_cons_of_ne_nil hne
    have hd := hds d List.mem_cons_self
    split
    · next heq =>
      obtain ⟨rfl, -⟩ := List.cons.inj heq
      contradiction
    · next heq =>
      obtain ⟨rfl, -⟩ := List.cons.inj heq
      contradiction
    · simp only [hrun, List.drop_left]

theorem exists_of_takeYear {cs rest : List Char} {year : Int} (hcs : Text.trimStart cs = cs)
    (h : takeYear cs = some (year, rest)) :
    ∃ front, YearWritten front year ∧ cs = front ++ rest := by
  have hspan : ∀ {cs ds rest : List Char}, Text.spanDigits cs = (ds, rest) →
      (∀ c ∈ ds, Text.isDigit c = true) ∧ cs = ds ++ rest := by
    intro cs ds rest h
    obtain ⟨rfl, rfl⟩ := Prod.mk.inj h
    exact ⟨fun c hc => List.mem_takeWhile_imp hc, List.takeWhile_append_dropWhile.symm⟩
  rw [takeYear, hcs] at h
  split at h
  · next behind =>
    split at h
    · contradiction
    · next ds after hne hds =>
      obtain ⟨rfl, rfl⟩ := Prod.mk.inj (Option.some.inj h)
      obtain ⟨hdigits, rfl⟩ := hspan hds
      exact ⟨_, .minus hne hdigits, rfl⟩
  · next behind =>
    split at h
    · contradiction
    · next ds after hne hds =>
      obtain ⟨rfl, rfl⟩ := Prod.mk.inj (Option.some.inj h)
      obtain ⟨hdigits, rfl⟩ := hspan hds
      exact ⟨_, .plus hne hdigits, rfl⟩
  · split at h
    · contradiction
    · next hne =>
      obtain ⟨rfl, rfl⟩ := Prod.mk.inj (Option.some.inj h)
      exact ⟨_, .plain hne (length_run_le 4 _) fun c hc => List.mem_takeWhile_imp hc,
        (run_append_drop 4 _).symm⟩

/-- A text is a bare date for a day of the calendar. -/
def IsBareDate (cs : List Char) (d : Date) : Prop :=
  d.isReal = true ∧ ∃ year month day, YearWritten year d.year ∧ PartWritten month d.month ∧
    PartWritten day d.day ∧ cs = year ++ '-' :: (month ++ '-' :: day)

/-- The characters of bare dates: digits, blanks and signs. -/
def isDateChar (c : Char) : Bool :=
  Text.isDigit c || Text.isBlank c || c == '-' || c == '+'

theorem YearWritten.isDateChar {cs : List Char} {year : Int} (h : YearWritten cs year) :
    ∀ c ∈ cs, isDateChar c = true := by
  have hdigits : ∀ {ds : List Char}, (∀ c ∈ ds, Text.isDigit c = true) →
      ∀ c ∈ ds, Time.isDateChar c = true := by
    intro ds hds c hc
    simp [Time.isDateChar, hds c hc]
  cases h with
  | plain _ _ hds => exact hdigits hds
  | minus _ hds | plus _ hds => exact List.forall_mem_cons.mpr ⟨by decide, hdigits hds⟩

theorem PartWritten.isDateChar {cs : List Char} {n : Nat} (h : PartWritten cs n) :
    ∀ c ∈ cs, isDateChar c = true := by
  obtain ⟨hblanks, -, -, hds⟩ := h
  intro c hc
  rcases List.mem_append.mp hc with hc | hc
  · simp [Time.isDateChar, hblanks c hc]
  · simp [Time.isDateChar, hds c hc]

/-- A bare date has no time of day. -/
theorem IsBareDate.isDateChar {cs : List Char} {d : Date} (h : IsBareDate cs d) :
    ∀ c ∈ cs, isDateChar c = true := by
  obtain ⟨-, year, month, day, hyear, hmonth, hday, rfl⟩ := h
  have hdash : Time.isDateChar '-' = true := by decide
  intro c hc
  simp only [List.mem_append, List.mem_cons] at hc
  rcases hc with hc | rfl | hc | rfl | hc
  · exact hyear.isDateChar c hc
  · exact hdash
  · exact hmonth.isDateChar c hc
  · exact hdash
  · exact hday.isDateChar c hc

/-- The parts of a bare date, as they are taken off one after another. -/
theorem IsBareDate.exists_parts {cs : List Char} {d : Date} (hd : IsBareDate cs d) :
    ∃ behindYear behindMonth, takeYear cs = some (d.year, '-' :: behindYear) ∧
      takePart behindYear = some (d.month, '-' :: behindMonth) ∧
      takePart behindMonth = some (d.day, []) := by
  obtain ⟨-, year, month, day, hyear, hmonth, hday, rfl⟩ := hd
  have hdash : ∀ c ∈ ('-' :: day).head?, Text.isDigit c = false := by
    intro c hc
    obtain rfl := Option.some.inj hc
    decide
  have hnothing : ∀ c ∈ ([] : List Char).head?, Text.isDigit c = false := by
    intro c hc
    contradiction
  have hlast := takePart_eq_some hday hnothing
  rw [List.append_nil] at hlast
  exact ⟨_, _, takeYear_eq_some hyear _, takePart_eq_some hmonth hdash, hlast⟩

/-- A text is a bare date for one day only. -/
theorem IsBareDate.unique {cs : List Char} {d e : Date} (hd : IsBareDate cs d)
    (he : IsBareDate cs e) :
    d = e := by
  obtain ⟨behindYear, behindMonth, hyear, hmonth, hday⟩ := hd.exists_parts
  obtain ⟨behindYear', behindMonth', hyear', hmonth', hday'⟩ := he.exists_parts
  obtain ⟨hyears, hrest⟩ := Prod.mk.inj (Option.some.inj (hyear.symm.trans hyear'))
  obtain rfl := (List.cons.inj hrest).2
  obtain ⟨hmonths, hrest⟩ := Prod.mk.inj (Option.some.inj (hmonth.symm.trans hmonth'))
  obtain rfl := (List.cons.inj hrest).2
  obtain ⟨hdays, -⟩ := Prod.mk.inj (Option.some.inj (hday.symm.trans hday'))
  cases d
  cases e
  simp_all

/-! ## Midnight -/

/-- An instant is midnight UTC at the start of a day. -/
def Instant.IsMidnight (t : Instant) (d : Date) : Prop :=
  t.seconds = d.toDays * secondsPerDay ∧ t.nanos = 0

theorem Instant.IsMidnight.leapEndsMinute {t : Instant} {d : Date} (h : t.IsMidnight d) :
    t.LeapEndsMinute := by
  apply leapEndsMinute_of_lt
  rw [h.2]
  decide

/-- The days whose midnight is an instant are those of the years of instants. -/
theorem exists_isMidnight_iff {d : Date} (hd : d.isReal = true) :
    (∃ t : Instant, t.IsMidnight d) ↔ -262143 ≤ d.year ∧ d.year ≤ 262142 := by
  have hfirst : Date.newYear (-262143) * secondsPerDay = firstSecond := by decide
  have hlast : Date.newYear 262143 * secondsPerDay = lastSecond + 1 := by decide
  have hlow := Date.newYear_le_iff hd (-262143)
  have hhigh := Date.newYear_le_iff hd 262143
  have hday : secondsPerDay = 86400 := rfl
  rw [hday] at hfirst hlast
  constructor
  · rintro ⟨t, hseconds, -⟩
    have hbefore := t.first_le
    have hafter := t.le_last
    rw [hday] at hseconds
    omega
  · rintro ⟨hyear, hyear'⟩
    have hbefore := hlow.mpr hyear
    have hafter := mt hhigh.mp (by omega)
    exact ⟨⟨d.toDays * secondsPerDay, 0, by rw [hday]; omega, by rw [hday]; omega, by decide⟩,
      rfl, rfl⟩

/-- A text without blanks in front is read as a bare date exactly where it is one. -/
theorem readDate_eq_some_iff {cs : List Char} (hcs : Text.trimStart cs = cs) {t : Instant} :
    readDate cs = some t ↔ ∃ d, IsBareDate cs d ∧ t.IsMidnight d := by
  constructor
  · intro h
    obtain ⟨⟨year, _⟩, hyear, h⟩ := Option.bind_eq_some_iff.mp h
    obtain ⟨_, hdash, h⟩ := Option.bind_eq_some_iff.mp h
    obtain ⟨⟨month, _⟩, hmonth, h⟩ := Option.bind_eq_some_iff.mp h
    obtain ⟨_, hdash', h⟩ := Option.bind_eq_some_iff.mp h
    obtain ⟨⟨day, rest⟩, hday, hend⟩ := Option.bind_eq_some_iff.mp h
    obtain ⟨yearText, hyearText, rfl⟩ := exists_of_takeYear hcs hyear
    obtain rfl := takeChar_eq_some_iff.mp hdash
    obtain ⟨monthText, hmonthText, rfl⟩ := exists_of_takePart hmonth
    obtain rfl := takeChar_eq_some_iff.mp hdash'
    obtain ⟨dayText, hdayText, rfl⟩ := exists_of_takePart hday
    dsimp only at hend
    split at hend
    · next hbounds =>
      obtain ⟨hempty, hreal⟩ := hbounds
      obtain rfl := List.isEmpty_iff.mp hempty
      obtain ⟨hseconds, hnanos, -⟩ := Instant.of?_eq_some_iff.mp hend
      exact ⟨⟨year, month, day⟩, ⟨hreal, yearText, monthText, dayText, hyearText, hmonthText,
        hdayText, by rw [List.append_nil]⟩, hseconds, hnanos⟩
    · contradiction
  · rintro ⟨d, hd, ht⟩
    obtain ⟨behindYear, behindMonth, hyear, hmonth, hday⟩ := hd.exists_parts
    simp only [readDate, bind, Option.bind, hyear, takeChar_cons, hmonth, hday, List.isEmpty_nil,
      hd.1, and_self, if_true]
    exact Instant.of?_eq_some_iff.mpr ⟨ht.1, ht.2, ht.leapEndsMinute⟩

/-- A text with anything but digits, blanks and signs is no bare date. -/
theorem readDate_eq_none {cs : List Char} (hcs : Text.trimStart cs = cs) {c : Char} (hc : c ∈ cs)
    (hother : isDateChar c = false) :
    readDate cs = none := by
  apply Option.eq_none_iff_forall_ne_some.mpr
  intro t h
  obtain ⟨d, hd, -⟩ := (readDate_eq_some_iff hcs).mp h
  rw [hd.isDateChar c hc] at hother
  contradiction

end ConversationSearch.Time
