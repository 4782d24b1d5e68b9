import ConversationSearch.Proofs.Documents.RoundTrip

/-!
# Dates in milliseconds

A date may be given as a number of milliseconds since the start of 1970. It is decoded exactly where
there is an instant so many milliseconds after, or before, the start of 1970: where the instant lies
in the years of instants, which is well within sixty-four bits. Later numbers are later instants, and
the text of the instant, where its year has four digits, is decoded as the number is.
-/

namespace ConversationSearch.Time.Instant

open Json (Decoder toReading)

/-- The instant is the given number of milliseconds after the start of 1970, counted in nanoseconds,
and in no leap second. -/
structure IsAtMillis (t : Instant) (n : Int) : Prop where
  elapsed : t.seconds * nanosPerSecond + t.nanos = n * nanosPerMilli
  nanos_lt : t.nanos < nanosPerSecond

/-- The milliseconds of a day. -/
def millisPerDay : Int := 86400000

/-- The day in UTC on which a number of milliseconds since the start of 1970 have passed. -/
def dateOfMillis (n : Int) : Date :=
  Date.ofDays (n / millisPerDay)

variable {t u : Instant} {m n : Int}

/-- The second is the last one that has begun, also before 1970. -/
theorem isAtMillis_iff :
    t.IsAtMillis n ↔ t.seconds = n / 1000 ∧ t.nanos = (n % 1000).toNat * nanosPerMilli := by
  have hsecond : (nanosPerSecond : Int) = 1000000000 := rfl
  have hmilli : (nanosPerMilli : Int) = 1000000 := rfl
  constructor
  · rintro ⟨helapsed, hnanos⟩
    rw [hsecond, hmilli] at helapsed
    unfold nanosPerSecond at hnanos
    unfold nanosPerMilli
    omega
  · rintro ⟨hseconds, hnanos⟩
    unfold nanosPerMilli at hnanos
    refine ⟨?_, by unfold nanosPerSecond; omega⟩
    rw [hsecond, hmilli]
    omega

theorem IsAtMillis.leapEndsMinute (ht : t.IsAtMillis n) :
    t.LeapEndsMinute :=
  leapEndsMinute_of_lt ht.nanos_lt

theorem ofEpochMillis?_eq_some_iff :
    ofEpochMillis? n = some t ↔ t.IsAtMillis n := by
  rw [ofEpochMillis?, of?_eq_some_iff, ← and_assoc, ← isAtMillis_iff]
  exact and_iff_left_of_imp IsAtMillis.leapEndsMinute

/-- Numbers of milliseconds are in the order of the instants. -/
theorem IsAtMillis.lt_iff (ht : t.IsAtMillis m) (hu : u.IsAtMillis n) :
    t < u ↔ m < n := by
  obtain ⟨hseconds, hnanos⟩ := isAtMillis_iff.mp ht
  obtain ⟨hseconds', hnanos'⟩ := isAtMillis_iff.mp hu
  unfold nanosPerMilli at hnanos hnanos'
  rw [Instant.lt_iff]
  omega

theorem IsAtMillis.eq_iff (ht : t.IsAtMillis m) (hu : u.IsAtMillis n) :
    t = u ↔ m = n := by
  obtain ⟨hseconds, hnanos⟩ := isAtMillis_iff.mp ht
  obtain ⟨hseconds', hnanos'⟩ := isAtMillis_iff.mp hu
  unfold nanosPerMilli at hnanos hnanos'
  rw [Instant.eq_iff]
  omega

theorem IsAtMillis.toMillis_eq (ht : t.IsAtMillis n) :
    t.toMillis = t := by
  rw [toMillis_eq_self_iff, (isAtMillis_iff.mp ht).2, Nat.mul_mod_left]

theorem date_eq (ht : t.IsAtMillis n) :
    t.date = dateOfMillis n := by
  have hday : t.seconds / secondsPerDay = n / millisPerDay := by
    rw [(isAtMillis_iff.mp ht).1]
    unfold secondsPerDay millisPerDay
    omega
  rw [date, hday, dateOfMillis]

/-- The numbers for which there is an instant. -/
theorem exists_isAtMillis_iff :
    (∃ t : Instant, t.IsAtMillis n) ↔
      -262143 ≤ (dateOfMillis n).year ∧ (dateOfMillis n).year ≤ 262142 := by
  have hreal : (dateOfMillis n).isReal = true := Date.isReal_ofDays _
  have hlow := Date.newYear_le_iff hreal (-262143)
  have hhigh := Date.newYear_le_iff hreal 262143
  have hfirst : Date.newYear (-262143) * 86400 = firstSecond := by decide
  have hlast : Date.newYear 262143 * 86400 = lastSecond + 1 := by decide
  have hdays : (dateOfMillis n).toDays = n / millisPerDay := Date.toDays_ofDays _
  rw [hdays] at hlow hhigh
  unfold millisPerDay at hlow hhigh
  constructor
  · rintro ⟨t, ht⟩
    have hseconds := (isAtMillis_iff.mp ht).1
    have hbefore := t.first_le
    have hafter := t.le_last
    omega
  · intro hyear
    have hnanos : (n % 1000).toNat * nanosPerMilli < nanosPerSecond := by
      unfold nanosPerMilli nanosPerSecond
      omega
    exact ⟨⟨n / 1000, (n % 1000).toNat * nanosPerMilli, by omega, by omega, by omega⟩,
      isAtMillis_iff.mpr ⟨rfl, rfl⟩⟩

/-- An instant is within sixty-four bits of milliseconds. -/
theorem IsAtMillis.bounds (ht : t.IsAtMillis n) :
    -2 ^ 63 ≤ n ∧ n < 2 ^ 63 := by
  have hseconds := (isAtMillis_iff.mp ht).1
  have hbefore := t.first_le
  have hafter := t.le_last
  unfold firstSecond lastSecond at *
  omega

/-! ## Decoding a number -/

theorem decoder_int (source : Json.Source) (n : Int) :
    Instant.decoder source (toReading (.int n)) = .ok t ↔ t.IsAtMillis n := by
  change (if maxMillis < n then _ else _) = _ ↔ _
  by_cases hlarge : maxMillis < n
  · rw [if_pos hlarge]
    simp only [reduceCtorEq, false_iff]
    intro ht
    have hbound := ht.bounds.2
    unfold maxMillis at hlarge
    omega
  · rw [if_neg hlarge, ← ofEpochMillis?_eq_some_iff]
    cases ofEpochMillis? n <;> simp

/-- The text of an integer beyond sixty-four bits is read as no integer, and so as no date. -/
theorem decoder_inexact (hn : ¬(Json.Number.int n).IsExact) :
    Instant.decoder .text (Json.Reading.read (Json.int n).compactChars).1 ≠ .ok t := by
  obtain ⟨r, hread, hr⟩ := Json.Reading.read_inexact hn
  rw [hread]
  rcases hr with ⟨d, rfl⟩ | ⟨fault, rfl⟩ <;> simp [Instant.decoder]

theorem attempts_int {result : Except Json.Failure Instant}
    (hresult : result ∈ Instant.decoder.attempts (.int n)) :
    result = .ok t ↔ t.IsAtMillis n := by
  by_cases hn : (Json.Number.int n).IsExact
  · have hlegible : (Json.int n).IsLegible 0 := hn
    obtain ⟨source, rfl⟩ := Decoder.exists_source hlegible hresult
    exact decoder_int source n
  · have hinexact := decoder_inexact (t := t) hn
    have hnone : ¬t.IsAtMillis n := by
      intro ht
      apply hn
      have hbounds := ht.bounds
      unfold Json.Number.IsExact Json.Numeral.leastMagnitude Json.Numeral.maxSignificand
      omega
    simp only [Decoder.attempts, List.mem_cons, List.not_mem_nil, or_false] at hresult
    rcases hresult with rfl | rfl | rfl | rfl
    · exact decoder_int .value n
    · exact decoder_int .buffer n
    · refine iff_of_false (fun h => ?_) hnone
      obtain ⟨found, hfound, h⟩ := bind_eq_ok.mp h
      rw [Json.compact, String.toList_ofList] at hfound
      obtain ⟨⟨⟩, -, h⟩ := bind_eq_ok.mp h
      obtain rfl : found = t := Except.ok.inj h
      exact hinexact hfound
    · rw [Decoder.ofFront, Json.compact, String.toList_ofList]
      exact iff_of_false hinexact hnone

/-! ## Numbers and texts -/

/-- A number is decoded as a date, from its value and from its text, exactly where it fits sixty-four
bits and the instant that many milliseconds after the start of 1970 lies in the years of instants,
and then as this instant: its second is the last one that has begun, before 1970 too, and its
nanoseconds are those of the milliseconds that are left. Numbers and instants have the same order.
Where the year of the instant has four digits, its text is decoded as the number is. -/
theorem epoch_millis_denote (n : Int) :
    (∀ result ∈ Instant.decoder.attempts (.int n), ∀ t, result = .ok t ↔ t.IsAtMillis n) ∧
    ((∃ t : Instant, t.IsAtMillis n) ↔ (-2 ^ 63 ≤ n ∧ n < 2 ^ 63) ∧
      -262143 ≤ (dateOfMillis n).year ∧ (dateOfMillis n).year ≤ 262142) ∧
    ∀ t : Instant, t.IsAtMillis n →
      (t.seconds * 1000 ≤ n ∧ n < (t.seconds + 1) * 1000 ∧
        t.nanos = (n - t.seconds * 1000) * nanosPerMilli) ∧
      (∀ m u, u.IsAtMillis m → (u < t ↔ m < n) ∧ (u = t ↔ m = n)) ∧
      t.date = dateOfMillis n ∧
      (0 ≤ t.date.year ∧ t.date.year ≤ 9999 →
        ∀ result ∈ Instant.decoder.attempts (.string t.text), result = .ok t) := by
  refine ⟨fun result hresult t => attempts_int hresult, ?_, fun t ht => ⟨?_, ?_, ?_, ?_⟩⟩
  · constructor
    · rintro ⟨t, ht⟩
      exact ⟨ht.bounds, exists_isAtMillis_iff.mp ⟨t, ht⟩⟩
    · rintro ⟨-, hyear⟩
      exact exists_isAtMillis_iff.mpr hyear
  · obtain ⟨hseconds, hnanos⟩ := isAtMillis_iff.mp ht
    have hmilli : (nanosPerMilli : Int) = 1000000 := rfl
    unfold nanosPerMilli at hnanos
    rw [hmilli]
    omega
  · exact fun m u hu => ⟨hu.lt_iff ht, hu.eq_iff ht⟩
  · exact date_eq ht
  · intro hyear result hresult
    have hlegible : (Json.string t.text).IsLegible 0 := trivial
    obtain ⟨source, hsource⟩ := Decoder.exists_source hlegible hresult
    rw [hsource, decoder_reads hyear source, asWritten_eq_self ht.leapEndsMinute, ht.toMillis_eq]

/-- The millisecond before 1970 is the last one of the second before. -/
example : ofEpochMillis? (-1) = of? (-1) 999000000 := by decide

end ConversationSearch.Time.Instant
