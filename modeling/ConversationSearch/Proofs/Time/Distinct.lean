import ConversationSearch.Proofs.Time.Stamp
import ConversationSearch.Proofs.Time.Order

/-!
# Different instants have different texts

The text of an instant shows its year, whatever its sign and length, and the other parts of its date
and time of day at fixed places behind it. So two instants have one text exactly when they are the
same to the millisecond as they are written.
-/

namespace ConversationSearch.Time

theorem padded_append_inj {width m n : Nat} {rest rest' : List Char} (hm : m < 10 ^ width)
    (hn : n < 10 ^ width) (h : Text.padded width m ++ rest = Text.padded width n ++ rest') :
    m = n ∧ rest = rest' := by
  have htaken := congrArg (takeDigits width) h
  rw [takeDigits_padded width hm, takeDigits_padded width hn] at htaken
  exact Prod.mk.inj (Option.some.inj htaken)

theorem padded_cons_inj {width m n : Nat} {c : Char} {rest rest' : List Char}
    (hm : m < 10 ^ width) (hn : n < 10 ^ width)
    (h : Text.padded width m ++ c :: rest = Text.padded width n ++ c :: rest') :
    m = n ∧ rest = rest' := by
  obtain ⟨heq, hrest⟩ := padded_append_inj hm hn h
  exact ⟨heq, (List.cons.inj hrest).2⟩

/-- A year is seen from its text. -/
theorem yearText_inj {a b : Int} (h : yearText a = yearText b) :
    a = b := by
  obtain ⟨c, cs, ha, hheadA⟩ := Instant.exists_head_yearText a
  obtain ⟨d, ds, hb, hheadB⟩ := Instant.exists_head_yearText b
  obtain ⟨rfl, rfl⟩ : c = d ∧ cs = ds := by
    rw [ha, hb] at h
    exact List.cons.inj h
  by_cases hplainA : 0 ≤ a ∧ a ≤ 9999 <;> by_cases hplainB : 0 ≤ b ∧ b ≤ 9999
  · unfold yearText at h
    rw [if_pos hplainA, if_pos hplainB] at h
    have hnumber := congrArg Text.number h
    have hboundA : a.toNat < Nat.pow 10 4 := by
      change a.toNat < 10000
      omega
    have hboundB : b.toNat < Nat.pow 10 4 := by
      change b.toNat < 10000
      omega
    rw [Text.number_padded hboundA, Text.number_padded hboundB] at hnumber
    omega
  · rw [if_pos hplainA] at hheadA
    rw [if_neg hplainB] at hheadB
    rcases hheadB with rfl | rfl <;> contradiction
  · rw [if_neg hplainA] at hheadA
    rw [if_pos hplainB] at hheadB
    rcases hheadA with rfl | rfl <;> contradiction
  · unfold yearText at h
    rw [if_neg hplainA, if_neg hplainB] at h
    obtain ⟨hsign, hdigits⟩ := List.cons.inj h
    have hnumber := congrArg Text.number hdigits
    rw [Text.number_atLeast, Text.number_atLeast] at hnumber
    have hnegative : a < 0 ↔ b < 0 := by
      by_cases hnegA : a < 0 <;> by_cases hnegB : b < 0 <;> simp [hnegA, hnegB] at hsign ⊢
    omega

namespace Instant

variable {t u : Instant}

/-- What stands behind the year. -/
def behindYear (t : Instant) : List Char :=
  '-' :: (Text.padded 2 t.date.month ++ '-' :: (Text.padded 2 t.date.day ++
    'T' :: (Text.padded 2 (t.secondOfDay / 3600) ++ ':' :: (Text.padded 2 (t.secondOfDay / 60 % 60) ++
    ':' :: (Text.padded 2 t.writtenSecond ++
    '.' :: (Text.padded 3 (t.nanosOfSecond / nanosPerMilli) ++ ['Z']))))))

theorem textWithPlaces_three (t : Instant) :
    t.textWithPlaces 3 = yearText t.date.year ++ t.behindYear := by
  rw [textWithPlaces_eq]
  simp only [behindYear, List.append_assoc, List.cons_append]
  rfl

theorem length_behindYear (t : Instant) :
    t.behindYear.length = 20 := by
  simp [behindYear, Text.length_padded]

theorem month_lt (t : Instant) :
    t.date.month < 100 := by
  have hmonth := Date.month_ofDays (t.seconds / secondsPerDay)
  unfold date
  omega

theorem day_lt (t : Instant) :
    t.date.day < 100 := by
  have hday := Date.day_ofDays (t.seconds / secondsPerDay)
  unfold date
  omega

theorem millis_lt (t : Instant) :
    t.nanosOfSecond / nanosPerMilli < 1000 := by
  have hnanos := t.nanosOfSecond_lt
  unfold nanosPerSecond at hnanos
  unfold nanosPerMilli
  omega

/-- The parts of the date and the time of day, to the millisecond. -/
structure SameParts (t u : Instant) : Prop where
  date : t.date = u.date
  hour : t.secondOfDay / 3600 = u.secondOfDay / 3600
  minute : t.secondOfDay / 60 % 60 = u.secondOfDay / 60 % 60
  second : t.writtenSecond = u.writtenSecond
  millis : t.nanosOfSecond / nanosPerMilli = u.nanosOfSecond / nanosPerMilli

theorem sameParts_of_text_eq (h : t.text = u.text) :
    SameParts t u := by
  have hchars : t.textWithPlaces 3 = u.textWithPlaces 3 := by
    simpa [text] using congrArg String.toList h
  rw [textWithPlaces_three, textWithPlaces_three] at hchars
  have hlength : t.behindYear.length = u.behindYear.length := by
    rw [length_behindYear, length_behindYear]
  obtain ⟨hyear, hbehind⟩ := List.append_inj' hchars hlength
  have hdayT := t.secondOfDay_lt
  have hdayU := u.secondOfDay_lt
  have hsecondT := t.writtenSecond_le
  have hsecondU := u.writtenSecond_le
  obtain ⟨-, hrest⟩ := List.cons.inj hbehind
  obtain ⟨hmonth, hrest⟩ := padded_cons_inj t.month_lt u.month_lt hrest
  obtain ⟨hday, hrest⟩ := padded_cons_inj t.day_lt u.day_lt hrest
  obtain ⟨hhour, hrest⟩ := padded_cons_inj (by omega) (by omega) hrest
  obtain ⟨hminute, hrest⟩ := padded_cons_inj (by omega) (by omega) hrest
  obtain ⟨hsecond, hrest⟩ := padded_cons_inj (by omega) (by omega) hrest
  obtain ⟨hmillis, -⟩ := padded_append_inj t.millis_lt u.millis_lt hrest
  have hdate : t.date = u.date := by
    have hyears := yearText_inj hyear
    cases hcT : t.date
    cases hcU : u.date
    simp_all
  exact ⟨hdate, hhour, hminute, hsecond, hmillis⟩

namespace SameParts

variable (h : SameParts t u) (ht : t.LeapEndsMinute) (hu : u.LeapEndsMinute)
include h ht hu

theorem seconds_eq :
    t.seconds = u.seconds := by
  have hdays : t.seconds / secondsPerDay = u.seconds / secondsPerDay := by
    rw [← toDays_date, ← toDays_date, h.date]
  have hlast : t.secondOfDay % 60 = u.secondOfDay % 60 := by
    rw [← min_writtenSecond ht, ← min_writtenSecond hu, h.second]
  have hhour := h.hour
  have hminute := h.minute
  unfold secondOfDay secondsPerDay at *
  omega

theorem toMillis_eq :
    t.toMillis = u.toMillis := by
  have hnanos : t.toMillis.nanos = u.toMillis.nanos := by
    have hunit : placeUnit 3 = nanosPerMilli := rfl
    have hT := t.nanos_truncated ht 3
    have hU := u.nanos_truncated hu 3
    rw [hunit, truncated_three] at hT hU
    rw [← hT, ← hU, h.second, h.millis]
  exact eq_iff.mpr ⟨h.seconds_eq ht hu, hnanos⟩

end SameParts

theorem isLeap_toMillis (t : Instant) :
    t.toMillis.isLeap = t.isLeap := by
  simp only [isLeap, nanosPerSecond_le_toMillis_iff]

/-- The text does not show what is below a millisecond. -/
theorem text_toMillis (t : Instant) :
    t.toMillis.text = t.text := by
  have hdate : t.toMillis.date = t.date := rfl
  have hday : t.toMillis.secondOfDay = t.secondOfDay := rfl
  have hleap := t.isLeap_toMillis
  have hmillis : t.toMillis.nanosOfSecond / nanosPerMilli = t.nanosOfSecond / nanosPerMilli := by
    have hlarge := t.isLeap_iff
    have hnanos : t.toMillis.nanos = t.nanos - t.nanos % nanosPerMilli := rfl
    simp only [nanosOfSecond, hleap, hnanos]
    by_cases h : t.isLeap = true
    · have := hlarge.mp h
      rw [if_pos h, if_pos h]
      unfold nanosPerSecond nanosPerMilli at *
      omega
    · rw [if_neg h, if_neg h]
      unfold nanosPerMilli
      omega
  simp only [text, textWithPlaces_three, behindYear, writtenSecond, hdate, hday, hleap, hmillis]

/-- Two instants have the same text exactly when they are the same to the millisecond, a leap second
within its minute being the second that follows. -/
theorem text_eq_iff :
    t.text = u.text ↔ t.asWritten.toMillis = u.asWritten.toMillis := by
  rw [← t.text_asWritten, ← u.text_asWritten]
  constructor
  · intro h
    exact (sameParts_of_text_eq h).toMillis_eq t.leapEndsMinute_asWritten u.leapEndsMinute_asWritten
  · intro h
    rw [← t.asWritten.text_toMillis, h, u.asWritten.text_toMillis]

end Instant
end ConversationSearch.Time
