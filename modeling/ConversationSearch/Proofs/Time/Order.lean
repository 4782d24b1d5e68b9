import ConversationSearch.Time.Instant

/-!
# Instants and their order

An instant is made of its seconds and the nanoseconds within the second. Instants are ordered by the
first and then by the second.

An instant is whole when nothing of it is below a millisecond. Between two instants that are equal
to the millisecond there is no whole one but the first of them.
-/

namespace ConversationSearch.Time.Instant

section Parts

variable {seconds : Int} {nanos : Nat} {t : Instant}

theorem ofParts?_eq_some_iff :
    ofParts? seconds nanos = some t ↔ t.seconds = seconds ∧ t.nanos = nanos := by
  constructor
  · intro h
    unfold ofParts? at h
    split at h
    · obtain rfl := Option.some.inj h
      exact ⟨rfl, rfl⟩
    · contradiction
  · rintro ⟨rfl, rfl⟩
    exact dif_pos ⟨t.first_le, t.le_last, t.nanos_lt⟩

theorem of?_eq_some_iff :
    of? seconds nanos = some t ↔ t.seconds = seconds ∧ t.nanos = nanos ∧ t.LeapEndsMinute := by
  rw [of?, Option.filter_eq_some_iff, ofParts?_eq_some_iff, decide_eq_true_iff, and_assoc]

end Parts

/-- An instant in no leap second. -/
theorem leapEndsMinute_of_lt {t : Instant} (h : t.nanos < nanosPerSecond) :
    t.LeapEndsMinute :=
  fun hleap => absurd hleap (Nat.not_le_of_lt h)

theorem lt_iff {a b : Instant} :
    a < b ↔ a.seconds < b.seconds ∨ a.seconds = b.seconds ∧ a.nanos < b.nanos :=
  Iff.rfl

theorem le_iff {a b : Instant} :
    a ≤ b ↔ a.seconds < b.seconds ∨ a.seconds = b.seconds ∧ a.nanos ≤ b.nanos :=
  Iff.rfl

theorem eq_iff {a b : Instant} :
    a = b ↔ a.seconds = b.seconds ∧ a.nanos = b.nanos := by
  cases a
  cases b
  simp

theorem eq_iff_le_and_ge {a b : Instant} :
    a = b ↔ b ≤ a ∧ a ≤ b := by
  rw [eq_iff, le_iff, le_iff]
  omega

/-! ## Whole milliseconds -/

section Whole

variable {t u : Instant}

/-- What is below a millisecond does not tell whether an instant lies in a leap second. -/
theorem nanosPerSecond_le_toMillis_iff :
    nanosPerSecond ≤ t.toMillis.nanos ↔ nanosPerSecond ≤ t.nanos := by
  have hnanos : t.toMillis.nanos = t.nanos - t.nanos % nanosPerMilli := rfl
  rw [hnanos]
  unfold nanosPerSecond nanosPerMilli
  omega

theorem leapEndsMinute_toMillis_iff :
    t.toMillis.LeapEndsMinute ↔ t.LeapEndsMinute :=
  imp_congr_left nanosPerSecond_le_toMillis_iff

theorem toMillis_eq_self_iff :
    t.toMillis = t ↔ t.nanos % nanosPerMilli = 0 := by
  have hle : t.nanos % nanosPerMilli ≤ t.nanos := Nat.mod_le _ _
  have hseconds : t.toMillis.seconds = t.seconds := rfl
  have hnanos : t.toMillis.nanos = t.nanos - t.nanos % nanosPerMilli := rfl
  rw [eq_iff, hseconds, hnanos]
  omega

/-- A whole instant is later than another one exactly where it is later to the millisecond. -/
theorem toMillis_lt_iff (hu : u.toMillis = u) :
    t.toMillis < u ↔ t < u := by
  have hwhole := toMillis_eq_self_iff.mp hu
  have hseconds : t.toMillis.seconds = t.seconds := rfl
  have hnanos : t.toMillis.nanos = t.nanos - t.nanos % nanosPerMilli := rfl
  unfold nanosPerMilli at hwhole hnanos
  rw [lt_iff, lt_iff, hseconds, hnanos]
  omega

/-- A whole instant is earlier than another one to the millisecond exactly where it is earlier and
not the very instant to which the other one is cut. -/
theorem lt_toMillis_iff (hu : u.toMillis = u) :
    u < t.toMillis ↔ u < t ∧ u ≠ t.toMillis := by
  have hwhole := toMillis_eq_self_iff.mp hu
  have hseconds : t.toMillis.seconds = t.seconds := rfl
  have hnanos : t.toMillis.nanos = t.nanos - t.nanos % nanosPerMilli := rfl
  unfold nanosPerMilli at hwhole hnanos
  rw [lt_iff, lt_iff, Ne, eq_iff, hseconds, hnanos]
  omega

end Whole

end ConversationSearch.Time.Instant
