import ConversationSearch.Proofs.Time.Distinct

/-!
# Instants to the millisecond

An instant without what is below a millisecond is the last whole instant that is not later. It lies
in the same second, before 1970 too, and in a leap second where the instant does; so it never leaves
the years of instants. The text of an instant is cut off at the same place.
-/

namespace ConversationSearch.Time.Instant

variable {t u : Instant}

theorem toMillis_le (t : Instant) :
    t.toMillis ≤ t :=
  le_iff.mpr (.inr ⟨rfl, Nat.sub_le _ _⟩)

theorem nanos_lt_toMillis_add (t : Instant) :
    t.nanos < t.toMillis.nanos + nanosPerMilli := by
  have hrest : t.nanos % nanosPerMilli < nanosPerMilli := Nat.mod_lt _ (by decide)
  have hnanos : t.toMillis.nanos = t.nanos - t.nanos % nanosPerMilli := rfl
  omega

/-- The whole instants up to an instant are those up to its millisecond. -/
theorem le_toMillis_iff (hu : u.toMillis = u) :
    u ≤ t.toMillis ↔ u ≤ t := by
  have hwhole := toMillis_lt_iff (t := t) hu
  rw [lt_iff, lt_iff] at hwhole
  rw [le_iff, le_iff]
  omega

theorem le_trans (htu : t ≤ u) {v : Instant} (huv : u ≤ v) :
    t ≤ v := by
  rw [le_iff] at *
  omega

theorem toMillis_mono (h : t ≤ u) :
    t.toMillis ≤ u.toMillis :=
  (le_toMillis_iff t.toMillis_toMillis).mpr (le_trans t.toMillis_le h)

/-- An instant to the millisecond is again an instant. It lies in the same second, is a leap second
where the instant is one, is not later than the instant and less than a millisecond earlier, and is
whole: it is the last whole instant that is not later. What is whole already stays as it is, the
order of instants is kept, and both have the same text. -/
theorem toMillis_is_floor (t : Instant) :
    ofParts? t.seconds (t.nanos - t.nanos % nanosPerMilli) = some t.toMillis ∧
    t.toMillis.seconds = t.seconds ∧ t.toMillis.isLeap = t.isLeap ∧
    t.toMillis ≤ t ∧ t.nanos < t.toMillis.nanos + nanosPerMilli ∧
    t.toMillis.nanos % nanosPerMilli = 0 ∧
    (∀ u, u.toMillis = u → (u ≤ t.toMillis ↔ u ≤ t)) ∧
    t.toMillis.toMillis = t.toMillis ∧
    (∀ u, t ≤ u → t.toMillis ≤ u.toMillis) ∧
    t.text = t.toMillis.text := by
  have hinstant : ofParts? t.seconds (t.nanos - t.nanos % nanosPerMilli) = some t.toMillis :=
    ofParts?_eq_some_iff.mpr ⟨rfl, rfl⟩
  have hwhole : t.toMillis.nanos % nanosPerMilli = 0 :=
    toMillis_eq_self_iff.mp t.toMillis_toMillis
  refine ⟨hinstant, rfl, t.isLeap_toMillis, t.toMillis_le, t.nanos_lt_toMillis_add, hwhole, ?_,
    t.toMillis_toMillis, ?_, t.text_toMillis.symm⟩
  · exact fun u hu => le_toMillis_iff hu
  · exact fun u h => toMillis_mono h

/-- The last leap second of all is cut within itself, and the millisecond before 1970 begins within
the second before. -/
theorem first_and_last_floor :
    let last : Instant := ⟨lastSecond, 1999999999, by decide, by decide, by decide⟩
    let before : Instant := ⟨-1, 999999999, by decide, by decide, by decide⟩
    before ≤ last ∧ before.toMillis ≤ last.toMillis ∧
      (last.toMillis.seconds, last.toMillis.nanos) = (lastSecond, 1999000000) ∧
      (before.toMillis.seconds, before.toMillis.nanos) = (-1, 999000000) := by
  intro last before
  have hle : before ≤ last := by decide
  obtain ⟨-, -, -, -, -, -, -, -, hmono, -⟩ := before.toMillis_is_floor
  exact ⟨hle, hmono last hle, by decide, by decide⟩

end ConversationSearch.Time.Instant
