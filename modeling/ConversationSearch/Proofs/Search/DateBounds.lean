import ConversationSearch.Proofs.Search.Conditions

/-!
# Bounds on the date

The bounds that filters ask for are cut to the millisecond, at which the index keeps dates. Cutting a
lower bound changes nothing for a date that is whole, however the bound lies to the start of 1970 or
within a leap second. Cutting an upper bound loses one date, the very one to which the bound is cut.
So no date is let through that the filters, taken to the nanosecond, would keep out.
-/

namespace ConversationSearch

namespace Filters

variable (f : Filters)

/-- A date is as the filters ask, taken to the nanosecond; only for the instant that is asked for
itself a millisecond is exact enough. -/
structure AdmitsDate (d : Time.Instant) : Prop where
  after : ∀ t, f.after = some t → t < d
  before : ∀ t, f.before = some t → d < t
  during : ∀ t, f.during = some t → d = t.toMillis

/-- A date is the one that is lost when the upper bound is cut. -/
def Loses (d : Time.Instant) : Prop :=
  ∃ t, f.before = some t ∧ t.toMillis ≠ t ∧ d = t.toMillis

theorem isUnbounded_dateBounds_iff :
    f.dateBounds.isUnbounded = true ↔ f.before = none ∧ f.after = none ∧ f.during = none := by
  simp only [DateBounds.isUnbounded, dateBounds, Option.isNone_map, Bool.and_eq_true,
    Option.isNone_iff_eq_none]
  constructor
  · rintro ⟨⟨⟨hafter, hduring⟩, hbefore⟩, -⟩
    exact ⟨hbefore, hafter, hduring⟩
  · rintro ⟨hbefore, hafter, hduring⟩
    exact ⟨⟨⟨hafter, hduring⟩, hbefore⟩, hduring⟩

variable {f} {d : Time.Instant}

theorem AdmitsDate.of_contains (hd : d.toMillis = d) (h : f.dateBounds.contains d = true) :
    f.AdmitsDate d := by
  obtain ⟨hbefore, hafter, hduring⟩ := (f.contains_dateBounds_iff d).mp h
  exact
    { after := fun t ht => (Time.Instant.toMillis_lt_iff hd).mp (hafter t ht)
      before := fun t ht => ((Time.Instant.lt_toMillis_iff hd).mp (hbefore t ht)).1
      during := hduring }

/-- A date that is lost is before the bound, but not before what the bound is cut to. -/
theorem Loses.not_contains (h : f.Loses d) :
    f.dateBounds.contains d = false := by
  obtain ⟨t, ht, -, rfl⟩ := h
  rw [Bool.eq_false_iff]
  intro hcontains
  obtain ⟨hbefore, -, -⟩ := (f.contains_dateBounds_iff _).mp hcontains
  have hlt := Time.Instant.lt_iff.mp (hbefore t ht)
  omega

theorem AdmitsDate.contains (hd : d.toMillis = d) (h : f.AdmitsDate d) (hkept : ¬f.Loses d) :
    f.dateBounds.contains d = true := by
  have hbefore : ∀ t, f.before = some t → d < t.toMillis := by
    intro t ht
    refine (Time.Instant.lt_toMillis_iff hd).mpr ⟨h.before t ht, ?_⟩
    rintro rfl
    -- the bound is not whole: a whole one would be the date itself, which is before the bound
    refine hkept ⟨t, ht, ?_, rfl⟩
    intro hwhole
    have hlt := Time.Instant.lt_iff.mp (hwhole ▸ h.before t ht)
    omega
  exact (f.contains_dateBounds_iff d).mpr
    ⟨hbefore, fun t ht => (Time.Instant.toMillis_lt_iff hd).mpr (h.after t ht), h.during⟩

/-- The dates within the bounds are those that the filters admit, but for the one that is lost. There
are no bounds exactly where the filters say nothing of the date. -/
theorem dateBounds_admit (f : Filters) {d : Time.Instant} (hd : d.toMillis = d) :
    (f.dateBounds.contains d = true → f.AdmitsDate d) ∧
    (f.AdmitsDate d → (f.dateBounds.contains d = false ↔ f.Loses d)) ∧
    (f.dateBounds.isUnbounded = true ↔ f.before = none ∧ f.after = none ∧ f.during = none) := by
  refine ⟨AdmitsDate.of_contains hd, fun h => ⟨?_, Loses.not_contains⟩,
    f.isUnbounded_dateBounds_iff⟩
  intro hout
  by_cases hlost : f.Loses d
  · exact hlost
  · exact absurd (h.contains hd hlost) (by simp [hout])

/-- Both bounds lie in one leap second before 1970. The millisecond between them is let through, and
the one in which the upper bound lies, which is before the bound too, is lost. -/
theorem leap_second_bounds_admit :
    let after : Time.Instant := ⟨-1, 1498999999, by decide, by decide, by decide⟩
    let before : Time.Instant := ⟨-1, 1500000001, by decide, by decide, by decide⟩
    let between : Time.Instant := ⟨-1, 1499000000, by decide, by decide, by decide⟩
    let lost : Time.Instant := ⟨-1, 1500000000, by decide, by decide, by decide⟩
    let f : Filters := { after := some after, before := some before }
    (between.toMillis = between ∧ f.dateBounds.contains between = true ∧ f.AdmitsDate between) ∧
      lost.toMillis = lost ∧ f.AdmitsDate lost ∧ f.dateBounds.contains lost = false := by
  intro after before between lost f
  have hbetween : between.toMillis = between := by decide
  have hlost : lost.toMillis = lost := by decide
  have hcontains : f.dateBounds.contains between = true := by decide
  have hadmits : f.AdmitsDate lost := by
    refine ⟨?_, ?_, by simp [f]⟩
    · intro t ht
      obtain rfl := Option.some.inj ht
      decide
    · intro t ht
      obtain rfl := Option.some.inj ht
      decide
  obtain ⟨hwithin, -, -⟩ := f.dateBounds_admit hbetween
  obtain ⟨-, hexcept, -⟩ := f.dateBounds_admit hlost
  exact ⟨⟨hbetween, hcontains, hwithin hcontains⟩, hlost, hadmits,
    (hexcept hadmits).mpr ⟨before, rfl, by decide, by decide⟩⟩

end Filters
end ConversationSearch
