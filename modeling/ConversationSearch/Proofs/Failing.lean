/-!
# Steps that can fail

A sequence of steps succeeds when each of them does, and a success does not depend on what would be
said of a failure. A sequence that fails does so with the failure of the first step that fails. Two
sequences whose steps have like outcomes have like outcomes themselves.
-/

namespace ConversationSearch

theorem bind_eq_ok {x : Except ε α} {f : α → Except ε β} {b : β} :
    x >>= f = .ok b ↔ ∃ a, x = .ok a ∧ f a = .ok b := by
  constructor
  · intro h
    cases x with
    | error e => contradiction
    | ok a => exact ⟨a, rfl, h⟩
  · rintro ⟨a, rfl, h⟩
    exact h

theorem map_eq_ok {f : α → β} {x : Except ε α} {b : β} :
    f <$> x = .ok b ↔ ∃ a, x = .ok a ∧ f a = b := by
  constructor
  · intro h
    cases x with
    | error e => contradiction
    | ok a => exact ⟨a, rfl, Except.ok.inj h⟩
  · rintro ⟨a, rfl, rfl⟩
    rfl

theorem eq_ok_of_toOption {x : Except ε α} {a : α} (h : x.toOption = some a) :
    x = .ok a := by
  cases x with
  | error e => contradiction
  | ok b => exact congrArg Except.ok (Option.some.inj h)

theorem mapError_eq_ok {x : Except ε α} {describe : ε → δ} {a : α} :
    x.mapError describe = .ok a ↔ x = .ok a := by
  constructor
  · intro h
    cases x with
    | error e => contradiction
    | ok b =>
      obtain rfl : b = a := Except.ok.inj h
      rfl
  · rintro rfl
    rfl

theorem mapError_eq_error {x : Except ε α} {describe : ε → δ} {e : δ} :
    x.mapError describe = .error e ↔ ∃ found, x = .error found ∧ e = describe found := by
  constructor
  · intro h
    cases x with
    | error found => exact ⟨found, rfl, (Except.error.inj h).symm⟩
    | ok a => contradiction
  · rintro ⟨found, rfl, rfl⟩
    rfl

theorem bind_eq_error {x : Except ε α} {f : α → Except ε β} {e : ε} :
    x >>= f = .error e ↔ x = .error e ∨ ∃ a, x = .ok a ∧ f a = .error e := by
  constructor
  · intro h
    cases x with
    | error found =>
      obtain rfl : found = e := Except.error.inj h
      exact .inl rfl
    | ok a => exact .inr ⟨a, rfl, h⟩
  · rintro (rfl | ⟨a, rfl, h⟩)
    · rfl
    · exact h

/-! ## Two runs -/

/-- Both fail with the same failure, or both succeed and the results are related. -/
inductive Alike (R : α → β → Prop) : Except ε α → Except ε β → Prop
  | error (e : ε) : Alike R (.error e) (.error e)
  | ok {a : α} {b : β} (h : R a b) : Alike R (.ok a) (.ok b)

namespace Alike

theorem refl (x : Except ε α) :
    Alike Eq x x := by
  cases x with
  | error e => exact .error e
  | ok a => exact .ok rfl

theorem eq {x y : Except ε α} (h : Alike Eq x y) :
    x = y := by
  cases h with
  | error e => rfl
  | ok h => rw [h]

theorem bind {R : α → β → Prop} {S : γ → δ → Prop} {x : Except ε α} {y : Except ε β}
    {f : α → Except ε γ} {g : β → Except ε δ} (h : Alike R x y)
    (hnext : ∀ a b, R a b → Alike S (f a) (g b)) :
    Alike S (x >>= f) (y >>= g) := by
  cases h with
  | error e => exact .error e
  | ok h => exact hnext _ _ h

end Alike

/-! ## The same step for each item of a list -/

theorem forM_eq_ok {f : α → Except ε Unit} {xs : List α} :
    xs.forM f = .ok () ↔ ∀ x ∈ xs, f x = .ok () := by
  induction xs with
  | nil => simp [List.forM, pure, Except.pure]
  | cons x xs ih =>
    change (f x >>= fun _ => xs.forM f) = .ok () ↔ _
    rw [bind_eq_ok, List.forall_mem_cons]
    constructor
    · rintro ⟨⟨⟩, hx, hrest⟩
      exact ⟨hx, ih.mp hrest⟩
    · rintro ⟨hx, hrest⟩
      exact ⟨(), hx, ih.mpr hrest⟩

theorem forM_eq_error {f : α → Except ε Unit} {xs : List α} {e : ε} :
    xs.forM f = .error e ↔ ∃ before x after, xs = before ++ x :: after ∧
      (∀ y ∈ before, f y = .ok ()) ∧ f x = .error e := by
  constructor
  · intro h
    induction xs with
    | nil => contradiction
    | cons x xs ih =>
      change (f x >>= fun _ => xs.forM f) = .error e at h
      rcases bind_eq_error.mp h with hx | ⟨⟨⟩, hx, hrest⟩
      · exact ⟨[], x, xs, rfl, by simp, hx⟩
      · obtain ⟨before, y, after, rfl, hbefore, hy⟩ := ih hrest
        exact ⟨x :: before, y, after, rfl, List.forall_mem_cons.mpr ⟨hx, hbefore⟩, hy⟩
  · rintro ⟨before, x, after, rfl, hbefore, hx⟩
    induction before with
    | nil =>
      change (f x >>= fun _ => after.forM f) = .error e
      exact bind_eq_error.mpr (.inl hx)
    | cons y before ih =>
      obtain ⟨hy, hbefore⟩ := List.forall_mem_cons.mp hbefore
      change (f y >>= fun _ => (before ++ x :: after).forM f) = .error e
      exact bind_eq_error.mpr (.inr ⟨(), hy, ih hbefore⟩)

end ConversationSearch
