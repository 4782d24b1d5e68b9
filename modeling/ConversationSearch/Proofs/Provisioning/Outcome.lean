import ConversationSearch.Proofs.Provisioning.Course

/-!
# What the outcome for an index says

The outcome for an index says what the calls for it came to, neither more nor less: which of them
succeeded, and whether a failure ended the attempt. Each step of the preparation adds to the outcome
what its call came to. An index is deleted only after the engine has said that it is there.
-/

namespace ConversationSearch

/-- What an outcome says is what the calls for its index came to. -/
structure IndexOutcome.Reports (o : IndexOutcome) (log : List Answered) : Prop where
  replaced : o.replaced = true ↔ ⟨.deleteIndex o.index, .ok ()⟩ ∈ log
  created : o.created = true ↔ ∃ body reply, ⟨.createIndex o.index body, .ok reply⟩ ∈ log
  verification : ∀ v, o.verification = some v ↔
    ∃ live, ⟨.getMapping o.index, .ok live⟩ ∈ log ∧ v = o.entity.verify live
  error : o.error.isSome = true ↔ o.verification = none

/-- Each index that was to be deleted had been said to be there. -/
def DeletesChecked (log : List Answered) : Prop :=
  ∀ before index answer after, log = before ++ ⟨.deleteIndex index, answer⟩ :: after →
    ⟨.indexExists index, .ok true⟩ ∈ before

namespace IndexOutcome

/-! ## The outcome of one index -/

/-- Nothing has failed yet, and nothing was verified. -/
structure Pending (o : IndexOutcome) : Prop where
  error : o.error = none
  verification : o.verification = none

/-- An outcome adds to an earlier one what the calls in between came to. -/
structure Extends (o : IndexOutcome) (calls : List Answered) (outcome : IndexOutcome) : Prop where
  entity : outcome.entity = o.entity
  index : outcome.index = o.index
  about : ∀ a ∈ calls, a.call.index? = some o.index
  replaced : outcome.replaced = true ↔
    o.replaced = true ∨ ⟨.deleteIndex o.index, .ok ()⟩ ∈ calls
  created : outcome.created = true ↔
    o.created = true ∨ ∃ body reply, ⟨.createIndex o.index body, .ok reply⟩ ∈ calls
  verification : ∀ v, outcome.verification = some v ↔
    ∃ live, ⟨.getMapping o.index, .ok live⟩ ∈ calls ∧ v = o.entity.verify live
  error : outcome.error.isSome = true ↔ outcome.verification = none

section Extending

variable {o outcome : IndexOutcome} {calls : List Answered}

/-- A failed call ends the attempt. -/
theorem Extends.failed (ho : o.Pending) {call : Call} {answer : call.Answer}
    (habout : call.index? = some o.index)
    (hdelete : (⟨.deleteIndex o.index, .ok ()⟩ : Answered) ≠ ⟨call, answer⟩)
    (hcreate : ∀ body reply, (⟨.createIndex o.index body, .ok reply⟩ : Answered) ≠ ⟨call, answer⟩)
    (hmapping : ∀ live, (⟨.getMapping o.index, .ok live⟩ : Answered) ≠ ⟨call, answer⟩)
    (f : SearchFailure) :
    o.Extends [⟨call, answer⟩] (o.failed f) where
  entity := rfl
  index := rfl
  about := by simpa using habout
  replaced := by simp [IndexOutcome.failed, hdelete]
  created := by simp [IndexOutcome.failed, hcreate]
  verification := by simp [IndexOutcome.failed, hmapping, ho.verification]
  error := by simp [IndexOutcome.failed, ho.verification]

theorem Verified.extends (ho : o.Pending) (h : o.Verified calls outcome) :
    o.Extends calls outcome := by
  cases h with
  | unread f => exact .failed ho rfl (by simp) (by simp) (by simp) f
  | read live =>
    exact
      { entity := rfl
        index := rfl
        about := by simp [Call.index?]
        replaced := by simp
        created := by simp
        verification := by simp [eq_comm]
        error := by simp [ho.error] }

theorem Created.extends (ho : o.Pending) (h : o.Created calls outcome) :
    o.Extends calls outcome := by
  cases h with
  | refused f => exact .failed ho rfl (by simp) (by simp) (by simp) f
  | acknowledged reply hrest =>
    have hpending : Pending { o with created := true } := ⟨ho.error, ho.verification⟩
    have hrest := hrest.extends hpending
    have hcreated : outcome.created = true := hrest.created.mpr (.inl rfl)
    exact
      { entity := hrest.entity
        index := hrest.index
        about := by simpa [Call.index?] using hrest.about
        replaced := by simpa using hrest.replaced
        created := iff_of_true hcreated (.inr ⟨_, reply, List.mem_cons_self⟩)
        verification := by simpa using hrest.verification
        error := hrest.error }

theorem Replaced.extends (ho : o.Pending) (h : o.Replaced calls outcome) :
    o.Extends calls outcome := by
  cases h with
  | refused f => exact .failed ho rfl (by simp) (by simp) (by simp) f
  | deleted hrest =>
    have hpending : Pending { o with replaced := true } := ⟨ho.error, ho.verification⟩
    have hrest := hrest.extends hpending
    exact
      { entity := hrest.entity
        index := hrest.index
        about := by simpa [Call.index?] using hrest.about
        replaced := by simp [hrest.replaced]
        created := by simpa using hrest.created
        verification := by simpa using hrest.verification
        error := hrest.error }

/-- A call that says only whether an index is there adds nothing. -/
theorem Extends.indexExists (h : o.Extends calls outcome) (present : Bool) :
    o.Extends (⟨.indexExists o.index, .ok present⟩ :: calls) outcome where
  entity := h.entity
  index := h.index
  about := by simpa [Call.index?] using h.about
  replaced := by simpa using h.replaced
  created := by simpa using h.created
  verification := by simpa using h.verification
  error := h.error

theorem Prepared.extends (ho : o.Pending) (h : o.Prepared calls outcome) :
    o.Extends calls outcome := by
  cases h with
  | unknown f => exact .failed ho rfl (by simp) (by simp) (by simp) f
  | present hrest => exact (hrest.extends ho).indexExists true
  | absent hrest => exact (hrest.extends ho).indexExists false

end Extending

section Prepared

variable {s : IndexSettings} {e : Entity} {o outcome : IndexOutcome} {calls : List Answered}

theorem Extends.reports (h : (initial s e).Extends calls outcome) :
    outcome.Reports calls := by
  have hindex : outcome.index = (initial s e).index := h.index
  have hentity : outcome.entity = (initial s e).entity := h.entity
  constructor
  · rw [hindex]
    simpa [initial] using h.replaced
  · rw [hindex]
    simpa [initial] using h.created
  · rw [hindex, hentity]
    exact h.verification
  · exact h.error

/-- In a longer log the calls about other indices do not count. -/
theorem Extends.reports_within {log : List Answered} (h : (initial s e).Extends calls outcome)
    (hcalls : ∀ a ∈ calls, a ∈ log)
    (hrest : ∀ a ∈ log, a.call.index? = some (s.indexName e) → a ∈ calls) :
    outcome.Reports log := by
  have hindex : outcome.index = s.indexName e := h.index
  have hsame : ∀ a : Answered, a.call.index? = some outcome.index → (a ∈ calls ↔ a ∈ log) := by
    intro a ha
    rw [hindex] at ha
    exact ⟨hcalls a, fun hmem => hrest a hmem ha⟩
  constructor
  · rw [← hsame _ rfl]
    exact h.reports.replaced
  · simp only [← hsame ⟨.createIndex outcome.index _, _⟩ rfl]
    exact h.reports.created
  · simp only [← hsame ⟨.getMapping outcome.index, _⟩ rfl]
    exact h.reports.verification
  · exact h.error

end Prepared

end IndexOutcome

/-! ## Deleted indices -/

namespace DeletesChecked

theorem of_no_deletes {log : List Answered} (h : ∀ a ∈ log, ∀ i, a.call ≠ .deleteIndex i) :
    DeletesChecked log := by
  rintro before i answer after rfl
  exact absurd rfl (h ⟨.deleteIndex i, answer⟩ (by simp) i)

theorem append {log₁ log₂ : List Answered} (h₁ : DeletesChecked log₁)
    (h₂ : DeletesChecked log₂) :
    DeletesChecked (log₁ ++ log₂) := by
  intro before i answer after hlog
  rcases List.append_eq_append_iff.mp hlog with ⟨middle, rfl, htail⟩ | ⟨middle, hhead, htail⟩
  · exact List.mem_append_right _ (h₂ _ i answer after htail)
  · cases middle with
    | nil =>
      -- the deletion would be the first call of the second log, with no call in front to check it
      have hchecked := h₂ [] i answer after htail.symm
      contradiction
    | cons first middle =>
      obtain ⟨rfl, -⟩ := List.cons.inj htail
      exact h₁ before i answer middle hhead

/-- One deletion, right after the engine has said that the index is there. -/
theorem of_one {i : String} {answer : (Call.deleteIndex i).Answer} {rest : List Answered}
    (h : ∀ a ∈ rest, ∀ i, a.call ≠ .deleteIndex i) :
    DeletesChecked (⟨.indexExists i, .ok true⟩ :: ⟨.deleteIndex i, answer⟩ :: rest) := by
  intro before j other after hlog
  rcases before with _ | ⟨first, _ | ⟨second, before⟩⟩
  · simp at hlog
  · simp only [List.cons_append, List.nil_append, List.cons.injEq, Answered.mk.injEq,
      Call.deleteIndex.injEq] at hlog
    obtain ⟨rfl, ⟨rfl, -⟩, -⟩ := hlog
    exact List.mem_singleton.mpr rfl
  · simp only [List.cons_append, List.cons.injEq] at hlog
    obtain ⟨-, -, rfl⟩ := hlog
    exact absurd rfl (h ⟨.deleteIndex j, other⟩ (by simp) j)

end DeletesChecked

namespace IndexOutcome

variable {o outcome : IndexOutcome} {calls : List Answered}

theorem Verified.no_deletes (h : o.Verified calls outcome) :
    ∀ a ∈ calls, ∀ i, a.call ≠ .deleteIndex i := by
  cases h <;> simp

theorem Created.no_deletes (h : o.Created calls outcome) :
    ∀ a ∈ calls, ∀ i, a.call ≠ .deleteIndex i := by
  cases h with
  | refused f => simp
  | acknowledged reply hrest => simpa using hrest.no_deletes

theorem Prepared.deletesChecked (h : o.Prepared calls outcome) :
    DeletesChecked calls := by
  cases h with
  | unknown f => exact .of_no_deletes (by simp)
  | present hrest =>
    cases hrest with
    | refused f => exact .of_one (by simp)
    | deleted hrest => exact .of_one hrest.no_deletes
  | absent hrest => exact .of_no_deletes (by simpa using hrest.no_deletes)

end IndexOutcome
end ConversationSearch
