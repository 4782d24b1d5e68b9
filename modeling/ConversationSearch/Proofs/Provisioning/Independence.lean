import ConversationSearch.Proofs.Engine.Indices
import ConversationSearch.Proofs.Provisioning.Outcome

/-!
# Preparing one index apart from the other

Two runs on engines in memory that agree on an index have the same outcome for it and leave it the
same, whatever the other index is and whatever happens to the calls for it. The preparation of the
index is the same on both sides, and the preparation of the other one leaves it alone.
-/

namespace ConversationSearch.Provisioning

open MemoryEngine (AgreeOn)

theorem outcome?_conversation {c m : IndexOutcome} (hc : c.entity = .conversation) :
    (ProvisionReport.ofOutcomes [c, m]).outcome? .conversation = some c := by
  simp [ProvisionReport.outcome?, ProvisionReport.ofOutcomes, hc]

theorem outcome?_message {c m : IndexOutcome} (hc : c.entity = .conversation)
    (hm : m.entity = .message) :
    (ProvisionReport.ofOutcomes [c, m]).outcome? .message = some m := by
  simp [ProvisionReport.outcome?, ProvisionReport.ofOutcomes, hc, hm]

/-- A run that finds the engine in bad health ends there. -/
theorem provision_unhealthy {b : Backend σ} {s : IndexSettings} {st : σ} {f : SearchFailure}
    (hhealth : (b .health st).1 = .error f) :
    provision b s st = (.error (unavailable f), (b .health st).2) := by
  unfold provision
  simp only [bind, StateT.bind, Backend.ask]
  rw [hhealth]
  rfl

/-- A run that finds the engine healthy prepares the one index and then the other. -/
theorem provision_healthy {b : Backend σ} {s : IndexSettings} {st : σ} {reply : Json}
    (hhealth : (b .health st).1 = .ok reply) :
    provision b s st =
      let conversation := provisionIndex b s .conversation (b .health st).2
      let message := provisionIndex b s .message conversation.2
      (.ok (.ofOutcomes [conversation.1, message.1]), message.2) := by
  unfold provision
  simp only [mapM_all, bind_assoc, pure_bind]
  simp only [bind, StateT.bind, Backend.ask]
  rw [hhealth]
  rfl

section Index

variable {s s₁ s₂ : IndexSettings} {e other : Entity} {m₁ m₂ : MemoryEngine}

/-- Preparing one index leaves the other alone. -/
theorem provisionIndex_keeps {i : String} (hother : s.indexName other ≠ i) (m : MemoryEngine) :
    AgreeOn i m (provisionIndex MemoryEngine.backend s other m).2 := by
  apply (provisionIndex_asks s other).keeps (Q := AgreeOn i m) _ m .refl
  intro c hc
  apply AgreeOn.keeps
  rw [hc.index?]
  exact fun h => hother (Option.some.inj h)

/-- Engines that agree on an index prepare it alike. -/
theorem provisionIndex_same (hindex : s₁.indexName e = s₂.indexName e)
    (h : AgreeOn (s₁.indexName e) m₁ m₂) :
    (provisionIndex MemoryEngine.backend s₁ e m₁).1 =
        (provisionIndex MemoryEngine.backend s₂ e m₂).1 ∧
      AgreeOn (s₁.indexName e) (provisionIndex MemoryEngine.backend s₁ e m₁).2
        (provisionIndex MemoryEngine.backend s₂ e m₂).2 := by
  have hsettings : ∀ m, provisionIndex MemoryEngine.backend s₂ e m =
      provisionIndex MemoryEngine.backend s₁ e m := by
    intro m
    unfold provisionIndex
    rw [hindex]
  rw [hsettings]
  apply (provisionIndex_asks s₁ e).coupled _ m₁ m₂ h
  intro c hc
  exact AgreeOn.coupled _ hc.index? hc.ne_search

/-- The outcome is for the kind of document that was asked for. -/
theorem provisionIndex_entity (b : Backend σ) (st : σ) :
    (provisionIndex b s e st).1.entity = e := by
  obtain ⟨outcome, st', calls, hrun, hcourse⟩ := provisionIndex_logs b s e st []
  have hvalue := ((provisionIndex_asks s e).observed b st []).1
  change (provisionIndex b s e st).1 = (provisionIndex b.observed s e (st, [])).1 at hvalue
  rw [hvalue, hrun]
  exact (hcourse.extends ⟨rfl, rfl⟩).entity

end Index

/-- The outcome for an index and what becomes of the index are the same in two runs on healthy
engines that agree on it. -/
theorem provision_same {s₁ s₂ : IndexSettings} {e : Entity} {m₁ m₂ : MemoryEngine}
    (hnames₁ : s₁.conversationsIndex ≠ s₁.messagesIndex)
    (hnames₂ : s₂.conversationsIndex ≠ s₂.messagesIndex)
    (hindex : s₁.indexName e = s₂.indexName e)
    (hhealth₁ : m₁.fault? .health = none) (hhealth₂ : m₂.fault? .health = none)
    (h : AgreeOn (s₁.indexName e) m₁ m₂) :
    ∃ report₁ report₂ outcome,
      (provision MemoryEngine.backend s₁ m₁).1 = .ok report₁ ∧
      (provision MemoryEngine.backend s₂ m₂).1 = .ok report₂ ∧
      report₁.outcome? e = some outcome ∧
      report₂.outcome? e = some outcome ∧
      (provision MemoryEngine.backend s₁ m₁).2.index? (s₁.indexName e) =
        (provision MemoryEngine.backend s₂ m₂).2.index? (s₁.indexName e) := by
  have hrun : ∀ (s : IndexSettings) (m : MemoryEngine), m.fault? .health = none →
      provision MemoryEngine.backend s m =
        let conversation := provisionIndex MemoryEngine.backend s .conversation m
        let message := provisionIndex MemoryEngine.backend s .message conversation.2
        (.ok (.ofOutcomes [conversation.1, message.1]), message.2) := by
    intro s m hhealth
    have hanswer : MemoryEngine.backend .health m =
        (.ok (.object [("status", .string "green")]), m) := by
      simp [MemoryEngine.backend, hhealth, MemoryEngine.perform]
    have hprovision := provision_healthy (s := s) (congrArg Prod.fst hanswer)
    rw [hanswer] at hprovision
    exact hprovision
  rw [hrun s₁ m₁ hhealth₁, hrun s₂ m₂ hhealth₂]
  cases e with
  | conversation =>
    -- the index is prepared first, and what is done about the other comes after it
    have hne₁ : s₁.indexName .message ≠ s₁.indexName .conversation :=
      IndexSettings.indexName_ne hnames₁ (by decide)
    have hne₂ : s₂.indexName .message ≠ s₂.indexName .conversation :=
      IndexSettings.indexName_ne hnames₂ (by decide)
    rw [← hindex] at hne₂
    obtain ⟨houtcome, hafter⟩ := provisionIndex_same hindex h
    have hrest₁ := provisionIndex_keeps hne₁
      (provisionIndex MemoryEngine.backend s₁ .conversation m₁).2
    have hrest₂ := provisionIndex_keeps hne₂
      (provisionIndex MemoryEngine.backend s₂ .conversation m₂).2
    refine ⟨_, _, (provisionIndex MemoryEngine.backend s₁ .conversation m₁).1, rfl, rfl,
      outcome?_conversation (provisionIndex_entity _ _), ?_,
      (hrest₁.symm.trans (hafter.trans hrest₂)).index⟩
    rw [houtcome]
    exact outcome?_conversation (provisionIndex_entity _ _)
  | message =>
    -- here the other index comes first, and the engines still agree when this one is reached
    have hne₁ : s₁.indexName .conversation ≠ s₁.indexName .message :=
      IndexSettings.indexName_ne hnames₁ (by decide)
    have hne₂ : s₂.indexName .conversation ≠ s₂.indexName .message :=
      IndexSettings.indexName_ne hnames₂ (by decide)
    rw [← hindex] at hne₂
    have hfirst₁ := provisionIndex_keeps hne₁ m₁
    have hfirst₂ := provisionIndex_keeps hne₂ m₂
    obtain ⟨houtcome, hafter⟩ :=
      provisionIndex_same hindex (hfirst₁.symm.trans (h.trans hfirst₂))
    refine ⟨_, _, _, rfl, rfl,
      outcome?_message (provisionIndex_entity _ _) (provisionIndex_entity _ _), ?_, hafter.index⟩
    rw [houtcome]
    exact outcome?_message (provisionIndex_entity _ _) (provisionIndex_entity _ _)

end ConversationSearch.Provisioning
