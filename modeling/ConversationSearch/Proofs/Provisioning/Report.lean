import ConversationSearch.Proofs.Provisioning.Independence

/-!
# What the report of provisioning says

On every backend the report says of each index what the calls for it came to, and success means that
both indices are there and verified. An engine in bad health is asked nothing more. For engines in
memory, the outcome for an index and the index itself depend on that index and on the faults of the
calls about it alone.
-/

namespace ConversationSearch

/-- A report has the outcomes of all kinds of documents in their order, each says what the calls
came to, and success means that every index is there and verified. -/
structure ProvisionReport.Reports (r : ProvisionReport) (s : IndexSettings)
    (log : List Answered) : Prop where
  indices : (r.indices.map fun o => (o.entity, o.index)) =
    Entity.all.map fun e => (e, s.indexName e)
  outcomes : ∀ o ∈ r.indices, o.Reports log
  success : r.success = true ↔ ∀ o ∈ r.indices,
    o.created = true ∧ o.error = none ∧ ∃ v, o.verification = some v ∧ v.isValid = true

namespace Provisioning

open IndexOutcome
open MemoryEngine (AgreeOn)

theorem health_keeps_state (m : MemoryEngine) :
    (MemoryEngine.backend .health m).2 = m := by
  unfold MemoryEngine.backend
  cases m.fault? .health <;> rfl

theorem unavailable_eq (f : SearchFailure) :
    ∃ reason, unavailable f = .indexUnavailable reason := by
  cases f <;> exact ⟨_, rfl⟩

theorem success_iff (outcomes : List IndexOutcome) :
    (ProvisionReport.ofOutcomes outcomes).success = true ↔ ∀ o ∈ outcomes,
      o.created = true ∧ o.error = none ∧ ∃ v, o.verification = some v ∧ v.isValid = true := by
  simp [ProvisionReport.ofOutcomes, succeeded, Option.any_eq_true, and_assoc]

theorem deletesChecked_of_course {s : IndexSettings} {log : List Answered}
    {result : Except SearchFailure ProvisionReport} (h : Course s log result) :
    DeletesChecked log := by
  cases h with
  | unhealthy f => exact .of_no_deletes (by simp)
  | tried reply hconversation hmessage =>
    have hhealth : DeletesChecked [⟨.health, .ok reply⟩] := .of_no_deletes (by simp)
    exact hhealth.append (hconversation.deletesChecked.append hmessage.deletesChecked)

/-- The calls for the one index do not count for the other. -/
theorem reports_of_course {s : IndexSettings} {log : List Answered} {report : ProvisionReport}
    (hnames : s.conversationsIndex ≠ s.messagesIndex) (h : Course s log (.ok report)) :
    report.Reports s log := by
  cases h with
  | tried reply hconversation hmessage =>
    have hconversation := hconversation.extends ⟨rfl, rfl⟩
    have hmessage := hmessage.extends ⟨rfl, rfl⟩
    refine ⟨?_, ?_, success_iff _⟩
    · simp [ProvisionReport.ofOutcomes, Entity.all, hconversation.entity, hconversation.index,
        hmessage.entity, hmessage.index, initial]
    · simp only [ProvisionReport.ofOutcomes, List.forall_mem_cons]
      refine ⟨hconversation.reports_within ?_ ?_, hmessage.reports_within ?_ ?_, by simp⟩
      · intro a ha
        simp [ha]
      · intro a ha hindex
        rcases List.mem_cons.mp ha with rfl | ha
        · contradiction
        · rcases List.mem_append.mp ha with ha | ha
          · exact ha
          · rw [hmessage.about a ha] at hindex
            exact absurd (Option.some.inj hindex).symm hnames
      · intro a ha
        simp [ha]
      · intro a ha hindex
        rcases List.mem_cons.mp ha with rfl | ha
        · contradiction
        · rcases List.mem_append.mp ha with ha | ha
          · rw [hconversation.about a ha] at hindex
            exact absurd (Option.some.inj hindex) hnames
          · exact ha

/-- Provisioning reports what happened. Where the engine is in bad health it is asked nothing more
and stays as it is. Otherwise the report says of both indices what the calls came to, no index is
deleted that was not there, and neither index has a part in the outcome and the fate of the other. -/
theorem provision_reports_calls {s : IndexSettings}
    (hnames : s.conversationsIndex ≠ s.messagesIndex) :
    (∀ {σ : Type} (b : Backend σ) (st : σ), ∃ result st' log,
      provision b s st = (result, st') ∧
      provision b.observed s (st, []) = (result, st', log) ∧
      DeletesChecked log ∧
      (∀ f, (b .health st).1 = .error f →
        (∃ reason, result = .error (.indexUnavailable reason)) ∧
          st' = (b .health st).2 ∧ log = [⟨.health, .error f⟩]) ∧
      (∀ reply, (b .health st).1 = .ok reply →
        ∃ report, result = .ok report ∧ report.Reports s log)) ∧
    (∀ m f, (MemoryEngine.backend .health m).1 = .error f →
      (provision MemoryEngine.backend s m).2 = m) ∧
    (∀ s' m m' e, s'.conversationsIndex ≠ s'.messagesIndex → s.indexName e = s'.indexName e →
      m.fault? .health = none → m'.fault? .health = none → AgreeOn (s.indexName e) m m' →
      ∃ report report' outcome,
        (provision MemoryEngine.backend s m).1 = .ok report ∧
        (provision MemoryEngine.backend s' m').1 = .ok report' ∧
        report.outcome? e = some outcome ∧
        report'.outcome? e = some outcome ∧
        (provision MemoryEngine.backend s m).2.index? (s.indexName e) =
          (provision MemoryEngine.backend s' m').2.index? (s.indexName e)) := by
  refine ⟨?_, ?_, ?_⟩
  · intro σ b st
    obtain ⟨result, st', log, hrun, hcourse⟩ := provision_logs b s st []
    obtain ⟨hresult, hstate⟩ := (provision_asks s).observed b st []
    change (provision b s st).1 = (provision b.observed s (st, [])).1 at hresult
    change (provision b s st).2 = (provision b.observed s (st, [])).2.1 at hstate
    rw [List.nil_append] at hrun
    rw [hrun] at hresult hstate
    refine ⟨result, st', log, Prod.ext hresult hstate, hrun, deletesChecked_of_course hcourse,
      ?_, ?_⟩
    · intro f hf
      have hbad : provision b.observed s (st, []) =
          (.error (unavailable f), (b.observed .health (st, [])).2) := provision_unhealthy hf
      rw [hrun] at hbad
      obtain ⟨rfl, hafter⟩ := Prod.mk.inj hbad
      obtain ⟨rfl, rfl⟩ := Prod.mk.inj hafter
      refine ⟨?_, rfl, ?_⟩
      · obtain ⟨reason, hreason⟩ := unavailable_eq f
        exact ⟨reason, congrArg Except.error hreason⟩
      · exact congrArg (fun answer => [(⟨.health, answer⟩ : Answered)]) hf
    · intro reply hreply
      have hhealthy : ((b.observed .health (st, [])).1 : Call.Answer .health) = .ok reply := hreply
      have hgood := provision_healthy (s := s) hhealthy
      rw [hrun] at hgood
      cases hcourse with
      | unhealthy f => cases hgood
      | tried reply hconversation hmessage =>
        exact ⟨_, rfl, reports_of_course hnames (.tried reply hconversation hmessage)⟩
  · intro m f hf
    rw [provision_unhealthy hf]
    exact health_keeps_state m
  · intro s' m m' e hnames' hindex hhealth hhealth' h
    exact provision_same hnames hnames' hindex hhealth hhealth' h

/-- With the default settings, an engine that does not create the index of messages has the same
outcome for the index of conversations as one that does. -/
theorem conversations_prepared_without_messages :
    let s : IndexSettings := {}
    let m : MemoryEngine := {}
    let m' : MemoryEngine := { faults := [("create_index:messages", .http 500 "")] }
    s.conversationsIndex ≠ s.messagesIndex ∧
      ∃ report report' outcome,
        (provision MemoryEngine.backend s m).1 = .ok report ∧
        (provision MemoryEngine.backend s m').1 = .ok report' ∧
        report.outcome? .conversation = some outcome ∧
        report'.outcome? .conversation = some outcome := by
  intro s m m'
  have hnames : s.conversationsIndex ≠ s.messagesIndex := by decide
  have hagree : AgreeOn (s.indexName .conversation) m m' := by
    refine ⟨rfl, rfl, ?_⟩
    intro c hc
    cases c with
    | ping | health | info => contradiction
    | _ =>
      obtain rfl := Option.some.inj hc
      rfl
  obtain ⟨-, -, hsame⟩ := provision_reports_calls hnames
  obtain ⟨report, report', outcome, hreport, hreport', houtcome, houtcome', -⟩ :=
    hsame s m m' .conversation hnames rfl (by decide) (by decide) hagree
  exact ⟨hnames, report, report', outcome, hreport, hreport', houtcome, houtcome'⟩

end Provisioning
end ConversationSearch
