import ConversationSearch.Proofs.Failing
import ConversationSearch.Service

/-!
# Valid documents

What it takes for a message or a conversation to be written, said without the reports. A report is
empty exactly for a valid document. There is a report on every message, and one on every
conversation but those that have too few participants and among them one that lacks a name.

Documents are accepted exactly when all of them are valid. Otherwise the first that is not is named,
conversations before messages.
-/

namespace ConversationSearch

/-- The participant has a name and a handle. -/
structure Participant.Named (p : Participant) : Prop where
  username : p.username ≠ ""
  handle : p.handle ≠ ""

/-- The message may be written. -/
structure Message.Valid (m : Message) : Prop where
  id : m.id ≠ ""
  conversationId : m.conversationId ≠ ""

/-- The conversation may be written. -/
structure Conversation.Valid (c : Conversation) : Prop where
  id : c.id ≠ ""
  participants : 2 ≤ c.participants.length
  named : ∀ p ∈ c.participants, p.Named
  owner : ∃ p ∈ c.participants, p.handle = c.handle

/-- The participants are enough, or all of them have a name and a handle. -/
def Conversation.Reportable (c : Conversation) : Prop :=
  2 ≤ c.participants.length ∨ ∀ p ∈ c.participants, p.Named

/-- All of the documents may be written. -/
structure Documents.Valid (d : Documents) : Prop where
  conversations : ∀ c ∈ d.conversations, c.Valid
  messages : ∀ m ∈ d.messages, m.Valid

/-- The kind and the id of the first document that may not be written. -/
inductive Documents.FirstInvalid (d : Documents) : String → String → Prop
  | conversation {before after : List Conversation} {c : Conversation} :
      d.conversations = before ++ c :: after → (∀ x ∈ before, x.Valid) → ¬c.Valid →
      FirstInvalid d "conversation" c.id
  | message {before after : List Message} {m : Message} :
      (∀ c ∈ d.conversations, c.Valid) → d.messages = before ++ m :: after →
      (∀ x ∈ before, x.Valid) → ¬m.Valid →
      FirstInvalid d "message" m.id

/-! ## Reports on documents -/

theorem nonEmpty_eq_nil (field value : String) :
    nonEmpty field value = [] ↔ value ≠ "" := by
  simp [nonEmpty]

theorem Participant.violations_eq_nil {p : Participant} :
    p.violations = [] ↔ p.Named := by
  unfold violations
  rw [List.append_eq_nil_iff, nonEmpty_eq_nil, nonEmpty_eq_nil]
  exact ⟨fun ⟨username, handle⟩ => ⟨username, handle⟩, fun h => ⟨h.username, h.handle⟩⟩

theorem Report.isValid_ofViolations {vs : List (String × Violation)} :
    (Report.ofViolations vs).isValid = true ↔ vs = [] := by
  simp [isValid, ofViolations]

theorem Message.isValid_validate {m : Message} :
    m.validate.isValid = true ↔ m.Valid := by
  unfold validate
  rw [Report.isValid_ofViolations, List.append_eq_nil_iff, nonEmpty_eq_nil, nonEmpty_eq_nil]
  exact ⟨fun ⟨id, conversationId⟩ => ⟨id, conversationId⟩, fun h => ⟨h.id, h.conversationId⟩⟩

namespace Conversation

variable {c : Conversation}

theorem Valid.reportable (h : c.Valid) :
    c.Reportable :=
  .inl h.participants

theorem badParticipants_eq_nil (position : Nat) (ps : List Participant) :
    badParticipants position ps = [] ↔ ∀ p ∈ ps, p.Named := by
  induction ps generalizing position with
  | nil => simp [badParticipants]
  | cons p ps ih =>
    rw [badParticipants, List.append_eq_nil_iff, ih, List.forall_mem_cons,
      ← Participant.violations_eq_nil]
    simp

theorem ownerParticipates_iff :
    c.ownerParticipates = true ↔ ∃ p ∈ c.participants, p.handle = c.handle := by
  simp [ownerParticipates]

/-- The report on the participants lists nothing when they are enough and all have names. -/
theorem participantsReport_of_reportable (h : c.Reportable) :
    ∃ report, c.participantsReport = .ok report ∧
      (report = [] ↔ 2 ≤ c.participants.length ∧ ∀ p ∈ c.participants, p.Named) := by
  unfold participantsReport
  by_cases hfew : c.participants.length < minParticipants
  · have hnamed : ∀ p ∈ c.participants, p.Named := by
      rcases h with henough | hnamed
      · exact absurd henough (Nat.not_le.mpr hfew)
      · exact hnamed
    have hgood : badParticipants 0 c.participants = [] := (badParticipants_eq_nil _ _).mpr hnamed
    have hshort : ¬2 ≤ c.participants.length := Nat.not_le.mpr hfew
    simp [hfew, hgood, hshort]
  · have henough : 2 ≤ c.participants.length := Nat.not_lt.mp hfew
    simp only [hfew, if_false]
    refine ⟨_, rfl, ?_⟩
    rw [← badParticipants_eq_nil 0]
    by_cases hgood : badParticipants 0 c.participants = []
    · simp [hgood, henough]
    · simp [hgood]

theorem participantsReport_clash (h : ¬c.Reportable) :
    c.participantsReport = .error ⟨"participants"⟩ := by
  obtain ⟨hfew, hunnamed⟩ := not_or.mp h
  have hfew : c.participants.length < minParticipants := Nat.not_le.mp hfew
  have hbad : badParticipants 0 c.participants ≠ [] := fun hnil =>
    hunnamed ((badParticipants_eq_nil _ _).mp hnil)
  simp [participantsReport, hfew, hbad]

theorem validate_clash (h : ¬c.Reportable) :
    c.validate = .error ⟨"participants"⟩ := by
  simp only [validate, participantsReport_clash h, bind, Except.bind]

/-- A conversation that can be reported on has an empty report exactly when it is valid. -/
theorem validate_of_reportable (h : c.Reportable) :
    ∃ report, c.validate = .ok report ∧ (report.isValid = true ↔ c.Valid) := by
  obtain ⟨participants, hparticipants, hempty⟩ := participantsReport_of_reportable h
  have hfields : Report.ofViolations (nonEmpty "id" c.id) ++ participants = [] ↔
      c.id ≠ "" ∧ 2 ≤ c.participants.length ∧ ∀ p ∈ c.participants, p.Named := by
    rw [List.append_eq_nil_iff, hempty, ← nonEmpty_eq_nil "id"]
    simp [Report.ofViolations]
  simp only [validate, hparticipants, bind, Except.bind]
  by_cases hkept : Report.ofViolations (nonEmpty "id" c.id) ++ participants = []
  · -- the rule about the owner is the only one left, and it is looked at
    obtain ⟨hid, henough, hnamed⟩ := hfields.mp hkept
    by_cases howner : c.ownerParticipates = true
    · refine ⟨_, by simp [hkept, howner, pure, Except.pure]; rfl, ?_⟩
      exact iff_of_true rfl ⟨hid, henough, hnamed, ownerParticipates_iff.mp howner⟩
    · refine ⟨_, by simp [hkept, howner, pure, Except.pure]; rfl, ?_⟩
      exact iff_of_false (by simp [Report.isValid])
        fun hvalid => howner (ownerParticipates_iff.mpr hvalid.owner)
  · refine ⟨_, by simp [hkept, pure, Except.pure]; rfl, ?_⟩
    refine iff_of_false (by simpa [Report.isValid] using hkept) ?_
    intro hvalid
    exact hkept (hfields.mpr ⟨hvalid.id, hvalid.participants, hvalid.named⟩)

end Conversation

/-! ## Accepted documents -/

namespace Service

theorem checkMessage_eq_ok {m : Message} :
    checkMessage m = .ok () ↔ m.Valid := by
  rw [← Message.isValid_validate]
  cases hvalid : m.validate.isValid <;> simp [checkMessage, hvalid]

theorem checkMessage_invalid {m : Message} {stop : IndexingStop}
    (h : checkMessage m = .error stop) :
    ¬m.Valid ∧ ∃ report : Report, stop = invalid "message" m.id report := by
  have hinvalid : ¬m.Valid := by
    intro hvalid
    rw [checkMessage_eq_ok.mpr hvalid] at h
    contradiction
  refine ⟨hinvalid, m.validate, ?_⟩
  rw [← Message.isValid_validate] at hinvalid
  simp only [checkMessage, hinvalid] at h
  exact (Except.error.inj h).symm

theorem checkConversation_eq_ok {c : Conversation} :
    checkConversation c = .ok () ↔ c.Valid := by
  by_cases hreportable : c.Reportable
  · obtain ⟨report, hreport, hvalid⟩ := Conversation.validate_of_reportable hreportable
    rw [← hvalid]
    cases hempty : report.isValid <;> simp [checkConversation, hreport, hempty]
  · have hclash := Conversation.validate_clash hreportable
    have hinvalid : ¬c.Valid := fun hvalid => hreportable hvalid.reportable
    simp [checkConversation, hclash, hinvalid]

theorem checkConversation_invalid {c : Conversation} {stop : IndexingStop}
    (hreportable : c.Reportable) (h : checkConversation c = .error stop) :
    ¬c.Valid ∧ ∃ report : Report, stop = invalid "conversation" c.id report := by
  have hinvalid : ¬c.Valid := by
    intro hvalid
    rw [checkConversation_eq_ok.mpr hvalid] at h
    contradiction
  obtain ⟨report, hreport, hvalid⟩ := Conversation.validate_of_reportable hreportable
  refine ⟨hinvalid, report, ?_⟩
  rw [← hvalid] at hinvalid
  simp only [checkConversation, hreport, hinvalid] at h
  exact (Except.error.inj h).symm

variable {d : Documents}

theorem check_eq_ok :
    check d = .ok () ↔ d.Valid := by
  unfold check
  rw [bind_eq_ok]
  constructor
  · rintro ⟨⟨⟩, hconversations, hmessages⟩
    constructor
    · intro c hc
      exact checkConversation_eq_ok.mp (forM_eq_ok.mp hconversations c hc)
    · intro m hm
      exact checkMessage_eq_ok.mp (forM_eq_ok.mp hmessages m hm)
  · intro hvalid
    refine ⟨(), forM_eq_ok.mpr fun c hc => ?_, forM_eq_ok.mpr fun m hm => ?_⟩
    · exact checkConversation_eq_ok.mpr (hvalid.conversations c hc)
    · exact checkMessage_eq_ok.mpr (hvalid.messages m hm)

/-- Documents that are not accepted are refused for the first that is not valid. -/
theorem check_invalid {stop : IndexingStop} (hreportable : ∀ c ∈ d.conversations, c.Reportable)
    (h : check d = .error stop) :
    ∃ kind id, d.FirstInvalid kind id ∧ ∃ report : Report, stop = invalid kind id report := by
  rcases bind_eq_error.mp h with hconversations | ⟨⟨⟩, hconversations, hmessages⟩
  · obtain ⟨before, c, after, hsplit, hbefore, hc⟩ := forM_eq_error.mp hconversations
    have hmem : c ∈ d.conversations := by simp [hsplit]
    obtain ⟨hinvalid, hstop⟩ := checkConversation_invalid (hreportable c hmem) hc
    have hvalid : ∀ x ∈ before, x.Valid := fun x hx => checkConversation_eq_ok.mp (hbefore x hx)
    exact ⟨_, _, .conversation hsplit hvalid hinvalid, hstop⟩
  · obtain ⟨before, m, after, hsplit, hbefore, hm⟩ := forM_eq_error.mp hmessages
    obtain ⟨hinvalid, hstop⟩ := checkMessage_invalid hm
    have hfirst : ∀ c ∈ d.conversations, c.Valid := fun c hc =>
      checkConversation_eq_ok.mp (forM_eq_ok.mp hconversations c hc)
    have hvalid : ∀ x ∈ before, x.Valid := fun x hx => checkMessage_eq_ok.mp (hbefore x hx)
    exact ⟨_, _, .message hfirst hsplit hvalid hinvalid, hstop⟩

end Service
end ConversationSearch
