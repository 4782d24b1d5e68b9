import ConversationSearch.Proofs.Engine.Stored
import ConversationSearch.Proofs.Service.Writing
import ConversationSearch.Proofs.Documents.Validity

/-!
# The identities in a conversation

Validation counts the participants of a conversation and looks for its owner among them. It does not
compare the participants with each other. So the owner takes part in every conversation that is
written, and someone else does too, except where the owner alone is listed, more than once.
-/

namespace ConversationSearch

namespace Conversation

variable {c : Conversation}

/-- Someone whose handle is not the owner's takes part. -/
def HasOther (c : Conversation) : Prop :=
  ∃ p ∈ c.participants, p.handle ≠ c.handle

/-- The owner takes part, and so does someone else, unless all handles are the owner's. -/
structure Attended (c : Conversation) : Prop where
  owner : ∃ p ∈ c.participants, p.handle = c.handle
  other_iff : c.HasOther ↔
    ¬∃ n, 2 ≤ n ∧ c.participants.map (·.handle) = List.replicate n c.handle
  other_of_nodup : (c.participants.map (·.handle)).Nodup → c.HasOther

theorem validate_eq_nil_iff :
    c.validate = .ok [] ↔ c.Valid := by
  constructor
  · intro h
    by_cases hreportable : c.Reportable
    · obtain ⟨report, hreport, hvalid⟩ := validate_of_reportable hreportable
      obtain rfl : report = [] := Except.ok.inj (hreport.symm.trans h)
      exact hvalid.mp rfl
    · rw [validate_clash hreportable] at h
      contradiction
  · intro h
    obtain ⟨report, hreport, hvalid⟩ := validate_of_reportable h.reportable
    obtain rfl : report = [] := List.isEmpty_iff.mp (hvalid.mpr h)
    exact hreport

theorem not_hasOther_iff :
    ¬c.HasOther ↔
      c.participants.map (·.handle) = List.replicate c.participants.length c.handle := by
  rw [List.eq_replicate_iff, List.length_map]
  simp [HasOther]

theorem Valid.hasOther_iff (h : c.Valid) :
    c.HasOther ↔ ¬∃ n, 2 ≤ n ∧ c.participants.map (·.handle) = List.replicate n c.handle := by
  have halone_iff : ¬c.HasOther ↔
      ∃ n, 2 ≤ n ∧ c.participants.map (·.handle) = List.replicate n c.handle := by
    rw [not_hasOther_iff]
    constructor
    · intro halone
      exact ⟨_, h.participants, halone⟩
    · rintro ⟨n, -, halone⟩
      have hlength : c.participants.length = n := by simpa using congrArg List.length halone
      rw [hlength, halone]
  rw [← halone_iff, Classical.not_not]

theorem Valid.attended (h : c.Valid) :
    c.Attended where
  owner := h.owner
  other_iff := h.hasOther_iff
  other_of_nodup := by
    intro hnodup
    refine h.hasOther_iff.mpr ?_
    rintro ⟨n, htwo, halone⟩
    rw [halone, List.nodup_replicate] at hnodup
    omega

end Conversation

namespace Service

/-- Only a batch of valid documents is written. -/
theorem valid_of_written {b : Backend σ} {s : IndexSettings} {d : Documents} {st st' : σ}
    {calls : List Answered} {result : Except IndexingStop IndexSummary}
    (hrun : Runs (fun _ b => indexDocuments b s d) b st calls result st') (hcalls : calls ≠ []) :
    d.Valid := by
  have hindexing := hrun.of_logs (indexDocuments_logs s d b)
  cases hindexing with
  | refused stop _ => contradiction
  | tried hcheck _ => exact check_eq_ok.mp hcheck

/-- The owner takes part in every conversation that is accepted, and so in every one that is
written, and it has another participant exactly where its handles are not all the owner's; so it has
one where no handle is listed twice. -/
theorem written_conversations_attended (c : Conversation) :
    (c.validate = .ok [] → c.Attended) ∧
    ∀ {σ : Type} {b : Backend σ} {s : IndexSettings} {d : Documents} {st st' : σ}
      {calls : List Answered} {result : Except IndexingStop IndexSummary},
      Runs (fun _ b => indexDocuments b s d) b st calls result st' → calls ≠ [] →
      c ∈ d.conversations → c.Attended := by
  constructor
  · intro haccepted
    exact (Conversation.validate_eq_nil_iff.mp haccepted).attended
  · intro σ b s d st st' calls result hrun hcalls hc
    exact ((valid_of_written hrun hcalls).conversations c hc).attended

/-- A conversation of sarah with the given participants. -/
def conversationOfSarah (participants : List Participant) : Conversation where
  id := "7"
  username := "sarah"
  handle := "sarah123"
  lastMessage := "hi"
  date := (Time.Instant.ofEpochMillis? 1705491000000).get (by decide)
  participants := participants

/-- Where two handles are listed, one of them is another's. -/
theorem other_of_sarah_and_john :
    let c := conversationOfSarah [⟨"sarah", "sarah123"⟩, ⟨"john", "john456"⟩]
    c.validate = .ok [] ∧ c.HasOther ∧
      ∃ calls result st', calls ≠ [] ∧
        Runs (fun _ b => indexDocuments b {} { conversations := [c] }) MemoryEngine.backend {}
          calls result st' ∧
        c.Attended := by
  intro c
  have haccepted : c.validate = .ok [] := rfl
  have hattended := (written_conversations_attended c).1 haccepted
  have hcheck : check { conversations := [c] } = .ok () := rfl
  obtain ⟨calls, result, st', hrun⟩ :=
    (indexDocuments_asks {} { conversations := [c] }).runs MemoryEngine.backend {}
  have hcalls : calls ≠ [] := by
    have hindexing := hrun.of_logs (indexDocuments_logs _ _ _)
    cases hindexing with
    | refused stop hstop =>
      rw [hcheck] at hstop
      contradiction
    | tried _ hwriting => cases hwriting <;> simp
  exact ⟨haccepted, hattended.other_of_nodup (by decide), calls, result, st', hcalls, hrun,
    (written_conversations_attended c).2 hrun hcalls List.mem_cons_self⟩

/-- A conversation in which the owner is listed twice, and no one else, is accepted and stored. -/
theorem owner_listed_twice_is_stored :
    let c := conversationOfSarah [⟨"sarah", "sarah123"⟩, ⟨"sarah", "sarah123"⟩]
    c.validate = .ok [] ∧ ¬c.HasOther ∧
      ∃ m : MemoryEngine,
        indexDocuments MemoryEngine.backend {} { conversations := [c] } {} = (.ok ⟨1, 0⟩, m) ∧
        m.Holds "conversations" "7" c.toJson := by
  intro c
  have haccepted : c.validate = .ok [] := rfl
  have halone : ¬c.HasOther := by
    rw [Conversation.not_hasOther_iff]
    rfl
  refine ⟨haccepted, halone, _, rfl, _, rfl, List.mem_cons_self⟩

end Service
end ConversationSearch
