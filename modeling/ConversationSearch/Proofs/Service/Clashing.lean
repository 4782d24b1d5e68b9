import ConversationSearch.Engine.Memory
import ConversationSearch.Proofs.Documents.Validity
import ConversationSearch.Proofs.Service.Writing

/-!
# Documents without a report

There is no report on a conversation that has too few participants, one of which lacks a name.
Validating it ends in a clash. A request to write documents meets the clash when such a conversation
is the first of its documents that is not valid; it then goes without an answer, and nothing is
written. Every other request to write documents is answered with JSON, however the engine behaves.
-/

namespace ConversationSearch

/-- The first conversation that may not be written is one without a report. -/
def Documents.Clashes (d : Documents) : Prop :=
  ∃ before c after, d.conversations = before ++ c :: after ∧ (∀ x ∈ before, x.Valid) ∧
    ¬c.Reportable

/-- The clash of too few participants with a participant that lacks a name. -/
def participantsClash : Clash :=
  ⟨"participants"⟩

theorem Documents.not_clashes_of_reportable {d : Documents}
    (h : ∀ c ∈ d.conversations, c.Reportable) :
    ¬d.Clashes := by
  rintro ⟨before, c, after, hsplit, -, hclash⟩
  have hmem : c ∈ d.conversations := by simp [hsplit]
  exact hclash (h c hmem)

theorem Conversation.exists_validate_iff {c : Conversation} :
    (∃ report, c.validate = .ok report ∧ (report.isValid = true ↔ c.Valid)) ↔ c.Reportable := by
  constructor
  · rintro ⟨report, hreport, -⟩
    by_cases hreportable : c.Reportable
    · exact hreportable
    · rw [validate_clash hreportable] at hreport
      contradiction
  · exact validate_of_reportable

/-! ## Checking documents -/

namespace Service

theorem checkConversation_eq_clash {c : Conversation} {clash : Clash} :
    checkConversation c = .error (.clash clash) ↔ ¬c.Reportable ∧ clash = participantsClash := by
  by_cases hreportable : c.Reportable
  · refine iff_of_false ?_ fun h => h.1 hreportable
    intro h
    obtain ⟨-, report, hstop⟩ := checkConversation_invalid hreportable h
    contradiction
  · simp only [checkConversation, Conversation.validate_clash hreportable, Except.error.injEq,
      IndexingStop.clash.injEq, hreportable, not_false_iff, true_and]
    exact eq_comm

theorem forM_checkMessage_ne_clash (ms : List Message) (clash : Clash) :
    ms.forM checkMessage ≠ .error (.clash clash) := by
  intro h
  obtain ⟨before, m, after, -, -, hm⟩ := forM_eq_error.mp h
  obtain ⟨-, report, hstop⟩ := checkMessage_invalid hm
  contradiction

theorem check_eq_clash {d : Documents} {clash : Clash} :
    check d = .error (.clash clash) ↔ d.Clashes ∧ clash = participantsClash := by
  constructor
  · intro h
    rcases bind_eq_error.mp h with hconversations | ⟨⟨⟩, -, hmessages⟩
    · obtain ⟨before, c, after, hsplit, hbefore, hc⟩ := forM_eq_error.mp hconversations
      obtain ⟨hunreportable, hclash⟩ := checkConversation_eq_clash.mp hc
      have hvalid : ∀ x ∈ before, x.Valid := fun x hx => checkConversation_eq_ok.mp (hbefore x hx)
      exact ⟨⟨before, c, after, hsplit, hvalid, hunreportable⟩, hclash⟩
    · exact absurd hmessages (forM_checkMessage_ne_clash _ clash)
  · rintro ⟨⟨before, c, after, hsplit, hvalid, hunreportable⟩, hclash⟩
    have hbefore : ∀ x ∈ before, checkConversation x = .ok () :=
      fun x hx => checkConversation_eq_ok.mpr (hvalid x hx)
    have hc : checkConversation c = .error (.clash clash) :=
      checkConversation_eq_clash.mpr ⟨hunreportable, hclash⟩
    exact bind_eq_error.mpr
      (.inl (forM_eq_error.mpr ⟨before, c, after, hsplit, hbefore, hc⟩))

/-- A clash is met before any call is made. -/
theorem Indexing.of_clash {s : IndexSettings} {d : Documents} {calls : List Answered}
    {clash : Clash} (h : Indexing s d calls (.error (.clash clash))) :
    calls = [] ∧ d.Clashes ∧ clash = participantsClash := by
  generalize hresult : (Except.error (IndexingStop.clash clash) : Except IndexingStop IndexSummary)
    = result at h
  cases h with
  | refused stop hcheck =>
    obtain rfl : IndexingStop.clash clash = stop := Except.error.inj hresult
    exact ⟨rfl, check_eq_clash.mp hcheck⟩
  | @tried _ result _ _ =>
    cases result with
    | error f => exact absurd (Except.error.inj hresult) (by simp)
    | ok summary => contradiction

theorem Indexing.not_clashes {s : IndexSettings} {d : Documents} {calls : List Answered}
    {result : Except IndexingStop IndexSummary} (h : Indexing s d calls result)
    (hresult : ∀ clash, result ≠ .error (.clash clash)) :
    ¬d.Clashes := by
  intro hclashes
  have hclash : check d = .error (.clash participantsClash) := check_eq_clash.mpr ⟨hclashes, rfl⟩
  cases h with
  | refused stop hcheck =>
    obtain rfl : stop = .clash participantsClash :=
      Except.error.inj (hcheck.symm.trans hclash)
    exact hresult _ rfl
  | tried hcheck _ =>
    rw [hcheck] at hclash
    contradiction

end Service

/-! ## Answering requests -/

namespace Interface

variable {s : IndexSettings} {r : HttpRequest} {calls : List Answered}

theorem Indexing.answered_iff {result : Except Clash HttpResponse} (h : Indexing s r calls result) :
    (∃ status body, result = .ok (.json status body)) ↔
      ∀ d, decodeBody Documents.decoder r = .ok d → ¬d.Clashes := by
  cases h with
  | undecoded f hbody =>
    refine iff_of_true ⟨_, _, rfl⟩ ?_
    intro d hd
    rw [hbody] at hd
    contradiction
  | clashed d clash hbody hindexing =>
    obtain ⟨-, hclashes, -⟩ := hindexing.of_clash
    exact iff_of_false (by simp) fun hnone => hnone d hbody hclashes
  | failed d f hbody hindexing =>
    refine iff_of_true ⟨_, _, rfl⟩ ?_
    intro d' hd'
    obtain rfl : d = d' := Except.ok.inj (hbody.symm.trans hd')
    exact hindexing.not_clashes (by simp)
  | written d summary hbody hindexing =>
    refine iff_of_true ⟨_, _, rfl⟩ ?_
    intro d' hd'
    obtain rfl : d = d' := Except.ok.inj (hbody.symm.trans hd')
    exact hindexing.not_clashes (by simp)

theorem Indexing.of_clashes {result : Except Clash HttpResponse} {d : Documents}
    (h : Indexing s r calls result) (hbody : decodeBody Documents.decoder r = .ok d)
    (hclashes : d.Clashes) :
    calls = [] ∧ result = .error participantsClash := by
  have hunanswered : ¬∃ status body, result = .ok (.json status body) :=
    fun hanswered => h.answered_iff.mp hanswered d hbody hclashes
  cases h with
  | undecoded f _ => exact absurd ⟨_, _, rfl⟩ hunanswered
  | clashed d clash _ hindexing =>
    obtain ⟨hcalls, -, rfl⟩ := hindexing.of_clash
    exact ⟨hcalls, rfl⟩
  | failed d f _ _ => exact absurd ⟨_, _, rfl⟩ hunanswered
  | written d summary _ _ => exact absurd ⟨_, _, rfl⟩ hunanswered

theorem indexData_runs (b : Backend σ) (s : IndexSettings) (r : HttpRequest) (st : σ) :
    ∃ calls result st', Runs (fun _ b => indexData b s r) b st calls result st' ∧
      Indexing s r calls result := by
  obtain ⟨calls, result, st', hrun⟩ := (indexData_asks s r).runs b st
  exact ⟨calls, result, st', hrun, hrun.of_logs (indexData_logs b s r)⟩

theorem indexData_of_clashes {d : Documents} (hbody : decodeBody Documents.decoder r = .ok d)
    (hclashes : d.Clashes) (b : Backend σ) (s : IndexSettings) (st : σ) :
    Runs (fun _ b => indexData b s r) b st [] (.error participantsClash) st := by
  obtain ⟨calls, result, st', hrun, hindexing⟩ := indexData_runs b s r st
  obtain ⟨rfl, rfl⟩ := hindexing.of_clashes hbody hclashes
  obtain rfl : st = st' := by
    cases hrun.leads
    rfl
  exact hrun

/-- There is a report on exactly the conversations that have enough participants or whose
participants all have names. A request to write documents is answered with JSON, on every engine,
unless the first of its conversations that is not valid has no report; then the request goes
without an answer before the engine is asked for anything. -/
theorem answered_iff_not_clashes {r : HttpRequest} (hmethod : r.method = "POST")
    (hroute : Route.ofPath? r.path = some .indexData) :
    (∀ c : Conversation,
      (∃ report, c.validate = .ok report ∧ (report.isValid = true ↔ c.Valid)) ↔ c.Reportable) ∧
    ∀ {σ : Type} (b : Backend σ) (s : IndexSettings) (st : σ),
      ((∃ status body, (respond b s r st).1 = .ok (.json status body)) ↔
        ∀ d, decodeBody Documents.decoder r = .ok d → ¬d.Clashes) ∧
      ∀ d, decodeBody Documents.decoder r = .ok d → d.Clashes →
        Runs (fun _ b => respond b s r) b st [] (.error participantsClash) st := by
  constructor
  · intro c
    exact Conversation.exists_validate_iff
  intro σ b s st
  have hrespond : (fun (σ : Type) (b : Backend σ) => respond b s r) =
      fun (σ : Type) (b : Backend σ) => indexData b s r := by
    funext σ b
    exact respond_indexData hmethod hroute b s
  rw [hrespond, respond_indexData hmethod hroute]
  constructor
  · obtain ⟨calls, result, st', hrun, hindexing⟩ := indexData_runs b s r st
    rw [hrun.plain]
    exact hindexing.answered_iff
  · intro d hbody hclashes
    exact indexData_of_clashes hbody hclashes b s st

/-- A request to write one conversation, with the given text for its participants. -/
def oneConversation (participants : String) : HttpRequest where
  method := "POST"
  path := "/api/search/index-data"
  contentType := some "application/json"
  body := "\x7b\"conversations\":[\x7b\"id\":\"6\",\"username\":\"sarah\"," ++
    "\"handle\":\"sarah123\",\"lastMessage\":\"hi\",\"date\":\"2024-01-17T11:30:00Z\"," ++
    "\"participants\":" ++ participants ++ "\x7d]\x7d"

theorem oneConversation_eq {participants : String} {ps : List Participant}
    (h : (decodeBody Documents.decoder (oneConversation participants)).toOption.map (fun d =>
      d.conversations.map (·.participants)) = some [ps]) :
    ∃ d c, decodeBody Documents.decoder (oneConversation participants) = .ok d ∧
      d.conversations = [c] ∧ c.participants = ps := by
  cases hbody : decodeBody Documents.decoder (oneConversation participants) with
  | error f =>
    rw [hbody] at h
    contradiction
  | ok d =>
    rw [hbody] at h
    obtain ⟨c, hc, hps⟩ := List.map_eq_singleton_iff.mp (Option.some.inj h)
    exact ⟨d, c, rfl, hc, hps⟩

/-- A conversation with its owner alone breaks one rule only, and the request is answered. -/
theorem lone_owner_is_answered :
    let r := oneConversation "[\x7b\"username\":\"sarah\",\"handle\":\"sarah123\"\x7d]"
    r.method = "POST" ∧ Route.ofPath? r.path = some .indexData ∧
      ∀ {σ : Type} (b : Backend σ) (st : σ),
        ∃ status body, (respond b {} r st).1 = .ok (.json status body) := by
  intro r
  have hroute : Route.ofPath? r.path = some .indexData := by decide
  refine ⟨rfl, hroute, ?_⟩
  intro σ b st
  have hdecoded : (decodeBody Documents.decoder r).toOption.map (fun d =>
      d.conversations.map (·.participants)) = some [[⟨"sarah", "sarah123"⟩]] := by
    decide +kernel
  obtain ⟨d, c, hbody, hconversations, hparticipants⟩ := oneConversation_eq hdecoded
  obtain ⟨-, hanswered⟩ := answered_iff_not_clashes (r := r) rfl hroute
  apply (hanswered b {} st).1.mpr
  intro d' hd'
  obtain rfl : d = d' := Except.ok.inj (hbody.symm.trans hd')
  apply Documents.not_clashes_of_reportable
  intro c' hc'
  obtain rfl : c' = c := by simpa [hconversations] using hc'
  refine .inr fun p hp => ?_
  obtain rfl : p = ⟨"sarah", "sarah123"⟩ := by simpa [hparticipants] using hp
  exact ⟨by decide, by decide⟩

/-- A conversation whose only participant has no name is not answered, whatever the engine does. -/
theorem lone_unnamed_participant_is_not_answered :
    let r := oneConversation "[\x7b\"username\":\"\",\"handle\":\"\"\x7d]"
    ∃ d, decodeBody Documents.decoder r = .ok d ∧
      (∃ c ∈ d.conversations, c.validate = .error participantsClash) ∧
      ∀ {σ : Type} (b : Backend σ) (st : σ), respond b {} r st = (.error participantsClash, st) := by
  intro r
  have hroute : Route.ofPath? r.path = some .indexData := by decide
  have hdecoded : (decodeBody Documents.decoder r).toOption.map (fun d =>
      d.conversations.map (·.participants)) = some [[⟨"", ""⟩]] := by
    decide +kernel
  obtain ⟨d, c, hbody, hconversations, hparticipants⟩ := oneConversation_eq hdecoded
  have hunreportable : ¬c.Reportable := by
    rintro (henough | hnamed)
    · simp [hparticipants] at henough
    · have hfirst := hnamed ⟨"", ""⟩ (by simp [hparticipants])
      exact hfirst.username rfl
  have hclashes : d.Clashes := ⟨[], c, [], hconversations, by simp, hunreportable⟩
  refine ⟨d, hbody, ⟨c, by simp [hconversations], Conversation.validate_clash hunreportable⟩, ?_⟩
  intro σ b st
  rw [respond_indexData rfl hroute]
  exact (indexData_of_clashes hbody hclashes b {} st).plain

end Interface
end ConversationSearch
