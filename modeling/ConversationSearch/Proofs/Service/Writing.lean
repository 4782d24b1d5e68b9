import ConversationSearch.Proofs.Engine.Runs
import ConversationSearch.Proofs.Http.Responses

/-!
# Writing documents

The documents of a request are handed to the engine by two calls, conversations first. A request
whose answer is 200 had a body that was decoded, its documents keep the rules, and both calls
succeeded.
-/

namespace ConversationSearch

namespace Service

/-- The call that writes conversations. -/
def conversationsCall (s : IndexSettings) (d : Documents) : Call :=
  .bulkIndex (s.indexName .conversation) (d.conversations.map conversationEntry)

/-- The call that writes messages. -/
def messagesCall (s : IndexSettings) (d : Documents) : Call :=
  .bulkIndex (s.indexName .message) (d.messages.map messageEntry)

/-- The calls that write documents, and what they come to. -/
inductive Writing (s : IndexSettings) (d : Documents) :
    List Answered → Except SearchFailure IndexSummary → Prop
  | conversationsRefused (f : SearchFailure) :
      Writing s d [⟨conversationsCall s d, .error f⟩] (.error f)
  | messagesRefused (conversations : Nat) (f : SearchFailure) :
      Writing s d [⟨conversationsCall s d, .ok conversations⟩, ⟨messagesCall s d, .error f⟩]
        (.error f)
  | written (conversations messages : Nat) :
      Writing s d [⟨conversationsCall s d, .ok conversations⟩, ⟨messagesCall s d, .ok messages⟩]
        (.ok ⟨conversations, messages⟩)

/-- The calls that validate documents and write them, and what they come to. -/
inductive Indexing (s : IndexSettings) (d : Documents) :
    List Answered → Except IndexingStop IndexSummary → Prop
  | refused (stop : IndexingStop) :
      check d = .error stop → Indexing s d [] (.error stop)
  | tried {calls : List Answered} {result : Except SearchFailure IndexSummary} :
      check d = .ok () → Writing s d calls result →
      Indexing s d calls (result.mapError .failure)

variable (s : IndexSettings) (d : Documents)

theorem write_logs (b : Backend σ) :
    Logs (write b.observed s d) (Writing s d) := by
  apply Logs.ask_bind
  intro answer
  cases answer with
  | error f => exact .pure (.conversationsRefused f)
  | ok conversations =>
    apply Logs.ask_bind
    intro answer
    cases answer with
    | error f => exact .pure (.messagesRefused conversations f)
    | ok messages => exact .pure (.written conversations messages)

theorem write_asks :
    Asks (fun c => c = conversationsCall s d ∨ c = messagesCall s d) fun _ b => write b s d := by
  apply Asks.ask (conversationsCall s d) (.inl rfl)
  intro answer
  cases answer with
  | error f => exact .pure (Except.error f)
  | ok conversations =>
    apply Asks.ask (messagesCall s d) (.inr rfl)
    intro answer
    cases answer with
    | error f => exact .pure (Except.error f)
    | ok messages => exact .pure (Except.ok (IndexSummary.mk conversations messages))

theorem indexDocuments_logs (b : Backend σ) :
    Logs (indexDocuments b.observed s d) (Indexing s d) := by
  unfold indexDocuments
  cases hcheck : check d with
  | error stop => exact .pure (.refused stop hcheck)
  | ok done =>
    apply (write_logs s d b).bind_pure
    intro calls result hwriting
    exact ⟨_, rfl, .tried hcheck hwriting⟩

theorem indexDocuments_asks :
    Asks (fun c => check d = .ok () ∧ (c = conversationsCall s d ∨ c = messagesCall s d))
      fun _ b => indexDocuments b s d := by
  unfold indexDocuments
  cases hcheck : check d with
  | error stop => exact .pure (Except.error stop)
  | ok done =>
    refine ((write_asks s d).mono fun c hc => ⟨rfl, hc⟩).bind ?_
    intro result
    exact .pure (result.mapError IndexingStop.failure)

end Service

namespace Interface

/-- The responses to writing documents, with the calls for each. -/
inductive Indexing (s : IndexSettings) (r : HttpRequest) :
    List Answered → Except Clash HttpResponse → Prop
  | undecoded (f : ApiFailure) :
      decodeBody Documents.decoder r = .error f → Indexing s r [] (.ok (.ofFailure f))
  | clashed (d : Documents) (c : Clash) {calls : List Answered} :
      decodeBody Documents.decoder r = .ok d → Service.Indexing s d calls (.error (.clash c)) →
      Indexing s r calls (.error c)
  | failed (d : Documents) (f : SearchFailure) {calls : List Answered} :
      decodeBody Documents.decoder r = .ok d → Service.Indexing s d calls (.error (.failure f)) →
      Indexing s r calls (.ok (.ofFailure (.ofSearch f)))
  | written (d : Documents) (summary : IndexSummary) {calls : List Answered} :
      decodeBody Documents.decoder r = .ok d → Service.Indexing s d calls (.ok summary) →
      Indexing s r calls (.ok (.json 200 summary.toJson))

theorem indexData_logs (b : Backend σ) (s : IndexSettings) (r : HttpRequest) :
    Logs (indexData b.observed s r) (Indexing s r) := by
  unfold indexData
  cases hbody : decodeBody Documents.decoder r with
  | error f => exact .pure (.undecoded f hbody)
  | ok d =>
    apply (Service.indexDocuments_logs s d b).bind_pure
    intro calls result hresult
    rcases result with (f | c) | summary
    · exact ⟨_, rfl, .failed d f hbody hresult⟩
    · exact ⟨_, rfl, .clashed d c hbody hresult⟩
    · exact ⟨_, rfl, .written d summary hbody hresult⟩

theorem indexData_asks (s : IndexSettings) (r : HttpRequest) :
    Asks (fun c => ∃ d, decodeBody Documents.decoder r = .ok d ∧ Service.check d = .ok () ∧
        (c = Service.conversationsCall s d ∨ c = Service.messagesCall s d))
      fun _ b => indexData b s r := by
  unfold indexData
  cases hbody : decodeBody Documents.decoder r with
  | error f => exact .pure (Except.ok (HttpResponse.ofFailure f))
  | ok d =>
    refine ((Service.indexDocuments_asks s d).mono fun c hc => ⟨d, rfl, hc⟩).bind ?_
    intro result
    rcases result with (f | c) | summary
    · exact .pure (Except.ok (HttpResponse.ofFailure (.ofSearch f)))
    · exact .pure (Except.error c)
    · exact .pure (Except.ok (HttpResponse.json 200 summary.toJson))

theorem respond_indexData {r : HttpRequest} (hmethod : r.method = "POST")
    (hroute : Route.ofPath? r.path = some .indexData) (b : Backend σ) (s : IndexSettings) :
    respond b s r = indexData b s r :=
  respond_post hmethod hroute rfl b s

/-- With the status 200 the documents were decoded, keep the rules and were written. -/
theorem indexing_of_success {s : IndexSettings} {r : HttpRequest} {log : List Answered}
    {response : HttpResponse} (h : Indexing s r log (.ok response)) (hstatus : response.status = 200) :
    ∃ d conversations messages, decodeBody Documents.decoder r = .ok d ∧
      Service.check d = .ok () ∧
      log = [⟨Service.conversationsCall s d, .ok conversations⟩,
        ⟨Service.messagesCall s d, .ok messages⟩] := by
  cases h with
  | undecoded f _ => exact absurd hstatus f.kind.status_ne_200
  | failed d f _ _ => exact absurd hstatus (FailureKind.status_ne_200 _)
  | written d summary hbody hindexing =>
    generalize hresult : (Except.ok summary : Except IndexingStop IndexSummary) = result
      at hindexing
    cases hindexing with
    | refused stop _ => contradiction
    | tried hcheck hwriting =>
      cases hwriting with
      | conversationsRefused f => contradiction
      | messagesRefused conversations f => contradiction
      | written conversations messages =>
        exact ⟨d, conversations, messages, hbody, hcheck, rfl⟩

end Interface
end ConversationSearch
