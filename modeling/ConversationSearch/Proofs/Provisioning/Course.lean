import ConversationSearch.Proofs.Engine.Runs
import ConversationSearch.Provisioning

/-!
# The course of provisioning

The ways in which the calls for an index can go, with the outcome that each of them leads to. There
is one relation for each step of the preparation, and each says which call is made, what its answer
can be and what is done after it. The course of the whole is a healthy engine and then the courses
of the two indices, one after the other.

On any backend, the preparation of an index makes no other calls than those about that index.
-/

namespace ConversationSearch

/-- The name of the index of one kind is not that of the other. -/
theorem IndexSettings.indexName_ne {s : IndexSettings}
    (hnames : s.conversationsIndex ≠ s.messagesIndex) {e e' : Entity} (he : e ≠ e') :
    s.indexName e ≠ s.indexName e' := by
  cases e <;> cases e'
  · contradiction
  · exact hnames
  · exact hnames.symm
  · contradiction

namespace IndexOutcome

/-- The calls that verify an index, and the outcome. -/
inductive Verified (o : IndexOutcome) : List Answered → IndexOutcome → Prop
  | unread (f : SearchFailure) :
      Verified o [⟨.getMapping o.index, .error f⟩] (o.failed f)
  | read (live : Json) :
      Verified o [⟨.getMapping o.index, .ok live⟩]
        { o with verification := some (o.entity.verify live) }

/-- The calls that create an index and verify it, and the outcome. -/
inductive Created (o : IndexOutcome) : List Answered → IndexOutcome → Prop
  | refused (f : SearchFailure) :
      Created o [⟨.createIndex o.index (Schema.indexBody o.entity.fields), .error f⟩] (o.failed f)
  | acknowledged (reply : Json) {calls : List Answered} {outcome : IndexOutcome} :
      Verified { o with created := true } calls outcome →
      Created o
        (⟨.createIndex o.index (Schema.indexBody o.entity.fields), .ok reply⟩ :: calls) outcome

/-- The calls that put an index in the place of another, and the outcome. -/
inductive Replaced (o : IndexOutcome) : List Answered → IndexOutcome → Prop
  | refused (f : SearchFailure) :
      Replaced o [⟨.deleteIndex o.index, .error f⟩] (o.failed f)
  | deleted {calls : List Answered} {outcome : IndexOutcome} :
      Created { o with replaced := true } calls outcome →
      Replaced o (⟨.deleteIndex o.index, .ok ()⟩ :: calls) outcome

/-- The calls that prepare an index, and the outcome. -/
inductive Prepared (o : IndexOutcome) : List Answered → IndexOutcome → Prop
  | unknown (f : SearchFailure) :
      Prepared o [⟨.indexExists o.index, .error f⟩] (o.failed f)
  | present {calls : List Answered} {outcome : IndexOutcome} :
      Replaced o calls outcome →
      Prepared o (⟨.indexExists o.index, .ok true⟩ :: calls) outcome
  | absent {calls : List Answered} {outcome : IndexOutcome} :
      Created o calls outcome →
      Prepared o (⟨.indexExists o.index, .ok false⟩ :: calls) outcome

/-- The outcome before the first call. -/
def initial (s : IndexSettings) (e : Entity) : IndexOutcome where
  entity := e
  index := s.indexName e

end IndexOutcome

namespace Provisioning

open IndexOutcome

/-- The calls of provisioning, and what it comes to. -/
inductive Course (s : IndexSettings) :
    List Answered → Except SearchFailure ProvisionReport → Prop
  | unhealthy (f : SearchFailure) :
      Course s [⟨.health, .error f⟩] (.error (unavailable f))
  | tried (reply : Json) {conversationCalls messageCalls : List Answered}
      {conversation message : IndexOutcome} :
      Prepared (initial s .conversation) conversationCalls conversation →
      Prepared (initial s .message) messageCalls message →
      Course s (⟨.health, .ok reply⟩ :: (conversationCalls ++ messageCalls))
        (.ok (.ofOutcomes [conversation, message]))

section Steps

variable (b : Backend σ) (s : IndexSettings)

theorem verifyIndex_logs (o : IndexOutcome) :
    Logs (verifyIndex b.observed o) o.Verified := by
  apply Logs.ask_bind
  intro answer
  cases answer with
  | error f => exact .pure (.unread f)
  | ok live => exact .pure (.read live)

theorem createIndex_logs (o : IndexOutcome) :
    Logs (createIndex b.observed o) o.Created := by
  apply Logs.ask_bind
  intro answer
  cases answer with
  | error f => exact .pure (.refused f)
  | ok reply => exact (verifyIndex_logs b _).mono fun _ _ h => .acknowledged reply h

theorem replaceIndex_logs (o : IndexOutcome) :
    Logs (replaceIndex b.observed o) o.Replaced := by
  apply Logs.ask_bind
  intro answer
  cases answer with
  | error f => exact .pure (.refused f)
  | ok done => exact (createIndex_logs b _).mono fun _ _ h => .deleted h

theorem provisionIndex_logs (e : Entity) :
    Logs (provisionIndex b.observed s e) (initial s e).Prepared := by
  apply Logs.ask_bind
  intro answer
  rcases answer with f | present
  · exact .pure (.unknown f)
  · cases present with
    | true => exact (replaceIndex_logs b _).mono fun _ _ h => .present h
    | false => exact (createIndex_logs b _).mono fun _ _ h => .absent h

/-- The two indices are prepared one after the other. -/
theorem mapM_all (f : Entity → StateM σ IndexOutcome) :
    Entity.all.mapM f =
      f .conversation >>= fun c => f .message >>= fun m => pure [c, m] := by
  simp [Entity.all, List.mapM_cons, List.mapM_nil]

theorem provision_logs :
    Logs (provision b.observed s) (Course s) := by
  apply Logs.ask_bind
  intro answer
  cases answer with
  | error f => exact .pure (.unhealthy f)
  | ok reply =>
    simp only [mapM_all, bind_assoc, pure_bind]
    apply (provisionIndex_logs b s .conversation).bind
    intro conversationCalls conversation hconversation
    apply (provisionIndex_logs b s .message).bind_pure
    intro messageCalls message hmessage
    exact ⟨_, rfl, .tried reply hconversation hmessage⟩

end Steps

/-! ## Which calls are made -/

/-- The calls that prepare an index. -/
inductive Prepares (index : String) : Call → Prop
  | looked : Prepares index (.indexExists index)
  | created (body : Json) : Prepares index (.createIndex index body)
  | deleted : Prepares index (.deleteIndex index)
  | read : Prepares index (.getMapping index)

namespace Prepares

variable {index : String} {c : Call}

theorem index? (h : Prepares index c) :
    c.index? = some index := by
  cases h <;> rfl

theorem ne_search (h : Prepares index c) (body : Json) :
    c ≠ .search index body := by
  cases h <;> simp

end Prepares

section Calls

variable (s : IndexSettings)

theorem verifyIndex_asks (o : IndexOutcome) :
    Asks (Prepares o.index) fun _ b => verifyIndex b o := by
  apply Asks.ask (.getMapping o.index) .read
  intro answer
  cases answer with
  | error f => exact .pure (o.failed f)
  | ok live => exact .pure { o with verification := some (o.entity.verify live) }

theorem createIndex_asks (o : IndexOutcome) :
    Asks (Prepares o.index) fun _ b => createIndex b o := by
  apply Asks.ask (.createIndex o.index (Schema.indexBody o.entity.fields)) (.created _)
  intro answer
  cases answer with
  | error f => exact .pure (o.failed f)
  | ok reply => exact verifyIndex_asks { o with created := true }

theorem replaceIndex_asks (o : IndexOutcome) :
    Asks (Prepares o.index) fun _ b => replaceIndex b o := by
  apply Asks.ask (.deleteIndex o.index) .deleted
  intro answer
  cases answer with
  | error f => exact .pure (o.failed f)
  | ok done => exact createIndex_asks { o with replaced := true }

theorem provisionIndex_asks (e : Entity) :
    Asks (Prepares (s.indexName e)) fun _ b => provisionIndex b s e := by
  apply Asks.ask (.indexExists (s.indexName e)) .looked
  intro answer
  rcases answer with f | present
  · exact .pure ((initial s e).failed f)
  · cases present with
    | true => exact replaceIndex_asks (initial s e)
    | false => exact createIndex_asks (initial s e)

theorem provision_asks :
    Asks (fun c => c = .health ∨ ∃ e, Prepares (s.indexName e) c) fun _ b => provision b s := by
  apply Asks.ask .health (.inl rfl)
  intro answer
  cases answer with
  | error f => exact .pure (Except.error (unavailable f))
  | ok reply =>
    have hindex : ∀ e, Asks (fun c => c = .health ∨ ∃ e, Prepares (s.indexName e) c)
        fun _ b => provisionIndex b s e :=
      fun e => (provisionIndex_asks s e).mono fun _ hc => .inr ⟨e, hc⟩
    simp only [mapM_all, bind_assoc, pure_bind]
    exact (hindex .conversation).bind fun conversation =>
      (hindex .message).bind fun message =>
        .pure (Except.ok (ProvisionReport.ofOutcomes [conversation, message]))

end Calls

end Provisioning
end ConversationSearch
