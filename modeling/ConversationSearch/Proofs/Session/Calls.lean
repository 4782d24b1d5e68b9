import ConversationSearch.Proofs.Http.Calls
import ConversationSearch.Session

/-!
# The calls of a session

Searches, inspections and looks at the health of the engine make calls that change nothing. Writing
calls are made in two places: documents that were submitted are written where they are valid, and
indices are deleted and created by provisioning. Either can be a step of its own or a request over
HTTP with the method and the path for it.
-/

namespace ConversationSearch

/-- A valid one among the documents is encoded as the given value and has the given id. -/
inductive Documents.Encodes (d : Documents) : Entity → String → Json → Prop
  | conversation {c : Conversation} :
      c ∈ d.conversations → c.Valid → Encodes d .conversation c.id c.toJson
  | message {m : Message} :
      m ∈ d.messages → m.Valid → Encodes d .message m.id m.toJson

namespace SessionStep

/-- The step was given the documents to be written. -/
inductive Submits : SessionStep → Documents → Prop
  | index (d : Documents) : Submits (.index d) d
  | http {r : HttpRequest} {d : Documents} :
      r.method = "POST" → Route.ofPath? r.path = some .indexData →
      Interface.decodeBody Documents.decoder r = .ok d → Submits (.http r) d

/-- The step prepares the indices. -/
inductive Provisions : SessionStep → Prop
  | provision : Provisions .provision
  | http {r : HttpRequest} :
      r.method = "POST" → Route.ofPath? r.path = some .setup → Provisions (.http r)

/-- What a step may ask of the engine. -/
inductive MayCall (s : IndexSettings) (step : SessionStep) : Call → Prop
  | read {c : Call} : Client.isRead c = true → MayCall s step c
  | write {e : Entity} {d : Documents} {entries : List BulkDocument} :
      step.Submits d → (∀ x ∈ entries, d.Encodes e x.id x.document) →
      MayCall s step (.bulkIndex (s.indexName e) entries)
  | create (e : Entity) (body : Json) :
      step.Provisions → MayCall s step (.createIndex (s.indexName e) body)
  | delete (e : Entity) : step.Provisions → MayCall s step (.deleteIndex (s.indexName e))

variable {s : IndexSettings} {step : SessionStep}

theorem mayCall_of_watches {x : Operation α} (hx : Asks Call.Watches x) :
    Asks (step.MayCall s) x :=
  hx.mono fun _ hc => .read hc.isRead

/-- Whoever was given documents may write them where they keep the rules. -/
theorem mayCall_of_check {d : Documents} {c : Call} (hsubmits : step.Submits d)
    (hcheck : Service.check d = .ok ())
    (hc : c = Service.conversationsCall s d ∨ c = Service.messagesCall s d) :
    step.MayCall s c := by
  have hvalid : d.Valid := Service.check_eq_ok.mp hcheck
  rcases hc with rfl | rfl
  · apply MayCall.write (e := .conversation) hsubmits
    intro x hx
    obtain ⟨c, hc, rfl⟩ := List.mem_map.mp hx
    exact .conversation hc (hvalid.conversations c hc)
  · apply MayCall.write (e := .message) hsubmits
    intro x hx
    obtain ⟨m, hm, rfl⟩ := List.mem_map.mp hx
    exact .message hm (hvalid.messages m hm)

theorem mayCall_of_prepares {e : Entity} {c : Call} (hprovisions : step.Provisions)
    (hc : Provisioning.Prepares (s.indexName e) c) :
    step.MayCall s c := by
  cases hc with
  | looked => exact .read rfl
  | created body => exact .create e body hprovisions
  | deleted => exact .delete e hprovisions
  | read => exact .read rfl

theorem provision_asks (hprovisions : step.Provisions) :
    Asks (step.MayCall s) fun _ b => Provisioning.provision b s := by
  apply (Provisioning.provision_asks s).mono
  rintro c (rfl | ⟨e, hc⟩)
  · exact .read rfl
  · exact mayCall_of_prepares hprovisions hc

/-- A request makes the calls of a step. -/
theorem mayCall_of_request {r : HttpRequest} {c : Call} (hc : Interface.MayCall s r c) :
    (SessionStep.http r).MayCall s c := by
  cases hc with
  | watch _ _ hwatches => exact .read hwatches.isRead
  | search _ _ _ hcall => rcases hcall with rfl | rfl <;> exact .read rfl
  | health _ => exact .read rfl
  | prepare e hposts hprepares =>
    exact mayCall_of_prepares (.http hposts.1 hposts.2) hprepares
  | write hposts hbody hcheck hcall =>
    exact mayCall_of_check (.http hposts.1 hposts.2 hbody) hcheck hcall

end SessionStep

/-- A step makes no other calls than it may. -/
theorem Session.takeOn_asks (s : IndexSettings) (step : SessionStep) :
    Asks (step.MayCall s) fun _ b => takeOn b s step := by
  cases step with
  | change c => exact .pure SessionOutcome.changed
  | compile r => exact .pure _
  | settings => exact .pure (SessionOutcome.settings s)
  | search r =>
    have hsearch : Asks ((SessionStep.search r).MayCall s) fun _ b => Service.search b s r := by
      apply (Service.search_asks (Compile.compile_eq_ok _ r)).mono
      rintro c (rfl | rfl) <;> exact .read rfl
    exact hsearch.bind fun result => .pure _
  | index d =>
    have hindex : Asks ((SessionStep.index d).MayCall s) fun _ b => Service.indexDocuments b s d := by
      apply (Service.indexDocuments_asks s d).mono
      rintro c ⟨hcheck, hc⟩
      exact SessionStep.mayCall_of_check (.index d) hcheck hc
    exact hindex.bind fun result => .pure _
  | health => exact (SessionStep.mayCall_of_watches Service.health_watches).bind fun report => .pure _
  | provision => exact (SessionStep.provision_asks .provision).bind fun result => .pure _
  | inspect =>
    exact (SessionStep.mayCall_of_watches (Provisioning.inspect_watches s)).bind
      fun result => .pure _
  | http r =>
    have hrespond := (Interface.respond_asks s r).mono fun c => SessionStep.mayCall_of_request
    exact hrespond.bind fun result => .pure _

end ConversationSearch
