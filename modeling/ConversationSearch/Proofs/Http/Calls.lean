import ConversationSearch.Engine.Client
import ConversationSearch.Proofs.Documents.Validity
import ConversationSearch.Proofs.Engine.Indices
import ConversationSearch.Proofs.Provisioning.Course
import ConversationSearch.Proofs.Service.Searching

/-!
# The calls of a request

A request makes no calls, it only looks at the engine, or it is one of the three that are posted: to
search, to prepare the indices and to write documents. `Interface.MayCall` says which calls a request
may make. From it follows who can change what. Indices are deleted and created by setup alone, behind
a look at the health of the engine that succeeded, and documents are written only from a body that
was decoded and whose documents keep the rules.
-/

namespace ConversationSearch

/-! ## Kinds of calls -/

namespace Call

/-- A call that looks at the engine or an index, and at no document. -/
def Watches : Call → Prop
  | .indexExists _ | .getMapping _ | .ping | .health | .info => True
  | .search _ _ | .bulkIndex _ _ | .createIndex _ _ | .deleteIndex _ => False

/-- A call that deletes an index or creates one. -/
def Rebuilds : Call → Prop
  | .createIndex _ _ | .deleteIndex _ => True
  | .search _ _ | .bulkIndex _ _ | .indexExists _ | .getMapping _ | .ping | .health | .info => False

variable {c : Call}

theorem Watches.isRead (h : c.Watches) :
    Client.isRead c = true := by
  cases c <;> first | rfl | exact h.elim

theorem Rebuilds.isRead (h : c.Rebuilds) :
    Client.isRead c = false := by
  cases c <;> first | rfl | exact h.elim

end Call

namespace Service

theorem health_watches :
    Asks Call.Watches fun _ b => health b := by
  apply Asks.ask .ping trivial
  intro answered
  apply Asks.ask .health trivial
  intro health
  apply Asks.ask .info trivial
  intro info
  exact .pure _

end Service

namespace Provisioning

variable (s : IndexSettings)

theorem missingIndices_watches (es : List Entity) :
    Asks Call.Watches fun _ b => missingIndices b s es := by
  induction es with
  | nil => exact .pure (Except.ok [])
  | cons e es ih =>
    apply Asks.ask (.indexExists (s.indexName e)) trivial
    intro answer
    cases answer with
    | error f => exact .pure (Except.error f)
    | ok present => exact ih.bind fun names => .pure _

theorem inspectMappings_watches (es : List Entity) :
    Asks Call.Watches fun _ b => inspectMappings b s es := by
  induction es with
  | nil => exact .pure (Except.ok [])
  | cons e es ih =>
    apply Asks.ask (.getMapping (s.indexName e)) trivial
    intro answer
    cases answer with
    | error f => exact .pure (Except.error f)
    | ok live => exact ih.bind fun mappings => .pure _

theorem inspect_watches :
    Asks Call.Watches fun _ b => inspect b s := by
  apply (missingIndices_watches s Entity.all).bind
  intro missing
  rcases missing with f | names
  · exact .pure (Except.error f)
  · cases names with
    | nil => exact inspectMappings_watches s Entity.all
    | cons name names => exact .pure _

end Provisioning

/-! ## Requests -/

namespace HttpRequest

/-- The request is posted on a route. -/
def Posts (r : HttpRequest) (route : Route) : Prop :=
  r.method = "POST" ∧ Route.ofPath? r.path = some route

/-- The request has the path of a route and one of its methods. -/
def Reaches (r : HttpRequest) (route : Route) : Prop :=
  Route.ofPath? r.path = some route ∧
    if route.isRead then r.method = "GET" ∨ r.method = "HEAD" else r.method = "POST"

variable {r : HttpRequest} {route : Route}

theorem Posts.reaches (h : r.Posts route) (hwrites : route.isRead = false) :
    r.Reaches route := by
  refine ⟨h.2, ?_⟩
  rw [hwrites]
  exact h.1

end HttpRequest

namespace Interface

/-- What a request may ask of the engine. -/
inductive MayCall (s : IndexSettings) (r : HttpRequest) : Call → Prop
  | watch {route : Route} {call : Call} :
      r.Reaches route → route.isRead = true → call.Watches → MayCall s r call
  | search {q : Request} {c : CompiledSearch} {call : Call} :
      r.Posts .search → decodeBody Request.decoder r = .ok q →
      compile s.enableHighlighting q = .ok c → (call = .ping ∨ call = Service.searchCall s c) →
      MayCall s r call
  | health : r.Posts .setup → MayCall s r .health
  | prepare (e : Entity) {call : Call} :
      r.Posts .setup → Provisioning.Prepares (s.indexName e) call → MayCall s r call
  | write {d : Documents} {call : Call} :
      r.Posts .indexData → decodeBody Documents.decoder r = .ok d → Service.check d = .ok () →
      (call = Service.conversationsCall s d ∨ call = Service.messagesCall s d) → MayCall s r call

variable {s : IndexSettings} {r : HttpRequest}

theorem clusterHealth_watches :
    Asks Call.Watches fun _ b => clusterHealth b :=
  Service.health_watches.bind fun report => .pure (HttpResponse.json 200 report.toJson)

theorem mappings_watches (s : IndexSettings) :
    Asks Call.Watches fun _ b => mappings b s := by
  apply (Provisioning.inspect_watches s).bind
  intro result
  cases result with
  | error f => exact .pure (HttpResponse.ofFailure (.ofSearch f))
  | ok found => exact .pure (HttpResponse.json 200 (mappingsJson found))

theorem search_asks (hposts : r.Posts .search) :
    Asks (MayCall s r) fun _ b => search b s r := by
  cases hbody : decodeBody Request.decoder r with
  | error f =>
    simp only [search, hbody]
    exact .pure (HttpResponse.ofFailure f)
  | ok q =>
    have hcompile := Compile.compile_eq_ok s.enableHighlighting q
    have hcalls : Asks (MayCall s r) fun _ b => Service.search b s q :=
      (Service.search_asks hcompile).mono fun call => .search hposts hbody hcompile
    simp only [search_of_decoded hbody]
    exact hcalls.bind fun result => .pure (HttpResponse.ofSearch result)

theorem setup_asks (hposts : r.Posts .setup) :
    Asks (MayCall s r) fun _ b => setup b s := by
  have hcalls : Asks (MayCall s r) fun _ b => Provisioning.provision b s := by
    apply (Provisioning.provision_asks s).mono
    rintro call (rfl | ⟨e, hcall⟩)
    · exact .health hposts
    · exact .prepare e hposts hcall
  apply hcalls.bind
  intro result
  cases result with
  | error f => exact .pure (HttpResponse.ofFailure (.ofSearch f))
  | ok report => exact .pure (HttpResponse.json (if report.success then 200 else 500) report.toJson)

/-- A route that is reached makes the calls that are its own. -/
theorem answer_asks {route : Route} (hreaches : r.Reaches route) :
    Asks (MayCall s r) fun _ b => answer b s r route := by
  have hwatch : ∀ {α : Type} {x : Operation α}, route.isRead = true → Asks Call.Watches x →
      Asks (MayCall s r) x :=
    fun hread hx => hx.mono fun call => .watch hreaches hread
  obtain ⟨hpath, hmethod⟩ := hreaches
  cases route with
  | liveness => exact .pure (Except.ok liveness)
  | search =>
    exact (search_asks ⟨hmethod, hpath⟩).bind fun response => .pure (Except.ok response)
  | clusterHealth =>
    exact (hwatch rfl clusterHealth_watches).bind fun response => .pure (Except.ok response)
  | setup => exact (setup_asks ⟨hmethod, hpath⟩).bind fun response => .pure (Except.ok response)
  | mappings =>
    exact (hwatch rfl (mappings_watches s)).bind fun response => .pure (Except.ok response)
  | indexData =>
    apply (indexData_asks s r).mono
    rintro call ⟨d, hbody, hcheck, hcall⟩
    exact .write ⟨hmethod, hpath⟩ hbody hcheck hcall

theorem answerMethod_asks (s : IndexSettings) {route : Route}
    (hpath : Route.ofPath? r.path = some route) :
    Asks (MayCall s r) fun _ b => answerMethod b s r route := by
  unfold answerMethod
  by_cases hhead : (route.isRead && r.method == "HEAD") = true
  · have hreaches : r.Reaches route := by
      refine ⟨hpath, ?_⟩
      simp_all
    simp only [hhead, if_true]
    exact (answer_asks hreaches).bind fun response => .pure _
  by_cases hown : (r.method == if route.isRead then "GET" else "POST") = true
  · have hreaches : r.Reaches route := by
      refine ⟨hpath, ?_⟩
      cases hread : route.isRead <;> simp_all
    simp only [hhead, hown, if_true]
    exact answer_asks hreaches
  · simp only [hhead, hown]
    exact .pure (Except.ok (HttpResponse.wrongMethod route.allow))

/-- A request makes no other calls than it may. -/
theorem respond_asks (s : IndexSettings) (r : HttpRequest) :
    Asks (MayCall s r) fun _ b => respond b s r := by
  unfold respond
  by_cases hoptions : (r.method == "OPTIONS") = true
  · simp only [hoptions, if_true]
    exact .pure (Except.ok HttpResponse.options)
  simp only [hoptions]
  cases hpath : Route.ofPath? r.path with
  | none => exact .pure (Except.ok HttpResponse.unknownPath)
  | some route => exact answerMethod_asks s hpath

/-! ## Who changes what -/

namespace MayCall

variable {call : Call}

theorem reaches (h : MayCall s r call) :
    ∃ route, r.Reaches route := by
  cases h with
  | watch hreaches _ _ => exact ⟨_, hreaches⟩
  | search hposts _ _ _ => exact ⟨_, hposts.reaches rfl⟩
  | health hposts => exact ⟨_, hposts.reaches rfl⟩
  | prepare e hposts _ => exact ⟨_, hposts.reaches rfl⟩
  | write hposts _ _ _ => exact ⟨_, hposts.reaches rfl⟩

theorem posts_setup (h : MayCall s r call) (hrebuilds : call.Rebuilds) :
    r.Posts .setup ∧ ∃ e, call.index? = some (s.indexName e) := by
  cases h with
  | watch _ _ hwatches =>
    have hread := hrebuilds.isRead
    rw [hwatches.isRead] at hread
    contradiction
  | search _ _ _ hcall => rcases hcall with rfl | rfl <;> exact hrebuilds.elim
  | health _ => exact hrebuilds.elim
  | prepare e hposts hprepares => exact ⟨hposts, e, hprepares.index?⟩
  | write _ _ _ hcall => rcases hcall with rfl | rfl <;> exact hrebuilds.elim

theorem posts_indexData {index : String} {entries : List BulkDocument}
    (h : MayCall s r (.bulkIndex index entries)) :
    r.Posts .indexData ∧ ∃ d, decodeBody Documents.decoder r = .ok d ∧ d.Valid := by
  cases h with
  | watch _ _ hwatches => exact hwatches.elim
  | search _ _ _ hcall => rcases hcall with hcall | hcall <;> contradiction
  | prepare e _ hprepares => contradiction
  | write hposts hbody hcheck _ => exact ⟨hposts, _, hbody, Service.check_eq_ok.mp hcheck⟩

theorem posts_search {index : String} {body : Json} (h : MayCall s r (.search index body)) :
    r.Posts .search ∧ ∃ q, decodeBody Request.decoder r = .ok q := by
  cases h with
  | watch _ _ hwatches => exact hwatches.elim
  | search hposts hbody _ _ => exact ⟨hposts, _, hbody⟩
  | prepare e _ hprepares => contradiction
  | write _ _ _ hcall => rcases hcall with hcall | hcall <;> contradiction

/-- Without setup, and without valid documents to be written, there are only reads. -/
theorem isRead_of_harmless (h : MayCall s r call) (hsetup : ¬r.Posts .setup)
    (hdocuments : ∀ d, r.Posts .indexData → decodeBody Documents.decoder r = .ok d → ¬d.Valid) :
    Client.isRead call = true := by
  cases h with
  | watch _ _ hwatches => exact hwatches.isRead
  | search _ _ _ hcall => rcases hcall with rfl | rfl <;> rfl
  | health hposts => exact absurd hposts hsetup
  | prepare e hposts _ => exact absurd hposts hsetup
  | write hposts hbody hcheck _ =>
    exact absurd (Service.check_eq_ok.mp hcheck) (hdocuments _ hposts hbody)

end MayCall

/-- Setup rebuilds indices behind a look at the health of the engine that succeeded. -/
theorem health_of_rebuilds {b : Backend σ} {st st' : σ} {calls : List Answered}
    {result : Except Clash HttpResponse} (hposts : r.Posts .setup)
    (hrun : Runs (fun _ b => respond b s r) b st calls result st') {a : Answered}
    (ha : a ∈ calls) (hrebuilds : a.call.Rebuilds) :
    ∃ reply rest, calls = ⟨.health, .ok reply⟩ :: rest := by
  have hlogs : Logs (respond b.observed s r) fun calls _ =>
      ∃ report, Provisioning.Course s calls report := by
    rw [respond_post hposts.1 hposts.2 rfl]
    simp only [answer, setup, bind_assoc]
    apply (Provisioning.provision_logs b s).bind_pure
    intro calls report hcourse
    cases report with
    | error f => exact ⟨_, rfl, _, hcourse⟩
    | ok report => exact ⟨_, rfl, _, hcourse⟩
  obtain ⟨report, hcourse⟩ := hrun.of_logs hlogs
  cases hcourse with
  | unhealthy f =>
    obtain rfl := List.mem_singleton.mp ha
    exact hrebuilds.elim
  | tried reply _ _ => exact ⟨reply, _, rfl⟩

/-- The body of a request is not declared as JSON, is too long, or cannot be decoded. -/
def Rejects (d : Json.Decoder α) (r : HttpRequest) : Prop :=
  declaresJson r = false ∨ bodyFits r = false ∨ ∃ f, d.ofFront r.body = .error f

theorem decodeBody_of_rejects {d : Json.Decoder α} (h : Rejects d r) :
    ∃ reason, decodeBody d r = .error ⟨.validation, reason⟩ := by
  unfold decodeBody
  cases hdeclared : declaresJson r with
  | false => exact ⟨_, rfl⟩
  | true =>
    cases hfits : bodyFits r with
    | false => exact ⟨_, rfl⟩
    | true =>
      rcases h with hundeclared | htooLong | ⟨f, hf⟩
      · rw [hdeclared] at hundeclared
        contradiction
      · rw [hfits] at htooLong
        contradiction
      · exact ⟨bodyFault f, by simp [hf, Except.mapError]⟩

/-- What is posted with a body that is rejected is answered without a call. -/
theorem respond_of_rejects
    (h : r.Posts .search ∧ Rejects Request.decoder r ∨
      r.Posts .indexData ∧ Rejects Documents.decoder r) :
    ∃ reason, ∀ {σ : Type} (b : Backend σ) s,
      respond b s r = pure (.ok (.ofFailure ⟨.validation, reason⟩)) := by
  rcases h with ⟨hposts, hrejects⟩ | ⟨hposts, hrejects⟩
  · obtain ⟨reason, hbody⟩ := decodeBody_of_rejects hrejects
    refine ⟨reason, fun b s => ?_⟩
    rw [respond_post hposts.1 hposts.2 rfl]
    simp only [answer, search, hbody, pure_bind]
  · obtain ⟨reason, hbody⟩ := decodeBody_of_rejects hrejects
    refine ⟨reason, fun b s => ?_⟩
    rw [respond_post hposts.1 hposts.2 rfl]
    simp only [answer, indexData, hbody]

/-- Indices are deleted and created by setup alone, by the names of the settings and after the look
at the health of the engine has succeeded. Documents are written only where they were decoded from
the body and keep the rules, and searches run only for a body that was decoded. Any other request
keeps what is stored, as far as reading keeps it, and one that reaches no route makes no call. A body
that is rejected is answered 400 without a call. -/
theorem effects_of_request (b : Backend σ) (s : IndexSettings) (r : HttpRequest) (st : σ) :
    ∃ calls result st', Runs (fun _ b => respond b s r) b st calls result st' ∧
      (∀ a ∈ calls, a.call.Rebuilds →
        r.Posts .setup ∧ (∃ e, a.call.index? = some (s.indexName e)) ∧
          ∃ reply rest, calls = ⟨.health, .ok reply⟩ :: rest) ∧
      (∀ a ∈ calls, ∀ index entries, a.call = .bulkIndex index entries →
        r.Posts .indexData ∧ ∃ d, decodeBody Documents.decoder r = .ok d ∧ d.Valid) ∧
      (∀ a ∈ calls, ∀ index body, a.call = .search index body →
        r.Posts .search ∧ ∃ q, decodeBody Request.decoder r = .ok q) ∧
      (¬r.Posts .setup →
        (∀ d, r.Posts .indexData → decodeBody Documents.decoder r = .ok d → ¬d.Valid) →
        ∀ {τ : Type} (store : σ → τ),
          (∀ c st, Client.isRead c = true → store (b c st).2 = store st) → store st' = store st) ∧
      ((∀ route, ¬r.Reaches route) → calls = [] ∧ st' = st) ∧
      (r.Posts .search ∧ Rejects Request.decoder r ∨
          r.Posts .indexData ∧ Rejects Documents.decoder r →
        calls = [] ∧ st' = st ∧ ∃ response, result = .ok response ∧
          response.status = 400 ∧ response.failureCode? = some "VALIDATION_ERROR") := by
  obtain ⟨calls, result, st', hrun⟩ := (respond_asks s r).runs b st
  have hcalls : ∀ a ∈ calls, MayCall s r a.call := hrun.of_logs ((respond_asks s r).logs b)
  refine ⟨calls, result, st', hrun, ?_, ?_, ?_, ?_, ?_, ?_⟩
  · intro a ha hrebuilds
    obtain ⟨hposts, hname⟩ := (hcalls a ha).posts_setup hrebuilds
    exact ⟨hposts, hname, health_of_rebuilds hposts hrun ha hrebuilds⟩
  · intro a ha index entries hcall
    exact (hcall ▸ hcalls a ha).posts_indexData
  · intro a ha index body hcall
    exact (hcall ▸ hcalls a ha).posts_search
  · intro hsetup hdocuments τ store hreads
    apply hrun.leads.keeps (P := fun st' => store st' = store st)
    · intro a ha st' hst
      exact (hreads a.call st' ((hcalls a ha).isRead_of_harmless hsetup hdocuments)).trans hst
    · rfl
  · intro hunrouted
    have hnone : calls = [] := by
      apply List.eq_nil_iff_forall_not_mem.mpr
      intro a ha
      obtain ⟨route, hreaches⟩ := (hcalls a ha).reaches
      exact hunrouted route hreaches
    subst hnone
    exact ⟨rfl, hrun.leads.eq_of_nil⟩
  · intro hrejected
    obtain ⟨reason, hrespond⟩ := respond_of_rejects hrejected
    simp only [hrespond] at hrun
    have hlogs : calls = [] ∧ result = .ok (.ofFailure ⟨.validation, reason⟩) := by
      apply hrun.of_logs (P := fun calls result => calls = [] ∧ result = _)
      exact .pure ⟨rfl, rfl⟩
    obtain ⟨rfl, rfl⟩ := hlogs
    exact ⟨rfl, hrun.leads.eq_of_nil, _, rfl, rfl, HttpResponse.failureCode?_ofFailure _⟩

/-- A look at the mappings without their body leaves an engine in memory as it is. -/
theorem head_of_mappings_keeps_memory :
    let r : HttpRequest := { method := "HEAD", path := "/api/search/mappings?verbose" }
    let m : MemoryEngine := { indices := [("messages", {}), ("drafts", {})] }
    r.Reaches .mappings ∧ ∃ calls result,
      Runs (fun _ b => respond b {} r) MemoryEngine.backend m calls result m := by
  intro r m
  have hreaches : r.Reaches .mappings := ⟨by decide, .inr rfl⟩
  obtain ⟨calls, result, m', hrun, -, -, -, hkeeps, -⟩ :=
    effects_of_request MemoryEngine.backend {} r m
  have hmethod : r.method ≠ "POST" := by decide
  have hsame : m' = m :=
    hkeeps (fun hposts => hmethod hposts.1) (fun _ hposts => absurd hposts.1 hmethod) id
      fun _ m hread => MemoryEngine.backend_of_isRead hread m
  subst hsame
  exact ⟨hreaches, calls, result, hrun⟩

end Interface
end ConversationSearch
