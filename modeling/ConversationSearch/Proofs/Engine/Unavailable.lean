import ConversationSearch.Proofs.Engine.Retrying
import ConversationSearch.Proofs.Failing
import ConversationSearch.Proofs.Http.Responses

/-!
# An engine that is unavailable

A call that changes nothing fails for good when its last reply is passing trouble. No reply at all is
told to users as an unavailable engine, whatever was asked for. A status of 502, 503 or 504 is told
so by a search alone: any other call keeps the status in its failure, and that is told as a query
that failed. Where the last reply is no passing trouble, no call tells that the engine is unavailable.
-/

namespace ConversationSearch

namespace SearchFailure

/-- Users are told that the engine is unavailable. -/
def IsToldUnavailable (f : SearchFailure) : Prop :=
  (ApiFailure.ofSearch f).kind.status = 503 ∧ (ApiFailure.ofSearch f).kind.code = "INDEX_UNAVAILABLE"

/-- Users are told that the query failed. -/
def IsToldFailed (f : SearchFailure) : Prop :=
  (ApiFailure.ofSearch f).kind.status = 500 ∧ (ApiFailure.ofSearch f).kind.code = "QUERY_FAILED"

variable {f : SearchFailure}

theorem isToldUnavailable_iff :
    f.IsToldUnavailable ↔ ∃ reason, f = .indexUnavailable reason := by
  rw [← ApiFailure.kind_ofSearch_eq_indexUnavailable_iff]
  constructor
  · rintro ⟨hstatus, -⟩
    exact FailureKind.status_eq_503_iff.mp hstatus
  · intro hkind
    unfold IsToldUnavailable
    rw [hkind]
    exact ⟨rfl, rfl⟩

/-- A failure for which there is no use in trying again is not told as an unavailable engine. -/
theorem not_isToldUnavailable (hf : f.isTransient = false) :
    ¬f.IsToldUnavailable := by
  rw [isToldUnavailable_iff]
  rintro ⟨reason, rfl⟩
  contradiction

theorem IsToldFailed.not_unavailable (h : f.IsToldFailed) :
    ¬f.IsToldUnavailable := by
  intro htold
  have hstatus := h.1.symm.trans htold.1
  contradiction

theorem isToldFailed_http (status : UInt16) (text : String) :
    (SearchFailure.http status text).IsToldFailed :=
  ⟨rfl, rfl⟩

end SearchFailure

/-- No answer came. -/
def Reply.IsSilent (reply : Reply) : Prop :=
  reply.status? = none

/-- The failure with which a step ends, if it does. -/
def failureOf? : Except SearchFailure α → Option SearchFailure
  | .ok _ => none
  | .error f => some f

theorem failureOf?_eq_some_iff {x : Except SearchFailure α} {f : SearchFailure} :
    failureOf? x = some f ↔ x = .error f := by
  cases x <;> simp [failureOf?]

/-- The failure with which a call is answered, if it is. A ping only says no. -/
def Call.failure? : (call : Call) → call.Answer → Option SearchFailure
  | .search _ _, answer => failureOf? answer
  | .bulkIndex _ _, answer => failureOf? answer
  | .indexExists _, answer => failureOf? answer
  | .createIndex _ _, answer => failureOf? answer
  | .deleteIndex _, answer => failureOf? answer
  | .getMapping _, answer => failureOf? answer
  | .ping, _ => none
  | .health, answer => failureOf? answer
  | .info, answer => failureOf? answer

namespace Client

/-! ## Bodies -/

/-- An engine that answers, but only that it cannot, gives a failure with the status. -/
theorem bodyOf_of_busy {reply : Reply} (htransient : reply.isTransient = true)
    (hanswered : ¬reply.IsSilent) (m : Method) :
    ∃ status text, SearchFailure.isTransientStatus status = true ∧
      bodyOf (reply.toMethod m) = .error (.http status text) := by
  obtain ⟨status, hstatus⟩ := Option.ne_none_iff_exists'.mp hanswered
  rw [isTransient_of_status hstatus] at htransient
  have hsuccess : Reply.isSuccess status = false := by
    by_contra hsuccess
    rw [isTransient_of_isSuccess (by simpa using hsuccess)] at htransient
    contradiction
  obtain ⟨text, hbody⟩ := bodyOf_refused ((reply.status?_toMethod m).trans hstatus) hsuccess
  exact ⟨status, text, htransient, hbody⟩

theorem retriable_bind {body : Except SearchFailure α} {f : α → Except SearchFailure β}
    (hbody : retriable body = false) (hf : ∀ a e, f a = .error e → e.isTransient = false) :
    retriable (body.bind f) = false := by
  cases body with
  | error e => exact hbody
  | ok a =>
    cases hresult : f a with
    | ok b => simp [Except.bind, hresult, retriable]
    | error e => simpa [Except.bind, hresult, retriable] using hf a e hresult

theorem retriable_mapError {x : Except SearchFailure α} {describe : SearchFailure → SearchFailure}
    (hx : retriable x = false)
    (hdescribe : ∀ f, f.isTransient = false → (describe f).isTransient = false) :
    retriable (x.mapError describe) = false := by
  cases x with
  | ok a => rfl
  | error f => exact hdescribe f hx

theorem isTransient_of_valueOf {body : Body} {f : SearchFailure} (h : valueOf body = .error f) :
    f.isTransient = false := by
  obtain ⟨fault, -, rfl⟩ := mapError_eq_error.mp h
  rfl

theorem isTransient_of_mappingsIn {index : String} {response : Json} {f : SearchFailure}
    (h : mappingsIn index response = .error f) :
    f.isTransient = false := by
  unfold mappingsIn at h
  extract_lets entry at h
  cases hfound : entry.bind (·.get? "mappings") with
  | none =>
    rw [hfound] at h
    obtain rfl := Except.error.inj h
    rfl
  | some mappings =>
    rw [hfound] at h
    contradiction

/-! ## Failures by call -/

theorem isTransient_notFoundAs (index : String) {f : SearchFailure} (hf : f.isTransient = false) :
    (notFoundAs index f).isTransient = false := by
  unfold notFoundAs
  split
  · rfl
  · exact hf

theorem isTransient_searchFailure (index : String) {f : SearchFailure}
    (hf : f.isTransient = false) :
    (searchFailure index f).isTransient = false := by
  have hnamed := isTransient_notFoundAs index hf
  unfold searchFailure
  split
  · next status body heq =>
    rw [heq] at hnamed
    have hstatus : SearchFailure.isTransientStatus status = false := hnamed
    simp [hstatus, SearchFailure.isTransient]
  · exact hnamed

theorem notFoundAs_of_ne (index : String) {status : UInt16} (text : String)
    (hstatus : status ≠ 404) :
    notFoundAs index (.http status text) = .http status text := by
  unfold notFoundAs
  split
  · next heq => exact absurd (SearchFailure.http.inj heq).1 hstatus
  · rfl

theorem existence_of_ne {status : UInt16} (text : String) (hstatus : status ≠ 404) :
    existence (.error (.http status text)) = .error (.http status text) := by
  unfold existence
  split
  · contradiction
  · next heq => exact absurd (SearchFailure.http.inj (Except.error.inj heq)).1 hstatus
  · next f _ heq => exact congrArg Except.error (Except.error.inj heq).symm

theorem ne_missing_of_busy {status : UInt16}
    (hstatus : SearchFailure.isTransientStatus status = true) :
    status ≠ 404 := by
  rintro rfl
  contradiction

/-- A call that changes nothing and that can be answered with a failure. -/
inductive Inquires : Call → Prop
  | search (index : String) (body : Json) : Inquires (.search index body)
  | indexExists (index : String) : Inquires (.indexExists index)
  | getMapping (index : String) : Inquires (.getMapping index)
  | health : Inquires .health
  | info : Inquires .info

variable {call : Call}

theorem inquires_of_isRead (hread : isRead call = true) (hping : call ≠ .ping) :
    Inquires call := by
  cases call with
  | search index body => exact .search index body
  | indexExists index => exact .indexExists index
  | getMapping index => exact .getMapping index
  | health => exact .health
  | info => exact .info
  | ping => exact absurd rfl hping
  | bulkIndex index documents => contradiction
  | createIndex index body => contradiction
  | deleteIndex index => contradiction

theorem Inquires.isRead (h : Inquires call) :
    isRead call = true := by
  cases h <;> rfl

theorem failure?_of_unreached (h : Inquires call) (reason : String) :
    call.failure? (answerOf call (.error (.indexUnavailable reason))) =
      some (.indexUnavailable reason) := by
  cases h <;> rfl

theorem failure?_search_of_busy {index : String} {body : Json} {status : UInt16} {text : String}
    (hstatus : SearchFailure.isTransientStatus status = true) :
    (Call.search index body).failure? (answerOf (.search index body) (.error (.http status text))) =
      some (.indexUnavailable (SearchFailure.http status text).message) := by
  change some (searchFailure index (.http status text)) = _
  simp only [searchFailure, notFoundAs_of_ne index text (ne_missing_of_busy hstatus), hstatus,
    if_true]

/-- No other call makes anything of such a status. -/
theorem failure?_of_busy (h : Inquires call) (hsearch : ∀ index body, call ≠ .search index body)
    {status : UInt16} {text : String}
    (hstatus : SearchFailure.isTransientStatus status = true) :
    call.failure? (answerOf call (.error (.http status text))) = some (.http status text) := by
  cases h with
  | search index body => exact absurd rfl (hsearch index body)
  | indexExists index =>
    change failureOf? (existence (.error (.http status text))) = _
    rw [existence_of_ne text (ne_missing_of_busy hstatus)]
    rfl
  | getMapping index =>
    change some (notFoundAs index (.http status text)) = _
    rw [notFoundAs_of_ne index text (ne_missing_of_busy hstatus)]
  | health => rfl
  | info => rfl

/-- A body that is no passing trouble gives no answer that is. -/
theorem isTransient_of_answerOf (h : Inquires call) {body : Except SearchFailure Body}
    (hbody : retriable body = false) {f : SearchFailure}
    (hf : call.failure? (answerOf call body) = some f) :
    f.isTransient = false := by
  have hvalue : retriable (body.bind valueOf) = false :=
    retriable_bind hbody fun _ _ => isTransient_of_valueOf
  have hfailure : ∀ {α : Type} {x : Except SearchFailure α}, retriable x = false →
      failureOf? x = some f → f.isTransient = false := by
    intro α x hx hxf
    rw [failureOf?_eq_some_iff.mp hxf] at hx
    exact hx
  cases h with
  | search index query =>
    refine hfailure (retriable_bind (retriable_mapError hvalue ?_) ?_) hf
    · exact fun f => isTransient_searchFailure index
    · intro raw e he
      obtain ⟨fault, -, rfl⟩ := mapError_eq_error.mp he
      rfl
  | indexExists index =>
    refine hfailure ?_ hf
    change retriable (existence body) = false
    unfold existence
    split
    · rfl
    · rfl
    · exact hbody
  | getMapping index =>
    refine hfailure (retriable_bind (retriable_mapError hvalue ?_) ?_) hf
    · exact fun f => isTransient_notFoundAs index
    · exact fun response e => isTransient_of_mappingsIn
  | health => exact hfailure hvalue hf
  | info => exact hfailure hvalue hf

/-- The failure of a call whose last reply is passing trouble. -/
theorem failure?_of_transient (h : Inquires call) {reply : Reply}
    (htransient : reply.isTransient = true) (m : Method) :
    ∃ f, call.failure? (answerOf call (bodyOf (reply.toMethod m))) = some f ∧
      (f.IsToldUnavailable ↔ (∃ index body, call = .search index body) ∨ reply.IsSilent) ∧
      (¬f.IsToldUnavailable → f.IsToldFailed) := by
  by_cases hsilent : reply.IsSilent
  · obtain ⟨reason, hbody⟩ := bodyOf_silent ((reply.status?_toMethod m).trans hsilent)
    have htold := SearchFailure.isToldUnavailable_iff.mpr ⟨reason, rfl⟩
    refine ⟨_, hbody ▸ failure?_of_unreached h reason, ?_, absurd htold⟩
    exact iff_of_true htold (.inr hsilent)
  obtain ⟨status, text, hstatus, hbody⟩ := bodyOf_of_busy htransient hsilent m
  rw [hbody]
  by_cases hsearch : ∃ index body, call = .search index body
  · obtain ⟨index, body, rfl⟩ := hsearch
    have htold := SearchFailure.isToldUnavailable_iff.mpr
      ⟨(SearchFailure.http status text).message, rfl⟩
    refine ⟨_, failure?_search_of_busy hstatus, ?_, absurd htold⟩
    exact iff_of_true htold (.inl ⟨index, body, rfl⟩)
  · have hfailed := SearchFailure.isToldFailed_http status text
    refine ⟨_, failure?_of_busy h ?_ hstatus, ?_, fun _ => hfailed⟩
    · exact fun index body hcall => hsearch ⟨index, body, hcall⟩
    · exact iff_of_false hfailed.not_unavailable (not_or.mpr ⟨hsearch, hsilent⟩)

end Client

namespace Interface

/-- The first look at an index decides when it fails. -/
theorem mappings_of_failure {b : Backend σ} {s : IndexSettings} {st : σ} {f : SearchFailure}
    (h : (b (.indexExists (s.indexName .conversation)) st).1 = .error f) :
    (mappings b s st).1 = .ofFailure (.ofSearch f) := by
  simp only [mappings, Provisioning.inspect, Entity.all, Provisioning.missingIndices, Backend.ask,
    bind, StateT.bind, h]
  rfl

end Interface

namespace Client

/-- How many transient replies a call that changes nothing passes over. -/
def passedOver (c : Client) (s : Script) : Nat :=
  min s.leadingTransient c.maxRetries.toNat

/-- The last reply to a call that changes nothing. -/
def lastReply (c : Client) (s : Script) : Reply :=
  s.replyAt (c.passedOver s)

variable {c : Client}

theorem exists_perform_of_isRead (hc : c.Usable) (hread : isRead call = true) (s : Script) :
    ∃ r waits, c.perform Script.wire call s =
      (answerOf call (bodyOf ((c.lastReply s).toMethod r.method)),
        s.after (c.passedOver s + 1) r waits) := by
  obtain ⟨r, hr⟩ := requestOf_eq_ok hc call
  exact ⟨r, _, perform_of_isRead hread hr s⟩

theorem mappings_of_transient (hc : c.Usable) {s : Script}
    (htransient : (c.lastReply s).isTransient = true) (settings : IndexSettings) :
    ∃ f, (Interface.mappings (c.backend Script.wire) settings s).1 = .ofFailure (.ofSearch f) ∧
      (f.IsToldUnavailable ↔ (c.lastReply s).IsSilent) ∧
      (¬f.IsToldUnavailable → f.IsToldFailed) := by
  have hfirst : Inquires (.indexExists (settings.indexName .conversation)) := .indexExists _
  obtain ⟨r, waits, hperform⟩ := exists_perform_of_isRead hc hfirst.isRead s
  obtain ⟨f, hf, htold, hfailed⟩ := failure?_of_transient hfirst htransient r.method
  refine ⟨f, Interface.mappings_of_failure ?_, ?_, hfailed⟩
  · change (c.perform Script.wire (.indexExists _) s).1 = .error f
    rw [hperform]
    exact failureOf?_eq_some_iff.mp hf
  · simpa using htold

/-- What users are told of a call that changes nothing, by its last reply. Where that is passing
trouble the call fails, and users are told that the engine is unavailable exactly when it was a
search or when no answer came; otherwise the query failed. Where it is not, they are never told so.
A look at the mappings is told by its first call. -/
theorem told_by_last_reply {c : Client} (hc : c.Usable) (s : Script) :
    (∀ call, isRead call = true → call ≠ .ping →
      (∃ r waits, (c.perform Script.wire call s).2 = s.after (c.passedOver s + 1) r waits) ∧
      ((c.lastReply s).isTransient = true →
        ∃ f, call.failure? (c.perform Script.wire call s).1 = some f ∧
          (f.IsToldUnavailable ↔
            (∃ index body, call = .search index body) ∨ (c.lastReply s).IsSilent) ∧
          (¬f.IsToldUnavailable → f.IsToldFailed)) ∧
      ((c.lastReply s).isTransient = false →
        ∀ f, call.failure? (c.perform Script.wire call s).1 = some f → ¬f.IsToldUnavailable)) ∧
    ∀ settings (r : HttpRequest), r.method = "GET" → Route.ofPath? r.path = some .mappings →
      (c.lastReply s).isTransient = true →
      ∃ f, (Interface.respond (c.backend Script.wire) settings r s).1 =
          .ok (.ofFailure (.ofSearch f)) ∧
        (f.IsToldUnavailable ↔ (c.lastReply s).IsSilent) ∧
        (¬f.IsToldUnavailable → f.IsToldFailed) := by
  refine ⟨?_, ?_⟩
  · intro call hread hping
    obtain ⟨r, waits, hperform⟩ := exists_perform_of_isRead hc hread s
    rw [hperform]
    refine ⟨⟨r, waits, rfl⟩, ?_, ?_⟩
    · intro htransient
      exact failure?_of_transient (inquires_of_isRead hread hping) htransient r.method
    · intro hsettled f hf
      have hbody : retriable (bodyOf ((c.lastReply s).toMethod r.method)) = false := by
        rw [retriable_bodyOf, hsettled]
      exact SearchFailure.not_isToldUnavailable
        (isTransient_of_answerOf (inquires_of_isRead hread hping) hbody hf)
  · intro settings r hmethod hroute htransient
    obtain ⟨f, hmappings, htold⟩ := mappings_of_transient hc htransient settings
    rw [Interface.respond_get hmethod hroute rfl]
    exact ⟨f, congrArg Except.ok hmappings, htold⟩

/-- Of an engine that keeps answering 503 a search says that it is unavailable. A look at its health
says that the query failed. -/
theorem busy_engine_is_told_by_search :
    let c : Client :=
      { baseUrl := "http://localhost:9200", credentials := none, compression := true,
        maxRetries := 2, retryBackoffMs := 100 }
    let s : Script := { replies := List.replicate 5 (.answered 503 "") }
    let search : Call := .search "messages" .empty
    c.Usable ∧
      (∃ f, search.failure? (c.perform Script.wire search s).1 = some f ∧ f.IsToldUnavailable) ∧
      ∃ f, Call.health.failure? (c.perform Script.wire .health s).1 = some f ∧ f.IsToldFailed := by
  intro c s search
  have husable : c.Usable := usable_of_isOk (by decide +kernel)
  obtain ⟨hcalls, -⟩ := told_by_last_reply husable s
  obtain ⟨-, hsearch, -⟩ := hcalls search rfl (by simp [search])
  obtain ⟨-, hhealth, -⟩ := hcalls .health rfl (by simp)
  obtain ⟨found, hfound, htold, -⟩ := hsearch (by decide)
  obtain ⟨f, hf, huntold, hfailed⟩ := hhealth (by decide)
  refine ⟨husable, ⟨found, hfound, htold.mpr (.inl ⟨_, _, rfl⟩)⟩, f, hf, hfailed ?_⟩
  rw [huntold]
  rintro (⟨index, body, hcall⟩ | hsilent)
  · contradiction
  · contradiction

/-- Over a client of an engine that keeps answering 503 the mappings are a query that failed. -/
theorem mappings_of_busy_engine_are_told_failed :
    let c : Client :=
      { baseUrl := "http://localhost:9200", credentials := none, compression := true,
        maxRetries := 2, retryBackoffMs := 100 }
    let s : Script := { replies := List.replicate 5 (.answered 503 "") }
    let r : HttpRequest := { method := "GET", path := "/api/search/mappings" }
    c.Usable ∧ ∃ response,
      (Interface.respond (c.backend Script.wire) {} r s).1 = .ok response ∧
        response.status = 500 ∧ response.failureCode? = some "QUERY_FAILED" := by
  intro c s r
  have husable : c.Usable := usable_of_isOk (by decide +kernel)
  have htold : ((Interface.respond (c.backend Script.wire) {} r s).1.toOption.map fun response =>
      (response.status, response.failureCode?)) = some (500, some "QUERY_FAILED") := by
    decide +kernel
  obtain ⟨response, hresponse, hpair⟩ := Option.map_eq_some_iff.mp htold
  obtain ⟨hstatus, hcode⟩ := Prod.mk.inj hpair
  exact ⟨husable, response, eq_ok_of_toOption hresponse, hstatus, hcode⟩

end Client
end ConversationSearch
