import ConversationSearch.Proofs.Engine.Unavailable

/-!
# How calls are judged by their last reply

What becomes of a call is read off the last reply alone, and each outcome has its own kind of reply.
A search tells a missing index, an engine that is not there and every other failure apart; creating
and deleting an index name the index in every failure but one, that nobody answered. The kinds of
replies exclude each other and there is no further one, so each outcome is given by exactly one.
-/

namespace ConversationSearch

namespace Reply

/-- The reply is an answer with the status. -/
def HasStatus (reply : Reply) (status : UInt16) : Prop :=
  reply.status? = some status

/-- The reply is an answer with a status of success. -/
def Succeeds (reply : Reply) : Prop :=
  ∃ status, reply.HasStatus status ∧ isSuccess status = true

/-- The reply is an answer with a status of success, and its body is a text of the value. -/
def Holds (reply : Reply) (value : Json) : Prop :=
  ∃ status text, reply = .answered status text ∧ isSuccess status = true ∧
    Json.parse text = .ok value

/-- A reply to a method other than `HEAD` arrives as it was sent. -/
theorem toMethod_eq_self {m : Method} (hm : m ≠ .head) (reply : Reply) :
    reply.toMethod m = reply := by
  cases reply with
  | answered status text => rw [toMethod, if_neg hm]
  | broken status reason => rw [toMethod, if_neg hm]
  | dropped => rfl
  | stalled => rfl

end Reply

/-! ## The outcomes of each call -/

/-- A search gives the response that the reply holds. It names the index as missing after a 404,
and the engine as unavailable after passing trouble; after anything else the query failed. -/
structure SearchJudged (index : String) (reply : Reply)
    (answer : Except SearchFailure EngineResponse) : Prop where
  ok_iff : ∀ response, answer = .ok response ↔
    ∃ value, reply.Holds value ∧ EngineResponse.decoder.ofJson value = .ok response
  notFound_iff : answer = .error (.indexNotFound index) ↔ reply.HasStatus 404
  unavailable_iff : (∃ reason, answer = .error (.indexUnavailable reason)) ↔
    reply.isTransient = true
  failed_iff : (∃ reason, answer = .error (.queryFailed reason)) ↔
    (¬∃ value response, reply.Holds value ∧
      EngineResponse.decoder.ofJson value = .ok response) ∧
    ¬reply.HasStatus 404 ∧ ¬reply.isTransient = true

/-- An index is there after a success and not there after a 404; anything else is a failure. -/
structure ExistenceJudged (reply : Reply) (answer : Except SearchFailure Bool) : Prop where
  true_iff : answer = .ok true ↔ reply.Succeeds
  false_iff : answer = .ok false ↔ reply.HasStatus 404
  error_iff : (∃ f, answer = .error f) ↔ ¬reply.Succeeds ∧ ¬reply.HasStatus 404

/-- An index is deleted by a success. It is named as missing after a 404, and the engine as
unavailable where no answer came; after anything else the deletion of the index failed. -/
structure DeletionJudged (index : String) (reply : Reply)
    (answer : Except SearchFailure Unit) : Prop where
  ok_iff : answer = .ok () ↔ reply.Succeeds
  notFound_iff : answer = .error (.indexNotFound index) ↔ reply.HasStatus 404
  unavailable_iff : (∃ reason, answer = .error (.indexUnavailable reason)) ↔ reply.IsSilent
  provisioning_iff : (∃ reason, answer = .error (.provisioning index reason)) ↔
    ¬reply.Succeeds ∧ ¬reply.HasStatus 404 ∧ ¬reply.IsSilent

/-- An index is created by a success that holds a value, which is handed on. The engine is
unavailable where no answer came; after anything else the creation of the index failed. -/
structure CreationJudged (index : String) (reply : Reply)
    (answer : Except SearchFailure Json) : Prop where
  ok_iff : ∀ value, answer = .ok value ↔ reply.Holds value
  unavailable_iff : (∃ reason, answer = .error (.indexUnavailable reason)) ↔ reply.IsSilent
  provisioning_iff : (∃ reason, answer = .error (.provisioning index reason)) ↔
    (¬∃ value, reply.Holds value) ∧ ¬reply.IsSilent

/-! ## Kinds of replies -/

namespace Reply

/-- The kinds of replies: a success, a 404, another status, and no answer at all. -/
inductive Kind (reply : Reply) : Prop
  | success {status : UInt16} (hstatus : reply.HasStatus status)
      (hsuccess : isSuccess status = true) (hmissing : status ≠ 404)
      (hbusy : SearchFailure.isTransientStatus status = false)
  | missing (hstatus : reply.HasStatus 404)
  | refused {status : UInt16} (hstatus : reply.HasStatus status)
      (hsuccess : isSuccess status = false) (hmissing : status ≠ 404)
  | silent (hsilent : reply.IsSilent)

theorem isSuccess_missing :
    isSuccess 404 = false := by
  decide

theorem kind (reply : Reply) :
    reply.Kind := by
  cases hstatus : reply.status? with
  | none => exact .silent hstatus
  | some status =>
    by_cases hmissing : status = 404
    · exact .missing (hmissing ▸ hstatus)
    · cases hsuccess : isSuccess status with
      | true =>
        exact .success hstatus hsuccess hmissing (Client.isTransient_of_isSuccess hsuccess)
      | false => exact .refused hstatus hsuccess hmissing

section Kinds

variable {reply : Reply} {status other : UInt16} {value : Json}

theorem HasStatus.hasStatus_iff (h : reply.HasStatus status) :
    reply.HasStatus other ↔ status = other := by
  rw [HasStatus, h, Option.some_inj]

theorem HasStatus.succeeds_iff (h : reply.HasStatus status) :
    reply.Succeeds ↔ isSuccess status = true := by
  constructor
  · rintro ⟨other, hother, hsuccess⟩
    exact h.hasStatus_iff.mp hother ▸ hsuccess
  · exact fun hsuccess => ⟨status, h, hsuccess⟩

theorem HasStatus.not_isSilent (h : reply.HasStatus status) :
    ¬reply.IsSilent := by
  rw [IsSilent, h]
  exact Option.some_ne_none status

theorem Holds.succeeds (h : reply.Holds value) :
    reply.Succeeds := by
  obtain ⟨status, text, rfl, hsuccess, -⟩ := h
  exact ⟨status, rfl, hsuccess⟩

theorem Holds.holds_iff (h : reply.Holds value) {found : Json} :
    reply.Holds found ↔ value = found := by
  obtain ⟨status, text, rfl, hsuccess, hvalue⟩ := h
  constructor
  · rintro ⟨_, _, ⟨⟩, -, hfound⟩
    exact Except.ok.inj (hvalue.symm.trans hfound)
  · rintro rfl
    exact ⟨status, text, rfl, hsuccess, hvalue⟩

theorem HasStatus.not_holds (h : reply.HasStatus status) (hsuccess : isSuccess status = false)
    (value : Json) :
    ¬reply.Holds value := by
  intro hholds
  rw [h.succeeds_iff.mp hholds.succeeds] at hsuccess
  contradiction

theorem IsSilent.not_hasStatus (h : reply.IsSilent) (status : UInt16) :
    ¬reply.HasStatus status :=
  fun hstatus => hstatus.not_isSilent h

theorem IsSilent.not_succeeds (h : reply.IsSilent) :
    ¬reply.Succeeds := by
  rintro ⟨status, hstatus, -⟩
  exact h.not_hasStatus status hstatus

theorem IsSilent.not_holds (h : reply.IsSilent) (value : Json) :
    ¬reply.Holds value :=
  fun hholds => h.not_succeeds hholds.succeeds

theorem IsSilent.isTransient (h : reply.IsSilent) :
    reply.isTransient = true := by
  rw [Reply.isTransient, h]

end Kinds

end Reply

namespace Client

/-- A body that is no text of a value, or that broke off, is told as a query that failed. -/
theorem valueOf_cases {reply : Reply} {body : Body} (hbody : bodyOf reply = .ok body) :
    (∃ value, reply.Holds value ∧ valueOf body = .ok value) ∨
      (∀ value, ¬reply.Holds value) ∧ ∃ reason, valueOf body = .error (.queryFailed reason) := by
  cases reply with
  | answered status text =>
    cases hsuccess : Reply.isSuccess status with
    | true =>
      obtain rfl : Body.whole text = body := Except.ok.inj ((if_pos hsuccess).symm.trans hbody)
      cases hparse : Json.parse text with
      | ok value =>
        refine .inl ⟨value, ⟨status, text, rfl, hsuccess, hparse⟩, ?_⟩
        simp only [valueOf, hparse, Except.mapError]
      | error fault =>
        refine .inr ⟨?_, _, by simp only [valueOf, hparse, Except.mapError]; rfl⟩
        rintro value ⟨_, _, ⟨⟩, -, hvalue⟩
        rw [hparse] at hvalue
        contradiction
    | false =>
      rw [bodyOf, hsuccess] at hbody
      contradiction
  | broken status reason =>
    cases hsuccess : Reply.isSuccess status with
    | true =>
      obtain rfl : Body.broken reason = body := Except.ok.inj ((if_pos hsuccess).symm.trans hbody)
      refine .inr ⟨?_, _, rfl⟩
      rintro value ⟨_, _, ⟨⟩, -⟩
    | false =>
      rw [bodyOf, hsuccess] at hbody
      contradiction
  | dropped => contradiction
  | stalled => contradiction

/-- A value that is no response of the engine is told as a query that failed. -/
theorem ofJson_cases (value : Json) :
    (∃ response, EngineResponse.decoder.ofJson value = .ok response ∧
        EngineResponse.ofJson value = .ok response) ∨
      (∀ response, EngineResponse.decoder.ofJson value ≠ .ok response) ∧
        ∃ reason, EngineResponse.ofJson value = .error (.queryFailed reason) := by
  unfold EngineResponse.ofJson
  cases EngineResponse.decoder.ofJson value with
  | ok response => exact .inl ⟨response, rfl, rfl⟩
  | error failure => exact .inr ⟨by simp, _, rfl⟩

/-! ## From replies to outcomes -/

variable {index : String} {status : UInt16}

theorem existence_judged (reply : Reply) (m : Method) :
    ExistenceJudged reply (existence (bodyOf (reply.toMethod m))) := by
  have hmethod := reply.status?_toMethod m
  cases reply.kind with
  | success hstatus hsuccess hmissing hbusy =>
    obtain ⟨body, hbody⟩ := bodyOf_success (hmethod.trans hstatus) hsuccess
    rw [hbody, existence]
    constructor <;> simp [hstatus.succeeds_iff, hstatus.hasStatus_iff, hsuccess, hmissing]
  | missing hstatus =>
    obtain ⟨text, hbody⟩ := bodyOf_refused (hmethod.trans hstatus) Reply.isSuccess_missing
    rw [hbody, existence]
    constructor <;> simp [hstatus.succeeds_iff, hstatus.hasStatus_iff, Reply.isSuccess_missing]
  | refused hstatus hsuccess hmissing =>
    obtain ⟨text, hbody⟩ := bodyOf_refused (hmethod.trans hstatus) hsuccess
    rw [hbody, existence_of_ne _ hmissing]
    constructor <;> simp [hstatus.succeeds_iff, hstatus.hasStatus_iff, hsuccess, hmissing]
  | silent hsilent =>
    obtain ⟨reason, hbody⟩ := bodyOf_silent (hmethod.trans hsilent)
    rw [hbody, existence]
    · constructor <;> simp [hsilent.not_succeeds, hsilent.not_hasStatus]
    · simp

theorem deletionFailure_of_ne (text : String) (hstatus : status ≠ 404) :
    deletionFailure index (.http status text) =
      .provisioning index (SearchFailure.http status text).message := by
  simp only [deletionFailure, notFoundAs_of_ne index text hstatus, provisioningFailure]

theorem deletion_judged (index : String) (reply : Reply) :
    DeletionJudged index reply (answerOf (.deleteIndex index) (bodyOf reply)) := by
  cases reply.kind with
  | success hstatus hsuccess hmissing hbusy =>
    obtain ⟨body, hbody⟩ := bodyOf_success hstatus hsuccess
    have hanswer : answerOf (.deleteIndex index) (.ok body) = .ok () := rfl
    rw [hbody, hanswer]
    constructor <;>
      simp [hstatus.succeeds_iff, hstatus.hasStatus_iff, hstatus.not_isSilent, hsuccess, hmissing]
  | missing hstatus =>
    obtain ⟨text, hbody⟩ := bodyOf_refused hstatus Reply.isSuccess_missing
    have hanswer : answerOf (.deleteIndex index) (.error (.http 404 text)) =
        .error (.indexNotFound index) := rfl
    rw [hbody, hanswer]
    constructor <;>
      simp [hstatus.succeeds_iff, hstatus.hasStatus_iff, hstatus.not_isSilent,
        Reply.isSuccess_missing]
  | @refused status hstatus hsuccess hmissing =>
    obtain ⟨text, hbody⟩ := bodyOf_refused hstatus hsuccess
    have hanswer : answerOf (.deleteIndex index) (.error (.http status text)) =
        .error (.provisioning index (SearchFailure.http status text).message) :=
      congrArg Except.error (deletionFailure_of_ne text hmissing)
    rw [hbody, hanswer]
    constructor <;>
      simp [hstatus.succeeds_iff, hstatus.hasStatus_iff, hstatus.not_isSilent, hsuccess, hmissing]
  | silent hsilent =>
    obtain ⟨reason, hbody⟩ := bodyOf_silent hsilent
    have hanswer : answerOf (.deleteIndex index) (.error (.indexUnavailable reason)) =
        .error (.indexUnavailable reason) := rfl
    rw [hbody, hanswer]
    constructor <;> simp [hsilent.not_succeeds, hsilent.not_hasStatus, hsilent]

theorem creation_judged (index : String) (body : Json) (reply : Reply) :
    CreationJudged index reply (answerOf (.createIndex index body) (bodyOf reply)) := by
  have hfailed : ∀ f, (∀ reason, f ≠ .indexUnavailable reason) →
      provisioningFailure index f = .provisioning index f.message := by
    intro f hf
    cases f with
    | indexUnavailable reason => exact absurd rfl (hf reason)
    | _ => rfl
  have hanswer : ∀ x, answerOf (.createIndex index body) x =
      (x.bind valueOf).mapError (provisioningFailure index) := fun _ => rfl
  have hrefused : ∀ status, reply.HasStatus status → Reply.isSuccess status = false →
      CreationJudged index reply (answerOf (.createIndex index body) (bodyOf reply)) := by
    intro status hstatus hsuccess
    obtain ⟨text, hbody⟩ := bodyOf_refused hstatus hsuccess
    rw [hbody, hanswer, Except.bind, Except.mapError, hfailed _ (by simp)]
    constructor <;> simp [hstatus.not_holds hsuccess, hstatus.not_isSilent]
  cases reply.kind with
  | success hstatus hsuccess hmissing hbusy =>
    obtain ⟨found, hbody⟩ := bodyOf_success hstatus hsuccess
    rw [hbody, hanswer, Except.bind]
    rcases valueOf_cases hbody with ⟨value, hholds, hvalue⟩ | ⟨hholds, reason, hvalue⟩
    · rw [hvalue, Except.mapError]
      constructor <;> simp [hholds.holds_iff, hstatus.not_isSilent]
    · rw [hvalue, Except.mapError, hfailed _ (by simp)]
      constructor <;> simp [hholds, hstatus.not_isSilent]
  | missing hstatus => exact hrefused _ hstatus Reply.isSuccess_missing
  | refused hstatus hsuccess hmissing => exact hrefused _ hstatus hsuccess
  | silent hsilent =>
    obtain ⟨reason, hbody⟩ := bodyOf_silent hsilent
    rw [hbody, hanswer, Except.bind, Except.mapError, provisioningFailure]
    constructor <;> simp [hsilent.not_holds, hsilent]

/-- A status other than 404 is told by a search as an engine that is unavailable, or as a query that
failed. -/
theorem searchFailure_of_ne (text : String) (hstatus : status ≠ 404) :
    ∃ reason, searchFailure index (.http status text) =
      if SearchFailure.isTransientStatus status then .indexUnavailable reason
      else .queryFailed reason := by
  simp only [searchFailure, notFoundAs_of_ne index text hstatus]
  split
  · exact ⟨_, rfl⟩
  · exact ⟨_, rfl⟩

theorem search_judged (index : String) (body : Json) (reply : Reply) :
    SearchJudged index reply (answerOf (.search index body) (bodyOf reply)) := by
  have hok : ∀ found, answerOf (.search index body) (.ok found) =
      ((valueOf found).mapError (searchFailure index)).bind EngineResponse.ofJson := fun _ => rfl
  have herror : ∀ f, answerOf (.search index body) (.error f) = .error (searchFailure index f) :=
    fun _ => rfl
  cases reply.kind with
  | success hstatus hsuccess hmissing hbusy =>
    have htransient := (isTransient_of_status hstatus).trans hbusy
    have hfound := hstatus.hasStatus_iff.not.mpr hmissing
    obtain ⟨found, hbody⟩ := bodyOf_success hstatus hsuccess
    rw [hbody, hok]
    rcases valueOf_cases hbody with ⟨value, hholds, hvalue⟩ | ⟨hholds, reason, hvalue⟩
    · rw [hvalue, Except.mapError, Except.bind]
      rcases ofJson_cases value with ⟨response, hdecode, hresponse⟩ | ⟨hdecode, reason, hresponse⟩
      · rw [hresponse]
        constructor <;> simp [hfound, htransient, hholds.holds_iff, hdecode]
      · rw [hresponse]
        constructor <;> simp [hfound, htransient, hholds.holds_iff, hdecode]
    · have hfailure : searchFailure index (.queryFailed reason) = .queryFailed reason := rfl
      rw [hvalue, Except.mapError, Except.bind, hfailure]
      constructor <;> simp [hfound, htransient, hholds]
  | missing hstatus =>
    have htransient := isTransient_of_status hstatus
    obtain ⟨text, hbody⟩ := bodyOf_refused hstatus Reply.isSuccess_missing
    have hfailure : searchFailure index (.http 404 text) = .indexNotFound index := rfl
    rw [hbody, herror, hfailure]
    constructor <;>
      simp [hstatus, htransient, hstatus.not_holds Reply.isSuccess_missing,
        SearchFailure.isTransientStatus]
  | @refused status hstatus hsuccess hmissing =>
    have htransient := isTransient_of_status hstatus
    obtain ⟨text, hbody⟩ := bodyOf_refused hstatus hsuccess
    obtain ⟨reason, hfailure⟩ : ∃ reason, searchFailure index (.http status text) =
        if SearchFailure.isTransientStatus status then .indexUnavailable reason
        else .queryFailed reason := searchFailure_of_ne _ hmissing
    rw [hbody, herror, hfailure]
    cases hbusy : SearchFailure.isTransientStatus status
    all_goals
      constructor <;>
        simp [hstatus.not_holds hsuccess, hstatus.hasStatus_iff, hmissing, htransient, hbusy]
  | silent hsilent =>
    obtain ⟨reason, hbody⟩ := bodyOf_silent hsilent
    have hfailure : searchFailure index (.indexUnavailable reason) = .indexUnavailable reason := rfl
    rw [hbody, herror, hfailure]
    constructor <;> simp [hsilent.not_holds, hsilent.not_hasStatus, hsilent.isTransient]

/-! ## Runs -/

variable {c : Client}

theorem method_of_request {method : Method} {path contentType body : String} {r : WireRequest}
    (hr : c.request method path contentType body = .ok r) :
    r.method = method := by
  obtain ⟨url, -, hr⟩ := bind_eq_ok.mp hr
  rw [← Except.ok.inj hr]

/-- What becomes of a search, of a look for an index, and of deleting and creating one is read off
the last reply that the call takes, whatever the script and the number of retries. Each outcome is
that of one kind of reply, and every reply is of one of these kinds, so that no other failure, and
no bare status, is ever told. -/
theorem calls_judged_by_last_reply (hc : c.Usable) (s : Script) (index : String) (body : Json) :
    (∃ answer r waits, c.perform Script.wire (.search index body) s =
        (answer, s.after (c.passedOver s + 1) r waits) ∧
      SearchJudged index (s.replyAt (c.passedOver s)) answer) ∧
    (∃ answer r waits, c.perform Script.wire (.indexExists index) s =
        (answer, s.after (c.passedOver s + 1) r waits) ∧
      ExistenceJudged (s.replyAt (c.passedOver s)) answer) ∧
    (∃ answer r, c.perform Script.wire (.deleteIndex index) s = (answer, s.after 1 r []) ∧
      DeletionJudged index (s.replyAt 0) answer) ∧
    (∃ answer r, c.perform Script.wire (.createIndex index body) s = (answer, s.after 1 r []) ∧
      CreationJudged index (s.replyAt 0) answer) := by
  refine ⟨?_, ?_, ?_, ?_⟩
  · obtain ⟨r, hr⟩ := requestOf_eq_ok hc (.search index body)
    refine ⟨_, r, _, perform_of_isRead rfl hr s, ?_⟩
    rw [Reply.toMethod_eq_self (by rw [method_of_request hr]; decide)]
    exact search_judged index body _
  · obtain ⟨r, hr⟩ := requestOf_eq_ok hc (.indexExists index)
    exact ⟨_, r, _, perform_of_isRead rfl hr s, existence_judged _ r.method⟩
  · obtain ⟨r, hr⟩ := requestOf_eq_ok hc (.deleteIndex index)
    refine ⟨_, r, perform_of_not_isRead rfl (by simp) hr s, ?_⟩
    rw [Reply.toMethod_eq_self (by rw [method_of_request hr]; decide)]
    exact deletion_judged index _
  · obtain ⟨r, hr⟩ := requestOf_eq_ok hc (.createIndex index body)
    refine ⟨_, r, perform_of_not_isRead rfl (by simp) hr s, ?_⟩
    rw [Reply.toMethod_eq_self (by rw [method_of_request hr]; decide)]
    exact creation_judged index body _

/-- Behind a 503 and a dropped connection there is a 404: with two retries a search and a look for
the index find it missing. Deleting and creating it stop at the 503 and fail. -/
theorem missing_index_behind_trouble :
    let c : Client :=
      { baseUrl := "http://localhost:9200", credentials := none, compression := true,
        maxRetries := 2, retryBackoffMs := 100 }
    let s : Script := { replies := [.answered 503 "", .dropped, .answered 404 "no such index"] }
    c.Usable ∧
      (c.perform Script.wire (.search "notes" .empty) s).1 = .error (.indexNotFound "notes") ∧
      (c.perform Script.wire (.indexExists "notes") s).1 = .ok false ∧
      (∃ reason, (c.perform Script.wire (.deleteIndex "notes") s).1 =
        .error (.provisioning "notes" reason)) ∧
      ∃ reason, (c.perform Script.wire (.createIndex "notes" .empty) s).1 =
        .error (.provisioning "notes" reason) := by
  intro c s
  have husable : c.Usable := usable_of_isOk (by decide +kernel)
  have hlast : s.replyAt (c.passedOver s) = .answered 404 "no such index" := by decide
  have hfirst : s.replyAt 0 = .answered 503 "" := by decide
  obtain ⟨⟨_, _, _, hsearch, hsearched⟩, ⟨_, _, _, hexists, hlooked⟩, ⟨_, _, hdelete, hdeleted⟩,
    ⟨_, _, hcreate, hcreated⟩⟩ := calls_judged_by_last_reply husable s "notes" .empty
  rw [hlast] at hsearched hlooked
  rw [hfirst] at hdeleted hcreated
  rw [hsearch, hexists, hdelete, hcreate]
  have hbusy : (Reply.answered 503 "").HasStatus 503 := rfl
  have hrefused : Reply.isSuccess 503 = false := by decide
  refine ⟨husable, hsearched.notFound_iff.mpr rfl, hlooked.false_iff.mpr rfl,
    hdeleted.provisioning_iff.mpr ⟨?_, ?_, hbusy.not_isSilent⟩,
    hcreated.provisioning_iff.mpr ⟨?_, hbusy.not_isSilent⟩⟩
  · simp [hbusy.succeeds_iff, hrefused]
  · simp [hbusy.hasStatus_iff]
  · simp [hbusy.not_holds hrefused]

end Client
end ConversationSearch
