import ConversationSearch.Proofs.Http.Address

/-!
# Trying again

A client that works through a script of replies sends a request again after each transient reply,
until another reply comes or the attempts are used up. One attempt takes one reply, and what
becomes of the call depends on the last reply alone. Calls that change something make one attempt.
-/

namespace ConversationSearch

namespace Reply

/-- Whether a reply is passing trouble: no answer, or one of the statuses 502, 503 and 504. -/
def isTransient (reply : Reply) : Bool :=
  match reply.status? with
  | some status => status == 502 || status == 503 || status == 504
  | none => true

/-- The status of a reply does not depend on the method of the request. -/
theorem status?_toMethod (reply : Reply) (m : Method) :
    (reply.toMethod m).status? = reply.status? := by
  cases reply with
  | answered status text => rfl
  | broken status reason =>
    rw [toMethod]
    split <;> rfl
  | dropped => rfl
  | stalled => rfl

end Reply

namespace Script

/-- The transient replies at the front of a script. -/
def leadingTransient (s : Script) : Nat :=
  (s.replies.takeWhile Reply.isTransient).length

/-- The script after a request was sent a number of times, with the given waits. -/
def after (s : Script) (count : Nat) (r : WireRequest) (waits : List Nat) : Script where
  replies := s.replies.drop count
  sent := s.sent ++ List.replicate count r
  pauses := s.pauses ++ waits

/-- The reply at a position. -/
def replyAt (s : Script) (position : Nat) : Reply :=
  s.replies[position]?.getD exhausted

theorem replyAt_after (s : Script) (count position : Nat) (r : WireRequest) (waits : List Nat) :
    (s.after count r waits).replyAt position = s.replyAt (count + position) := by
  simp [replyAt, after]

theorem after_after (s : Script) (first second : Nat) (r : WireRequest)
    (waits more : List Nat) :
    (s.after first r waits).after second r more = s.after (first + second) r (waits ++ more) := by
  simp [after, ← List.replicate_append_replicate]

theorem pause_after (s : Script) (count : Nat) (r : WireRequest) (waits : List Nat) (n : Nat) :
    (wire.pause n (s.after count r waits)).2 = s.after count r (waits ++ [n]) := by
  simp [wire, after, modify, modifyGet, MonadStateOf.modifyGet, StateT.modifyGet, pure]

/-- No transient reply is in front when the first reply is another. -/
theorem leadingTransient_eq_zero {s : Script} (hfirst : (s.replyAt 0).isTransient = false) :
    s.leadingTransient = 0 := by
  unfold leadingTransient
  cases hreplies : s.replies with
  | nil => rfl
  | cons reply rest =>
    have hreply : reply.isTransient = false := by
      simpa [replyAt, hreplies] using hfirst
    simp [hreply]

/-- A transient reply in front counts, and then those that follow it. -/
theorem leadingTransient_eq_succ {s : Script} (hfirst : (s.replyAt 0).isTransient = true)
    (r : WireRequest) (waits : List Nat) :
    s.leadingTransient = (s.after 1 r waits).leadingTransient + 1 := by
  unfold leadingTransient
  cases hreplies : s.replies with
  | nil =>
    have hexhausted : (s.replyAt 0).isTransient = false := by
      rw [replyAt, hreplies]
      rfl
    rw [hfirst] at hexhausted
    contradiction
  | cons reply rest =>
    have hreply : reply.isTransient = true := by
      simpa [replyAt, hreplies] using hfirst
    simp [hreply, after, hreplies]

end Script

namespace Client

/-! ## One attempt -/

theorem isTransientStatus_eq (status : UInt16) :
    SearchFailure.isTransientStatus status =
      (status == 502 || status == 503 || status == 504) := by
  unfold SearchFailure.isTransientStatus
  rw [Bool.eq_iff_iff]
  simp only [Bool.and_eq_true, Bool.or_eq_true, decide_eq_true_eq, beq_iff_eq,
    UInt16.le_iff_toNat_le, ← UInt16.toNat_inj]
  simp only [UInt16.reduceToNat]
  omega

/-- The failures of a body after which a request may be sent again. -/
def retriable (body : Except SearchFailure α) : Bool :=
  match body with
  | .ok _ => false
  | .error f => f.isTransient

/-- A status of success is none of those that are passing trouble. -/
theorem isTransient_of_isSuccess {status : UInt16} (hsuccess : Reply.isSuccess status = true) :
    SearchFailure.isTransientStatus status = false := by
  simp only [Reply.isSuccess, Bool.and_eq_true, decide_eq_true_eq,
    UInt16.le_iff_toNat_le] at hsuccess
  simp only [SearchFailure.isTransientStatus, Bool.and_eq_false_iff, decide_eq_false_iff_not,
    UInt16.le_iff_toNat_le]
  simp only [UInt16.reduceToNat] at hsuccess ⊢
  omega

section Bodies

variable {reply : Reply} {status : UInt16}

theorem isTransient_of_status (hstatus : reply.status? = some status) :
    reply.isTransient = SearchFailure.isTransientStatus status := by
  rw [Reply.isTransient, hstatus, isTransientStatus_eq]

/-- A status of success comes with a body, which may break off. -/
theorem bodyOf_success (hstatus : reply.status? = some status)
    (hsuccess : Reply.isSuccess status = true) :
    ∃ body, bodyOf reply = .ok body := by
  cases reply with
  | answered status text =>
    obtain rfl := Option.some.inj hstatus
    exact ⟨_, if_pos hsuccess⟩
  | broken status reason =>
    obtain rfl := Option.some.inj hstatus
    exact ⟨_, if_pos hsuccess⟩
  | dropped => contradiction
  | stalled => contradiction

/-- Any other status is a failure that keeps the status. -/
theorem bodyOf_refused (hstatus : reply.status? = some status)
    (hsuccess : Reply.isSuccess status = false) :
    ∃ text, bodyOf reply = .error (.http status text) := by
  cases reply with
  | answered status text =>
    obtain rfl := Option.some.inj hstatus
    exact ⟨_, if_neg (by simp [hsuccess])⟩
  | broken status reason =>
    obtain rfl := Option.some.inj hstatus
    exact ⟨_, if_neg (by simp [hsuccess])⟩
  | dropped => contradiction
  | stalled => contradiction

/-- Where there is no status the engine is unavailable. -/
theorem bodyOf_silent (hstatus : reply.status? = none) :
    ∃ reason, bodyOf reply = .error (.indexUnavailable reason) := by
  cases reply with
  | answered status text => contradiction
  | broken status reason => contradiction
  | dropped => exact ⟨_, rfl⟩
  | stalled => exact ⟨_, rfl⟩

theorem retriable_bodyOf (reply : Reply) (m : Method) :
    retriable (bodyOf (reply.toMethod m)) = reply.isTransient := by
  have hmethod := reply.status?_toMethod m
  cases hstatus : reply.status? with
  | some status =>
    rw [isTransient_of_status hstatus]
    by_cases hsuccess : Reply.isSuccess status = true
    · obtain ⟨body, hbody⟩ := bodyOf_success (hmethod.trans hstatus) hsuccess
      rw [hbody, isTransient_of_isSuccess hsuccess]
      rfl
    · obtain ⟨text, hbody⟩ :=
        bodyOf_refused (hmethod.trans hstatus) (Bool.eq_false_iff.mpr hsuccess)
      rw [hbody]
      rfl
  | none =>
    obtain ⟨reason, hbody⟩ := bodyOf_silent (hmethod.trans hstatus)
    rw [hbody, Reply.isTransient, hstatus]
    rfl

end Bodies

theorem send_script (r : WireRequest) (s : Script) :
    send Script.wire (.ok r) s = (bodyOf ((s.replyAt 0).toMethod r.method), s.after 1 r []) := by
  have hserve : Script.wire.send r s = ((s.replyAt 0).toMethod r.method, s.after 1 r []) := by
    simp [Script.wire, Script.serve, Script.replyAt, Script.after, List.head?_eq_getElem?]
  change ((fun p : Reply × Script => (bodyOf p.1, p.2)) (Script.wire.send r s)) = _
  rw [hserve]

/-! ## Many attempts -/

theorem retrying_succ (w : Wire (StateM σ)) (base : UInt64)
    (once : StateM σ (Except SearchFailure α)) (budget attempt : Nat) (s : σ) :
    retrying w base once (budget + 1) attempt s =
      if retriable (once s).1 then
        retrying w base once budget (attempt + 1) (w.pause (backoff base attempt) (once s).2).2
      else once s := by
  simp only [retrying, bind, StateT.bind]
  rcases once s with ⟨body, after⟩
  cases body with
  | ok a => rfl
  | error f =>
    by_cases htransient : f.isTransient = true
    · simp [retriable, htransient]
      rfl
    · simp [retriable, htransient]
      rfl

/-- What the attempts of one request come to: of the transient replies at the front as many are
passed over as the budget allows, and the reply behind them counts. -/
theorem retrying_script (r : WireRequest) (base : UInt64) (budget attempt : Nat) (s : Script) :
    retrying Script.wire base (send Script.wire (.ok r)) budget attempt s =
      (bodyOf ((s.replyAt (min s.leadingTransient budget)).toMethod r.method),
        s.after (min s.leadingTransient budget + 1) r
          ((List.range' attempt (min s.leadingTransient budget)).map (backoff base))) := by
  induction budget generalizing attempt s with
  | zero =>
    simp only [retrying, Nat.min_zero, List.range'_zero, List.map_nil, Nat.zero_add]
    exact send_script r s
  | succ budget ih =>
    rw [retrying_succ, send_script]
    simp only [retriable_bodyOf]
    by_cases hfirst : (s.replyAt 0).isTransient = true
    · -- one reply is used up, so what is left to try is a script that starts behind it
      have hpause := s.pause_after 1 r [] (backoff base attempt)
      rw [List.nil_append] at hpause
      have hcount := s.leadingTransient_eq_succ hfirst r [backoff base attempt]
      have hmin : min s.leadingTransient (budget + 1) =
          min (s.after 1 r [backoff base attempt]).leadingTransient budget + 1 := by
        omega
      rw [if_pos hfirst, hpause, ih, hmin, Script.replyAt_after, Script.after_after,
        Nat.add_comm 1, Nat.add_comm 1, List.range'_succ]
      rfl
    · have hcount : s.leadingTransient = 0 :=
        Script.leadingTransient_eq_zero (by simpa using hfirst)
      rw [if_neg hfirst, hcount, Nat.zero_min]
      rfl

theorem retrying_unsendable (w : Wire (StateM Script)) (base : UInt64) (f : SearchFailure)
    (hf : f.isTransient = false) (budget attempt : Nat) (s : Script) :
    retrying w base (send w (.error f)) budget attempt s = (.error f, s) := by
  cases budget with
  | zero => rfl
  | succ budget =>
    have hfirst : retriable (send w (.error f) s).1 = false := hf
    rw [retrying_succ, hfirst]
    rfl

/-! ## Calls -/

/-- A request that could not be made is no passing trouble. -/
theorem isTransient_of_requestOf {c : Client} {call : Call} {f : SearchFailure}
    (hf : c.requestOf call = .error f) :
    f.isTransient = false := by
  have hrequest : ∀ method path contentType body,
      c.request method path contentType body = .error f → f.isTransient = false := by
    intro method path contentType body h
    unfold request at h
    cases hurl : Url.parse (c.address path) with
    | ok url => simp [hurl, Except.mapError, bind, Except.bind, pure, Except.pure] at h
    | error fault =>
      simp only [hurl, Except.mapError, bind, Except.bind, Except.error.injEq] at h
      rw [← h]
      rfl
  cases call <;> exact hrequest _ _ _ _ hf

theorem perform_eq_answerOf (c : Client) (w : Wire (StateM σ)) {call : Call}
    (hcall : ∀ index, call ≠ .bulkIndex index []) (s : σ) :
    c.perform w call s = (answerOf call (c.exchange w call s).1, (c.exchange w call s).2) := by
  unfold perform
  split
  · next index => exact absurd rfl (hcall index)
  · generalize c.exchange w _ = exchanged
    rfl

theorem getElem?_eq_replyAt {s : Script} {position : Nat} (h : position < s.replies.length) :
    s.replies[position]? = some (s.replyAt position) := by
  simp [Script.replyAt, h]

/-- A call that changes nothing passes over transient replies, and is answered by the reply behind
them. -/
theorem perform_of_isRead {c : Client} {call : Call} {r : WireRequest} (hread : isRead call = true)
    (hr : c.requestOf call = .ok r) (s : Script) :
    c.perform Script.wire call s =
      (answerOf call
          (bodyOf ((s.replyAt (min s.leadingTransient c.maxRetries.toNat)).toMethod r.method)),
        s.after (min s.leadingTransient c.maxRetries.toNat + 1) r
          ((List.range (min s.leadingTransient c.maxRetries.toNat)).map
            (backoff c.retryBackoffMs))) := by
  have hcall : ∀ index, call ≠ .bulkIndex index [] := by
    rintro index rfl
    contradiction
  simp only [perform_eq_answerOf c Script.wire hcall, exchange, hread, hr, if_true, retrying_script,
    List.range_eq_range']

/-- A call that changes something takes one reply and is answered by it. -/
theorem perform_of_not_isRead {c : Client} {call : Call} {r : WireRequest}
    (hwrite : isRead call = false) (hcall : ∀ index, call ≠ .bulkIndex index [])
    (hr : c.requestOf call = .ok r) (s : Script) :
    c.perform Script.wire call s =
      (answerOf call (bodyOf ((s.replyAt 0).toMethod r.method)), s.after 1 r []) := by
  simp only [perform_eq_answerOf c Script.wire hcall, exchange, hwrite, hr, Bool.false_eq_true,
    if_false, retrying, send_script]

/-- The law of attempts. With enough replies in its script a client that can make its request sends
it, for a call that changes nothing, once more than there are transient replies at the front, as far
as the retries of its settings go; the answer is that of the last reply alone. A call that changes
something is sent once, and not at all where there is nothing to write. -/
theorem attempts_of_call {c : Client} {s : Script}
    (hreplies : c.maxRetries.toNat < s.replies.length) :
    (∀ call r, isRead call = true → c.requestOf call = .ok r →
      ∃ reply, s.replies[min s.leadingTransient c.maxRetries.toNat]? = some reply ∧
        c.perform Script.wire call s =
          (answerOf call (bodyOf (reply.toMethod r.method)),
            s.after (min s.leadingTransient c.maxRetries.toNat + 1) r
              ((List.range (min s.leadingTransient c.maxRetries.toNat)).map
                (backoff c.retryBackoffMs)))) ∧
    (∀ call r, isRead call = false → (∀ index, call ≠ .bulkIndex index []) →
      c.requestOf call = .ok r →
      ∃ reply, s.replies[0]? = some reply ∧
        c.perform Script.wire call s =
          (answerOf call (bodyOf (reply.toMethod r.method)), s.after 1 r [])) ∧
    (∀ index, c.perform Script.wire (.bulkIndex index []) s = (.ok 0, s)) ∧
    (c.Usable → ∀ call, ∃ r, c.requestOf call = .ok r) ∧
    (∀ call f, c.requestOf call = .error f → (c.perform Script.wire call s).2 = s) := by
  refine ⟨?_, ?_, fun _ => rfl, fun hc call => requestOf_eq_ok hc call, ?_⟩
  · intro call r hread hr
    exact ⟨_, getElem?_eq_replyAt (by omega), perform_of_isRead hread hr s⟩
  · intro call r hread hcall hr
    exact ⟨_, getElem?_eq_replyAt (by omega), perform_of_not_isRead hread hcall hr s⟩
  · intro call f hf
    by_cases hcall : ∀ index, call ≠ .bulkIndex index []
    · simp only [perform_eq_answerOf c Script.wire hcall, exchange, hf,
        retrying_unsendable _ _ _ (isTransient_of_requestOf hf)]
    · obtain ⟨index, hindex⟩ := not_forall.mp hcall
      obtain rfl := not_not.mp hindex
      rfl

/-- With two retries a ping gets past two transient replies, and the reply behind them counts. -/
theorem ping_after_two_transient_replies :
    let c : Client :=
      { baseUrl := "http://localhost:9200", credentials := none, compression := true,
        maxRetries := 2, retryBackoffMs := 100 }
    let s : Script :=
      { replies := [.answered 503 "", .dropped, .answered 200 "", .answered 404 ""] }
    c.maxRetries.toNat < s.replies.length ∧
      ∃ r, c.requestOf .ping = .ok r ∧
        c.perform Script.wire .ping s = (true, s.after 3 r [100000000, 200000000]) := by
  intro c s
  have hreplies : c.maxRetries.toNat < s.replies.length := by decide
  have husable : c.Usable := usable_of_isOk (by decide +kernel)
  obtain ⟨hread, -, -, hrequest, -⟩ := attempts_of_call hreplies
  obtain ⟨r, hr⟩ := hrequest husable .ping
  obtain ⟨reply, hreply, hperform⟩ := hread .ping r rfl hr
  have hattempts : min s.leadingTransient c.maxRetries.toNat = 2 := by decide
  rw [hattempts] at hreply hperform
  obtain rfl : Reply.answered 200 "" = reply := Option.some.inj hreply
  have hwaits : (List.range 2).map (backoff c.retryBackoffMs) = [100000000, 200000000] := by
    decide
  have hanswer : bodyOf ((Reply.answered 200 "").toMethod r.method) = .ok (.whole "") := by
    simp [Reply.toMethod, bodyOf, Reply.isSuccess]
  rw [hwaits, hanswer] at hperform
  exact ⟨hreplies, r, hr, hperform⟩

end Client
end ConversationSearch
