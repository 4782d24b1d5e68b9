import ConversationSearch.Engine.Memory
import ConversationSearch.Proofs.Documents.Codec
import ConversationSearch.Proofs.Hits.Records
import ConversationSearch.Proofs.Service.Writing

/-!
# Reading back what was written

The documents that a request writes can be read back by searches exactly where the years of their
dates have four digits. A date with another year is accepted, as a number of milliseconds, as a
bare date or by its offset, and is written with a sign in front of its year, which no decoder of
dates takes.
-/

namespace ConversationSearch

open Json (Decoder)

/-! ## Decoded documents -/

namespace Documents

variable {d : Documents}

theorem messages_readBack (h : Documents.decoder.Gives d) :
    ∀ m ∈ d.messages, m.asWritten.toMillis = m := by
  obtain ⟨fields, hall⟩ := Json.Shape.of_decoder h
  obtain ⟨_, messages, hmap, hmessages, rfl⟩ := Json.Shape.of_build_seq hall
  obtain ⟨conversations, -, rfl⟩ := Json.Shape.of_build_map hmap
  intro m hm
  rcases Json.Shape.of_build_defaulted hmessages with rfl | hgiven
  · contradiction
  · exact Message.readBack_of_gives (Decoder.list_gives hgiven m hm)

theorem conversations_readBack (h : Documents.decoder.Gives d) :
    ∀ c ∈ d.conversations, c.asWritten.toMillis = c := by
  obtain ⟨fields, hall⟩ := Json.Shape.of_decoder h
  obtain ⟨_, messages, hmap, -, rfl⟩ := Json.Shape.of_build_seq hall
  obtain ⟨conversations, hconversations, rfl⟩ := Json.Shape.of_build_map hmap
  intro c hc
  rcases Json.Shape.of_build_defaulted hconversations with rfl | hgiven
  · contradiction
  · exact Conversation.readBack_of_gives (Decoder.list_gives hgiven c hc)

end Documents

theorem Interface.gives_of_decodeBody {d : Decoder α} {r : HttpRequest} {a : α}
    (h : decodeBody d r = .ok a) :
    d.Gives a := by
  unfold decodeBody at h
  split at h
  · contradiction
  · split at h
    · contradiction
    · exact ⟨_, _, mapError_eq_ok.mp h⟩

/-! ## Hits that carry documents -/

/-- The record of a message in a hit. -/
def messageRecord (hit : EngineHit) (m : Message) : SearchRecord :=
  .message ⟨m, hit.fragment? "text"⟩

section Hits

variable {hit : EngineHit} {m : Message} {c : Conversation}

theorem toRecord_message (hsource : hit.source = m.toJson) (hback : m.asWritten.toMillis = m)
    (hyear : m.date.HasPlainYear) :
    hit.toRecord .message = .ok (messageRecord hit m) := by
  have hdecoded : Message.decoder.ofJson hit.source = .ok m := by
    rw [hsource]
    exact (Message.decoder_reads (.refl _) hyear .value).trans (congrArg Except.ok hback)
  simp only [EngineHit.toRecord, hdecoded, bind, Except.bind]
  rfl

theorem toRecord_message_error (hsource : hit.source = m.toJson)
    (hyear : ¬m.date.HasPlainYear) :
    ∃ f, hit.toRecord .message = .error f := by
  obtain ⟨f, hf⟩ := Message.decoder_refuses (.refl _) hyear .value
  have hdecoded : Message.decoder.ofJson hit.source = .error f := by
    rw [hsource]
    exact hf
  refine ⟨f, ?_⟩
  simp only [EngineHit.toRecord, hdecoded, bind, Except.bind]

theorem toRecord_conversation (hsource : hit.source = c.toJson) (hback : c.asWritten.toMillis = c)
    (hyear : c.date.HasPlainYear) :
    hit.toRecord .conversation = .ok (.conversation c) := by
  have hdecoded : Conversation.decoder.ofJson hit.source = .ok c := by
    rw [hsource]
    exact (Conversation.decoder_reads (.refl _) c.participants_read hyear .value).trans
      (congrArg Except.ok hback)
  simp only [EngineHit.toRecord, hdecoded]
  rfl

theorem toRecord_conversation_error (hsource : hit.source = c.toJson)
    (hyear : ¬c.date.HasPlainYear) :
    ∃ f, hit.toRecord .conversation = .error f := by
  obtain ⟨f, hf⟩ := Conversation.decoder_refuses (.refl _) hyear .value
  have hdecoded : Conversation.decoder.ofJson hit.source = .error f := by
    rw [hsource]
    exact hf
  refine ⟨f, ?_⟩
  simp only [EngineHit.toRecord, hdecoded]
  rfl

end Hits

/-! ## Pages of written documents -/

theorem normalize_messages {ms : List Message} {hits : List EngineHit}
    (hback : ∀ m ∈ ms, m.asWritten.toMillis = m) (hsources : hits.map (·.source) = ms.map Message.toJson)
    (total : UInt64) :
    ((∀ m ∈ ms, m.date.HasPlainYear) →
      normalize .message hits total = .ok ⟨List.zipWith messageRecord hits ms, total⟩) ∧
    ((∃ m ∈ ms, ¬m.date.HasPlainYear) →
      ∃ id reason, normalize .message hits total = .error (.malformedHit id reason)) := by
  apply normalize_encoded hsources
  · intro hit m hm hsource hyear
    exact toRecord_message hsource (hback m hm) hyear
  · intro hit m hsource hyear
    exact toRecord_message_error hsource hyear

theorem zipWith_right {as : List α} {bs : List β} (f : β → γ) (h : as.length = bs.length) :
    List.zipWith (fun _ b => f b) as bs = bs.map f := by
  induction as generalizing bs with
  | nil =>
    obtain rfl := List.eq_nil_of_length_eq_zero h.symm
    rfl
  | cons a as ih =>
    cases bs with
    | nil => contradiction
    | cons b bs =>
      rw [List.zipWith_cons_cons, List.map_cons, ih (Nat.succ.inj h)]

theorem normalize_conversations {cs : List Conversation} {hits : List EngineHit}
    (hback : ∀ c ∈ cs, c.asWritten.toMillis = c)
    (hsources : hits.map (·.source) = cs.map Conversation.toJson) (total : UInt64) :
    ((∀ c ∈ cs, c.date.HasPlainYear) →
      normalize .conversation hits total = .ok ⟨cs.map .conversation, total⟩) ∧
    ((∃ c ∈ cs, ¬c.date.HasPlainYear) →
      ∃ id reason, normalize .conversation hits total = .error (.malformedHit id reason)) := by
  have hlength : hits.length = cs.length := by simpa using congrArg List.length hsources
  rw [← zipWith_right SearchRecord.conversation hlength]
  apply normalize_encoded hsources
  · intro hit c hc hsource hyear
    exact toRecord_conversation hsource (hback c hc) hyear
  · intro hit c hsource hyear
    exact toRecord_conversation_error hsource hyear

/-- A request to write documents that is answered with 200 has written all of them, and a page of
hits that carries any of them is read back as they were submitted exactly where the years of their
dates have four digits. -/
theorem accepted_documents_read_back {σ : Type} {b : Backend σ} {s : IndexSettings} {st : σ}
    {r : HttpRequest} {response : HttpResponse} (hmethod : r.method = "POST")
    (hroute : Route.ofPath? r.path = some .indexData)
    (hresponse : (Interface.respond b s r st).1 = .ok response) (hstatus : response.status = 200) :
    ∃ d conversations messages,
      Interface.decodeBody Documents.decoder r = .ok d ∧
      Service.check d = .ok () ∧
      (Interface.respond b.observed s r (st, [])).2.2 =
        [⟨.bulkIndex (s.indexName .conversation) (d.conversations.map fun c => ⟨c.id, c.toJson⟩),
            .ok conversations⟩,
          ⟨.bulkIndex (s.indexName .message) (d.messages.map fun m => ⟨m.id, m.toJson⟩),
            .ok messages⟩] ∧
      (∀ (ms : List Message) (hits : List EngineHit) total, (∀ m ∈ ms, m ∈ d.messages) →
        hits.map (·.source) = ms.map Message.toJson →
        ((∀ m ∈ ms, m.date.HasPlainYear) →
          normalize .message hits total = .ok ⟨List.zipWith messageRecord hits ms, total⟩) ∧
        ((∃ m ∈ ms, ¬m.date.HasPlainYear) →
          ∃ id reason, normalize .message hits total = .error (.malformedHit id reason))) ∧
      (∀ (cs : List Conversation) (hits : List EngineHit) total, (∀ c ∈ cs, c ∈ d.conversations) →
        hits.map (·.source) = cs.map Conversation.toJson →
        ((∀ c ∈ cs, c.date.HasPlainYear) →
          normalize .conversation hits total = .ok ⟨cs.map .conversation, total⟩) ∧
        ((∃ c ∈ cs, ¬c.date.HasPlainYear) →
          ∃ id reason, normalize .conversation hits total = .error (.malformedHit id reason))) := by
  rw [Interface.respond_indexData hmethod hroute] at hresponse ⊢
  -- the calls are known of the observed run, and the answer of the run itself is the same
  obtain ⟨result, st', log, hrun, hindexing⟩ := Interface.indexData_logs b s r st []
  have hvalue := ((Interface.indexData_asks s r).observed b st []).1
  change (Interface.indexData b s r st).1 = (Interface.indexData b.observed s r (st, [])).1
    at hvalue
  rw [hrun] at hvalue
  rw [hrun]
  obtain rfl : result = .ok response := hvalue.symm.trans hresponse
  obtain ⟨d, conversations, messages, hbody, hcheck, rfl⟩ :=
    Interface.indexing_of_success hindexing hstatus
  have hgiven := Interface.gives_of_decodeBody hbody
  refine ⟨d, conversations, messages, hbody, hcheck, rfl, ?_, ?_⟩
  · intro ms hits total hms hsources
    have hback : ∀ m ∈ ms, m.asWritten.toMillis = m :=
      fun m hm => Documents.messages_readBack hgiven m (hms m hm)
    exact normalize_messages hback hsources total
  · intro cs hits total hcs hsources
    have hback : ∀ c ∈ cs, c.asWritten.toMillis = c :=
      fun c hc => Documents.conversations_readBack hgiven c (hcs c hc)
    exact normalize_conversations hback hsources total

/-- A request to write one message, with the given text for its date. -/
def oneMessage (date : String) : HttpRequest where
  method := "POST"
  path := "/api/search/index-data"
  contentType := some "application/json"
  body := "\x7b\"messages\":[\x7b\"id\":\"1\",\"conversationId\":\"2\",\"username\":\"Emma\"," ++
    "\"handle\":\"emma789\",\"text\":\"launch\",\"date\":" ++ date ++ "\x7d]\x7d"

theorem exists_accepted {result : Except Clash HttpResponse}
    (h : result.toOption.map (·.status) = some 200) :
    ∃ response, result = .ok response ∧ response.status = 200 := by
  cases result with
  | error c => contradiction
  | ok response => exact ⟨response, rfl, Option.some.inj h⟩

/-- A message with a bare date is accepted, and a hit that carries it is read back as it. -/
theorem bare_date_is_read_back :
    let r := oneMessage "\"2024-01-17\""
    r.method = "POST" ∧ Route.ofPath? r.path = some .indexData ∧
      ∃ response, (Interface.respond MemoryEngine.backend {} r {}).1 = .ok response ∧
        response.status = 200 ∧
        ∃ m, Interface.decodeBody Documents.decoder r = .ok ⟨[], [m]⟩ ∧
          normalize .message [{ source := m.toJson }] 1 = .ok ⟨[.message ⟨m, none⟩], 1⟩ := by
  intro r
  have hroute : Route.ofPath? r.path = some .indexData := by decide
  have haccepted : (Interface.respond MemoryEngine.backend {} r {}).1.toOption.map (·.status) =
      some 200 := by
    decide +kernel
  have hdecoded : (Interface.decodeBody Documents.decoder r).toOption.map (fun d =>
      (d.conversations.length, d.messages.map (·.date.date.year))) = some (0, [2024]) := by
    decide +kernel
  obtain ⟨response, hresponse, hstatus⟩ := exists_accepted haccepted
  obtain ⟨d, -, -, hbody, -, -, hmessages, -⟩ :=
    accepted_documents_read_back rfl hroute hresponse hstatus
  rw [hbody] at hdecoded
  obtain ⟨hconversations, hyears⟩ := Prod.mk.inj (Option.some.inj hdecoded)
  obtain ⟨conversations, messages⟩ := d
  obtain rfl : conversations = [] := List.eq_nil_of_length_eq_zero hconversations
  obtain ⟨m, rfl, hyear⟩ := List.map_eq_singleton_iff.mp hyears
  have hplain : m.date.HasPlainYear := by
    unfold Time.Instant.HasPlainYear
    omega
  obtain ⟨hread, -⟩ := hmessages [m] [{ source := m.toJson }] 1 (fun _ hm => hm) rfl
  exact ⟨rfl, hroute, response, hresponse, hstatus, m, hbody, hread (by simpa using hplain)⟩

/-- A message of the first millisecond of the year 10000 is accepted, and then no search for
messages succeeds. -/
theorem year_ten_thousand_is_not_read_back :
    let r := oneMessage "253402300800000"
    ∃ response, (Interface.respond MemoryEngine.backend {} r {}).1 = .ok response ∧
      response.status = 200 ∧
      ∃ id reason, (Service.search MemoryEngine.backend {} { target := .message }
        (Interface.respond MemoryEngine.backend {} r {}).2).1 =
          .error (.malformedHit id reason) := by
  intro r
  have haccepted : (Interface.respond MemoryEngine.backend {} r {}).1.toOption.map (·.status) =
      some 200 := by
    decide +kernel
  have hmalformed : (match (Service.search MemoryEngine.backend {} { target := .message }
      (Interface.respond MemoryEngine.backend {} r {}).2).1 with
      | .error (.malformedHit _ _) => true
      | _ => false) = true := by
    decide +kernel
  obtain ⟨response, hresponse, hstatus⟩ := exists_accepted haccepted
  refine ⟨response, hresponse, hstatus, ?_⟩
  split at hmalformed
  · next id reason hsearch => exact ⟨id, reason, hsearch⟩
  · contradiction

end ConversationSearch
