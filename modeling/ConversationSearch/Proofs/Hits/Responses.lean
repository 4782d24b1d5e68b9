import ConversationSearch.Proofs.Documents.RoundTrip
import ConversationSearch.Proofs.Json.Kinds

/-!
# Responses there and back

A record does not say whether it is a conversation or a message. What is written of a message lacks
the latest message that a conversation needs, and what is written of a conversation lacks the
conversation that a message belongs to, so that neither is ever decoded as the other, whatever the
texts in it are. A response is therefore decoded with the same records in the same places, the dates
to the millisecond as they are written, exactly where the years of all dates have four digits.
-/

namespace ConversationSearch

open Json (Decoder Failure Shape toReading)

/-! ## The two kinds of records -/

/-- No conversation is decoded from an object without a latest message. -/
theorem Conversation.needs_lastMessage :
    Conversation.shape.Needs "lastMessage" :=
  (((Shape.needs_required "lastMessage" Decoder.string).seq_right _).seq_left _).seq_left _

/-- No message is decoded from an object without the conversation that it belongs to. -/
theorem Message.needs_conversationId :
    Message.shape.Needs "conversationId" :=
  ((((((((Shape.needs_required "conversationId" Decoder.string).seq_right _).seq_left _).seq_left
    _).seq_left _).seq_left _).seq_left _).seq_left _).seq_left _

theorem MessageHit.key_ne_lastMessage {h : MessageHit} {member : String × Json}
    (hmember : member ∈ h.members) :
    member.1 ≠ "lastMessage" := by
  rcases List.mem_append.mp hmember with hmember | hmember
  · have hkey := (Json.keys_member?_sublist _ _ _).subset (List.mem_map_of_mem hmember)
    rw [List.mem_singleton.mp hkey]
    decide
  · have hknown := Message.known_of_mem_members hmember
    rintro heq
    rw [heq] at hknown
    exact absurd hknown (by decide)

theorem Conversation.key_ne_conversationId {c : Conversation} {participants : List Json}
    {member : String × Json} (hmember : member ∈ c.membersWith participants) :
    member.1 ≠ "conversationId" := by
  have hall : ∀ member ∈ c.membersWith participants, member.1 ≠ "conversationId" := by
    simp only [membersWith, List.forall_mem_cons]
    decide
  exact hall member hmember

/-- What is written of a message is never decoded as a conversation. -/
theorem MessageHit.IsWritten.not_conversation {h : MessageHit} {j : Json} (hj : h.IsWritten j)
    (source : Json.Source) :
    ∃ f, Conversation.decoder source (toReading j) = .error f := by
  obtain ⟨members, rfl, hperm⟩ := hj
  apply Conversation.needs_lastMessage.decoder_lacking
  exact fun member hmember => MessageHit.key_ne_lastMessage (hperm.mem_iff.mp hmember)

/-- What is written of a conversation is never decoded as a message. -/
theorem Conversation.IsWritten.not_message {c : Conversation} {j : Json} (hj : c.IsWritten j)
    (source : Json.Source) :
    ∃ f, MessageHit.decoder source (toReading j) = .error f := by
  obtain ⟨participants, members, rfl, hperm, -⟩ := hj
  have hkeys : (members.map (·.1)).Nodup :=
    (hperm.map (·.1)).symm.nodup (c.membersWith_keys_nodup participants)
  rw [MessageHit.decoder_object source hkeys]
  cases MessageHit.fragmentOf source members with
  | error f => exact ⟨f, rfl⟩
  | ok fragment =>
    have hlacking : ∀ m ∈ MessageHit.others members, m.1 ≠ "conversationId" :=
      fun m hm => Conversation.key_ne_conversationId (hperm.mem_iff.mp (List.mem_of_mem_filter hm))
    obtain ⟨f, hf⟩ := Message.needs_conversationId.decoder_lacking hlacking "Message" .buffer
    exact ⟨f, bind_eq_error.mpr (.inr ⟨fragment, rfl, bind_eq_error.mpr (.inl hf)⟩)⟩

/-! ## Records -/

namespace SearchRecord

variable {record : SearchRecord} {j : Json}

/-- The date of the document. -/
def date : SearchRecord → Time.Instant
  | .conversation c => c.date
  | .message h => h.message.date

/-- The record with its date to the millisecond. -/
def toMillis : SearchRecord → SearchRecord
  | .conversation c => .conversation c.toMillis
  | .message h => .message h.toMillis

/-- The record with its date as it is written. -/
def asWritten : SearchRecord → SearchRecord
  | .conversation c => .conversation c.asWritten
  | .message h => .message h.asWritten

/-- The value is the object of the record's members, in any order. -/
def IsWritten : SearchRecord → Json → Prop
  | .conversation c => c.IsWritten
  | .message h => h.IsWritten

theorem isWritten_toJson (record : SearchRecord) :
    record.IsWritten record.toJson := by
  cases record with
  | conversation c => exact c.isWritten_toJson
  | message h => exact h.isWritten_toJson

theorem toMillis_eq_self (h : record.date.toMillis = record.date) :
    record.toMillis = record := by
  cases record with
  | conversation c => exact congrArg (fun date => conversation { c with date }) h
  | message m =>
    exact congrArg (fun date => message { m with message := { m.message with date } }) h

theorem asWritten_eq_self (h : record.date.LeapEndsMinute) :
    record.asWritten = record := by
  cases record with
  | conversation c => exact congrArg conversation (Conversation.asWritten_eq_self h)
  | message m => exact congrArg message (MessageHit.asWritten_eq_self h)

theorem IsWritten.isLegible (hj : record.IsWritten j) :
    j.IsLegible 2 := by
  cases record with
  | conversation c => exact Conversation.IsWritten.isLegible_within hj (by decide)
  | message h => exact MessageHit.IsWritten.isLegible_within hj (by decide)

theorem decoder_conversation {c : Conversation} {source : Json.Source}
    (h : Conversation.decoder .buffer (toReading j) = .ok c) :
    decoder source (toReading j) = .ok (.conversation c) :=
  Decoder.untagged_first (by rw [h]; rfl)

theorem decoder_message {f : Failure} {source : Json.Source}
    (hf : Conversation.decoder .buffer (toReading j) = .error f) {h : MessageHit}
    (hh : MessageHit.decoder .buffer (toReading j) = .ok h) :
    decoder source (toReading j) = .ok (.message h) := by
  rw [decoder, Decoder.untagged_next (f := f) (by rw [hf]; rfl)]
  exact Decoder.untagged_first (by rw [hh]; rfl)

theorem decoder_neither {f e : Failure} {source : Json.Source}
    (hf : Conversation.decoder .buffer (toReading j) = .error f)
    (he : MessageHit.decoder .buffer (toReading j) = .error e) :
    decoder source (toReading j) = .error (.of (.unmatched "SearchRecord")) := by
  rw [decoder, Decoder.untagged_next (f := f) (by rw [hf]; rfl),
    Decoder.untagged_next (f := e) (by rw [he]; rfl), Decoder.untagged_nil]

/-- A record is decoded as what it is, with its date as it is written, to the millisecond. -/
theorem decoder_reads (hj : record.IsWritten j) (hyear : record.date.HasPlainYear) :
    decoder.Reads j record.asWritten.toMillis := by
  intro source
  cases record with
  | conversation c =>
    obtain ⟨participants, members, rfl, hperm, hparticipants⟩ := hj
    apply decoder_conversation
    apply Conversation.decoder_reads hperm (hparticipants.imp ?_) hyear
    rintro _ p ⟨written, rfl, hwritten⟩
    exact Participant.decoder_reads hwritten
  | message h =>
    obtain ⟨f, hf⟩ := MessageHit.IsWritten.not_conversation hj .buffer
    obtain ⟨members, rfl, hperm⟩ := hj
    exact decoder_message hf (MessageHit.decoder_reads hperm hyear .buffer)

/-- A record of which the date has another year is refused as either kind. -/
theorem decoder_refuses (hj : record.IsWritten j) (hyear : ¬record.date.HasPlainYear)
    (source : Json.Source) :
    ∃ f, decoder source (toReading j) = .error f := by
  cases record with
  | conversation c =>
    obtain ⟨e, he⟩ := Conversation.IsWritten.not_message hj .buffer
    obtain ⟨participants, members, rfl, hperm, -⟩ := hj
    obtain ⟨f, hf⟩ := Conversation.decoder_refuses hperm hyear .buffer
    exact ⟨_, decoder_neither hf he⟩
  | message h =>
    obtain ⟨f, hf⟩ := MessageHit.IsWritten.not_conversation hj .buffer
    obtain ⟨members, rfl, hperm⟩ := hj
    obtain ⟨e, he⟩ := MessageHit.decoder_refuses hperm hyear .buffer
    exact ⟨_, decoder_neither hf he⟩

theorem records_read {records : List Json} {hits : List SearchRecord}
    (hrecords : List.Forall₂ (fun written record => record.IsWritten written) records hits)
    (hyears : ∀ record ∈ hits, record.date.HasPlainYear) :
    List.Forall₂ decoder.Reads records ((hits.map asWritten).map toMillis) := by
  rw [List.forall₂_map_right_iff, List.forall₂_map_right_iff]
  induction hrecords with
  | nil => exact .nil
  | cons hfirst _ ih =>
    obtain ⟨hyear, hyears⟩ := List.forall_mem_cons.mp hyears
    exact .cons (decoder_reads hfirst hyear) (ih hyears)

end SearchRecord

/-! ## Responses -/

namespace SearchResponse

variable {r : SearchResponse} {j : Json} {records : List Json} {members : List (String × Json)}

/-- The response with the dates of its records to the millisecond. -/
def toMillis (r : SearchResponse) : SearchResponse :=
  { r with hits := r.hits.map SearchRecord.toMillis }

/-- The response with the dates of its records as they are written. -/
def asWritten (r : SearchResponse) : SearchResponse :=
  { r with hits := r.hits.map SearchRecord.asWritten }

/-- The members of a response with the given documents of the records. -/
def membersWith (r : SearchResponse) (records : List Json) : List (String × Json) :=
  [("hits", .array records), ("total", .nat r.total.toNat)]

/-- The value is the object of the response's members, in any order, with the records in theirs. -/
def IsWritten (r : SearchResponse) (j : Json) : Prop :=
  ∃ records members, j = .object members ∧ members.Perm (r.membersWith records) ∧
    List.Forall₂ (fun written record => record.IsWritten written) records r.hits

theorem isWritten_toJson (r : SearchResponse) :
    r.IsWritten r.toJson :=
  ⟨r.hits.map SearchRecord.toJson, _, rfl, .refl _, List.forall₂_map_left_iff.mpr
    (List.forall₂_same.mpr fun record _ => record.isWritten_toJson)⟩

theorem toMillis_eq_self (h : ∀ record ∈ r.hits, record.date.toMillis = record.date) :
    r.toMillis = r := by
  have hhits : r.hits.map SearchRecord.toMillis = r.hits := by
    rw [List.map_congr_left fun record hrecord => SearchRecord.toMillis_eq_self (h record hrecord),
      List.map_id']
  rw [toMillis, hhits]

theorem asWritten_eq_self (h : ∀ record ∈ r.hits, record.date.LeapEndsMinute) :
    r.asWritten = r := by
  have hhits : r.hits.map SearchRecord.asWritten = r.hits := by
    rw [List.map_congr_left fun record hrecord => SearchRecord.asWritten_eq_self (h record hrecord),
      List.map_id']
  rw [asWritten, hhits]

theorem membersWith_keys_nodup (r : SearchResponse) (records : List Json) :
    ((r.membersWith records).map (·.1)).Nodup := by
  simp [membersWith]

theorem lookup_eq_of_perm (h : members.Perm (r.membersWith records)) (key : String) :
    members.lookup key = (r.membersWith records).lookup key :=
  (Json.lookup_eq_of_perm h.symm (r.membersWith_keys_nodup records) key).symm

theorem IsWritten.isLegible (hj : r.IsWritten j) :
    j.IsLegible 0 := by
  obtain ⟨records, members, rfl, hperm, hrecords⟩ := hj
  have harray : Json.IsLegible 1 (.array records) := by
    refine ⟨by decide, Json.areLegible_iff.mpr fun written hwritten => ?_⟩
    obtain ⟨record, -, hrecord⟩ := Json.exists_of_forall₂ hrecords written hwritten
    exact SearchRecord.IsWritten.isLegible hrecord
  have htotal : (Json.nat r.total.toNat).IsLegible 1 := by
    have hlt := r.total.toNat_lt
    change -(Json.Numeral.leastMagnitude : Int) ≤ _ ∧ _ ≤ (Json.Numeral.maxSignificand : Int)
    simp only [Json.Numeral.leastMagnitude, Json.Numeral.maxSignificand]
    omega
  have hall : ∀ member ∈ r.membersWith records, member.2.IsLegible 1 := by
    simp only [membersWith, List.forall_mem_cons]
    exact ⟨harray, htotal, by simp⟩
  exact ⟨by decide, Json.haveLegible_iff.mpr fun member hmember =>
    hall member (hperm.mem_iff.mp hmember)⟩

/-- A response is decoded with each record as what it is, and the dates as they are written, to the
millisecond. -/
theorem decoder_reads (hj : r.IsWritten j) (hyears : ∀ record ∈ r.hits, record.date.HasPlainYear) :
    decoder.Reads j r.asWritten.toMillis := by
  intro source
  obtain ⟨records, members, rfl, hperm, hrecords⟩ := hj
  have hlookup := lookup_eq_of_perm hperm
  have hhits := Shape.Takes.required source (hlookup "hits")
    (Decoder.list_reads (SearchRecord.records_read hrecords hyears))
  have htotal := Shape.Takes.required source (hlookup "total") (Decoder.uint64_reads r.total)
  apply ((hhits.map (f := SearchResponse.mk)).seq htotal).decoder_object
  · exact (hperm.map (·.1)).symm.nodup (r.membersWith_keys_nodup records)
  · intro member hmember
    have hknown : ∀ member ∈ r.membersWith records, member.1 ∈ shape.rules.map (·.name) := by
      simp only [membersWith, List.forall_mem_cons]
      decide
    exact hknown member (hperm.mem_iff.mp hmember)

/-- A response with a record of which the date has another year is refused. -/
theorem decoder_refuses (hj : r.IsWritten j) {record : SearchRecord} (hrecord : record ∈ r.hits)
    (hyear : ¬record.date.HasPlainYear) (source : Json.Source) :
    ∃ f, decoder source (toReading j) = .error f := by
  obtain ⟨records, members, rfl, hperm, hrecords⟩ := hj
  obtain ⟨written, hmem, hwritten⟩ := Json.exists_of_forall₂ hrecords.flip record hrecord
  obtain ⟨f, hf⟩ := SearchRecord.decoder_refuses hwritten hyear source
  obtain ⟨e, he⟩ := Decoder.list_refuses hmem hf
  have hhits : ("hits", Json.array records) ∈ members := hperm.mem_iff.mpr List.mem_cons_self
  exact Shape.decoder_object_error hhits rfl (Shape.check_rule_error "hits" he false false)

end SearchResponse

/-- Responses come back from what is written of them, with the members of every object in any order
and whatever is made of the value, exactly where the years of all dates have four digits: with the
same records, each of the same kind, in the same places, and the same total, and with the dates as
they are written, to the millisecond. Where all dates are whole milliseconds, and in no leap second
within its minute, the response is the same. No value that is written of a message, with or without
a fragment and with any date, is decoded as a conversation, and none that is written of a
conversation as a message. -/
theorem responses_come_back :
    (∀ r : SearchResponse, r.IsWritten r.toJson) ∧
    (∀ (r : SearchResponse) (j : Json), r.IsWritten j →
      ∀ result ∈ SearchResponse.decoder.attempts j,
        ((∀ record ∈ r.hits, record.date.HasPlainYear) → result = .ok r.asWritten.toMillis ∧
          ((∀ record ∈ r.hits, record.date.toMillis = record.date ∧ record.date.LeapEndsMinute) →
            result = .ok r)) ∧
        ((∃ record ∈ r.hits, ¬record.date.HasPlainYear) → ∃ f, result = .error f)) ∧
    (∀ (h : MessageHit) (j : Json), h.IsWritten j →
      ∀ source, ∃ f, Conversation.decoder source (toReading j) = .error f) ∧
    (∀ (c : Conversation) (j : Json), c.IsWritten j →
      ∀ source, ∃ f, MessageHit.decoder source (toReading j) = .error f) := by
  refine ⟨fun r => r.isWritten_toJson, ?_, fun h j hj => hj.not_conversation,
    fun c j hj => hj.not_message⟩
  intro r j hj result hresult
  obtain ⟨source, rfl⟩ := Decoder.exists_source hj.isLegible hresult
  refine ⟨fun hyears => ?_, ?_⟩
  · have hread := SearchResponse.decoder_reads hj hyears source
    refine ⟨hread, fun hdates => hread.trans ?_⟩
    rw [SearchResponse.asWritten_eq_self fun record hrecord => (hdates record hrecord).2,
      SearchResponse.toMillis_eq_self fun record hrecord => (hdates record hrecord).1]
  · rintro ⟨record, hrecord, hyear⟩
    exact SearchResponse.decoder_refuses hj hrecord hyear source

/-- A response with a conversation between two messages, one of them with its fragment, that say
what only a conversation says elsewhere. -/
def mixedResponse (date : Time.Instant) : SearchResponse where
  hits := [.message (linkHit date),
    .conversation
      { id := "2", username := "sarah", handle := "sarah123", lastMessage := "conversationId"
        date := date, participants := [⟨"sarah", "sarah123"⟩, ⟨"john", "john456"⟩] },
    .message
      { message := { (linkHit date).message with text := "lastMessage", attachment := none }
        highlighted := none }]
  total := 18446744073709551615

/-- The last millisecond of the year 9999 comes back in every record of a mixed response, and the
first of the next year in none. -/
theorem mixed_response_comes_back :
    let last : Time.Instant := ⟨253402300799, 999000000, by decide, by decide, by decide⟩
    let next : Time.Instant := ⟨253402300800, 0, by decide, by decide, by decide⟩
    (∀ record ∈ (mixedResponse last).hits,
      record.date.HasPlainYear ∧ record.date.toMillis = record.date ∧
        record.date.LeapEndsMinute) ∧
    SearchResponse.decoder.ofText (mixedResponse last).toJson.compact =
      .ok (mixedResponse last) ∧
    (∃ record ∈ (mixedResponse next).hits, ¬record.date.HasPlainYear) ∧
    ∃ f, SearchResponse.decoder.ofText (mixedResponse next).toJson.compact = .error f := by
  intro last next
  have hlast : last.HasPlainYear ∧ last.toMillis = last ∧ last.LeapEndsMinute :=
    ⟨by decide, by decide, by decide⟩
  have hnext : ¬next.HasPlainYear := by decide
  have hdates : ∀ record ∈ (mixedResponse last).hits,
      record.date.HasPlainYear ∧ record.date.toMillis = record.date ∧
        record.date.LeapEndsMinute := by
    simp only [mixedResponse, List.forall_mem_cons]
    exact ⟨hlast, hlast, hlast, by simp⟩
  have hother : ∃ record ∈ (mixedResponse next).hits, ¬record.date.HasPlainYear :=
    ⟨_, List.mem_cons_self, hnext⟩
  obtain ⟨hwritten, hdecodes, -⟩ := responses_come_back
  have htext : ∀ r : SearchResponse, SearchResponse.decoder.ofText r.toJson.compact ∈
      SearchResponse.decoder.attempts r.toJson := by
    simp [Decoder.attempts]
  have hread := hdecodes _ _ (hwritten (mixedResponse last)) _ (htext _)
  have hrefused := hdecodes _ _ (hwritten (mixedResponse next)) _ (htext _)
  exact ⟨hdates, (hread.1 fun record h => (hdates record h).1).2 fun record h => (hdates record h).2,
    hother, hrefused.2 hother⟩

/-- A leap second within its minute comes back as the second that follows in every record, although
it is a whole number of milliseconds. -/
theorem leap_seconds_within_minute_come_back_later :
    let leap : Time.Instant := ⟨4, 1333000000, by decide, by decide, by decide⟩
    let next : Time.Instant := ⟨5, 333000000, by decide, by decide, by decide⟩
    (∀ record ∈ (mixedResponse leap).hits,
      record.date.HasPlainYear ∧ record.date.toMillis = record.date) ∧
    SearchResponse.decoder.ofText (mixedResponse leap).toJson.compact =
      .ok (mixedResponse next) ∧
    mixedResponse next ≠ mixedResponse leap := by
  intro leap next
  have hleap : leap.HasPlainYear ∧ leap.toMillis = leap :=
    ⟨by decide, by decide⟩
  have hdates : ∀ record ∈ (mixedResponse leap).hits,
      record.date.HasPlainYear ∧ record.date.toMillis = record.date := by
    simp only [mixedResponse, List.forall_mem_cons]
    exact ⟨hleap, hleap, hleap, by simp⟩
  have hback : (mixedResponse leap).asWritten.toMillis = mixedResponse next := by
    change mixedResponse leap.asWritten.toMillis = mixedResponse next
    exact congrArg mixedResponse (by decide)
  have hwritten := (mixedResponse leap).isWritten_toJson
  refine ⟨hdates, ?_, fun h => ?_⟩
  · rw [Decoder.ofText_compact _ hwritten.isLegible, ← hback]
    exact SearchResponse.decoder_reads hwritten (fun record h => (hdates record h).1) .text
  · have hsame := congrArg (fun r => r.hits.map (·.date)) h
    exact absurd hsame (by decide)

end ConversationSearch
