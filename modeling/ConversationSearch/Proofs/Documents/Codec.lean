import ConversationSearch.Conversation
import ConversationSearch.Proofs.Json.Shapes
import ConversationSearch.Proofs.Time.Reading

/-!
# Documents and their encodings

The document of a message or a conversation is decoded again where the year of its date has four
digits, and gives the same message or conversation with its date to the millisecond, as it was
written. With another year it is refused for its date.
-/

namespace ConversationSearch

open Json (Decoder Shape toReading)

/-! ## Sets of handles -/

theorem insertHandle_eq_append {h : String} {hs : List String} (hlast : ∀ k ∈ hs, k < h) :
    insertHandle h hs = hs ++ [h] := by
  induction hs with
  | nil => rfl
  | cons k hs ih =>
    have hk : k < h := hlast k List.mem_cons_self
    have hrest := ih fun x hx => hlast x (List.mem_cons_of_mem _ hx)
    unfold insertHandle
    rw [if_neg (String.lt_asymm hk), if_neg (by rintro rfl; exact String.lt_irrefl _ hk), hrest,
      List.cons_append]

/-- Handles that are put in in ascending order stay in that order. -/
theorem Handles.toList_foldl_insert (hs : List String) (s : Handles)
    (hascending : (s.toList ++ hs).Pairwise (· < ·)) :
    (hs.foldl Handles.insert s).toList = s.toList ++ hs := by
  induction hs generalizing s with
  | nil => simp
  | cons h hs ih =>
    have hlast : ∀ k ∈ s.toList, k < h := by
      intro k hk
      exact (List.pairwise_append.mp hascending).2.2 k hk h List.mem_cons_self
    have hinsert : (s.insert h).toList = s.toList ++ [h] := insertHandle_eq_append hlast
    have hrest := ih (s.insert h) (by rw [hinsert]; simpa using hascending)
    rw [List.foldl_cons, hrest, hinsert, List.append_assoc, List.singleton_append]

theorem Handles.eq_of_toList_eq {s t : Handles} (h : s.toList = t.toList) :
    s = t := by
  obtain ⟨hs, _⟩ := s
  obtain ⟨ht, _⟩ := t
  obtain rfl : hs = ht := h
  rfl

theorem Handles.ofList_toList (s : Handles) :
    Handles.ofList s.toList = s := by
  apply Handles.eq_of_toList_eq
  exact Handles.toList_foldl_insert s.toList .empty s.ascending

theorem Handles.decoder_reads (s : Handles) :
    Handles.decoder.Reads (.array (s.toList.map .string)) s := by
  intro source
  unfold Handles.decoder
  rw [Decoder.list_reads_map Decoder.string_reads s.toList source]
  exact congrArg Except.ok s.ofList_toList

theorem Attachment.decoder_reads (a : Attachment) :
    Attachment.decoder.Reads (.string a.name) a := by
  apply Decoder.variant_reads
  cases a <;> decide

/-! ## Dates -/

namespace Time.Instant

variable {t : Instant}

theorem decoder_string (source : Json.Source) (s : String) :
    Instant.decoder source (toReading (.string s)) =
      (parse s).mapError fun e => .of (.refused e.message) :=
  rfl

theorem decoder_reads (hyear : t.HasPlainYear) :
    Instant.decoder.Reads (.string t.text) t.asWritten.toMillis := by
  intro source
  rw [decoder_string, t.parse_text.1 hyear]
  rfl

theorem decoder_refuses (hyear : ¬t.HasPlainYear) (source : Json.Source) :
    Instant.decoder source (toReading (.string t.text)) =
      .error (.of (.refused (BadStamp.message ⟨t.text⟩))) := by
  rw [decoder_string, t.parse_text.2 hyear]
  rfl

/-- A date that was decoded is a whole number of milliseconds and is written as it is. -/
theorem readBack_of_gives (h : Instant.decoder.Gives t) :
    t.asWritten.toMillis = t := by
  obtain ⟨source, r, hr⟩ := h
  unfold Instant.decoder at hr
  split at hr
  · have hparse := mapError_eq_ok.mp hr
    rw [asWritten_eq_self (leapEndsMinute_of_parse hparse), toMillis_of_parse hparse]
  · next n =>
    split at hr
    · cases hr
    · split at hr
      · next hn =>
        obtain rfl := Except.ok.inj hr
        obtain ⟨-, hnanos, hminute⟩ := of?_eq_some_iff.mp hn
        rw [asWritten_eq_self hminute, toMillis_eq_self_iff, hnanos, Nat.mul_mod_left]
      · cases hr
  · cases hr

end Time.Instant

/-! ## Messages -/

namespace Message

variable {m : Message}

/-- The message with its date to the millisecond. -/
def toMillis (m : Message) : Message :=
  { m with date := m.date.toMillis }

/-- The message with its date as it is written. -/
def asWritten (m : Message) : Message :=
  { m with date := m.date.asWritten }

theorem asWritten_eq_self (h : m.date.LeapEndsMinute) :
    m.asWritten = m := by
  rw [asWritten, Time.Instant.asWritten_eq_self h]

theorem members_keys_nodup (m : Message) :
    (m.members.map (·.1)).Nodup := by
  unfold members
  cases m.attachment <;> simp [plainMembers]

theorem lookup_members {key : String} {j : Json} (hkey : key ≠ "attachmentType")
    (hj : m.plainMembers.lookup key = some j) :
    m.members.lookup key = some j := by
  have hne : (key == "attachmentType") = false := by simpa using hkey
  unfold members
  cases m.attachment with
  | none => exact hj
  | some a =>
    rw [List.lookup_cons, hne]
    exact hj

theorem lookup_attachment (m : Message) :
    m.members.lookup "attachmentType" = m.attachment.map (.string ·.name) := by
  unfold members
  cases m.attachment <;> rfl

section Reading

variable {members : List (String × Json)}

theorem lookup_eq_of_perm (h : members.Perm m.members) (key : String) :
    members.lookup key = m.members.lookup key :=
  (Json.lookup_eq_of_perm h.symm m.members_keys_nodup key).symm

theorem shape_takes (h : members.Perm m.members) (hyear : m.date.HasPlainYear)
    (source : Json.Source) :
    shape.Takes source members m.asWritten.toMillis := by
  have hplain : ∀ key {j}, key ≠ "attachmentType" → m.plainMembers.lookup key = some j →
      members.lookup key = some j :=
    fun key _ hkey hj => (lookup_eq_of_perm h key).trans (lookup_members hkey hj)
  have htext : ∀ key s, key ≠ "attachmentType" → m.plainMembers.lookup key = some (.string s) →
      (Shape.required key Decoder.string).Takes source members s :=
    fun key s hkey hs => .required source (hplain key hkey hs) (Decoder.string_reads s)
  have hid := htext "id" m.id (by decide) rfl
  have hconversation := htext "conversationId" m.conversationId (by decide) rfl
  have husername := htext "username" m.username (by decide) rfl
  have hhandle := htext "handle" m.handle (by decide) rfl
  have hbody := htext "text" m.text (by decide) rfl
  have hdate := Shape.Takes.required source (hplain "date" (by decide) rfl)
    (Time.Instant.decoder_reads hyear)
  have hmentions := Shape.Takes.given source (hplain "mentions" (by decide) rfl)
    m.mentions.decoder_reads .empty
  have hattachment := Shape.Takes.optional source
    ((lookup_eq_of_perm h "attachmentType").trans m.lookup_attachment)
    fun a _ => Decoder.option_reads a.decoder_reads (by simp)
  have hpinned := Shape.Takes.given source (hplain "pinned" (by decide) rfl)
    (Decoder.bool_reads m.pinned) false
  rw [Option.bind_fun_some] at hattachment
  exact ((((((((hid.map (f := Message.mk)).seq hconversation).seq husername).seq hhandle).seq
    hbody).seq hdate).seq hmentions).seq hattachment).seq hpinned

theorem known_of_mem_members {member : String × Json} (h : member ∈ m.members) :
    member.1 ∈ shape.rules.map (·.name) := by
  have hkeys : m.members.map (·.1) ⊆ "attachmentType" :: m.plainMembers.map (·.1) := by
    unfold members
    cases m.attachment with
    | none => exact List.subset_cons_self _ _
    | some a => exact List.Subset.refl _
  have hknown : ∀ key ∈ "attachmentType" :: m.plainMembers.map (·.1),
      key ∈ shape.rules.map (·.name) := by
    simp only [plainMembers, List.map_cons, List.map_nil, List.forall_mem_cons]
    decide
  exact hknown member.1 (hkeys (List.mem_map_of_mem h))

/-- A message is decoded from its members in any order, with its date as it is written, to the
millisecond. -/
theorem decoder_reads (h : members.Perm m.members) (hyear : m.date.HasPlainYear) :
    decoder.Reads (.object members) m.asWritten.toMillis :=
  fun source => (shape_takes h hyear source).decoder_object
    ((h.map (·.1)).symm.nodup m.members_keys_nodup)
    fun _ hmember => known_of_mem_members (h.mem_iff.mp hmember)

/-- Members of which the date has another year are refused. -/
theorem decoder_refuses (h : members.Perm m.members) (hyear : ¬m.date.HasPlainYear)
    (source : Json.Source) :
    ∃ f, decoder source (toReading (.object members)) = .error f := by
  have hdate : ("date", Json.string m.date.text) ∈ members :=
    h.mem_iff.mpr (Json.mem_of_lookup (lookup_members (by decide) rfl))
  exact Shape.decoder_object_error hdate rfl
    (Shape.check_rule_error "date" (Time.Instant.decoder_refuses hyear source) false false)

end Reading

/-- A message that was decoded is read back from its document as it is. -/
theorem readBack_of_gives (h : decoder.Gives m) :
    m.asWritten.toMillis = m := by
  obtain ⟨fields, hall⟩ := Shape.of_decoder h
  obtain ⟨_, pinned, hattachment, -, rfl⟩ := Shape.of_build_seq hall
  obtain ⟨_, attachment, hmentions, -, rfl⟩ := Shape.of_build_seq hattachment
  obtain ⟨_, mentions, hdate, -, rfl⟩ := Shape.of_build_seq hmentions
  obtain ⟨_, date, htext, hgiven, rfl⟩ := Shape.of_build_seq hdate
  obtain ⟨_, text, hhandle, -, rfl⟩ := Shape.of_build_seq htext
  obtain ⟨_, handle, husername, -, rfl⟩ := Shape.of_build_seq hhandle
  obtain ⟨_, username, hconversation, -, rfl⟩ := Shape.of_build_seq husername
  obtain ⟨_, conversationId, hid, -, rfl⟩ := Shape.of_build_seq hconversation
  obtain ⟨id, -, rfl⟩ := Shape.of_build_map hid
  have hdate := Time.Instant.readBack_of_gives (Shape.of_build_required hgiven)
  simp only [toMillis, asWritten, hdate]

end Message

/-! ## Conversations -/

namespace Participant

variable {p : Participant}

/-- The members of a participant's document. -/
def members (p : Participant) : List (String × Json) :=
  [("handle", .string p.handle), ("username", .string p.username)]

/-- A participant is decoded from its members in any order. -/
theorem decoder_reads {found : List (String × Json)} (h : found.Perm p.members) :
    decoder.Reads (.object found) p := by
  intro source
  have hkeys : (p.members.map (·.1)).Nodup := by simp [members]
  have hlookup : ∀ key, found.lookup key = p.members.lookup key :=
    fun key => (Json.lookup_eq_of_perm h.symm hkeys key).symm
  have husername := Shape.Takes.required source (hlookup "username") (Decoder.string_reads _)
  have hhandle := Shape.Takes.required source (hlookup "handle") (Decoder.string_reads _)
  apply ((husername.map (f := Participant.mk)).seq hhandle).decoder_object
  · exact (h.map (·.1)).symm.nodup hkeys
  · intro member hmember
    have hknown : ∀ member ∈ p.members, member.1 ∈ shape.rules.map (·.name) := by
      simp only [members, List.forall_mem_cons]
      decide
    exact hknown member (h.mem_iff.mp hmember)

end Participant

namespace Conversation

variable {c : Conversation} {participants : List Json} {members : List (String × Json)}

/-- The conversation with its date to the millisecond. -/
def toMillis (c : Conversation) : Conversation :=
  { c with date := c.date.toMillis }

/-- The conversation with its date as it is written. -/
def asWritten (c : Conversation) : Conversation :=
  { c with date := c.date.asWritten }

theorem asWritten_eq_self (h : c.date.LeapEndsMinute) :
    c.asWritten = c := by
  rw [asWritten, Time.Instant.asWritten_eq_self h]

/-- The members of a conversation with the given documents of the participants. -/
def membersWith (c : Conversation) (participants : List Json) : List (String × Json) :=
  [("date", .string c.date.text),
   ("handle", .string c.handle),
   ("id", .string c.id),
   ("lastMessage", .string c.lastMessage),
   ("participants", .array participants),
   ("username", .string c.username)]

theorem membersWith_keys_nodup (c : Conversation) (participants : List Json) :
    ((c.membersWith participants).map (·.1)).Nodup := by
  simp [membersWith]

theorem lookup_eq_of_perm (h : members.Perm (c.membersWith participants)) (key : String) :
    members.lookup key = (c.membersWith participants).lookup key :=
  (Json.lookup_eq_of_perm h.symm (c.membersWith_keys_nodup participants) key).symm

theorem participants_read (c : Conversation) :
    List.Forall₂ Participant.decoder.Reads (c.participants.map Participant.toJson)
      c.participants :=
  List.forall₂_map_left_iff.mpr
    (List.forall₂_same.mpr fun _ _ => Participant.decoder_reads (.refl _))

theorem shape_takes (h : members.Perm (c.membersWith participants))
    (hparticipants : List.Forall₂ Participant.decoder.Reads participants c.participants)
    (hyear : c.date.HasPlainYear) (source : Json.Source) :
    shape.Takes source members c.asWritten.toMillis := by
  have hlookup := lookup_eq_of_perm h
  have hid := Shape.Takes.required source (hlookup "id") (Decoder.string_reads c.id)
  have husername := Shape.Takes.required source (hlookup "username")
    (Decoder.string_reads c.username)
  have hhandle := Shape.Takes.required source (hlookup "handle") (Decoder.string_reads c.handle)
  have hlast := Shape.Takes.required source (hlookup "lastMessage")
    (Decoder.string_reads c.lastMessage)
  have hdate := Shape.Takes.required source (hlookup "date") (Time.Instant.decoder_reads hyear)
  have hall := Shape.Takes.required source (hlookup "participants")
    (Decoder.list_reads hparticipants)
  exact (((((hid.map (f := Conversation.mk)).seq husername).seq hhandle).seq hlast).seq hdate).seq
    hall

/-- A conversation is decoded from its members in any order, with its date as it is written, to the
millisecond. -/
theorem decoder_reads (h : members.Perm (c.membersWith participants))
    (hparticipants : List.Forall₂ Participant.decoder.Reads participants c.participants)
    (hyear : c.date.HasPlainYear) :
    decoder.Reads (.object members) c.asWritten.toMillis := by
  intro source
  apply (shape_takes h hparticipants hyear source).decoder_object
  · exact (h.map (·.1)).symm.nodup (c.membersWith_keys_nodup participants)
  · intro member hmember
    have hknown : ∀ member ∈ c.membersWith participants, member.1 ∈ shape.rules.map (·.name) := by
      simp only [membersWith, List.forall_mem_cons]
      decide
    exact hknown member (h.mem_iff.mp hmember)

/-- Members of which the date has another year are refused. -/
theorem decoder_refuses (h : members.Perm (c.membersWith participants))
    (hyear : ¬c.date.HasPlainYear) (source : Json.Source) :
    ∃ f, decoder source (toReading (.object members)) = .error f := by
  have hdate : ("date", Json.string c.date.text) ∈ members :=
    h.mem_iff.mpr List.mem_cons_self
  exact Shape.decoder_object_error hdate rfl
    (Shape.check_rule_error "date" (Time.Instant.decoder_refuses hyear source) false false)

/-- A conversation that was decoded is read back from its document as it is. -/
theorem readBack_of_gives (h : decoder.Gives c) :
    c.asWritten.toMillis = c := by
  obtain ⟨fields, hall⟩ := Shape.of_decoder h
  obtain ⟨_, participants, hdate, -, rfl⟩ := Shape.of_build_seq hall
  obtain ⟨_, date, hlast, hgiven, rfl⟩ := Shape.of_build_seq hdate
  obtain ⟨_, lastMessage, hhandle, -, rfl⟩ := Shape.of_build_seq hlast
  obtain ⟨_, handle, husername, -, rfl⟩ := Shape.of_build_seq hhandle
  obtain ⟨_, username, hid, -, rfl⟩ := Shape.of_build_seq husername
  obtain ⟨id, -, rfl⟩ := Shape.of_build_map hid
  have hdate := Time.Instant.readBack_of_gives (Shape.of_build_required hgiven)
  simp only [toMillis, asWritten, hdate]

end Conversation
end ConversationSearch
