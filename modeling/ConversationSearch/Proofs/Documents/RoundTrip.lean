import ConversationSearch.Hits.Record
import ConversationSearch.Proofs.Documents.Codec
import ConversationSearch.Proofs.Json.Texts
import ConversationSearch.Proofs.Json.Values

/-!
# Documents there and back

What was written of a message, of a conversation or of a message with its fragment is decoded
exactly where the year of the date has four digits, be it from the value or from its text, with the
members in any order. It is then the same, but for what the date has below a millisecond, and a leap
second within its minute has become the second that follows, as which it is written. The
fragment of a message is decoded from its own member alone, and the message from the others.
-/

namespace ConversationSearch

open Json (Decoder Failure toReading membersToReadings)

/-! ## Written values -/

/-- The value is the object of the participant's members, in any order. -/
def Participant.IsWritten (p : Participant) (j : Json) : Prop :=
  ∃ members, j = .object members ∧ members.Perm p.members

/-- The value is the object of the message's members, in any order. -/
def Message.IsWritten (m : Message) (j : Json) : Prop :=
  ∃ members, j = .object members ∧ members.Perm m.members

/-- The value is the object of the conversation's members, in any order, with the participants in
theirs. -/
def Conversation.IsWritten (c : Conversation) (j : Json) : Prop :=
  ∃ participants members, j = .object members ∧ members.Perm (c.membersWith participants) ∧
    List.Forall₂ (fun written p => p.IsWritten written) participants c.participants

/-- The members of a message and its fragment. -/
def MessageHit.members (h : MessageHit) : List (String × Json) :=
  Json.member? highlightedKey .string h.highlighted ++ h.message.members

/-- The value is the object of the members of the message and its fragment, in any order. -/
def MessageHit.IsWritten (h : MessageHit) (j : Json) : Prop :=
  ∃ members, j = .object members ∧ members.Perm h.members

/-- What is made of a value: of the value itself, of the value once it was taken whole, of its
text, and of a text that it is at the front of. -/
def Json.Decoder.attempts (d : Decoder α) (j : Json) : List (Except Failure α) :=
  [d.ofJson j, d .buffer (toReading j), d.ofText j.compact, d.ofFront j.compact]

theorem Json.Decoder.exists_source {d : Decoder α} {j : Json} (hj : j.IsLegible 0)
    {result : Except Failure α} (h : result ∈ d.attempts j) :
    ∃ source, result = d source (toReading j) := by
  rw [attempts, ofText_compact d hj, ofFront_compact d hj] at h
  simp only [List.mem_cons, List.not_mem_nil, or_false] at h
  rcases h with rfl | rfl | rfl | rfl
  · exact ⟨.value, rfl⟩
  · exact ⟨.buffer, rfl⟩
  · exact ⟨.text, rfl⟩
  · exact ⟨.text, rfl⟩

/-! ## Messages -/

namespace Message

variable {m : Message} {j : Json}

theorem isWritten_toJson (m : Message) : m.IsWritten m.toJson :=
  ⟨m.members, rfl, .refl _⟩

theorem legible_members (m : Message) (depth : Nat) (hdepth : depth < Json.Reading.maxDepth) :
    ∀ member ∈ m.members, member.2.IsLegible depth := by
  have hmentions : Json.IsLegible depth (.array (m.mentions.toList.map .string)) := by
    refine ⟨hdepth, Json.areLegible_iff.mpr fun item hitem => ?_⟩
    obtain ⟨handle, -, rfl⟩ := List.mem_map.mp hitem
    trivial
  have hplain : ∀ member ∈ m.plainMembers, member.2.IsLegible depth := by
    simp only [plainMembers, List.forall_mem_cons]
    exact ⟨trivial, trivial, trivial, trivial, hmentions, trivial, trivial, trivial, by simp⟩
  unfold members
  cases m.attachment with
  | none => exact hplain
  | some a => exact List.forall_mem_cons.mpr ⟨trivial, hplain⟩

theorem IsWritten.isLegible (h : m.IsWritten j) : j.IsLegible 0 := by
  obtain ⟨members, rfl, hperm⟩ := h
  refine ⟨by decide, Json.haveLegible_iff.mpr fun member hmember => ?_⟩
  exact m.legible_members 1 (by decide) member (hperm.mem_iff.mp hmember)

end Message

/-! ## Conversations -/

theorem Participant.IsWritten.isLegible {p : Participant} {j : Json} (h : p.IsWritten j)
    {depth : Nat} (hdepth : depth < Json.Reading.maxDepth) :
    j.IsLegible depth := by
  obtain ⟨members, rfl, hperm⟩ := h
  have hall : ∀ member ∈ p.members, member.2.IsLegible (depth + 1) := by
    simp only [Participant.members, List.forall_mem_cons]
    exact ⟨trivial, trivial, by simp⟩
  exact ⟨hdepth, Json.haveLegible_iff.mpr fun member hmember =>
    hall member (hperm.mem_iff.mp hmember)⟩

namespace Conversation

variable {c : Conversation} {j : Json}

theorem isWritten_toJson (c : Conversation) : c.IsWritten c.toJson :=
  ⟨c.participants.map Participant.toJson, c.membersWith (c.participants.map Participant.toJson),
    rfl, .refl _,
    List.forall₂_map_left_iff.mpr (List.forall₂_same.mpr fun p _ => ⟨p.members, rfl, .refl _⟩)⟩

/-- A written conversation is legible also within other values, as long as these are not too
deep. -/
theorem IsWritten.isLegible_within (h : c.IsWritten j) {depth : Nat}
    (hdepth : depth + 2 < Json.Reading.maxDepth) :
    j.IsLegible depth := by
  obtain ⟨participants, members, rfl, hperm, hparticipants⟩ := h
  have harray : Json.IsLegible (depth + 1) (.array participants) := by
    refine ⟨by omega, Json.areLegible_iff.mpr fun written hmem => ?_⟩
    obtain ⟨p, -, hp⟩ := Json.exists_of_forall₂ hparticipants written hmem
    exact hp.isLegible hdepth
  refine ⟨by omega, Json.haveLegible_iff.mpr fun member hmember => ?_⟩
  have hall : ∀ member ∈ c.membersWith participants, member.2.IsLegible (depth + 1) := by
    simp only [membersWith, List.forall_mem_cons]
    exact ⟨trivial, trivial, trivial, trivial, harray, trivial, by simp⟩
  exact hall member (hperm.mem_iff.mp hmember)

theorem IsWritten.isLegible (h : c.IsWritten j) : j.IsLegible 0 :=
  h.isLegible_within (by decide)

end Conversation

/-! ## Messages with fragments -/

namespace MessageHit

variable {h : MessageHit} {j : Json} {members : List (String × Json)}

/-- The message and its fragment, with the date of the message to the millisecond. -/
def toMillis (h : MessageHit) : MessageHit :=
  { h with message := h.message.toMillis }

/-- The message and its fragment, with the date of the message as it is written. -/
def asWritten (h : MessageHit) : MessageHit :=
  { h with message := h.message.asWritten }

theorem asWritten_eq_self (hminute : h.message.date.LeapEndsMinute) :
    h.asWritten = h := by
  rw [asWritten, Message.asWritten_eq_self hminute]

theorem key_ne_of_mem_members {m : Message} {member : String × Json} (h : member ∈ m.members) :
    member.1 ≠ highlightedKey := by
  have hknown := Message.known_of_mem_members h
  rintro heq
  rw [heq] at hknown
  exact absurd hknown (by decide)

theorem members_keys_nodup (h : MessageHit) : (h.members.map (·.1)).Nodup := by
  unfold members
  rw [List.map_append, List.nodup_append]
  refine ⟨(Json.keys_member?_sublist _ _ _).nodup (List.nodup_singleton _),
    h.message.members_keys_nodup, ?_⟩
  intro key hkey other hother heq
  obtain ⟨member, hmember, rfl⟩ := List.mem_map.mp hother
  have hkey := List.mem_singleton.mp ((Json.keys_member?_sublist _ _ _).subset hkey)
  exact key_ne_of_mem_members hmember (heq.symm.trans hkey)

theorem isWritten_toJson (h : MessageHit) : h.IsWritten h.toJson := by
  unfold toJson IsWritten members
  cases h.highlighted with
  | none => exact ⟨h.message.members, rfl, .refl _⟩
  | some fragment =>
    exact ⟨_, rfl, Json.insert_perm (fun _ hmember => key_ne_of_mem_members hmember) _⟩

/-- A written message with its fragment is legible also within other values, as long as these are
not too deep. -/
theorem IsWritten.isLegible_within (hwritten : h.IsWritten j) {depth : Nat}
    (hdepth : depth + 1 < Json.Reading.maxDepth) :
    j.IsLegible depth := by
  obtain ⟨members, rfl, hperm⟩ := hwritten
  refine ⟨by omega, Json.haveLegible_iff.mpr fun member hmember => ?_⟩
  rcases List.mem_append.mp (hperm.mem_iff.mp hmember) with hmember | hmember
  · have htext : ∀ s, (Json.string s).IsLegible (depth + 1) := fun _ => trivial
    exact Json.legible_member? htext _ _ member hmember
  · exact h.message.legible_members (depth + 1) hdepth member hmember

theorem IsWritten.isLegible (hwritten : h.IsWritten j) : j.IsLegible 0 :=
  hwritten.isLegible_within (by decide)

/-- The members without the fragment. -/
def others (members : List (String × Json)) : List (String × Json) :=
  members.filter (·.1 != highlightedKey)

/-- The fragment that members hold, if they hold one. -/
def fragmentOf (source : Json.Source) (members : List (String × Json)) :
    Except Failure (Option String) :=
  match members.lookup highlightedKey with
  | none => .ok none
  | some j => (Decoder.option Decoder.string source (toReading j)).mapError
      (·.under (.member highlightedKey))

/-- Other members than the fragment are gathered as they stand. -/
theorem gather_others (source : Json.Source) (hothers : ∀ m ∈ members, m.1 ≠ highlightedKey)
    (rest : List (Json.Reading × Json.Reading)) (seen : Gathered) :
    gather source (membersToReadings members ++ rest) seen =
      gather source rest { seen with others := seen.others ++ membersToReadings members } := by
  induction members generalizing seen with
  | nil => simp [membersToReadings]
  | cons first members ih =>
    obtain ⟨key, j⟩ := first
    obtain ⟨hfirst, hothers⟩ := List.forall_mem_cons.mp hothers
    have hread : Decoder.json source (toReading j) = .ok j.ordered := by
      rw [Decoder.json, Json.toJson_toReading]
      rfl
    rw [membersToReadings, List.cons_append, gather, Json.Shape.memberKey_toReading]
    simp only [bind, Except.bind, if_neg hfirst, hread]
    exact (ih hothers _).trans (by simp)

theorem others_eq_self (hothers : ∀ m ∈ members, m.1 ≠ highlightedKey) :
    others members = members := by
  rw [others, List.filter_eq_self]
  intro m hm
  simpa using hothers m hm

theorem others_around {before after : List (String × Json)}
    (hbefore : ∀ m ∈ before, m.1 ≠ highlightedKey) (hafter : ∀ m ∈ after, m.1 ≠ highlightedKey)
    (j : Json) :
    others (before ++ (highlightedKey, j) :: after) = before ++ after := by
  have hfirst := others_eq_self hbefore
  have hrest := others_eq_self hafter
  rw [others] at hfirst hrest
  rw [others, List.filter_append, hfirst, List.filter_cons_of_neg (by simp), hrest]

/-- The fragment is decoded where its member stands, and those around it are gathered. -/
theorem gather_around {before after : List (String × Json)}
    (hbefore : ∀ m ∈ before, m.1 ≠ highlightedKey) (hafter : ∀ m ∈ after, m.1 ≠ highlightedKey)
    (source : Json.Source) (j : Json) :
    gather source (membersToReadings (before ++ (highlightedKey, j) :: after)) ⟨none, []⟩ = (do
      let fragment ← (Decoder.option Decoder.string source (toReading j)).mapError
        (·.under (.member highlightedKey))
      return ⟨some fragment, membersToReadings (before ++ after)⟩) := by
  rw [Json.membersToReadings_append, gather_others source hbefore, membersToReadings, gather,
    Json.Shape.memberKey_toReading]
  simp only [bind, Except.bind, if_pos]
  cases Decoder.option Decoder.string source (toReading j) with
  | error f => rfl
  | ok fragment =>
    have hgather := gather_others source hafter [] ⟨some fragment, membersToReadings before⟩
    rw [List.append_nil, ← Json.membersToReadings_append] at hgather
    exact hgather

/-- The fragment is decoded from its own member alone, and the message from the others. -/
theorem decoder_object (source : Json.Source) (hkeys : (members.map (·.1)).Nodup) :
    decoder source (toReading (.object members)) = (do
      let fragment ← fragmentOf source members
      let message ← Message.decoder .buffer (toReading (.object (others members)))
      return ⟨message, fragment⟩) := by
  rw [fragmentOf, toReading, decoder]
  cases hlookup : members.lookup highlightedKey with
  | none =>
    have hothers : ∀ m ∈ members, m.1 ≠ highlightedKey := by
      intro m hm heq
      have hne := List.lookup_eq_none_iff.mp hlookup m hm
      simp [heq] at hne
    have hgather := gather_others source hothers [] ⟨none, []⟩
    rw [List.append_nil, List.nil_append] at hgather
    rw [hgather, others_eq_self hothers]
    rfl
  | some j =>
    obtain ⟨before, after, rfl, hbefore⟩ := List.lookup_eq_some_iff.mp hlookup
    have hbefore : ∀ m ∈ before, m.1 ≠ highlightedKey := by
      intro m hm heq
      exact absurd (hbefore m hm) (by simp [heq])
    -- behind the fragment there is no second one, since no key is there twice
    have hafter : ∀ m ∈ after, m.1 ≠ highlightedKey := by
      intro m hm heq
      rw [List.map_append, List.map_cons, List.nodup_append] at hkeys
      exact (List.nodup_cons.mp hkeys.2.1).1 (List.mem_map.mpr ⟨m, hm, heq⟩)
    rw [gather_around hbefore hafter, others_around hbefore hafter]
    dsimp only
    cases Decoder.option Decoder.string source (toReading j) <;> rfl

theorem fragmentOf_perm (hperm : members.Perm h.members) (source : Json.Source) :
    fragmentOf source members = .ok h.highlighted := by
  have hlookup : members.lookup highlightedKey = h.highlighted.map .string := by
    rw [← Json.lookup_eq_of_perm hperm.symm h.members_keys_nodup, MessageHit.members,
      List.lookup_append, Json.lookup_member?, if_pos rfl]
    have hnone : h.message.members.lookup highlightedKey = none := by
      rw [List.lookup_eq_none_iff]
      intro m hm
      simpa using (key_ne_of_mem_members hm).symm
    rw [hnone, Option.or_none]
  rw [fragmentOf, hlookup]
  cases h.highlighted <;> rfl

theorem others_perm (hperm : members.Perm h.members) :
    (others members).Perm h.message.members := by
  have hfragment : others (Json.member? highlightedKey .string h.highlighted) = [] := by
    cases h.highlighted <;> rfl
  have hmessage := others_eq_self fun m hm => key_ne_of_mem_members (m := h.message) hm
  have hothers : others h.members = h.message.members := by
    rw [others] at hfragment hmessage
    rw [others, MessageHit.members, List.filter_append, hfragment, hmessage, List.nil_append]
  rw [← hothers]
  exact hperm.filter _

theorem decoder_reads (hperm : members.Perm h.members) (hyear : h.message.date.HasPlainYear) :
    decoder.Reads (.object members) h.asWritten.toMillis := by
  intro source
  have hkeys : (members.map (·.1)).Nodup := (hperm.map (·.1)).symm.nodup h.members_keys_nodup
  rw [decoder_object source hkeys, fragmentOf_perm hperm]
  simp only [bind, Except.bind, Message.decoder_reads (others_perm hperm) hyear .buffer]
  rfl

theorem decoder_refuses (hperm : members.Perm h.members) (hyear : ¬h.message.date.HasPlainYear)
    (source : Json.Source) :
    ∃ f, decoder source (toReading (.object members)) = .error f := by
  have hkeys : (members.map (·.1)).Nodup := (hperm.map (·.1)).symm.nodup h.members_keys_nodup
  obtain ⟨f, hf⟩ := Message.decoder_refuses (others_perm hperm) hyear .buffer
  refine ⟨f, ?_⟩
  rw [decoder_object source hkeys, fragmentOf_perm hperm]
  simp only [bind, Except.bind, hf]

/-- Every member of a message with its fragment is the message's own or the fragment. -/
theorem get?_toJson (h : MessageHit) (key : String) :
    h.toJson.get? key =
      if key = highlightedKey then h.highlighted.map .string else h.message.toJson.get? key := by
  obtain ⟨members, hj, hperm⟩ := h.isWritten_toJson
  have hnone : h.message.members.lookup highlightedKey = none := by
    rw [List.lookup_eq_none_iff]
    intro m hm
    simpa using (key_ne_of_mem_members hm).symm
  rw [hj, Json.get?, ← Json.lookup_eq_of_perm hperm.symm h.members_keys_nodup, MessageHit.members,
    List.lookup_append, Json.lookup_member?]
  split
  · next hkey => rw [hkey, hnone, Option.or_none]
  · rw [Option.none_or]
    rfl

end MessageHit

/-! ## The round trip -/

/-- Whatever is made of the value, it is decoded exactly where the year of the date has four
digits. -/
def DecodesWithYear (d : Decoder α) (j : Json) (date : Time.Instant) (a : α) : Prop :=
  ∀ result ∈ d.attempts j,
    (date.HasPlainYear → result = .ok a) ∧ (¬date.HasPlainYear → ∃ f, result = .error f)

theorem decodesWithYear {d : Decoder α} {j : Json} {date : Time.Instant} {a : α}
    (hj : j.IsLegible 0) (hreads : date.HasPlainYear → d.Reads j a)
    (hrefuses : ¬date.HasPlainYear → ∀ source, ∃ f, d source (toReading j) = .error f) :
    DecodesWithYear d j date a := by
  intro result hresult
  obtain ⟨source, rfl⟩ := Decoder.exists_source hj hresult
  exact ⟨fun hyear => hreads hyear source, fun hyear => hrefuses hyear source⟩

/-- Messages, conversations and messages with fragments come back from what is written of them, with
the date as it is written, to the millisecond, and everything else unchanged, exactly where the year
of the date has four digits. The date is written as it is unless it lies in a leap second within its
minute. The fragment and the message keep apart: what is written has the fragment under a key of its
own and else what is written of the message, and the two are decoded each from its own members. -/
theorem documents_come_back :
    (∀ m : Message, m.IsWritten m.toJson ∧ (m.date.LeapEndsMinute → m.asWritten = m) ∧
      ∀ j, m.IsWritten j → DecodesWithYear Message.decoder j m.date m.asWritten.toMillis) ∧
    (∀ c : Conversation, c.IsWritten c.toJson ∧ (c.date.LeapEndsMinute → c.asWritten = c) ∧
      ∀ j, c.IsWritten j → DecodesWithYear Conversation.decoder j c.date c.asWritten.toMillis) ∧
    (∀ h : MessageHit, h.IsWritten h.toJson ∧
      (h.message.date.LeapEndsMinute → h.asWritten = h) ∧
      ∀ j, h.IsWritten j →
        DecodesWithYear MessageHit.decoder j h.message.date h.asWritten.toMillis) ∧
    (∀ (h : MessageHit) (key : String), h.toJson.get? key =
      if key = MessageHit.highlightedKey then h.highlighted.map .string
      else h.message.toJson.get? key) ∧
    (∀ source members, (members.map (·.1)).Nodup →
      MessageHit.decoder source (toReading (.object members)) = (do
        let fragment ← MessageHit.fragmentOf source members
        let message ←
          Message.decoder .buffer (toReading (.object (MessageHit.others members)))
        return ⟨message, fragment⟩)) := by
  refine ⟨?_, ?_, ?_, MessageHit.get?_toJson, fun source _ => MessageHit.decoder_object source⟩
  · refine fun m => ⟨m.isWritten_toJson, Message.asWritten_eq_self, fun j hj => ?_⟩
    apply decodesWithYear hj.isLegible
    all_goals obtain ⟨members, rfl, hperm⟩ := hj
    · exact Message.decoder_reads hperm
    · exact Message.decoder_refuses hperm
  · refine fun c => ⟨c.isWritten_toJson, Conversation.asWritten_eq_self, fun j hj => ?_⟩
    apply decodesWithYear hj.isLegible
    all_goals obtain ⟨participants, members, rfl, hperm, hparticipants⟩ := hj
    · refine Conversation.decoder_reads hperm (hparticipants.imp ?_)
      rintro _ p ⟨written, rfl, hwritten⟩
      exact Participant.decoder_reads hwritten
    · exact Conversation.decoder_refuses hperm
  · refine fun h => ⟨h.isWritten_toJson, MessageHit.asWritten_eq_self, fun j hj => ?_⟩
    apply decodesWithYear hj.isLegible
    all_goals obtain ⟨members, rfl, hperm⟩ := hj
    · exact MessageHit.decoder_reads hperm
    · exact MessageHit.decoder_refuses hperm

/-- A message that mentions others and carries a link, with its fragment. -/
def linkHit (date : Time.Instant) : MessageHit where
  message :=
    { id := "7", conversationId := "2", username := "sarah", handle := "sarah123"
      text := "see \"notes\"", date := date, mentions := .ofList ["john456", "emma789"]
      attachment := some .link, pinned := true }
  highlighted := some "see <strong>notes</strong>"

/-- A leap second at the end of the year 9999 comes back without its last digits, and the instant
behind it is written with a year that is not read. -/
theorem last_second_comes_back :
    let last : Time.Instant :=
      ⟨253402300799, 1999999999, by decide, by decide, by decide⟩
    let next : Time.Instant := ⟨253402300800, 0, by decide, by decide, by decide⟩
    last.HasPlainYear ∧ last.LeapEndsMinute ∧ ¬next.HasPlainYear ∧
      (linkHit last).IsWritten (linkHit last).toJson ∧
      MessageHit.decoder.ofText (linkHit last).toJson.compact = .ok
        (linkHit ⟨253402300799, 1999000000, by decide, by decide, by decide⟩) ∧
      ∃ f, MessageHit.decoder.ofText (linkHit next).toJson.compact = .error f := by
  intro last next
  have hlast : last.HasPlainYear := by decide
  have hnext : ¬next.HasPlainYear := by decide
  obtain ⟨-, -, hhits, -⟩ := documents_come_back
  have hminute : last.LeapEndsMinute := by decide
  obtain ⟨hwritten, hwhole, hdecodes⟩ := hhits (linkHit last)
  obtain ⟨hwrittenNext, -, hdecodesNext⟩ := hhits (linkHit next)
  have htext : ∀ t, MessageHit.decoder.ofText (linkHit t).toJson.compact ∈
      MessageHit.decoder.attempts (linkHit t).toJson := by
    simp [Decoder.attempts]
  have hread := (hdecodes _ hwritten _ (htext last)).1 hlast
  have hmillis : last.toMillis =
      ⟨253402300799, 1999000000, by decide, by decide, by decide⟩ := by
    decide
  rw [hwhole hminute] at hread
  change _ = Except.ok (linkHit last.toMillis) at hread
  rw [hmillis] at hread
  exact ⟨hlast, hminute, hnext, hwritten, hread,
    (hdecodesNext _ hwrittenNext _ (htext next)).2 hnext⟩

/-- A leap second within its minute comes back as the second that follows. -/
theorem leap_second_within_minute_comes_back_later :
    let leap : Time.Instant := ⟨4, 1333000000, by decide, by decide, by decide⟩
    let next : Time.Instant := ⟨5, 333000000, by decide, by decide, by decide⟩
    leap.HasPlainYear ∧
      MessageHit.decoder.ofText (linkHit leap).toJson.compact = .ok (linkHit next) ∧
      linkHit next ≠ (linkHit leap).toMillis := by
  intro leap next
  have hplain : leap.HasPlainYear := by decide
  have hback : (linkHit leap).asWritten.toMillis = linkHit next := by
    change linkHit leap.asWritten.toMillis = linkHit next
    exact congrArg linkHit (by decide)
  refine ⟨hplain, ?_, fun h => ?_⟩
  · have hwritten := (linkHit leap).isWritten_toJson
    rw [Decoder.ofText_compact _ hwritten.isLegible, ← hback]
    obtain ⟨members, hj, hperm⟩ := hwritten
    rw [hj]
    exact MessageHit.decoder_reads hperm hplain .text
  · have hdates := congrArg (·.message.date) h
    exact absurd hdates (by decide)

end ConversationSearch
