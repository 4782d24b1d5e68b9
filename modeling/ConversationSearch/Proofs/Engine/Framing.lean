import ConversationSearch.Engine.Bulk
import ConversationSearch.Proofs.Documents.RoundTrip
import ConversationSearch.Proofs.Json.Depth
import ConversationSearch.Proofs.Json.Lines
import ConversationSearch.Service

/-!
# The lines of a bulk request

The body of a bulk request has two lines for each document, whatever is in the names, the ids and
the documents: one that says where the document goes, and the document. Both can be read again. So
the body says which documents are written, under which ids and to which index, and nothing else.
-/

namespace ConversationSearch

/-! ## Documents of the service -/

theorem Message.isOrdered_toJson (m : Message) :
    m.toJson.IsOrdered := by
  have hkeys : (m.members.map (·.1)).Pairwise (· < ·) := by
    unfold members
    cases m.attachment with
    | none => exact (by decide : ["conversationId", "date", "handle", "id", "mentions", "pinned",
        "text", "username"].Pairwise (· < ·))
    | some a => exact (by decide : ["attachmentType", "conversationId", "date", "handle", "id",
        "mentions", "pinned", "text", "username"].Pairwise (· < ·))
  have hmentions : (Json.array (m.mentions.toList.map .string)).IsOrdered := by
    refine Json.areOrdered_iff.mpr fun item hitem => ?_
    obtain ⟨handle, -, rfl⟩ := List.mem_map.mp hitem
    trivial
  have hplain : ∀ member ∈ m.plainMembers, member.2.IsOrdered := by
    simp only [plainMembers, List.forall_mem_cons]
    exact ⟨trivial, trivial, trivial, trivial, hmentions, trivial, trivial, trivial, by simp⟩
  refine ⟨Json.ascending_iff_keys.mpr hkeys, Json.haveOrdered_iff.mpr ?_⟩
  unfold members
  cases m.attachment with
  | none => exact hplain
  | some a => exact List.forall_mem_cons.mpr ⟨trivial, hplain⟩

theorem Participant.isOrdered_toJson (p : Participant) :
    p.toJson.IsOrdered :=
  ⟨Json.ascending_iff_keys.mpr (by decide : ["handle", "username"].Pairwise (· < ·)), trivial,
    trivial, trivial⟩

theorem Conversation.isOrdered_toJson (c : Conversation) :
    c.toJson.IsOrdered := by
  have hparticipants : (Json.array (c.participants.map Participant.toJson)).IsOrdered := by
    refine Json.areOrdered_iff.mpr fun item hitem => ?_
    obtain ⟨p, -, rfl⟩ := List.mem_map.mp hitem
    exact p.isOrdered_toJson
  exact ⟨Json.ascending_iff_keys.mpr (by decide : ["date", "handle", "id", "lastMessage",
      "participants", "username"].Pairwise (· < ·)),
    trivial, trivial, trivial, trivial, hparticipants, trivial, trivial⟩

namespace Bulk

variable {index : String} {documents : List BulkDocument}

/-! ## Lines -/

/-- The lines of a request, without the line breaks. -/
def lines (index : String) (documents : List BulkDocument) : List (List Char) :=
  documents.flatMap fun d => [(action index d).compactChars, d.document.compactChars]

theorem toList_body (index : String) (documents : List BulkDocument) :
    (body index documents).toList = (lines index documents).flatMap (· ++ ['\n']) := by
  rw [body, String.toList_ofList, lines, List.flatMap_assoc]
  simp [line]

theorem newline_not_mem_lines :
    ∀ line ∈ lines index documents, '\n' ∉ line := by
  intro line hline
  obtain ⟨d, -, hd⟩ := List.mem_flatMap.mp hline
  simp only [List.mem_cons, List.not_mem_nil, or_false] at hd
  rcases hd with rfl | rfl
  · exact Json.newline_not_mem_compactChars _
  · exact Json.newline_not_mem_compactChars _

theorem length_lines :
    (lines index documents).length = 2 * documents.length := by
  simp [lines, List.length_flatMap, Nat.mul_comm]

theorem splitChars_body (index : String) (documents : List BulkDocument) :
    Text.splitChars '\n' (body index documents).toList = lines index documents ++ [[]] := by
  rw [toList_body]
  exact Text.splitChars_pieces newline_not_mem_lines

/-! ## Reading the lines -/

theorem isLegible_action (index : String) (d : BulkDocument) :
    (action index d).IsLegible 0 :=
  ⟨by decide, ⟨by decide, trivial, trivial, trivial⟩, trivial⟩

theorem isOrdered_action (index : String) (d : BulkDocument) :
    (action index d).IsOrdered :=
  ⟨List.pairwise_singleton _ _,
    ⟨Json.ascending_iff_keys.mpr (by decide : ["_id", "_index"].Pairwise (· < ·)), trivial, trivial,
      trivial⟩, trivial⟩

theorem parse_action (index : String) (d : BulkDocument) :
    Json.parse (action index d).compact = .ok (action index d) := by
  rw [Json.parse_compact (isLegible_action index d), (isOrdered_action index d).ordered_eq]

theorem action_inj {other : String} {d d' : BulkDocument}
    (h : (action index d).compactChars = (action other d').compactChars) :
    index = other ∧ d.id = d'.id := by
  have hcompact : (action index d).compact = (action other d').compact := by
    rw [Json.compact, Json.compact, h]
  have hparsed := parse_action index d
  rw [hcompact, parse_action other d'] at hparsed
  have haction : action other d' = action index d := Except.ok.inj hparsed
  simp only [action, Json.object.injEq, List.cons.injEq, Prod.mk.injEq, Json.string.injEq,
    and_true, true_and] at haction
  exact ⟨haction.2.symm, haction.1.symm⟩

/-- The lines of a request say to which index which documents go under which ids. -/
theorem lines_inj {other : String} {documents' : List BulkDocument}
    (h : lines index documents = lines other documents') :
    documents.map (fun d => (index, d.id, d.document.compact)) =
      documents'.map (fun d => (other, d.id, d.document.compact)) := by
  induction documents generalizing documents' with
  | nil =>
    cases documents' with
    | nil => rfl
    | cons d' rest => contradiction
  | cons d rest ih =>
    cases documents' with
    | nil => contradiction
    | cons d' rest' =>
      obtain ⟨haction, h⟩ := List.cons.inj h
      obtain ⟨hdocument, h⟩ := List.cons.inj h
      obtain ⟨hindex, hid⟩ := action_inj haction
      have hcompact : d.document.compact = d'.document.compact := by
        rw [Json.compact, Json.compact, hdocument]
      rw [List.map_cons, List.map_cons, ih h, hindex, hid, hcompact]

/-- The body of a bulk request has two lines for each document and a line break behind each line.
Cut at the line breaks it gives, for each document in turn, the line that says where it goes and the
line of the document itself. The first is read as the index and the id that were given, whatever is
in them, and the second as the document, if it has no doubles; those that the service writes have
none, and are not nested too deeply either. So equal bodies are those of equal requests. -/
theorem body_framed (index : String) (documents : List BulkDocument) :
    (body index documents).toList.count '\n' = 2 * documents.length ∧
    (documents ≠ [] → (body index documents).toList.getLast? = some '\n') ∧
    Text.splitChars '\n' (body index documents).toList =
      documents.flatMap (fun d => [(action index d).compactChars, d.document.compactChars]) ++
        [[]] ∧
    (∀ d ∈ documents,
      Json.parse (action index d).compact = .ok (.object
        [("index", .object [("_id", .string d.id), ("_index", .string index)])]) ∧
      (d.document.IsExact → d.document.IsOrdered →
        Json.parseDeep d.document.compact = .ok d.document) ∧
      (d.document.IsLegible 0 → d.document.IsOrdered →
        Json.parse d.document.compact = .ok d.document)) ∧
    (∀ c, (Service.conversationEntry c).document.IsLegible 0 ∧
      (Service.conversationEntry c).document.IsOrdered) ∧
    (∀ m, (Service.messageEntry m).document.IsLegible 0 ∧
      (Service.messageEntry m).document.IsOrdered) ∧
    (∀ other documents', body index documents = body other documents' →
      documents.map (fun d => (index, d.id, d.document.compact)) =
        documents'.map (fun d => (other, d.id, d.document.compact))) := by
  refine ⟨?_, ?_, splitChars_body index documents, ?_, ?_, ?_, ?_⟩
  · rw [toList_body, Text.count_pieces newline_not_mem_lines, length_lines]
  · intro hne
    rw [toList_body]
    apply Text.getLast?_pieces
    rw [← List.length_pos_iff, length_lines]
    have hlength := List.length_pos_iff.mpr hne
    omega
  · intro d _
    refine ⟨parse_action index d, ?_, ?_⟩
    · intro hexact hordered
      rw [Json.parseDeep_compact hexact, hordered.ordered_eq]
    · intro hlegible hordered
      rw [Json.parse_compact hlegible, hordered.ordered_eq]
  · exact fun c => ⟨c.isWritten_toJson.isLegible, c.isOrdered_toJson⟩
  · exact fun m => ⟨m.isWritten_toJson.isLegible, m.isOrdered_toJson⟩
  · intro other documents' hbody
    apply lines_inj
    have hcut := splitChars_body index documents
    rw [hbody, splitChars_body] at hcut
    exact (List.append_cancel_right hcut).symm

/-- A document with line breaks and quotes in its id, in a key and in a text. -/
def brokenDocument : BulkDocument where
  id := "7\"\n\n\"index\""
  document := .object
    [("text\n", .array [.string "\r\n\"", .object [("pinned", .bool true), ("size", .int (-3))]])]

/-- Line breaks and quotes in the name of the index and in the document break no line. -/
theorem broken_document_framed :
    brokenDocument.document.IsLegible 0 ∧ brokenDocument.document.IsOrdered ∧
    (body "notes\n" [brokenDocument, brokenDocument]).toList.count '\n' = 4 ∧
    (body "notes\n" [brokenDocument, brokenDocument]).toList.getLast? = some '\n' ∧
    Json.parse (action "notes\n" brokenDocument).compact = .ok (.object
      [("index", .object [("_id", .string "7\"\n\n\"index\""), ("_index", .string "notes\n")])]) ∧
    Json.parseDeep brokenDocument.document.compact = .ok brokenDocument.document ∧
    Json.parse brokenDocument.document.compact = .ok brokenDocument.document := by
  have hlegible : brokenDocument.document.IsLegible 0 :=
    ⟨by decide, ⟨by decide, trivial, ⟨by decide, trivial, ⟨by decide, by decide⟩, trivial⟩,
      trivial⟩, trivial⟩
  have hordered : brokenDocument.document.IsOrdered :=
    ⟨List.pairwise_singleton _ _, ⟨trivial, ⟨Json.ascending_iff_keys.mpr
      (by decide : ["pinned", "size"].Pairwise (· < ·)), trivial, trivial, trivial⟩, trivial⟩,
      trivial⟩
  obtain ⟨hcount, hlast, -, hlines, -⟩ :=
    body_framed "notes\n" [brokenDocument, brokenDocument]
  obtain ⟨haction, hdeep, hparse⟩ := hlines brokenDocument List.mem_cons_self
  exact ⟨hlegible, hordered, hcount, hlast (by simp), haction, hdeep hlegible.isExact hordered,
    hparse hlegible hordered⟩

end Bulk
end ConversationSearch
