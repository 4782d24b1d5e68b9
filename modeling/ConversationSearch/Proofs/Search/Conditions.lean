import ConversationSearch.Proofs.Search.Evaluation
import ConversationSearch.Proofs.Time.Order
import ConversationSearch.Search.Compile

/-!
# The query for a search of messages

Every search of messages compiles. Its query has a clause that counts for relevance exactly when
there is a text to look for, and its other clauses hold of the document of a message exactly when
the message meets the conditions of the request. So no condition is dropped, aimed at another field
or spelled differently from the document.
-/

namespace ConversationSearch

open Schema (exactField)

/-! ## Messages and their documents -/

/-- A message meets the conditions of a request; dates are compared to the millisecond, and
`some false` does not ask for messages that are not pinned. -/
structure Request.Admits (r : Request) (m : Message) : Prop where
  conversation : ∀ id, r.conversationId = some id → m.conversationId = id
  author : ∀ handle, r.filters.author = some handle → m.handle = handle
  mention : ∀ handle, r.filters.mention = some handle → handle ∈ m.mentions
  attachment : ∀ kind, r.filters.attachment = some kind → m.attachment = some kind
  before : ∀ t, r.filters.before = some t → m.date.toMillis < t.toMillis
  after : ∀ t, r.filters.after = some t → t.toMillis < m.date.toMillis
  during : ∀ t, r.filters.during = some t → m.date.toMillis = t.toMillis
  pinned : r.filters.pinned = some true → m.pinned = true

/-- The field of a message that holds its date. -/
def Message.dateField : String :=
  "date"

/-- The view of a message in the index: its document, and its date to the millisecond. -/
def Message.view (hasText : String → List BoostedField → Bool) (m : Message) : DocumentView where
  document := m.toJson
  dateAt field := if field = dateField then some m.date.toMillis else none
  hasText := hasText

namespace Message

theorem get?_plain {m : Message} {key : String} (hkey : key ≠ "attachmentType") :
    m.toJson.get? key = m.plainMembers.lookup key := by
  unfold toJson members Json.get?
  cases m.attachment with
  | none => rfl
  | some a =>
    have hne : (key == "attachmentType") = false := by simpa using hkey
    simp [List.lookup_cons, hne]

theorem get?_attachmentType (m : Message) :
    m.toJson.get? "attachmentType" = m.attachment.map fun a => .string a.name := by
  unfold toJson members Json.get?
  cases m.attachment with
  | none => simp [plainMembers]
  | some a => simp

end Message

theorem DateBounds.contains_of_isUnbounded {b : DateBounds} (h : b.isUnbounded = true)
    (t : Time.Instant) :
    b.contains t = true := by
  simp only [isUnbounded, Bool.and_eq_true, Option.isNone_iff_eq_none] at h
  simp [contains, h]

theorem Filters.all_toMillis_iff (bound : Option Time.Instant) (p : Time.Instant → Bool) :
    (bound.map (·.toMillis)).all p = true ↔ ∀ t, bound = some t → p t.toMillis = true := by
  cases bound with
  | none => simp
  | some t => simp

/-- The two bounds for one instant leave only that instant. -/
theorem Filters.contains_dateBounds_iff (f : Filters) (t : Time.Instant) :
    f.dateBounds.contains t = true ↔
      (∀ x, f.before = some x → t < x.toMillis) ∧
      (∀ x, f.after = some x → x.toMillis < t) ∧
      (∀ x, f.during = some x → t = x.toMillis) := by
  simp only [DateBounds.contains, dateBounds, Bool.and_eq_true, all_toMillis_iff,
    decide_eq_true_eq]
  constructor
  · rintro ⟨⟨⟨hafter, hfrom⟩, hbefore⟩, hto⟩
    refine ⟨hbefore, hafter, ?_⟩
    intro x hx
    exact Time.Instant.eq_iff_le_and_ge.mpr ⟨hfrom x hx, hto x hx⟩
  · rintro ⟨hbefore, hafter, hduring⟩
    have hbounds : ∀ x, f.during = some x → x.toMillis ≤ t ∧ t ≤ x.toMillis := by
      intro x hx
      exact Time.Instant.eq_iff_le_and_ge.mp (hduring x hx)
    exact ⟨⟨⟨hafter, fun x hx => (hbounds x hx).1⟩, hbefore⟩, fun x hx => (hbounds x hx).2⟩

theorem Attachment.name_injective {a b : Attachment} (h : a.name = b.name) :
    a = b := by
  cases a <;> cases b <;> first | rfl | exact absurd h (by decide)

/-! ## The clauses of a request -/

namespace Compile

/-- The clauses that count for relevance. -/
def textClauses (r : Request) : List Clause :=
  r.queryText.toList.map fun text => .multiMatch text messageMatchFields

/-- The clause that restricts the date, if there are bounds. -/
def dateClauses (bounds : DateBounds) : List Clause :=
  if bounds.isUnbounded then [] else [.range Message.dateField bounds]

/-- The condition that a message is pinned, if a request asks for it. -/
def pinnedCondition (f : Filters) : Option Json :=
  if f.pinned = some true then some (.bool true) else none

/-- The clauses that only include or exclude. -/
def conditionClauses (r : Request) : List Clause :=
  (r.conversationId.map .string).toList.map (.term "conversationId") ++
  (r.filters.author.map .string).toList.map (.term "handle.keyword") ++
  (r.filters.mention.map .string).toList.map (.term "mentions.keyword") ++
  (r.filters.attachment.map (.string ·.name)).toList.map (.term "attachmentType") ++
  dateClauses r.filters.dateBounds ++
  (pinnedCondition r.filters).toList.map (.term "pinned")

/-- Every field that is searched for text is analysed. -/
theorem fuzzyMatch_message (text : String) :
    fuzzyMatch .message text messageMatchFields = .ok (.multiMatch text messageMatchFields) := by
  have hfields :
      (messageMatchFields.find? fun f => !Schema.isFullText Schema.messageFields f.field) =
        none := by
    decide
  simp only [fuzzyMatch, Entity.fields, hfields]

theorem term?_eq_ok {entity : Entity} {field target : String}
    (hfield : exactField entity.fields field = some target) (condition : Option Json) :
    term? entity field condition = .ok (condition.toList.map (.term target)) := by
  cases condition with
  | none => rfl
  | some value =>
    simp only [term?, term, hfield]
    rfl

theorem dateRange?_message (bounds : DateBounds) :
    dateRange? .message bounds = .ok (dateClauses bounds) := by
  have hdate : Schema.isDate Schema.messageFields "date" = true := by decide
  unfold dateRange? dateClauses
  by_cases hbounds : bounds.isUnbounded
  · simp [hbounds]
  · simp [hbounds, Entity.fields, hdate, Message.dateField]

/-- The lookups in the declaration succeed, so that a query is always made. -/
theorem messageQuery_eq_ok (r : Request) :
    messageQuery r = .ok (.bool (textClauses r) (conditionClauses r)) := by
  have hconversation : exactField Entity.message.fields "conversationId" =
      some "conversationId" := by decide
  have hauthor : exactField Entity.message.fields "handle" = some "handle.keyword" := by decide
  have hmention : exactField Entity.message.fields "mentions" = some "mentions.keyword" := by
    decide
  have hattachment : exactField Entity.message.fields "attachmentType" =
      some "attachmentType" := by decide
  have hpinned : exactField Entity.message.fields "pinned" = some "pinned" := by decide
  unfold messageQuery textClauses
  simp only [term?_eq_ok hconversation, term?_eq_ok hauthor, term?_eq_ok hmention,
    term?_eq_ok hattachment, term?_eq_ok hpinned, dateRange?_message, fuzzyMatch_message]
  cases r.queryText with
  | none => rfl
  | some text => rfl

theorem compile_message {r : Request} (hr : r.target = .message) (highlighting : Bool) :
    compile highlighting r = .ok
      { target := .message
        query := .bool (textClauses r) (conditionClauses r)
        sort := defaultSort
        highlight := if highlighting then some .standard else none
        size := none } := by
  simp only [compile, search, hr, messageQuery_eq_ok]
  rfl

theorem textClauses_eq_nil_iff (r : Request) :
    textClauses r = [] ↔ ∀ query, r.query = some query → Text.trim query = "" := by
  unfold textClauses Request.queryText
  cases r.query with
  | none => simp
  | some query =>
    by_cases hblank : Text.trim query = "" <;> simp [Text.nonBlank, hblank]

/-! ## The meaning of each clause -/

section Meaning

variable (hasText : String → List BoostedField → Bool) (m : Message)

theorem holds_conversation_iff (id : String) :
    (Clause.term "conversationId" (.string id)).holds (m.view hasText) = true ↔
      m.conversationId = id := by
  have hpath : DocumentView.fieldOf "conversationId" = "conversationId" := by decide
  apply DocumentView.hasTerm_text_iff
  rw [hpath]
  exact Message.get?_plain (by decide)

theorem holds_author_iff (handle : String) :
    (Clause.term "handle.keyword" (.string handle)).holds (m.view hasText) = true ↔
      m.handle = handle := by
  have hpath : DocumentView.fieldOf "handle.keyword" = "handle" :=
    DocumentView.fieldOf_verbatim "handle"
  apply DocumentView.hasTerm_text_iff
  rw [hpath]
  exact Message.get?_plain (by decide)

theorem holds_mention_iff (handle : String) :
    (Clause.term "mentions.keyword" (.string handle)).holds (m.view hasText) = true ↔
      handle ∈ m.mentions := by
  have hpath : DocumentView.fieldOf "mentions.keyword" = "mentions" :=
    DocumentView.fieldOf_verbatim "mentions"
  apply DocumentView.hasTerm_texts_iff
  rw [hpath]
  exact Message.get?_plain (by decide)

theorem holds_attachment_iff (kind : Attachment) :
    (Clause.term "attachmentType" (.string kind.name)).holds (m.view hasText) = true ↔
      m.attachment = some kind := by
  have hpath : DocumentView.fieldOf "attachmentType" = "attachmentType" := by decide
  have hfound := m.get?_attachmentType
  rw [← hpath] at hfound
  cases hm : m.attachment with
  | none =>
    rw [hm] at hfound
    have habsent := DocumentView.hasTerm_text_of_absent (v := m.view hasText) hfound kind.name
    simp [Clause.holds, habsent]
  | some carried =>
    rw [hm] at hfound
    have hterm := DocumentView.hasTerm_text_iff (v := m.view hasText) hfound kind.name
    rw [Clause.holds, hterm, Option.some.injEq]
    exact ⟨Attachment.name_injective, congrArg Attachment.name⟩

theorem holds_pinned_iff :
    (Clause.term "pinned" (.bool true)).holds (m.view hasText) = true ↔ m.pinned = true := by
  have hpath : DocumentView.fieldOf "pinned" = "pinned" := by decide
  apply DocumentView.hasTerm_bool_iff
  rw [hpath]
  exact Message.get?_plain (by decide)

/-- The clause for the date holds when each of the three conditions on the date does. -/
theorem allHold_dateClauses_iff (f : Filters) :
    Clause.allHold (m.view hasText) (dateClauses f.dateBounds) = true ↔
      (∀ t, f.before = some t → m.date.toMillis < t.toMillis) ∧
      (∀ t, f.after = some t → t.toMillis < m.date.toMillis) ∧
      (∀ t, f.during = some t → m.date.toMillis = t.toMillis) := by
  have hcontains : Clause.allHold (m.view hasText) (dateClauses f.dateBounds) =
      f.dateBounds.contains m.date.toMillis := by
    unfold dateClauses
    by_cases hbounds : f.dateBounds.isUnbounded
    · rw [if_pos hbounds, DateBounds.contains_of_isUnbounded hbounds]
      rfl
    · simp [hbounds, Clause.allHold, Clause.holds, Message.view]
  rw [hcontains]
  exact f.contains_dateBounds_iff m.date.toMillis

/-- The clauses that only include or exclude hold of the messages that a request admits. -/
theorem allHold_conditionClauses_iff (r : Request) :
    Clause.allHold (m.view hasText) (conditionClauses r) = true ↔ r.Admits m := by
  have hpinned : (∀ value, pinnedCondition r.filters = some value →
      (Clause.term "pinned" value).holds (m.view hasText) = true) ↔
        (r.filters.pinned = some true → m.pinned = true) := by
    unfold pinnedCondition
    by_cases hasked : r.filters.pinned = some true
    · simp [hasked, holds_pinned_iff]
    · simp [hasked]
  simp only [conditionClauses, Clause.allHold_append, Bool.and_eq_true,
    Clause.allHold_map_toList, Option.map_eq_some_iff, forall_exists_index, and_imp,
    forall_apply_eq_imp_iff₂, holds_conversation_iff, holds_author_iff, holds_mention_iff,
    holds_attachment_iff, allHold_dateClauses_iff, hpinned]
  constructor
  · rintro ⟨⟨⟨⟨⟨hid, hauthor⟩, hmention⟩, hkind⟩, hbefore, hafter, hduring⟩, hpin⟩
    exact ⟨hid, hauthor, hmention, hkind, hbefore, hafter, hduring, hpin⟩
  · intro h
    exact ⟨⟨⟨⟨⟨h.conversation, h.author⟩, h.mention⟩, h.attachment⟩,
      h.before, h.after, h.during⟩, h.pinned⟩

end Meaning

end Compile

/-- A search of messages always compiles, and its filters hold of exactly the messages that the
request admits. A text counts for relevance when it is not blank, and highlighting changes nothing
but its directive. -/
theorem compile_filters_iff_admits {r : Request} (hr : r.target = .message)
    (highlighting : Bool) :
    ∃ c must filter,
      compile highlighting r = .ok c ∧
      c.target = .message ∧
      c.query = .bool must filter ∧
      (∀ hasText (m : Message),
        (∀ clause ∈ filter, clause.holds (m.view hasText) = true) ↔ r.Admits m) ∧
      (must = [] ↔ ∀ query, r.query = some query → Text.trim query = "") ∧
      must = r.queryText.toList.map (.multiMatch · Compile.messageMatchFields) ∧
      c.sort = defaultSort ∧
      c.highlight = (if highlighting then some .standard else none) ∧
      c.size = none := by
  refine ⟨_, Compile.textClauses r, Compile.conditionClauses r,
    Compile.compile_message hr highlighting, rfl, rfl, ?_, Compile.textClauses_eq_nil_iff r,
    rfl, rfl, rfl, rfl⟩
  intro hasText m
  rw [← Clause.allHold_eq_true_iff]
  exact Compile.allHold_conditionClauses_iff hasText m r

/-- A search for the pinned messages of one conversation that mention someone, with a blank text:
nothing counts for relevance, and the filters hold of the messages that it admits. -/
theorem filters_of_pinned_mentions :
    let r : Request :=
      { target := .message, query := some "  ", conversationId := some "2",
        filters := { mention := some "emma789", pinned := some true } }
    r.target = .message ∧
      ∃ c filter,
        compile false r = .ok c ∧
        c.query = .bool [] filter ∧
        ∀ hasText (m : Message),
          (∀ clause ∈ filter, clause.holds (m.view hasText) = true) ↔ r.Admits m := by
  intro r
  have hr : r.target = .message := rfl
  obtain ⟨c, must, filter, hcompile, -, hquery, hfilter, hmust, -⟩ :=
    compile_filters_iff_admits hr false
  have hblank : ∀ query, r.query = some query → Text.trim query = "" := by
    intro query hq
    obtain rfl := Option.some.inj hq
    decide
  rw [hmust.mpr hblank] at hquery
  exact ⟨hr, c, filter, hcompile, hquery, hfilter⟩

end ConversationSearch
