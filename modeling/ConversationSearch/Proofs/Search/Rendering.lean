import ConversationSearch.Proofs.Search.Conditions
import ConversationSearch.Proofs.Search.Wire
import ConversationSearch.Proofs.Time.Distinct

/-!
# The body of a search shows what is asked for, and nothing else

What a request asks for can be read off the body that is made of it: each condition stands in a
clause of its own kind and field, and dates are written so that different ones have different
texts, but for leap seconds within their minutes. So two searches of messages have the same body
exactly when they ask for the same, two searches of conversations exactly when they look for the
same text, and a search of messages is never mistaken for one of conversations. Highlighting adds
its directive to the body and changes nothing else.
-/

namespace ConversationSearch

/-- The value without its members of the given key. -/
def Json.without (key : String) : Json → Json
  | .object members => .object (members.filter fun member => member.1 ≠ key)
  | other => other

/-- Two searches of messages ask for the same; dates count to the millisecond, and `some false` does
not ask for anything. -/
structure Request.SameConstraints (r q : Request) : Prop where
  text : r.queryText = q.queryText
  conversation : r.conversationId = q.conversationId
  author : r.filters.author = q.filters.author
  mention : r.filters.mention = q.filters.mention
  attachment : r.filters.attachment = q.filters.attachment
  dates : r.filters.dateBounds = q.filters.dateBounds
  pinned : r.filters.pinned = some true ↔ q.filters.pinned = some true

/-! ## Reading a rendered clause -/

namespace Clause

/-- What a rendered clause says of a field, if it is of the given kind and about that field. -/
def said (kind field : String) (clause : Json) : Option Json :=
  (clause.get? kind).bind (·.get? field)

/-- What the first clause of the given kind and about the given field says. -/
def firstSaid (kind field : String) (clauses : List Json) : Option Json :=
  clauses.findSome? (said kind field)

theorem listJson_append (first second : List Clause) :
    listJson (first ++ second) = listJson first ++ listJson second := by
  induction first with
  | nil => rfl
  | cons c rest ih => simp [listJson, ih]

theorem firstSaid_append (kind field : String) (first second : List Clause) :
    firstSaid kind field (listJson (first ++ second)) =
      (firstSaid kind field (listJson first)).or (firstSaid kind field (listJson second)) := by
  rw [listJson_append]
  exact List.findSome?_append

theorem firstSaid_terms (field target : String) (condition : Option Json) :
    firstSaid "term" field (listJson (condition.toList.map (.term target))) =
      if field = target then condition else none := by
  cases condition with
  | none => simp [firstSaid, listJson]
  | some value =>
    by_cases htarget : field = target
    · simp [firstSaid, listJson, said, toJson, Json.get?, htarget]
    · have hne : (field == target) = false := by simpa using htarget
      simp [firstSaid, listJson, said, toJson, Json.get?, List.lookup_cons, hne, htarget]

theorem firstSaid_range_terms (field target : String) (condition : Option Json) :
    firstSaid "range" field (listJson (condition.toList.map (.term target))) = none := by
  cases condition with
  | none => rfl
  | some value => rfl

end Clause

namespace DateBounds

theorem toJson_of_isUnbounded {b : DateBounds} (h : b.isUnbounded = true) :
    b.toJson = .empty := by
  simp only [isUnbounded, Bool.and_eq_true, Option.isNone_iff_eq_none] at h
  simp [toJson, h, Json.member?, Json.empty]

end DateBounds

namespace Filters

/-- A date that is compared to the millisecond is seen, as it is written, from its bound. -/
theorem boundJson_inj {s t : Option Time.Instant}
    (h : (s.map (·.toMillis)).map DateBounds.boundJson =
      (t.map (·.toMillis)).map DateBounds.boundJson) :
    (s.map (·.asWritten)).map (·.toMillis) = (t.map (·.asWritten)).map (·.toMillis) := by
  cases s with
  | none =>
    cases t with
    | none => rfl
    | some t => cases h
  | some s =>
    cases t with
    | none => cases h
    | some t =>
      have htexts : s.toMillis.text = t.toMillis.text :=
        Json.string.inj (Option.some.inj h)
      rw [Time.Instant.text_toMillis, Time.Instant.text_toMillis] at htexts
      exact congrArg some (Time.Instant.text_eq_iff.mp htexts)

theorem member?_asWritten (key : String) (bound : Option Time.Instant) :
    Json.member? key DateBounds.boundJson ((bound.map (·.asWritten)).map (·.toMillis)) =
      Json.member? key DateBounds.boundJson (bound.map (·.toMillis)) := by
  cases bound with
  | none => rfl
  | some t =>
    have htext : t.asWritten.toMillis.text = t.toMillis.text := by
      rw [Time.Instant.text_toMillis, Time.Instant.text_toMillis, Time.Instant.text_asWritten]
    exact congrArg (fun s => [(key, Json.string s)]) htext

theorem toJson_dateBounds_asWritten (f : Filters) :
    f.asWritten.dateBounds.toJson = f.dateBounds.toJson := by
  simp only [DateBounds.toJson, dateBounds, asWritten, member?_asWritten]

end Filters

namespace Compile

open Clause (listJson firstSaid firstSaid_append firstSaid_terms firstSaid_range_terms)

variable {r q : Request}

theorem firstSaid_text (r : Request) :
    firstSaid "multi_match" "query" (listJson (textClauses r)) = r.queryText.map .string := by
  unfold textClauses
  cases r.queryText with
  | none => rfl
  | some text => rfl

theorem firstSaid_term_dates (field : String) (bounds : DateBounds) :
    firstSaid "term" field (listJson (dateClauses bounds)) = none := by
  unfold dateClauses
  by_cases hbounds : bounds.isUnbounded
  · rw [if_pos hbounds]
    rfl
  · rw [if_neg hbounds]
    rfl

/-- Without bounds there is no clause, which says as much as a clause with empty bounds. -/
theorem firstSaid_range_dates (bounds : DateBounds) :
    ((firstSaid "range" Message.dateField (listJson (dateClauses bounds))).getD .empty) =
      bounds.toJson := by
  unfold dateClauses
  by_cases hbounds : bounds.isUnbounded
  · rw [if_pos hbounds, DateBounds.toJson_of_isUnbounded hbounds]
    rfl
  · rw [if_neg hbounds]
    simp [listJson, firstSaid, Clause.said, Clause.toJson, Json.get?]

/-- What the conditions of a request say of a field. -/
theorem firstSaid_term_conditions (field : String) (r : Request) :
    firstSaid "term" field (listJson (conditionClauses r)) =
      ((((if field = "conversationId" then r.conversationId.map .string else none).or
        (if field = "handle.keyword" then r.filters.author.map .string else none)).or
        (if field = "mentions.keyword" then r.filters.mention.map .string else none)).or
        (if field = "attachmentType" then r.filters.attachment.map (.string ·.name) else none)).or
        (if field = "pinned" then pinnedCondition r.filters else none) := by
  simp only [conditionClauses, firstSaid_append, firstSaid_terms, firstSaid_term_dates,
    Option.or_none]

theorem firstSaid_range_conditions (r : Request) :
    firstSaid "range" Message.dateField (listJson (conditionClauses r)) =
      firstSaid "range" Message.dateField (listJson (dateClauses r.filters.dateBounds)) := by
  simp only [conditionClauses, firstSaid_append, firstSaid_range_terms, Option.or_none,
    Option.none_or]

theorem pinnedCondition_eq_iff (f g : Filters) :
    pinnedCondition f = pinnedCondition g ↔ (f.pinned = some true ↔ g.pinned = some true) := by
  unfold pinnedCondition
  by_cases hf : f.pinned = some true <;> by_cases hg : g.pinned = some true <;> simp [hf, hg]

theorem listJson_dateClauses_asWritten (f : Filters) :
    listJson (dateClauses f.asWritten.dateBounds) = listJson (dateClauses f.dateBounds) := by
  have hunbounded : f.asWritten.dateBounds.isUnbounded = f.dateBounds.isUnbounded := by
    simp [DateBounds.isUnbounded, Filters.dateBounds, Filters.asWritten]
  have hjson := f.toJson_dateBounds_asWritten
  unfold dateClauses
  rw [hunbounded]
  split
  · rfl
  · simp only [listJson, Clause.toJson, hjson]

/-- The conditions are rendered with the dates as they are written. -/
theorem listJson_conditionClauses_asWritten (r : Request) :
    listJson (conditionClauses r.asWritten) = listJson (conditionClauses r) := by
  simp only [conditionClauses, Clause.listJson_append, Request.asWritten,
    listJson_dateClauses_asWritten]
  rfl

/-- The bounds on the date are seen from the conditions. -/
theorem dateBounds_of_listJson_eq
    (h : listJson (conditionClauses r) = listJson (conditionClauses q)) :
    r.filters.asWritten.dateBounds = q.filters.asWritten.dateBounds := by
  have hbounds : r.filters.dateBounds.toJson = q.filters.dateBounds.toJson := by
    rw [← firstSaid_range_dates, ← firstSaid_range_conditions, h, firstSaid_range_conditions,
      firstSaid_range_dates]
  obtain ⟨hgt, hgte, hlt, -⟩ := r.filters.dateBounds.get?_toJson
  obtain ⟨hgt', hgte', hlt', -⟩ := q.filters.dateBounds.get?_toJson
  rw [hbounds] at hgt hgte hlt
  have hafter := Filters.boundJson_inj (hgt.symm.trans hgt')
  have hduring := Filters.boundJson_inj (hgte.symm.trans hgte')
  have hbefore := Filters.boundJson_inj (hlt.symm.trans hlt')
  unfold Filters.dateBounds Filters.asWritten
  rw [hafter, hduring, hbefore]

/-- Rendered clauses are the same exactly when the requests ask for the same, with the dates as they
are written. -/
theorem listJson_clauses_eq_iff :
    listJson (textClauses r) = listJson (textClauses q) ∧
      listJson (conditionClauses r) = listJson (conditionClauses q) ↔
        r.asWritten.SameConstraints q.asWritten := by
  constructor
  · rintro ⟨htext, hconditions⟩
    have hsaid : ∀ field, firstSaid "term" field (listJson (conditionClauses r)) =
        firstSaid "term" field (listJson (conditionClauses q)) := by
      intro field
      rw [hconditions]
    simp only [firstSaid_term_conditions] at hsaid
    have hquery := congrArg (firstSaid "multi_match" "query") htext
    rw [firstSaid_text, firstSaid_text] at hquery
    have hstring : Function.Injective Json.string := fun _ _ => Json.string.inj
    have hname : Function.Injective fun a : Attachment => Json.string a.name :=
      fun _ _ h => Attachment.name_injective (Json.string.inj h)
    have hconversation : r.conversationId = q.conversationId :=
      Option.map_injective hstring (by simpa using hsaid "conversationId")
    have hauthor : r.filters.author = q.filters.author :=
      Option.map_injective hstring (by simpa using hsaid "handle.keyword")
    have hmention : r.filters.mention = q.filters.mention :=
      Option.map_injective hstring (by simpa using hsaid "mentions.keyword")
    have hattachment : r.filters.attachment = q.filters.attachment :=
      Option.map_injective hname (by simpa using hsaid "attachmentType")
    have hpinned : r.filters.pinned = some true ↔ q.filters.pinned = some true :=
      (pinnedCondition_eq_iff _ _).mp (by simpa using hsaid "pinned")
    exact ⟨Option.map_injective hstring hquery, hconversation, hauthor, hmention, hattachment,
      dateBounds_of_listJson_eq hconditions, hpinned⟩
  · intro h
    have hpinned := (pinnedCondition_eq_iff _ _).mpr h.pinned
    have htext : r.queryText = q.queryText := h.text
    have hconditions : conditionClauses r.asWritten = conditionClauses q.asWritten := by
      unfold conditionClauses
      rw [h.conversation, h.author, h.mention, h.attachment, h.dates, hpinned]
    rw [← listJson_conditionClauses_asWritten r, ← listJson_conditionClauses_asWritten q,
      hconditions, textClauses, htext]
    exact ⟨rfl, rfl⟩

/-! ## Searches of conversations -/

/-- The clause of a search of conversations. -/
def conversationClause (r : Request) : Clause :=
  match r.queryText with
  | some text => .multiMatch text conversationMatchFields
  | none => .matchAll

theorem conversationQuery_eq_ok (r : Request) :
    conversationQuery r = .ok (conversationClause r) := by
  have hfields : (conversationMatchFields.find? fun f =>
      !Schema.isFullText Schema.conversationFields f.field) = none := by
    decide
  unfold conversationQuery conversationClause
  cases r.queryText with
  | none => rfl
  | some text => simp only [fuzzyMatch, Entity.fields, hfields]

theorem conversationClause_toJson_eq_iff :
    (conversationClause r).toJson = (conversationClause q).toJson ↔
      r.queryText = q.queryText := by
  have hsaid : ∀ r : Request, Clause.said "multi_match" "query" (conversationClause r).toJson =
      r.queryText.map .string := by
    intro r
    unfold conversationClause
    cases r.queryText with
    | none => rfl
    | some text => rfl
  constructor
  · intro h
    have htext := congrArg (Clause.said "multi_match" "query") h
    rw [hsaid, hsaid] at htext
    exact Option.map_injective (fun _ _ => Json.string.inj) htext
  · intro h
    unfold conversationClause
    rw [h]

/-- The search that a request compiles to. -/
def compiled (highlighting : Bool) (r : Request) : CompiledSearch :=
  match r.target with
  | .conversation => ⟨.conversation, conversationClause r, defaultSort, none, some conversationLimit⟩
  | .message =>
    ⟨.message, .bool (textClauses r) (conditionClauses r), defaultSort,
      if highlighting then some .standard else none, none⟩

theorem compile_eq_ok (highlighting : Bool) (r : Request) :
    compile highlighting r = .ok (compiled highlighting r) := by
  cases hr : r.target with
  | conversation =>
    simp only [compile, search, compiled, hr, conversationQuery_eq_ok]
    rfl
  | message =>
    simp only [compile_message hr, compiled, hr]

theorem compiled_target (highlighting : Bool) (r : Request) :
    (compiled highlighting r).target = r.target := by
  unfold compiled
  cases r.target <;> rfl

/-- Requests for the same kind of document that ask for the same compile to the same search. -/
theorem compiled_eq_of_sameConstraints (htarget : r.target = q.target)
    (h : r.SameConstraints q) (highlighting : Bool) :
    compiled highlighting r = compiled highlighting q := by
  have hpinned := (pinnedCondition_eq_iff _ _).mpr h.pinned
  unfold compiled conversationClause textClauses conditionClauses
  rw [htarget, h.text, h.conversation, h.author, h.mention, h.attachment, h.dates, hpinned]

end Compile

/-! ## The bodies -/

namespace CompiledSearch

variable {c d : CompiledSearch}

theorem body_eq_iff (hhighlight : c.highlight = d.highlight) (hsort : c.sort = d.sort)
    (hsize : c.size = d.size) :
    c.body = d.body ↔ c.query.toJson = d.query.toJson := by
  unfold body
  rw [hhighlight, hsort, hsize]
  simp

/-- The limit on the hits is seen from the body. -/
theorem get?_size_body (c : CompiledSearch) :
    c.body.get? "size" = c.size.map Json.nat := by
  obtain ⟨target, query, sort, highlight, size⟩ := c
  cases highlight <;> cases size <;> rfl

theorem get?_highlight_body (c : CompiledSearch) :
    c.body.get? "highlight" = c.highlight.map Highlight.toJson := by
  obtain ⟨target, query, sort, highlight, size⟩ := c
  cases highlight <;> cases size <;> rfl

theorem without_highlight_body (c : CompiledSearch) :
    c.body.without "highlight" = { c with highlight := none }.body := by
  obtain ⟨target, query, sort, highlight, size⟩ := c
  cases highlight <;> cases size <;> rfl

end CompiledSearch

theorem Clause.toJson_bool_eq_iff (must filter must' filter' : List Clause) :
    (Clause.bool must filter).toJson = (Clause.bool must' filter').toJson ↔
      listJson must = listJson must' ∧ listJson filter = listJson filter' := by
  simp [Clause.toJson, and_comm]

namespace Compile

open Clause (listJson)

variable {r q : Request}

theorem message_body_eq_iff (hr : r.target = .message) (hq : q.target = .message)
    (highlighting : Bool) :
    (compiled highlighting r).body = (compiled highlighting q).body ↔
      r.asWritten.SameConstraints q.asWritten := by
  simp only [compiled, hr, hq]
  calc
    _ ↔ (Clause.bool (textClauses r) (conditionClauses r)).toJson =
        (Clause.bool (textClauses q) (conditionClauses q)).toJson :=
      CompiledSearch.body_eq_iff (by rfl) (by rfl) (by rfl)
    _ ↔ listJson (textClauses r) = listJson (textClauses q) ∧
        listJson (conditionClauses r) = listJson (conditionClauses q) :=
      Clause.toJson_bool_eq_iff _ _ _ _
    _ ↔ r.asWritten.SameConstraints q.asWritten := listJson_clauses_eq_iff

theorem conversation_body_eq_iff (hr : r.target = .conversation) (hq : q.target = .conversation)
    (highlighting other : Bool) :
    (compiled highlighting r).body = (compiled other q).body ↔ r.queryText = q.queryText := by
  simp only [compiled, hr, hq]
  calc
    _ ↔ (conversationClause r).toJson = (conversationClause q).toJson :=
      CompiledSearch.body_eq_iff (by rfl) (by rfl) (by rfl)
    _ ↔ r.queryText = q.queryText := conversationClause_toJson_eq_iff

/-- Only a search of conversations limits its hits. -/
theorem get?_size_compiled (highlighting : Bool) (r : Request) :
    (compiled highlighting r).body.get? "size" =
      if r.target = .conversation then some (.nat conversationLimit) else none := by
  rw [CompiledSearch.get?_size_body]
  unfold compiled
  cases r.target with
  | conversation => rfl
  | message => rfl

theorem body_ne_of_target_ne (h : r.target ≠ q.target) (highlighting other : Bool) :
    (compiled highlighting r).body ≠ (compiled other q).body := by
  intro hbody
  have hsize := congrArg (Json.get? "size") hbody
  rw [get?_size_compiled, get?_size_compiled] at hsize
  cases hr : r.target <;> cases hq : q.target <;> simp_all

theorem plain_body (r : Request) :
    (compiled false r).body = (compiled true r).body.without "highlight" := by
  rw [CompiledSearch.without_highlight_body]
  unfold compiled
  cases r.target with
  | conversation => rfl
  | message => rfl

end Compile

/-- Two searches of messages that are both highlighted or both not have the same body exactly when
they ask for the same with the dates as they are written, which are the dates as they are where none
lies in a leap second within its minute. Two searches of conversations have the same body exactly
when they look for the same text, and a search of messages never has the body of one of
conversations. Without highlighting the body of a search is what it is with it but for the
directive, which a search of conversations never has. -/
theorem bodies_eq_iff_sameConstraints (highlighting other : Bool) (r q : Request) :
    ∃ c d plain marked,
      compile highlighting r = .ok c ∧ compile other q = .ok d ∧
      compile false r = .ok plain ∧ compile true r = .ok marked ∧
      (r.target = .message → q.target = .message → highlighting = other →
        (c.body = d.body ↔ r.asWritten.SameConstraints q.asWritten) ∧
        (r.filters.LeapsEndMinutes → q.filters.LeapsEndMinutes →
          (c.body = d.body ↔ r.SameConstraints q))) ∧
      (r.target = .conversation → q.target = .conversation →
        (c.body = d.body ↔ r.queryText = q.queryText)) ∧
      (r.target ≠ q.target → c.body ≠ d.body) ∧
      plain.body = marked.body.without "highlight" ∧
      (r.target = .message →
        marked.body.get? "highlight" = some Highlight.standard.toJson) ∧
      (r.target = .conversation → plain.body = marked.body) := by
  refine ⟨Compile.compiled highlighting r, Compile.compiled other q, Compile.compiled false r,
    Compile.compiled true r, Compile.compile_eq_ok highlighting r, Compile.compile_eq_ok other q,
    Compile.compile_eq_ok false r, Compile.compile_eq_ok true r, ?_, ?_, ?_, Compile.plain_body r,
    ?_, ?_⟩
  · rintro hr hq rfl
    have hbodies := Compile.message_body_eq_iff hr hq highlighting
    refine ⟨hbodies, fun hleaps hleaps' => ?_⟩
    rwa [Request.asWritten_eq_self hleaps, Request.asWritten_eq_self hleaps'] at hbodies
  · intro hr hq
    exact Compile.conversation_body_eq_iff hr hq highlighting other
  · intro h
    exact Compile.body_ne_of_target_ne h highlighting other
  · intro hr
    rw [CompiledSearch.get?_highlight_body]
    simp only [Compile.compiled, hr]
    rfl
  · intro hr
    exact (Compile.conversation_body_eq_iff hr hr false true).mpr rfl

/-- A blank text, a date that differs below a millisecond and asking for no pinned messages leave the
body as it is; another millisecond does not. -/
theorem bodies_within_and_across_milliseconds :
    let at? := Time.Instant.of? 1705491000
    let blank : Request :=
      { query := some "  ", filters := { before := at? 123456789, pinned := some false } }
    let plain : Request := { filters := { before := at? 123000000 } }
    let later : Request := { filters := { before := at? 124000000 } }
    ∃ c d e, compile true blank = .ok c ∧ compile true plain = .ok d ∧ compile true later = .ok e ∧
      c.body = d.body ∧ d.body ≠ e.body := by
  intro at? blank plain later
  obtain ⟨c, d, -, -, hc, hd, -, -, hsame, -⟩ :=
    bodies_eq_iff_sameConstraints true true blank plain
  obtain ⟨d', e, -, -, hd', he, -, -, hother, -⟩ :=
    bodies_eq_iff_sameConstraints true true plain later
  obtain rfl : d = d' := Except.ok.inj (hd.symm.trans hd')
  have hleaps : ∀ nanos pinned, ({ before := at? nanos, pinned } : Filters).LeapsEndMinutes := by
    intro nanos pinned
    have hbefore : ∀ t, at? nanos = some t → t.LeapEndsMinute :=
      fun t ht => (Time.Instant.of?_eq_some_iff.mp ht).2.2
    exact ⟨hbefore, by simp, by simp⟩
  have hconstraints : blank.SameConstraints plain :=
    ⟨by decide, rfl, rfl, rfl, rfl, by decide, by decide⟩
  refine ⟨c, d, e, hc, hd, he, ((hsame rfl rfl rfl).2 (hleaps _ _) (hleaps _ _)).mpr hconstraints,
    ?_⟩
  intro hbody
  have hdates := (((hother rfl rfl rfl).2 (hleaps _ _) (hleaps _ _)).mp hbody).dates
  exact absurd hdates (by decide)

/-- A bound in a leap second within its minute gives the same body as one in the second that
follows. -/
theorem bodies_of_leap_second_within_minute :
    let leap : Time.Instant := ⟨4, 1333000000, by decide, by decide, by decide⟩
    let next : Time.Instant := ⟨5, 333000000, by decide, by decide, by decide⟩
    let r : Request := { filters := { before := some leap } }
    let q : Request := { filters := { before := some next } }
    ∃ c d, compile true r = .ok c ∧ compile true q = .ok d ∧ c.body = d.body ∧
      r.filters.dateBounds ≠ q.filters.dateBounds ∧ ¬r.SameConstraints q := by
  intro leap next r q
  have hdates : r.filters.dateBounds ≠ q.filters.dateBounds := by decide
  refine ⟨_, _, Compile.compile_eq_ok true r, Compile.compile_eq_ok true q, ?_, hdates,
    fun h => hdates h.dates⟩
  have hwritten : r.asWritten = q.asWritten := by
    have hdate : leap.asWritten = next.asWritten := by decide
    exact congrArg (fun t => ({ filters := { before := some t } } : Request)) hdate
  apply (Compile.message_body_eq_iff rfl rfl true).mpr
  rw [hwritten]
  exact ⟨rfl, rfl, rfl, rfl, rfl, rfl, Iff.rfl⟩

end ConversationSearch
