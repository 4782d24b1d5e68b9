import ConversationSearch.Proofs.Json.Exchange
import ConversationSearch.Proofs.Search.Rendering
import ConversationSearch.Proofs.Search.Wire

/-!
# Blank and padded values in requests

A text of a filter, or the conversation of a request, says nothing when it is blank, `null` or
missing, and the blanks around it are not part of it. What is decoded, whether a request or a
failure, does not depend on which way of saying nothing was taken or on how a text was padded. So a
decoded request has no blank or padded text to compare a field with.
-/

namespace ConversationSearch

open Json (Decoder Shape Frame Reading Source)

/-! ## Values that mean the same -/

/-- A member of which nothing is said. -/
inductive SaysNothing : Option Reading → Prop
  | missing : SaysNothing none
  | null : SaysNothing (some .null)
  | blank {s : String} (h : ∀ c ∈ s.toList, Text.isBlank c = true) : SaysNothing (some (.string s))

/-- Nothing is said by either value, or they are one text and the second has blanks around it. -/
inductive Synonymous : Option Reading → Option Reading → Prop
  | nothing {v w : Option Reading} (hv : SaysNothing v) (hw : SaysNothing w) : Synonymous v w
  | padded {front back : List Char} (hfront : ∀ c ∈ front, Text.isBlank c = true)
      (hback : ∀ c ∈ back, Text.isBlank c = true) (s : String) :
      Synonymous (some (.string s)) (some (.string (String.ofList (front ++ s.toList ++ back))))

theorem SaysNothing.colonFault?_eq_none {v : Option Reading} (h : SaysNothing v) :
    ∀ r ∈ v, Decoder.colonFault? r = none := by
  cases h <;> rintro r ⟨⟩ <;> rfl

theorem SaysNothing.given_blankable {v : Option Reading} (h : SaysNothing v)
    (f : String → Except String α) (source : Source) :
    (Decoder.blankable f).given none source v = .ok none := by
  cases h with
  | missing => rfl
  | null => rfl
  | blank h =>
    have hstring := Decoder.blankable_string f source
    simp only [Json.toReading] at hstring
    rw [Decoder.given, hstring, Text.nonBlank_of_blanks h]

namespace Synonymous

variable {v w : Option Reading}

theorem colonFault?_eq_none (h : Synonymous v w) :
    (∀ r ∈ v, Decoder.colonFault? r = none) ∧ ∀ r ∈ w, Decoder.colonFault? r = none := by
  cases h with
  | nothing hv hw => exact ⟨hv.colonFault?_eq_none, hw.colonFault?_eq_none⟩
  | padded => constructor <;> rintro r ⟨⟩ <;> rfl

theorem given_blankable (h : Synonymous v w) (f : String → Except String α) (source : Source) :
    (Decoder.blankable f).given none source v = (Decoder.blankable f).given none source w := by
  cases h with
  | nothing hv hw => rw [hv.given_blankable, hw.given_blankable]
  | padded hfront hback s =>
    have hstring := Decoder.blankable_string f source
    simp only [Json.toReading] at hstring
    rw [Decoder.given, Decoder.given, hstring, hstring, Text.nonBlank_padded hfront hback]

end Synonymous

/-! ## Filters and requests -/

namespace Filters

/-- The keys of the members that are texts. -/
def textKeys : List String :=
  ["from", "mentions", "has", "before", "after", "during"]

variable {v w : Option Reading} {key : String}

theorem shape_identifies (h : Synonymous v w) (hkey : "pinned" ≠ key) (source : Source) :
    shape.Identifies source key v w := by
  have htext : ∀ (name : String) {α : Type} (f : String → Except String α),
      (Shape.defaulted name (Decoder.blankable f) none).Identifies source key v w :=
    fun _ _ f => .defaulted fun _ => h.given_blankable f source
  unfold shape
  exact ((((((Shape.Identifies.map (htext "from" .ok)).seq (htext "mentions" .ok)).seq
    (htext "has" readAttachment)).seq (htext "before" readInstant)).seq
    (htext "after" readInstant)).seq (htext "during" readInstant)).seq
    (.defaulted_other hkey _ none)

theorem decoder_fill (h : Synonymous v w) (hkey : key ∈ textKeys) (source : Source)
    (frame : Frame key) :
    decoder source (frame.fill v) = decoder source (frame.fill w) := by
  have hknown : key ∈ shape.rules.map (·.name) :=
    List.mem_append_left ["pinned"] hkey
  have hpinned : "pinned" ≠ key := by
    rintro rfl
    exact absurd hkey (by decide)
  exact (shape_identifies h hpinned source).decoder_fill hknown h.colonFault?_eq_none.1
    h.colonFault?_eq_none.2 _ frame

end Filters

namespace Request

variable {v w : Option Reading} {key : String} {source : Source}

/-- An exchange that is seen neither in reading the filters nor in reading the conversation is not
seen in the request. -/
theorem shape_identifies (hquery : "query" ≠ key) (hkind : "searchType" ≠ key)
    (hfilters : "filters" = key →
      readFilters.given {} source v = readFilters.given {} source w)
    (hconversation : "conversationId" = key →
      (Decoder.blankable .ok).given none source v = (Decoder.blankable .ok).given none source w) :
    shape.Identifies source key v w := by
  unfold shape
  exact (((Shape.Identifies.map (.defaulted_other hquery _ none)).seq
    (.defaulted_other hkind _ Entity.message)).seq (.defaulted hfilters)).seq
    (.defaulted hconversation)

theorem decoder_fill_conversation (h : Synonymous v w) (source : Source)
    (frame : Frame "conversationId") :
    decoder source (frame.fill v) = decoder source (frame.fill w) := by
  have hshape : shape.Identifies source "conversationId" v w :=
    shape_identifies (by decide) (by decide) (fun hkey => absurd hkey (by decide))
      fun _ => h.given_blankable .ok source
  exact hshape.decoder_fill (by decide) h.colonFault?_eq_none.1 h.colonFault?_eq_none.2 _ frame

theorem decoder_fill_filters
    (h : readFilters.given {} source v = readFilters.given {} source w)
    (hv : ∀ r ∈ v, Decoder.colonFault? r = none) (hw : ∀ r ∈ w, Decoder.colonFault? r = none)
    (frame : Frame "filters") :
    decoder source (frame.fill v) = decoder source (frame.fill w) := by
  have hshape : shape.Identifies source "filters" v w :=
    shape_identifies (by decide) (by decide) (fun _ => h) fun hkey => absurd hkey (by decide)
  exact hshape.decoder_fill (by decide) hv hw _ frame

/-- A text of the filters. -/
theorem decoder_fill_filter (h : Synonymous v w) {key : String} (hkey : key ∈ Filters.textKeys)
    (source : Source) (outer : Frame "filters") (inner : Frame key) :
    decoder source (outer.fill (some (inner.fill v))) =
      decoder source (outer.fill (some (inner.fill w))) := by
  apply decoder_fill_filters
  · have hinner := Filters.decoder_fill h hkey source inner
    unfold Frame.fill at hinner
    rw [← readFilters_object, ← readFilters_object] at hinner
    exact hinner
  · rintro r ⟨⟩
    rfl
  · rintro r ⟨⟩
    rfl

/-- Filters that are missing, `null` or empty. -/
theorem decoder_fill_no_filters (source : Source) (frame : Frame "filters") :
    decoder source (frame.fill (some .null)) = decoder source (frame.fill none) ∧
      decoder source (frame.fill (some (.object [] none))) = decoder source (frame.fill none) := by
  have hnull : readFilters.given {} source (some .null) = readFilters.given {} source none :=
    rfl
  have hempty : readFilters.given {} source (some (.object [] none)) =
      readFilters.given {} source none :=
    rfl
  constructor
  · exact decoder_fill_filters hnull (by rintro r ⟨⟩; rfl) nofun frame
  · exact decoder_fill_filters hempty (by rintro r ⟨⟩; rfl) nofun frame

end Request

/-! ## Decoded requests -/

/-- What is read of a text that may be blank is neither blank nor padded. -/
theorem Json.Decoder.nonBlank_of_blankable {s : String} (h : (blankable .ok).Gives (some s)) :
    Text.nonBlank s = some s := by
  obtain ⟨source, r, hr⟩ := h
  obtain ⟨read, -, hr⟩ := bind_eq_ok.mp hr
  split at hr
  · have habsent := Except.ok.inj hr
    contradiction
  · next t ht =>
    obtain rfl : t = s := Option.some.inj (Except.ok.inj hr)
    obtain ⟨typed, -, htyped⟩ := Option.bind_eq_some_iff.mp ht
    exact Text.nonBlank_of_nonBlank htyped

theorem Json.Decoder.of_option {d : Decoder α} {a : α} (h : (option d).Gives (some a)) :
    d.Gives a := by
  obtain ⟨source, r, hr⟩ := h
  unfold option at hr
  split at hr
  · have habsent := Except.ok.inj hr
    contradiction
  · contradiction
  · obtain ⟨found, hfound, hsome⟩ := map_eq_ok.mp hr
    obtain rfl := Option.some.inj hsome
    exact ⟨_, _, hfound⟩

/-- The handles and the conversation are neither blank nor padded. -/
structure Request.IsTrimmed (r : Request) : Prop where
  author : ∀ s, r.filters.author = some s → Text.nonBlank s = some s
  mention : ∀ s, r.filters.mention = some s → Text.nonBlank s = some s
  conversation : ∀ s, r.conversationId = some s → Text.nonBlank s = some s

/-- A member that is such a text. -/
theorem Json.Shape.nonBlank_of_build {fields : Json.Fields} {name s : String}
    (h : (Shape.defaulted name (Decoder.blankable .ok) none).build fields = .ok (some s)) :
    Text.nonBlank s = some s := by
  rcases Shape.of_build_defaulted h with habsent | hgives
  · contradiction
  · exact Decoder.nonBlank_of_blankable hgives

theorem Filters.nonBlank_of_gives {f : Filters} (h : decoder.Gives f) :
    (∀ s, f.author = some s → Text.nonBlank s = some s) ∧
      ∀ s, f.mention = some s → Text.nonBlank s = some s := by
  obtain ⟨fields, hall⟩ := Shape.of_decoder h
  obtain ⟨_, pinned, hduring, -, rfl⟩ := Shape.of_build_seq hall
  obtain ⟨_, during, hafter, -, rfl⟩ := Shape.of_build_seq hduring
  obtain ⟨_, after, hbefore, -, rfl⟩ := Shape.of_build_seq hafter
  obtain ⟨_, before, hattachment, -, rfl⟩ := Shape.of_build_seq hbefore
  obtain ⟨_, attachment, hmention, -, rfl⟩ := Shape.of_build_seq hattachment
  obtain ⟨_, mention, hauthor, hgivenMention, rfl⟩ := Shape.of_build_seq hmention
  obtain ⟨author, hgivenAuthor, rfl⟩ := Shape.of_build_map hauthor
  constructor
  · rintro s rfl
    exact Shape.nonBlank_of_build hgivenAuthor
  · rintro s rfl
    exact Shape.nonBlank_of_build hgivenMention

theorem Request.isTrimmed_of_gives {r : Request} (h : decoder.Gives r) :
    r.IsTrimmed := by
  obtain ⟨fields, hall⟩ := Shape.of_decoder h
  obtain ⟨_, conversationId, hfilters, hgivenId, rfl⟩ := Shape.of_build_seq hall
  obtain ⟨_, filters, htarget, hgivenFilters, rfl⟩ := Shape.of_build_seq hfilters
  obtain ⟨_, target, hquery, -, rfl⟩ := Shape.of_build_seq htarget
  obtain ⟨query, -, rfl⟩ := Shape.of_build_map hquery
  have hfound : filters = {} ∨ Filters.decoder.Gives filters := by
    rcases Shape.of_build_defaulted hgivenFilters with habsent | ⟨source, r, hr⟩
    · exact .inl habsent
    · obtain ⟨found, hfound, rfl⟩ := map_eq_ok.mp hr
      cases found with
      | none => exact .inl rfl
      | some f => exact .inr (Decoder.of_option ⟨source, r, hfound⟩)
  have hfilters : (∀ s, filters.author = some s → Text.nonBlank s = some s) ∧
      ∀ s, filters.mention = some s → Text.nonBlank s = some s := by
    rcases hfound with rfl | hgives
    · simp
    · exact Filters.nonBlank_of_gives hgives
  refine ⟨hfilters.1, hfilters.2, ?_⟩
  rintro s rfl
  exact Shape.nonBlank_of_build hgivenId

/-! ## The terms of a query -/

namespace Clause

mutual

/-- The fields that a query compares with a value, and the values. -/
def terms : Clause → List (String × Json)
  | .matchAll => []
  | .multiMatch _ _ => []
  | .term field value => [(field, value)]
  | .range _ _ => []
  | .bool must filter => allTerms must ++ allTerms filter

/-- The terms of the clauses of a list. -/
def allTerms : List Clause → List (String × Json)
  | [] => []
  | c :: rest => terms c ++ allTerms rest

end

theorem mem_allTerms {clauses : List Clause} {t : String × Json} :
    t ∈ allTerms clauses ↔ ∃ c ∈ clauses, t ∈ c.terms := by
  induction clauses with
  | nil => simp [allTerms]
  | cons c rest ih => simp [allTerms, ih]

end Clause

/-- The value is true, or a text that is neither blank nor padded. -/
def Json.IsSaid (value : Json) : Prop :=
  value = .bool true ∨ ∃ s, value = .string s ∧ Text.nonBlank s = some s

namespace Compile

/-- The terms of the clause for a condition. -/
theorem isSaid_of_condition {condition : Option Json} {target : String}
    (h : ∀ v, condition = some v → v.IsSaid) :
    ∀ c ∈ condition.toList.map (Clause.term target), ∀ t ∈ c.terms, t.2.IsSaid := by
  intro c hc t ht
  obtain ⟨v, hv, rfl⟩ := List.mem_map.mp hc
  rw [List.mem_singleton.mp ht]
  exact h v (Option.mem_toList.mp hv)

theorem isSaid_of_text {condition : Option String} {target : String}
    (h : ∀ s, condition = some s → Text.nonBlank s = some s) :
    ∀ c ∈ (condition.map Json.string).toList.map (Clause.term target), ∀ t ∈ c.terms,
      t.2.IsSaid := by
  apply isSaid_of_condition
  intro v hv
  obtain ⟨s, hs, rfl⟩ := Option.map_eq_some_iff.mp hv
  exact .inr ⟨s, rfl, h s hs⟩

theorem isSaid_of_conditionClauses {r : Request} (hr : r.IsTrimmed) :
    ∀ c ∈ conditionClauses r, ∀ t ∈ c.terms, t.2.IsSaid := by
  have hattachment : ∀ v, r.filters.attachment.map (Json.string ·.name) = some v → v.IsSaid := by
    intro v hv
    obtain ⟨a, -, rfl⟩ := Option.map_eq_some_iff.mp hv
    exact .inr ⟨a.name, rfl, a.nonBlank_name⟩
  have hpinned : ∀ v, pinnedCondition r.filters = some v → v.IsSaid := by
    intro v hv
    unfold pinnedCondition at hv
    split at hv
    · exact .inl (Option.some.inj hv).symm
    · contradiction
  have hdates : ∀ c ∈ dateClauses r.filters.dateBounds, ∀ t ∈ c.terms, t.2.IsSaid := by
    intro c hc t ht
    unfold dateClauses at hc
    split at hc
    · contradiction
    · rw [List.mem_singleton.mp hc] at ht
      contradiction
  unfold conditionClauses
  simp only [List.forall_mem_append]
  exact ⟨⟨⟨⟨⟨isSaid_of_text hr.conversation, isSaid_of_text hr.author⟩,
    isSaid_of_text hr.mention⟩, isSaid_of_condition hattachment⟩, hdates⟩,
    isSaid_of_condition hpinned⟩

/-- No term of a search for a trimmed request compares a field with a blank value. -/
theorem isSaid_of_mem_terms {r : Request} (hr : r.IsTrimmed) (highlighting : Bool) :
    ∀ t ∈ (compiled highlighting r).query.terms, t.2.IsSaid := by
  intro t ht
  unfold compiled at ht
  split at ht
  · unfold conversationClause at ht
    split at ht <;> contradiction
  · rcases List.mem_append.mp ht with ht | ht
    · obtain ⟨c, hc, ht⟩ := Clause.mem_allTerms.mp ht
      obtain ⟨text, -, rfl⟩ := List.mem_map.mp hc
      contradiction
    · obtain ⟨c, hc, ht⟩ := Clause.mem_allTerms.mp ht
      exact isSaid_of_conditionClauses hr c hc t ht

end Compile

/-- Synonymous values of a text in the filters, or of the conversation, are decoded alike, and so are
filters that are missing, `null` or empty. A decoded request is trimmed, and the search that it
compiles to compares no field with a blank value. -/
theorem Request.blanks_are_ignored :
    (∀ source v w, Synonymous v w →
      (∀ key ∈ Filters.textKeys, ∀ (outer : Frame "filters") (inner : Frame key),
        decoder source (outer.fill (some (inner.fill v))) =
          decoder source (outer.fill (some (inner.fill w)))) ∧
      ∀ frame : Frame "conversationId",
        decoder source (frame.fill v) = decoder source (frame.fill w)) ∧
    (∀ source (frame : Frame "filters"),
      decoder source (frame.fill (some .null)) = decoder source (frame.fill none) ∧
      decoder source (frame.fill (some (.object [] none))) = decoder source (frame.fill none)) ∧
    ∀ r, decoder.Gives r →
      r.IsTrimmed ∧
      ∀ highlighting, ∃ c, compile highlighting r = .ok c ∧ ∀ t ∈ c.query.terms, t.2.IsSaid := by
  refine ⟨?_, Request.decoder_fill_no_filters, ?_⟩
  · intro source v w h
    exact ⟨fun key hkey outer inner => decoder_fill_filter h hkey source outer inner,
      decoder_fill_conversation h source⟩
  · intro r hr
    have htrimmed := isTrimmed_of_gives hr
    refine ⟨htrimmed, fun highlighting => ?_⟩
    exact ⟨_, Compile.compile_eq_ok highlighting r,
      Compile.isSaid_of_mem_terms htrimmed highlighting⟩

end ConversationSearch
