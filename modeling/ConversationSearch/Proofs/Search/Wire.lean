import ConversationSearch.Proofs.Json.Shapes
import ConversationSearch.Proofs.Json.Texts
import ConversationSearch.Proofs.Time.Stamp
import ConversationSearch.Search.Request

/-!
# Requests on the wire

A request that is written as JSON, with its members in the order of its fields or sorted, as a value
or as a text, is read again where the years of its dates have four digits. What is read is the
request in normal form: handles and the conversation without the blanks around them, or absent when
they are blank, and dates as they are written, to the millisecond. With a date of another year
nothing is read.
-/

namespace ConversationSearch

open Json (Decoder Shape toReading)

/-! ## Texts that may be blank -/

namespace Json.Decoder

theorem blankable_string (f : String → Except String α) (source : Source) (s : String) :
    blankable f source (toReading (.string s)) =
      match Text.nonBlank s with
      | none => .ok none
      | some t => ((f t).map some).mapError fun reason => .of (.refused reason) := by
  have hstring : option string source (toReading (.string s)) = .ok (some s) := rfl
  simp only [blankable, hstring, bind, Except.bind, Option.bind_some]
  rfl

/-- A text is read without the blanks around it, or as absent. -/
theorem blankable_reads (s : String) :
    (blankable .ok).Reads (.string s) (Text.nonBlank s) := by
  intro source
  rw [blankable_string]
  cases Text.nonBlank s <;> rfl

end Json.Decoder

theorem Attachment.nonBlank_name (a : Attachment) :
    Text.nonBlank a.name = some a.name := by
  cases a <;> decide

namespace Filters

variable {f : Filters}

theorem readAttachment_reads (a : Attachment) :
    (Decoder.blankable readAttachment).Reads (.string a.name) (some a) := by
  intro source
  have hname : Attachment.ofName? a.name = some a := by cases a <;> decide
  rw [Decoder.blankable_string, a.nonBlank_name]
  simp only [readAttachment, hname]
  rfl

theorem nonBlank_fullText (t : Time.Instant) :
    Text.nonBlank t.fullText = some t.fullText := by
  have htrim : Text.trim t.fullText = t.fullText := t.trim_textWithPlaces _
  obtain ⟨c, middle, htext, -⟩ := t.exists_textWithPlaces t.neededPlaces
  have hne : t.fullText ≠ "" := by
    unfold Time.Instant.fullText
    rw [htext]
    simp
  simp only [Text.nonBlank, htrim, if_neg hne]

theorem readInstant_reads {t : Time.Instant} (hyear : t.HasPlainYear) :
    (Decoder.blankable readInstant).Reads (instantJson t) (some t.asWritten.toMillis) := by
  intro source
  rw [instantJson, Decoder.blankable_string, nonBlank_fullText]
  simp only [readInstant, t.parse_fullText.1 hyear]
  rfl

theorem readInstant_refuses {t : Time.Instant} (hyear : ¬t.HasPlainYear) (source : Json.Source) :
    ∃ e, Decoder.blankable readInstant source (toReading (instantJson t)) = .error e := by
  rw [instantJson, Decoder.blankable_string, nonBlank_fullText]
  simp only [readInstant, t.parse_fullText.2 hyear]
  exact ⟨_, rfl⟩

/-! ## Filters -/

/-- Every date has a year of four digits. -/
structure HasPlainYears (f : Filters) : Prop where
  before : ∀ t, f.before = some t → t.HasPlainYear
  after : ∀ t, f.after = some t → t.HasPlainYear
  during : ∀ t, f.during = some t → t.HasPlainYear

instance (f : Filters) : Decidable f.HasPlainYears :=
  decidable_of_iff
    ((∀ t ∈ f.before, t.HasPlainYear) ∧ (∀ t ∈ f.after, t.HasPlainYear) ∧
      ∀ t ∈ f.during, t.HasPlainYear)
    ⟨fun ⟨hbefore, hafter, hduring⟩ => ⟨hbefore, hafter, hduring⟩,
      fun h => ⟨h.before, h.after, h.during⟩⟩

/-- No date lies in a leap second within its minute. -/
structure LeapsEndMinutes (f : Filters) : Prop where
  before : ∀ t, f.before = some t → t.LeapEndsMinute
  after : ∀ t, f.after = some t → t.LeapEndsMinute
  during : ∀ t, f.during = some t → t.LeapEndsMinute

instance (f : Filters) : Decidable f.LeapsEndMinutes :=
  decidable_of_iff
    ((∀ t ∈ f.before, t.LeapEndsMinute) ∧ (∀ t ∈ f.after, t.LeapEndsMinute) ∧
      ∀ t ∈ f.during, t.LeapEndsMinute)
    ⟨fun ⟨hbefore, hafter, hduring⟩ => ⟨hbefore, hafter, hduring⟩,
      fun h => ⟨h.before, h.after, h.during⟩⟩

/-- The filters with the dates as they are written. -/
def asWritten (f : Filters) : Filters :=
  { f with
    before := f.before.map (·.asWritten)
    after := f.after.map (·.asWritten)
    during := f.during.map (·.asWritten) }

theorem map_asWritten_eq_self {bound : Option Time.Instant}
    (h : ∀ t, bound = some t → t.LeapEndsMinute) :
    bound.map (·.asWritten) = bound := by
  cases bound with
  | none => rfl
  | some t => exact congrArg some (Time.Instant.asWritten_eq_self (h t rfl))

theorem asWritten_eq_self (h : f.LeapsEndMinutes) :
    f.asWritten = f := by
  rw [asWritten, map_asWritten_eq_self h.before, map_asWritten_eq_self h.after,
    map_asWritten_eq_self h.during]

/-- The filters as they are read again: handles without the blanks around them, a blank one being
absent, and dates to the millisecond. -/
def normalized (f : Filters) : Filters :=
  { f with
    author := f.author.bind Text.nonBlank
    mention := f.mention.bind Text.nonBlank
    before := f.before.map (·.toMillis)
    after := f.after.map (·.toMillis)
    during := f.during.map (·.toMillis) }

/-- The keys of the members. -/
def keys : List String :=
  ["from", "mentions", "has", "before", "after", "during", "pinned"]

/-- The members are those of the filters, in any order. -/
structure WrittenAs (f : Filters) (members : List (String × Json)) : Prop where
  nodup : (members.map (·.1)).Nodup
  known : ∀ m ∈ members, m.1 ∈ keys
  author : members.lookup "from" = f.author.map .string
  mention : members.lookup "mentions" = f.mention.map .string
  attachment : members.lookup "has" = f.attachment.map (.string ·.name)
  before : members.lookup "before" = f.before.map instantJson
  after : members.lookup "after" = f.after.map instantJson
  during : members.lookup "during" = f.during.map instantJson
  pinned : members.lookup "pinned" = f.pinned.map .bool

open Json (member? lookup_member? keys_member?_sublist)

theorem writtenAs_declaredMembers (f : Filters) :
    f.WrittenAs f.declaredMembers := by
  have hkeys : (f.declaredMembers.map (·.1)).Sublist keys := by
    simp only [declaredMembers, List.map_append]
    exact ((((((keys_member?_sublist _ _ _).append (keys_member?_sublist _ _ _)).append
      (keys_member?_sublist _ _ _)).append (keys_member?_sublist _ _ _)).append
      (keys_member?_sublist _ _ _)).append (keys_member?_sublist _ _ _)).append
      (keys_member?_sublist _ _ _)
  exact
    { nodup := hkeys.nodup (by decide)
      known := fun m hm => hkeys.subset (List.mem_map.mpr ⟨m, hm, rfl⟩)
      author := by simp [declaredMembers, List.lookup_append, lookup_member?]
      mention := by simp [declaredMembers, List.lookup_append, lookup_member?]
      attachment := by simp [declaredMembers, List.lookup_append, lookup_member?]
      before := by simp [declaredMembers, List.lookup_append, lookup_member?]
      after := by simp [declaredMembers, List.lookup_append, lookup_member?]
      during := by simp [declaredMembers, List.lookup_append, lookup_member?]
      pinned := by simp [declaredMembers, List.lookup_append, lookup_member?] }

theorem WrittenAs.perm {members other : List (String × Json)} (h : f.WrittenAs members)
    (hperm : members.Perm other) :
    f.WrittenAs other := by
  have hlookup := Json.lookup_eq_of_perm hperm h.nodup
  exact
    { nodup := (hperm.map (·.1)).nodup h.nodup
      known := fun m hm => h.known m (hperm.mem_iff.mpr hm)
      author := hlookup "from" ▸ h.author
      mention := hlookup "mentions" ▸ h.mention
      attachment := hlookup "has" ▸ h.attachment
      before := hlookup "before" ▸ h.before
      after := hlookup "after" ▸ h.after
      during := hlookup "during" ▸ h.during
      pinned := hlookup "pinned" ▸ h.pinned }

theorem toJson_eq_object (f : Filters) :
    ∃ members, f.toJson = .object members ∧ f.WrittenAs members := by
  refine ⟨_, rfl, f.writtenAs_declaredMembers.perm ?_⟩
  rw [declaredMembers, List.perm_iff_count]
  intro member
  simp only [List.count_append]
  omega

section Reading

variable {members : List (String × Json)}

theorem shape_takes (h : f.WrittenAs members) (hyears : f.HasPlainYears) (source : Json.Source) :
    shape.Takes source members f.asWritten.normalized := by
  have hauthor := Shape.Takes.optional source h.author
    fun s _ => Decoder.blankable_reads s
  have hmention := Shape.Takes.optional source h.mention
    fun s _ => Decoder.blankable_reads s
  have hattachment := Shape.Takes.optional source h.attachment
    fun a _ => readAttachment_reads a
  have hbefore := Shape.Takes.optional source h.before
    fun t ht => readInstant_reads (hyears.before t ht)
  have hafter := Shape.Takes.optional source h.after
    fun t ht => readInstant_reads (hyears.after t ht)
  have hduring := Shape.Takes.optional source h.during
    fun t ht => readInstant_reads (hyears.during t ht)
  have hpinned := Shape.Takes.optional source h.pinned
    fun b _ => Decoder.option_reads (Decoder.bool_reads b) (by simp)
  have htakes := ((((((hauthor.map (f := Filters.mk)).seq hmention).seq hattachment).seq
    hbefore).seq hafter).seq hduring).seq hpinned
  have hnormalized : f.asWritten.normalized =
      ⟨f.author.bind Text.nonBlank, f.mention.bind Text.nonBlank, f.attachment.bind some,
        f.before.bind fun t => some t.asWritten.toMillis,
        f.after.bind fun t => some t.asWritten.toMillis,
        f.during.bind fun t => some t.asWritten.toMillis, f.pinned.bind some⟩ := by
    simp only [normalized, asWritten, Option.bind_fun_some, Option.map_eq_bind, Option.bind_assoc,
      Option.bind_some, Function.comp_def]
  rw [hnormalized]
  exact htakes

/-- Filters are read in normal form, from their members in any order. -/
theorem decoder_reads (h : f.WrittenAs members) (hyears : f.HasPlainYears) :
    decoder.Reads (.object members) f.asWritten.normalized :=
  fun source => (shape_takes h hyears source).decoder_object h.nodup h.known

/-- Filters with a date of another year are not read. -/
theorem decoder_refuses (h : f.WrittenAs members) (hyears : ¬f.HasPlainYears)
    (source : Json.Source) :
    ∃ e, decoder source (toReading (.object members)) = .error e := by
  cases hread : decoder source (toReading (.object members)) with
  | error e => exact ⟨e, rfl⟩
  | ok found =>
    have hchecks := Shape.check_of_decoder hread
    have hyear : ∀ key t, members.lookup key = some (instantJson t) →
        shape.rules.find? (·.name == key) =
          some (Shape.rule key (.blankable readInstant) true true) → t.HasPlainYear := by
      intro key t hkey hrule
      by_cases hplain : t.HasPlainYear
      · exact hplain
      · obtain ⟨e, hrefused⟩ := readInstant_refuses hplain source
        have hcheck := hchecks (key, instantJson t) (Json.mem_of_lookup hkey) _ hrule
        have herror := Shape.check_rule_error key hrefused true true
        exact absurd (hcheck.symm.trans herror) (by simp)
    refine absurd ⟨?_, ?_, ?_⟩ hyears
    · intro t ht
      exact hyear "before" t (by rw [h.before, ht]; rfl) rfl
    · intro t ht
      exact hyear "after" t (by rw [h.after, ht]; rfl) rfl
    · intro t ht
      exact hyear "during" t (by rw [h.during, ht]; rfl) rfl

theorem haveLegible (h : f.WrittenAs members) (depth : Nat) :
    Json.HaveLegible depth members := by
  rw [Json.haveLegible_iff]
  rintro ⟨key, j⟩ hm
  have hfound := Json.lookup_of_mem h.nodup hm
  have hlegible : ∀ {β : Type} {value : Option β} {g : β → Json},
      members.lookup key = value.map g → (∀ b, (g b).IsLegible depth) → j.IsLegible depth := by
    intro β value g hkey hg
    obtain ⟨b, -, rfl⟩ := Option.map_eq_some_iff.mp (hkey.symm.trans hfound)
    exact hg b
  have hknown := h.known (key, j) hm
  simp only [keys, List.mem_cons, List.not_mem_nil, or_false] at hknown
  rcases hknown with rfl | rfl | rfl | rfl | rfl | rfl | rfl
  · exact hlegible h.author fun _ => trivial
  · exact hlegible h.mention fun _ => trivial
  · exact hlegible h.attachment fun _ => trivial
  · exact hlegible h.before fun _ => trivial
  · exact hlegible h.after fun _ => trivial
  · exact hlegible h.during fun _ => trivial
  · exact hlegible h.pinned fun _ => trivial

end Reading

end Filters

/-! ## Requests -/

namespace Request

variable {r : Request}

/-- The request with the dates of its filters as they are written. -/
def asWritten (r : Request) : Request :=
  { r with filters := r.filters.asWritten }

theorem asWritten_eq_self (h : r.filters.LeapsEndMinutes) :
    r.asWritten = r := by
  rw [asWritten, Filters.asWritten_eq_self h]

/-- The request as it is read again. -/
def normalized (r : Request) : Request :=
  { r with
    filters := r.filters.normalized
    conversationId := r.conversationId.bind Text.nonBlank }

/-- The keys of the members. -/
def keys : List String :=
  ["query", "searchType", "filters", "conversationId"]

/-- The members of the request with the given value for the filters, in the order of the fields. -/
def membersWith (r : Request) (filters : Json) : List (String × Json) :=
  Json.member? "query" .string r.query ++
    [("searchType", r.target.toJson), ("filters", filters)] ++
    Json.member? "conversationId" .string r.conversationId

/-- The members are those of the request, in any order, and so are those of its filters. -/
structure WrittenAs (r : Request) (members : List (String × Json)) : Prop where
  nodup : (members.map (·.1)).Nodup
  known : ∀ m ∈ members, m.1 ∈ keys
  query : members.lookup "query" = r.query.map .string
  target : members.lookup "searchType" = some r.target.toJson
  filters : ∃ inner, members.lookup "filters" = some (.object inner) ∧ r.filters.WrittenAs inner
  conversation : members.lookup "conversationId" = r.conversationId.map .string

open Json (lookup_member? keys_member?_sublist)

theorem writtenAs_membersWith {inner : List (String × Json)} (h : r.filters.WrittenAs inner) :
    r.WrittenAs (r.membersWith (.object inner)) := by
  have hkeys : ((r.membersWith (.object inner)).map (·.1)).Sublist keys := by
    simp only [membersWith, List.map_append]
    exact ((keys_member?_sublist _ _ _).append (List.Sublist.refl _)).append
      (keys_member?_sublist _ _ _)
  exact
    { nodup := hkeys.nodup (by decide)
      known := fun m hm => hkeys.subset (List.mem_map.mpr ⟨m, hm, rfl⟩)
      query := by simp [membersWith, List.lookup_append, List.lookup_cons, lookup_member?]
      target := by simp [membersWith, List.lookup_append, lookup_member?]
      filters := ⟨inner, by simp [membersWith, List.lookup_append, List.lookup_cons, lookup_member?], h⟩
      conversation := by simp [membersWith, List.lookup_append, List.lookup_cons, lookup_member?] }

theorem WrittenAs.perm {members other : List (String × Json)} (h : r.WrittenAs members)
    (hperm : members.Perm other) :
    r.WrittenAs other := by
  have hlookup := Json.lookup_eq_of_perm hperm h.nodup
  obtain ⟨inner, hinner, hwritten⟩ := h.filters
  exact
    { nodup := (hperm.map (·.1)).nodup h.nodup
      known := fun m hm => h.known m (hperm.mem_iff.mpr hm)
      query := hlookup "query" ▸ h.query
      target := hlookup "searchType" ▸ h.target
      filters := ⟨inner, hlookup "filters" ▸ hinner, hwritten⟩
      conversation := hlookup "conversationId" ▸ h.conversation }

theorem declaredJson_eq_object (r : Request) :
    ∃ members, r.declaredJson = .object members ∧ r.WrittenAs members :=
  ⟨_, rfl, writtenAs_membersWith r.filters.writtenAs_declaredMembers⟩

theorem toJson_eq_object (r : Request) :
    ∃ members, r.toJson = .object members ∧ r.WrittenAs members := by
  obtain ⟨inner, hinner, hwritten⟩ := r.filters.toJson_eq_object
  refine ⟨_, rfl, (writtenAs_membersWith hwritten).perm ?_⟩
  rw [membersWith, hinner, List.perm_iff_count]
  intro member
  simp only [List.count_append, List.count_cons, List.count_nil]
  omega

section Reading

variable {members : List (String × Json)}

theorem target_reads (e : Entity) :
    Entity.decoder.Reads e.toJson e := by
  apply Decoder.variant_reads
  cases e <;> decide

/-- Reads the filters of a request. -/
abbrev readFilters : Decoder Filters :=
  fun source r => (·.getD {}) <$> Decoder.option Filters.decoder source r

theorem readFilters_object (source : Json.Source) (members : List (Json.Reading × Json.Reading))
    (close : Option Json.Break) :
    readFilters source (.object members close) = Filters.decoder source (.object members close) := by
  change (·.getD {}) <$> (some <$> Filters.decoder source (.object members close)) = _
  cases Filters.decoder source (.object members close) <;> rfl

theorem readFilters_reads {inner : List (String × Json)} {f : Filters}
    (h : Filters.decoder.Reads (.object inner) f) :
    readFilters.Reads (.object inner) f :=
  fun source => (readFilters_object source _ none).trans (h source)

/-- A request is read in normal form, from its members in any order. -/
theorem decoder_reads (h : r.WrittenAs members) (hyears : r.filters.HasPlainYears) :
    decoder.Reads (.object members) r.asWritten.normalized := by
  intro source
  obtain ⟨inner, hinner, hwritten⟩ := h.filters
  have hfiltersRead := readFilters_reads (Filters.decoder_reads hwritten hyears)
  have hquery := Shape.Takes.optional source h.query
    fun s _ => Decoder.option_reads (Decoder.string_reads s) (by simp)
  have htarget := Shape.Takes.given source h.target (target_reads r.target) .message
  have hfilters := Shape.Takes.given source hinner hfiltersRead {}
  have hconversation := Shape.Takes.optional source h.conversation
    fun s _ => Decoder.blankable_reads s
  have htakes := (((hquery.map (f := Request.mk)).seq htarget).seq hfilters).seq hconversation
  rw [Option.bind_fun_some] at htakes
  exact htakes.decoder_object h.nodup h.known

/-- A request with a date of another year is not read. -/
theorem decoder_refuses (h : r.WrittenAs members) (hyears : ¬r.filters.HasPlainYears)
    (source : Json.Source) :
    ∃ e, decoder source (toReading (.object members)) = .error e := by
  obtain ⟨inner, hinner, hwritten⟩ := h.filters
  obtain ⟨e, hrefused⟩ := Filters.decoder_refuses hwritten hyears source
  have herror := Shape.check_rule_error "filters" (d := readFilters)
    ((readFilters_object source _ none).trans hrefused) true true
  exact Shape.decoder_object_error (Json.mem_of_lookup hinner) rfl herror

theorem isLegible (h : r.WrittenAs members) :
    (Json.object members).IsLegible 0 := by
  refine ⟨by decide, Json.haveLegible_iff.mpr ?_⟩
  rintro ⟨key, j⟩ hm
  have hfound := Json.lookup_of_mem h.nodup hm
  have hknown := h.known (key, j) hm
  simp only [keys, List.mem_cons, List.not_mem_nil, or_false] at hknown
  rcases hknown with rfl | rfl | rfl | rfl
  · obtain ⟨s, -, rfl⟩ := Option.map_eq_some_iff.mp (h.query.symm.trans hfound)
    trivial
  · obtain rfl := Option.some.inj (h.target.symm.trans hfound)
    trivial
  · obtain ⟨inner, hinner, hwritten⟩ := h.filters
    obtain rfl := Option.some.inj (hinner.symm.trans hfound)
    exact ⟨by decide, Filters.haveLegible hwritten _⟩
  · obtain ⟨s, -, rfl⟩ := Option.map_eq_some_iff.mp (h.conversation.symm.trans hfound)
    trivial

end Reading

/-- A request that was written, as a value or as a text, with its members sorted or in the order of
the fields, is read exactly where the years of its dates have four digits, and then in normal form,
with the dates as they are written. That is as they are, where none of them lies in a leap second
within its minute. -/
theorem wire_round_trip (r : Request) :
    (∀ j ∈ [r.toJson, r.declaredJson],
      ∀ result ∈ [decoder.ofJson j, decoder.ofText j.compact, decoder.ofFront j.compact],
        (r.filters.HasPlainYears → result = .ok r.asWritten.normalized) ∧
          (¬r.filters.HasPlainYears → ∃ e, result = .error e)) ∧
    (r.filters.LeapsEndMinutes → r.asWritten = r) := by
  refine ⟨?_, asWritten_eq_self⟩
  intro j hj result hresult
  obtain ⟨members, rfl, hwritten⟩ : ∃ members, j = .object members ∧ r.WrittenAs members := by
    simp only [List.mem_cons, List.not_mem_nil, or_false] at hj
    rcases hj with rfl | rfl
    · exact r.toJson_eq_object
    · exact r.declaredJson_eq_object
  obtain ⟨source, rfl⟩ : ∃ source, result = decoder source (toReading (.object members)) := by
    have hlegible := isLegible hwritten
    rw [Decoder.ofText_compact decoder hlegible, Decoder.ofFront_compact decoder hlegible] at hresult
    simp only [List.mem_cons, List.not_mem_nil, or_false] at hresult
    rcases hresult with rfl | rfl | rfl
    · exact ⟨.value, rfl⟩
    · exact ⟨.text, rfl⟩
    · exact ⟨.text, rfl⟩
  constructor
  · intro hyears
    exact decoder_reads hwritten hyears source
  · intro hyears
    exact decoder_refuses hwritten hyears source

/-- Blanks around a handle, a blank handle and what is below a millisecond are lost; the text of the
query and `some false` are kept. -/
theorem padded_request_round_trip :
    let t : Time.Instant := ⟨1705491000, 123456789, by decide, by decide, by decide⟩
    let r : Request :=
      { query := some " launch "
        filters :=
          { author := some " emma789 ", mention := some " ", during := some t, pinned := some false } }
    r.filters.HasPlainYears ∧ r.filters.LeapsEndMinutes ∧
      decoder.ofText r.declaredJson.compact = .ok
        { query := some " launch "
          filters :=
            { author := some "emma789", during := some t.toMillis, pinned := some false } } := by
  intro t r
  have hyears : r.filters.HasPlainYears := by decide
  have hminutes : r.filters.LeapsEndMinutes := by decide
  have hnormalized : r.normalized =
      { query := some " launch "
        filters :=
          { author := some "emma789", during := some t.toMillis, pinned := some false } } := by
    decide
  obtain ⟨hdecodes, hwritten⟩ := r.wire_round_trip
  have hread := (hdecodes r.declaredJson (by simp)
    (decoder.ofText r.declaredJson.compact) (by simp)).1 hyears
  rw [hwritten hminutes, hnormalized] at hread
  exact ⟨hyears, hminutes, hread⟩

/-- A date in a leap second within its minute is read as the second that follows. -/
theorem leap_second_within_minute_is_read_later :
    let leap : Time.Instant := ⟨4, 1333000000, by decide, by decide, by decide⟩
    let next : Time.Instant := ⟨5, 333000000, by decide, by decide, by decide⟩
    let r : Request := { filters := { before := some leap } }
    r.filters.HasPlainYears ∧
      decoder.ofText r.declaredJson.compact = .ok { filters := { before := some next } } ∧
      r.normalized ≠ { filters := { before := some next } } := by
  intro leap next r
  have hyears : r.filters.HasPlainYears := by decide
  have hback : r.asWritten.normalized = { filters := { before := some next } } := by decide
  obtain ⟨members, hj, hwritten⟩ := r.declaredJson_eq_object
  refine ⟨hyears, ?_, by decide⟩
  rw [hj, Decoder.ofText_compact decoder (isLegible hwritten), ← hback]
  exact decoder_reads hwritten hyears .text

end Request
end ConversationSearch
