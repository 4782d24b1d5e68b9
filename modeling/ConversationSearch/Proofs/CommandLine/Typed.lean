import ConversationSearch.CommandLine.Command
import ConversationSearch.Proofs.Search.Rendering
import ConversationSearch.Proofs.Search.Wire
import ConversationSearch.Proofs.Time.Reading

/-!
# Values as they were typed

The command line reads the values of a search: kinds of documents and attachments and dates have to
be acceptable. Somebody who talks to the interface directly hands over the same values as they were
typed, under the names that the interface has for them. `Given.Means` says which request the values
mean, and the interface reads from them a request that asks for the same.
-/

namespace ConversationSearch

open Json (Decoder Shape member? lookup_member? keys_member?_sublist)

namespace Attachment

variable {s : String} {a : Attachment}

theorem toLower_of_isBlank {c : Char} (hc : Text.isBlank c = true) :
    c.toLower = c := by
  unfold Char.toLower
  rw [dif_neg]
  intro hupper
  have hletter : 65 ≤ c.toNat ∧ c.toNat ≤ 90 := by
    simpa [UInt32.le_iff_toNat_le, ← Char.toNat_val] using hupper
  simp only [Text.isBlank, Bool.or_eq_true, Bool.and_eq_true, decide_eq_true_eq,
    beq_iff_eq] at hc
  omega

/-- The name of a kind of attachment has no blanks, however its letters are written. -/
theorem nonBlank_of_ofName? (h : ofName? s = some a) :
    Text.nonBlank s = some s := by
  have hnames : (table.all fun member =>
      member.1 != "" && member.1.toList.all (!Text.isBlank ·)) = true := by
    decide
  have hname := List.all_eq_true.mp hnames _ (Json.mem_of_lookup h)
  simp only [Bool.and_eq_true, bne_iff_ne, List.all_eq_true, Bool.not_eq_true',
    String.toList_ofList] at hname
  obtain ⟨hne, hletters⟩ := hname
  have hblank : ∀ c ∈ s.toList, Text.isBlank c = false := by
    intro c hc
    have hlower := hletters c.toLower (List.mem_map_of_mem hc)
    by_contra hblank
    rw [Bool.not_eq_false] at hblank
    rw [toLower_of_isBlank hblank, hblank] at hlower
    cases hlower
  have hs : s ≠ "" := by
    rintro rfl
    exact hne (by simp)
  simp only [Text.nonBlank, Text.trim_eq_self hblank, if_neg hs]

end Attachment

namespace Filters

theorem readAttachment_typed {s : String} {a : Attachment} (h : Attachment.ofName? s = some a) :
    (Decoder.blankable readAttachment).Reads (.string s) (some a) := by
  intro source
  rw [Decoder.blankable_string, Attachment.nonBlank_of_ofName? h]
  simp only [readAttachment, h]
  rfl

theorem readInstant_typed {s : String} {t : Time.Instant} (h : Time.parse s = .ok t) :
    (Decoder.blankable readInstant).Reads (.string s) (some t) := by
  intro source
  rw [Decoder.blankable_string, Time.nonBlank_of_parse h]
  simp only [readInstant, Time.parse_trim, h]
  rfl

theorem dateBounds_normalized (f : Filters) :
    f.normalized.dateBounds = f.dateBounds := by
  simp only [dateBounds, normalized, Option.map_map, Function.comp_def,
    Time.Instant.toMillis_toMillis]

end Filters

namespace CommandLine

namespace Given

variable {g : Given} {r : Request}

theorem read?_eq_ok {name : String} {f : String → Option α} {a : Option α} :
    g.read? name f = .ok a ↔
      (∀ s, g.value? name = some s → ∃ x, f s = some x) ∧ a = (g.value? name).bind f := by
  unfold read?
  cases g.value? name with
  | none =>
    simp only [Except.ok.injEq, Option.bind_none, reduceCtorEq, false_implies, implies_true,
      true_and]
    exact eq_comm
  | some s =>
    cases hf : f s with
    | none => simp [hf]
    | some x =>
      simp only [Except.ok.injEq, Option.some.injEq, forall_eq', hf, exists_eq', true_and,
        Option.bind_some]
      exact eq_comm

/-- The values can be read, and the request is what they mean. -/
structure Means (g : Given) (r : Request) : Prop where
  query : r.query = some (g.words.head?.getD "")
  target : ∃ target, g.read? "type" Entity.ofName? = .ok target ∧ r.target = target.getD .message
  author : r.filters.author = g.value? "from"
  mention : r.filters.mention = g.value? "mentions"
  attachment : g.read? "has" Attachment.ofName? = .ok r.filters.attachment
  before : g.read? "before" Command.instant? = .ok r.filters.before
  after : g.read? "after" Command.instant? = .ok r.filters.after
  during : g.read? "during" Command.instant? = .ok r.filters.during
  pinned : r.filters.pinned = if g.has "pinned" then some true else none
  conversation : r.conversationId = g.value? "conversation"

theorem means_of_searchOf (h : Command.searchOf g = .ok (.search r)) :
    g.Means r := by
  obtain ⟨target, htarget, h⟩ := bind_eq_ok.mp h
  obtain ⟨attachment, hattachment, h⟩ := bind_eq_ok.mp h
  obtain ⟨before, hbefore, h⟩ := bind_eq_ok.mp h
  obtain ⟨after, hafter, h⟩ := bind_eq_ok.mp h
  obtain ⟨during, hduring, h⟩ := bind_eq_ok.mp h
  obtain rfl := Command.search.inj (Except.ok.inj h)
  exact ⟨rfl, ⟨target, htarget, rfl⟩, rfl, rfl, hattachment, hbefore, hafter, hduring, rfl, rfl⟩

/-- The options whose values are filters; the interface has the same names for them. -/
def filterNames : List String :=
  ["from", "mentions", "has", "before", "after", "during"]

/-- The values for filters as they were typed. -/
def filterMembers (g : Given) : List (String × Json) :=
  (filterNames.flatMap fun name => member? name .string (g.value? name)) ++
    member? "pinned" .bool (if g.has "pinned" then some true else none)

/-- All values as they were typed; what was not given is left out. -/
def requestMembers (g : Given) : List (String × Json) :=
  member? "query" .string g.words.head? ++
  member? "searchType" .string (g.value? "type") ++
  [("filters", .object g.filterMembers)] ++
  member? "conversationId" .string (g.value? "conversation")

/-- The request of somebody who hands over the values as they were typed. -/
def verbatim (g : Given) : Json :=
  .object g.requestMembers

/-- What is read of such a request, the values meaning the given one. -/
def readVerbatim (g : Given) (r : Request) : Request where
  query := g.words.head?
  target := r.target
  filters :=
    { r.filters with
      author := r.filters.author.bind Text.nonBlank
      mention := r.filters.mention.bind Text.nonBlank }
  conversationId := r.conversationId.bind Text.nonBlank

theorem lookup_filterMembers :
    (∀ name ∈ filterNames, g.filterMembers.lookup name = (g.value? name).map .string) ∧
      g.filterMembers.lookup "pinned" =
        (if g.has "pinned" then some true else none).map .bool := by
  simp [filterMembers, filterNames, List.lookup_append, lookup_member?]

theorem keys_filterMembers (g : Given) :
    (g.filterMembers.map (·.1)).Sublist Filters.keys := by
  simp only [filterMembers, filterNames, List.flatMap_cons, List.flatMap_nil, List.append_nil,
    List.append_assoc, List.map_append]
  iterate 6 refine (keys_member?_sublist _ _ _).append ?_
  exact keys_member?_sublist _ _ _

theorem keys_requestMembers (g : Given) :
    (g.requestMembers.map (·.1)).Sublist Request.keys := by
  simp only [requestMembers, List.map_append]
  exact (((keys_member?_sublist _ _ _).append (keys_member?_sublist _ _ _)).append
    (List.Sublist.refl _)).append (keys_member?_sublist _ _ _)

/-- A value that can be read as it is meant is decoded so as it was typed. -/
theorem takes_typed {members : List (String × Json)} {key name : String} {f : String → Option α}
    {value : Option α} {d : Decoder (Option α)} (source : Json.Source)
    (hkey : members.lookup key = (g.value? name).map .string)
    (hvalue : g.read? name f = .ok value) (hd : ∀ s a, f s = some a → d.Reads (.string s) (some a)) :
    (Shape.defaulted key d none).Takes source members value := by
  obtain ⟨hread, rfl⟩ := read?_eq_ok.mp hvalue
  apply Shape.Takes.optional source hkey
  intro s hs
  obtain ⟨a, ha⟩ := hread s hs
  rw [ha]
  exact hd s a ha

theorem instant_typed (s : String) (t : Time.Instant) (h : Command.instant? s = some t) :
    (Decoder.blankable Filters.readInstant).Reads (.string s) (some t) :=
  Filters.readInstant_typed (eq_ok_of_toOption h)

theorem filterMembers_reads (h : g.Means r) :
    Filters.decoder.Reads (.object g.filterMembers) (g.readVerbatim r).filters := by
  intro source
  obtain ⟨hnames, hpinned⟩ := g.lookup_filterMembers
  have hauthor := Shape.Takes.optional source (hnames "from" (by decide))
    fun s _ => Decoder.blankable_reads s
  have hmention := Shape.Takes.optional source (hnames "mentions" (by decide))
    fun s _ => Decoder.blankable_reads s
  have hattachment := takes_typed source (hnames "has" (by decide)) h.attachment
    fun s a => Filters.readAttachment_typed
  have hbefore := takes_typed source (hnames "before" (by decide)) h.before instant_typed
  have hafter := takes_typed source (hnames "after" (by decide)) h.after instant_typed
  have hduring := takes_typed source (hnames "during" (by decide)) h.during instant_typed
  have hpinned := Shape.Takes.optional source hpinned
    fun b _ => Decoder.option_reads (Decoder.bool_reads b) (by simp)
  have htakes := ((((((hauthor.map (f := Filters.mk)).seq hmention).seq hattachment).seq
    hbefore).seq hafter).seq hduring).seq hpinned
  rw [← h.author, ← h.mention, ← h.pinned, Option.bind_fun_some] at htakes
  have hkeys := g.keys_filterMembers
  exact htakes.decoder_object (hkeys.nodup (by decide)) fun m hm =>
    hkeys.subset (List.mem_map.mpr ⟨m, hm, rfl⟩)

/-- The request of somebody who hands over the values as they were typed is read. -/
theorem verbatim_reads (h : g.Means r) :
    Request.decoder.Reads g.verbatim (g.readVerbatim r) := by
  intro source
  have hfiltersRead := Request.readFilters_reads (filterMembers_reads h)
  have hlookup : g.requestMembers.lookup "query" = g.words.head?.map .string ∧
      g.requestMembers.lookup "searchType" = (g.value? "type").map .string ∧
      g.requestMembers.lookup "filters" = some (.object g.filterMembers) ∧
      g.requestMembers.lookup "conversationId" = (g.value? "conversation").map .string := by
    simp [requestMembers, List.lookup_append, List.lookup_cons, lookup_member?]
  obtain ⟨hquery, htarget, hfilters, hconversation⟩ := hlookup
  have hquery := Shape.Takes.optional source hquery
    fun s _ => Decoder.option_reads (Decoder.string_reads s) (by simp)
  have htarget : (Shape.defaulted "searchType" Entity.decoder .message).Takes source
      g.requestMembers r.target := by
    obtain ⟨target, hread, hdefault⟩ := h.target
    obtain ⟨hnamed, rfl⟩ := read?_eq_ok.mp hread
    rw [hdefault]
    cases hvalue : g.value? "type" with
    | none =>
      rw [hvalue] at htarget
      exact Shape.Takes.absent source htarget Entity.message
    | some s =>
      obtain ⟨e, he⟩ := hnamed s hvalue
      rw [hvalue] at htarget
      rw [Option.bind_some, he]
      exact Shape.Takes.given source htarget (Decoder.variant_reads he) .message
  have hfilters := Shape.Takes.given source hfilters hfiltersRead {}
  have hconversation := Shape.Takes.optional source hconversation
    fun s _ => Decoder.blankable_reads s
  have htakes := (((hquery.map (f := Request.mk)).seq htarget).seq hfilters).seq hconversation
  rw [Option.bind_fun_some, ← h.conversation] at htakes
  have hkeys := g.keys_requestMembers
  exact htakes.decoder_object (hkeys.nodup (by decide)) fun m hm =>
    hkeys.subset (List.mem_map.mpr ⟨m, hm, rfl⟩)

theorem isLegible_verbatim (g : Given) :
    g.verbatim.IsLegible 0 := by
  have htext : ∀ depth name (value : Option String), ∀ m ∈ member? name .string value,
      m.2.IsLegible depth :=
    fun _ => Json.legible_member? fun _ => trivial
  have hfilters : Json.HaveLegible 2 g.filterMembers := by
    apply Json.haveLegible_iff.mpr
    rw [filterMembers, List.forall_mem_append]
    constructor
    · intro m hm
      obtain ⟨name, -, hm⟩ := List.mem_flatMap.mp hm
      exact htext _ _ _ m hm
    · exact Json.legible_member? (f := Json.bool) (fun _ => trivial) _ _
  refine ⟨by decide, Json.haveLegible_iff.mpr ?_⟩
  simp only [requestMembers, List.forall_mem_append, List.forall_mem_singleton]
  exact ⟨⟨⟨htext _ _ _, htext _ _ _⟩, by decide, hfilters⟩, htext _ _ _⟩

/-- No date that was typed lies in a leap second within its minute. -/
theorem Means.leapsEndMinutes (h : g.Means r) :
    r.filters.LeapsEndMinutes := by
  have hdates : ∀ {name bound}, g.read? name Command.instant? = .ok bound →
      ∀ t, bound = some t → t.LeapEndsMinute := by
    intro name bound hread t ht
    obtain ⟨-, rfl⟩ := read?_eq_ok.mp hread
    obtain ⟨s, -, hs⟩ := Option.bind_eq_some_iff.mp ht
    exact Time.leapEndsMinute_of_parse (eq_ok_of_toOption hs)
  exact ⟨hdates h.before, hdates h.after, hdates h.during⟩

/-- The two requests ask for the same: blanks count in neither, and dates to the millisecond in
both. -/
theorem sameConstraints (h : g.Means r) :
    r.normalized.SameConstraints (g.readVerbatim r) where
  text := by
    unfold Request.queryText Request.normalized readVerbatim
    rw [h.query]
    cases g.words.head? with
    | none => rfl
    | some query => rfl
  conversation := rfl
  author := rfl
  mention := rfl
  attachment := rfl
  dates := r.filters.dateBounds_normalized
  pinned := Iff.rfl

end Given

end CommandLine
end ConversationSearch
