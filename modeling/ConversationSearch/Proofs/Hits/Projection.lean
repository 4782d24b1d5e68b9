import ConversationSearch.Proofs.Hits.Records
import ConversationSearch.Proofs.Text.Digits

/-!
# What a page of hits shows

A record shows the document of its hit and, for a message, the first marked fragment of its text.
What a hit shows is said by relations that follow the forms a hit can have; the records of a page
are then the projection of its hits, one by one and in their order, or there are none.
-/

namespace ConversationSearch

namespace EngineHit

/-- The first marked fragment of a field, if the field has one. -/
inductive FirstFragment (h : EngineHit) (field : String) : Option String → Prop
  | unmarked : h.highlight = none → FirstFragment h field none
  | otherFields {fields : List (String × List String)} :
      h.highlight = some fields → fields.lookup field = none → FirstFragment h field none
  | noFragments {fields : List (String × List String)} :
      h.highlight = some fields → fields.lookup field = some [] → FirstFragment h field none
  | first {fields : List (String × List String)} {fragment : String} {more : List String} :
      h.highlight = some fields → fields.lookup field = some (fragment :: more) →
      FirstFragment h field (some fragment)

/-- The record shows what the hit holds, its document being of the given kind. -/
inductive Shows (h : EngineHit) : Entity → SearchRecord → Prop
  | conversation {c : Conversation} :
      Conversation.decoder.ofJson h.source = .ok c → Shows h .conversation (.conversation c)
  | message {m : Message} {highlighted : Option String} :
      Message.decoder.ofJson h.source = .ok m → h.FirstFragment "text" highlighted →
      Shows h .message (.message ⟨m, highlighted⟩)

/-- The document of the hit is one of the given kind. -/
def Decodes (h : EngineHit) : Entity → Prop
  | .conversation => ∃ c, Conversation.decoder.ofJson h.source = .ok c
  | .message => ∃ m, Message.decoder.ofJson h.source = .ok m

/-- The document of the hit is refused as one of the given kind. -/
def RefusedFor (h : EngineHit) (f : Json.Failure) : Entity → Prop
  | .conversation => Conversation.decoder.ofJson h.source = .error f
  | .message => Message.decoder.ofJson h.source = .error f

variable {h : EngineHit} {target : Entity}

theorem fragment?_eq_iff {field : String} {fragment : Option String} :
    h.fragment? field = fragment ↔ h.FirstFragment field fragment := by
  constructor
  · rintro rfl
    unfold fragment?
    cases hhighlight : h.highlight with
    | none => exact .unmarked hhighlight
    | some fields =>
      simp only [bind, Option.bind]
      rcases hfield : fields.lookup field with _ | _ | ⟨fragment, more⟩
      · exact .otherFields hhighlight hfield
      · exact .noFragments hhighlight hfield
      · exact .first hhighlight hfield
  · intro hfirst
    cases hfirst with
    | unmarked hhighlight => simp [fragment?, hhighlight]
    | otherFields hhighlight hfield => simp [fragment?, hhighlight, hfield]
    | noFragments hhighlight hfield => simp [fragment?, hhighlight, hfield]
    | first hhighlight hfield => simp [fragment?, hhighlight, hfield]

theorem toRecord_eq_ok_iff {record : SearchRecord} :
    h.toRecord target = .ok record ↔ h.Shows target record := by
  cases target with
  | conversation =>
    constructor
    · intro hrecord
      obtain ⟨c, hc, hrecord⟩ := bind_eq_ok.mp hrecord
      obtain rfl := Except.ok.inj hrecord
      exact .conversation hc
    · rintro ⟨hc⟩
      exact bind_eq_ok.mpr ⟨_, hc, rfl⟩
  | message =>
    constructor
    · intro hrecord
      obtain ⟨m, hm, hrecord⟩ := bind_eq_ok.mp hrecord
      obtain rfl := Except.ok.inj hrecord
      exact .message hm (fragment?_eq_iff.mp rfl)
    · rintro (_ | ⟨hm, hfirst⟩)
      obtain rfl := fragment?_eq_iff.mpr hfirst
      exact bind_eq_ok.mpr ⟨_, hm, rfl⟩

theorem toRecord_eq_error_iff {f : Json.Failure} :
    h.toRecord target = .error f ↔ h.RefusedFor f target := by
  cases target with
  | conversation =>
    constructor
    · intro hrecord
      rcases bind_eq_error.mp hrecord with hc | ⟨c, -, hrecord⟩
      · exact hc
      · contradiction
    · intro hc
      exact bind_eq_error.mpr (.inl hc)
  | message =>
    constructor
    · intro hrecord
      rcases bind_eq_error.mp hrecord with hm | ⟨m, -, hrecord⟩
      · exact hm
      · contradiction
    · intro hm
      exact bind_eq_error.mpr (.inl hm)

theorem decodes_iff :
    h.Decodes target ↔ ∃ record, h.toRecord target = .ok record := by
  simp only [toRecord_eq_ok_iff]
  cases target with
  | conversation =>
    constructor
    · rintro ⟨c, hc⟩
      exact ⟨_, .conversation hc⟩
    · rintro ⟨_, ⟨hc⟩⟩
      exact ⟨_, hc⟩
  | message =>
    constructor
    · rintro ⟨m, hm⟩
      exact ⟨_, .message hm (fragment?_eq_iff.mp rfl)⟩
    · rintro ⟨_, _ | ⟨hm, -⟩⟩
      exact ⟨_, hm⟩

theorem label_eq (position : Nat) :
    h.label position = h.id.getD ("#" ++ toString position) := by
  rw [label, Text.ofList_digits]

end EngineHit

/-- The number of documents that match, as far as the engine has said it. -/
inductive EngineHits.Counts (h : EngineHits) : UInt64 → Prop
  | bare (n : UInt64) : h.total = some (.count n) → Counts h n
  | tracked (n : UInt64) (relation : Option String) :
      h.total = some (.tracked n relation) → Counts h n
  | uncounted : h.total = none → Counts h (.ofNat h.hits.length)

theorem EngineHits.counts_totalCount (h : EngineHits) :
    h.Counts h.totalCount := by
  unfold totalCount
  cases htotal : h.total with
  | none => exact .uncounted htotal
  | some total =>
    cases total with
    | count n => exact .bare n htotal
    | tracked n relation => exact .tracked n relation htotal

/-- A page of hits has a response exactly when every document on it can be decoded. The records of
the response then show the hits one by one and in their order, and the total stays as it is.
Otherwise the first hit that cannot be decoded is named, by its id or by its position. The total of
a whole response is the number that the engine has given, or else that of the hits. -/
theorem normalize_projects_hits (target : Entity) (hits : List EngineHit) (total : UInt64) :
    ((∃ response, normalize target hits total = .ok response) ↔
      ∀ hit ∈ hits, hit.Decodes target) ∧
    (∀ response, normalize target hits total = .ok response ↔
      List.Forall₂ (fun hit record => hit.Shows target record) hits response.hits ∧
        response.total = total) ∧
    (∀ failure, normalize target hits total = .error failure ↔
      ∃ before hit after f, hits = before ++ hit :: after ∧
        (∀ h ∈ before, h.Decodes target) ∧ hit.RefusedFor f target ∧
        failure = .malformedHit (hit.id.getD ("#" ++ toString before.length)) f.message) ∧
    (∀ given : Option EngineTotal, ∃ count, (EngineHits.mk given hits).Counts count ∧
      EngineResponse.normalize target ⟨⟨given, hits⟩⟩ = normalize target hits count) := by
  refine ⟨?_, ?_, ?_, ?_⟩
  · simp only [exists_normalize_iff, EngineHit.decodes_iff]
  · intro response
    simp only [normalize_eq_ok_iff, EngineHit.toRecord_eq_ok_iff]
  · intro failure
    simp only [normalize_eq_error_iff, EngineHit.decodes_iff, EngineHit.toRecord_eq_error_iff,
      EngineHit.label_eq]
  · intro given
    exact ⟨_, EngineHits.counts_totalCount ⟨given, hits⟩, rfl⟩

end ConversationSearch
