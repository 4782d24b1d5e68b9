import ConversationSearch.Proofs.Json.Members
import ConversationSearch.Proofs.Schema.Declared

/-!
# Mappings that cover a declaration

A mapping covers a declaration when each declared field is in its place, with the type of its kind,
with the verbatim field where the kind asks for one, and with the fields below it covered in turn. A
comparison reports nothing exactly then. The mapping that is rendered for a declaration covers it.
-/

namespace ConversationSearch.Schema

/-! ## What a mapping says of a field -/

/-- The mapping of a field below the one with the given mapping. -/
def child? (mapping : Json) (name : String) : Option Json :=
  (mapping.get? "properties").bind (·.get? name)

/-- The type that a mapping gives. -/
def type? (mapping : Json) : Option String :=
  (mapping.get? "type").bind Json.text?

/-- The type that a mapping gives the verbatim field. -/
def keywordType? (mapping : Json) : Option String :=
  ((mapping.get? "fields").bind (·.get? keywordSubfield)).bind type?

theorem liveType_eq (mapping : Json) :
    liveType mapping = (type? mapping).getD "object" :=
  rfl

theorem hasKeyword_iff {mapping : Json} :
    hasKeyword mapping = true ↔ keywordType? mapping = some "keyword" := by
  rw [hasKeyword, beq_iff_eq, keywordType?, Option.bind_assoc]
  rfl

namespace FieldKind

variable {kind : FieldKind} {mapping : Json}

/-- No kind renders to the type that stands for a mapping without one. -/
theorem liveType_eq_iff :
    liveType mapping = kind.typeName ↔ type? mapping = some kind.typeName := by
  have hne : "object" ≠ kind.typeName := by cases kind <;> simp [typeName]
  rw [liveType_eq]
  cases type? mapping with
  | none => simp [hne]
  | some found => simp

theorem type?_mapping (kind : FieldKind) :
    type? kind.mapping = some kind.typeName := by
  cases kind <;> rfl

end FieldKind

/-! ## Coverage -/

mutual

/-- The mapping has the type of the kind, a field of both kinds has its verbatim field, and what
is declared below a nested field is covered by its own properties. -/
def FieldKind.Covered (mapping : Json) : FieldKind → Prop
  | .textWithKeyword => type? mapping = some "text" ∧ keywordType? mapping = some "keyword"
  | .nested fields => type? mapping = some "nested" ∧ Covers mapping fields
  | .keyword => type? mapping = some "keyword"
  | .text => type? mapping = some "text"
  | .date => type? mapping = some "date"
  | .boolean => type? mapping = some "boolean"

/-- Each declared field is among the properties of the mapping, and is covered. -/
def Covers (mapping : Json) : List (String × FieldKind) → Prop
  | [] => True
  | (name, kind) :: rest =>
    (∃ actual, child? mapping name = some actual ∧ kind.Covered actual) ∧ Covers mapping rest

end

theorem FieldKind.covered_iff {kind : FieldKind} {mapping : Json} :
    kind.Covered mapping ↔ type? mapping = some kind.typeName ∧
      (kind.isDual = true → keywordType? mapping = some "keyword") ∧ Covers mapping kind.inner := by
  cases kind <;> simp [Covered, Covers, typeName, isDual, inner]

/-! ## The report of a field -/

/-- What is reported of a field that has a mapping. -/
def FieldKind.fault? (path : String) (actual : Json) (kind : FieldKind) : Option Difference :=
  if type? actual ≠ some kind.typeName then
    some (.otherType path (liveType actual) kind.typeName)
  else if kind.isDual = true ∧ keywordType? actual ≠ some "keyword" then some (.noKeyword path)
  else none

theorem FieldKind.fault?_eq_none_iff {path : String} {actual : Json} {kind : FieldKind} :
    kind.fault? path actual = none ↔ type? actual = some kind.typeName ∧
      (kind.isDual = true → keywordType? actual = some "keyword") := by
  unfold fault?
  split
  · next htype => simp [htype]
  · next htype =>
    rw [not_not] at htype
    simp [htype]

theorem FieldKind.differences_of_type {actual : Json} {kind : FieldKind}
    (htype : type? actual = some kind.typeName) (path : String) :
    kind.differences path actual = (kind.fault? path actual).toList ++
      Schema.differences path kind.inner actual := by
  have hlive := not_not.mpr (liveType_eq_iff.mpr htype)
  have hfault := not_not.mpr htype
  cases kind with
  | textWithKeyword =>
    rw [FieldKind.differences, if_neg hlive, fault?, if_neg hfault]
    by_cases hkeyword : keywordType? actual = some "keyword"
    · rw [if_pos (hasKeyword_iff.mpr hkeyword), if_neg (fun h => h.2 hkeyword)]
      rfl
    · rw [if_neg (mt hasKeyword_iff.mp hkeyword), if_pos ⟨rfl, hkeyword⟩]
      rfl
  | nested fields =>
    rw [FieldKind.differences, if_neg hlive, fault?, if_neg hfault]
    rfl
  | keyword | text | date | boolean =>
    rw [FieldKind.differences, if_neg hlive, fault?, if_neg hfault]
    · rfl
    all_goals simp

theorem FieldKind.differences_of_not_type {actual : Json} {kind : FieldKind}
    (htype : type? actual ≠ some kind.typeName) (path : String) :
    kind.differences path actual = (kind.fault? path actual).toList := by
  have hlive := mt liveType_eq_iff.mp htype
  cases kind with
  | textWithKeyword | nested fields =>
    rw [FieldKind.differences, if_pos hlive, fault?, if_pos htype]
    rfl
  | keyword | text | date | boolean =>
    rw [FieldKind.differences, if_pos hlive, fault?, if_pos htype]
    · rfl
    all_goals simp

theorem differences_cons (place name : String) (kind : FieldKind) (rest : Fields)
    (mapping : Json) :
    differences place ((name, kind) :: rest) mapping =
      (match child? mapping name with
        | none => [.missing place name]
        | some actual => kind.differences (place ++ "." ++ name) actual) ++
      differences place rest mapping := by
  rw [differences, fieldDifferences]
  rfl

/-- A comparison reports nothing exactly when the mapping covers the declaration. -/
theorem differences_eq_nil_iff {place : String} {fields : Fields} {mapping : Json} :
    differences place fields mapping = [] ↔ Covers mapping fields := by
  induction fields using Fields.induction generalizing place mapping with
  | nil => simp [differences, fieldDifferences, Covers]
  | cons name kind rest hbelow ih =>
    rw [differences_cons, List.append_eq_nil_iff, ih, Covers]
    apply and_congr_left'
    cases hchild : child? mapping name with
    | none => simp
    | some actual =>
      have hreport : kind.differences (place ++ "." ++ name) actual = [] ↔
          kind.Covered actual := by
        rw [FieldKind.covered_iff]
        by_cases htype : type? actual = some kind.typeName
        · rw [FieldKind.differences_of_type htype, List.append_eq_nil_iff,
            Option.toList_eq_nil_iff, FieldKind.fault?_eq_none_iff, hbelow, and_assoc]
        · rw [FieldKind.differences_of_not_type htype, Option.toList_eq_nil_iff,
            FieldKind.fault?_eq_none_iff]
          simp [htype]
      simp [hreport]

/-! ## Rendered mappings -/

theorem mappedFields_eq_map (fields : Fields) :
    mappedFields fields = fields.map fun f => (f.1, f.2.mapping) := by
  induction fields with
  | nil => rfl
  | cons field rest ih => rw [mappedFields, ih, List.map_cons]

theorem child?_of_properties {fields : Fields} {mapping : Json}
    (h : mapping.get? "properties" = some (.ofMembers (mappedFields fields)))
    (hnames : (fields.map (·.1)).Nodup) :
    ∀ f ∈ fields, child? mapping f.1 = some f.2.mapping := by
  intro f hf
  have hkeys : ((mappedFields fields).map (·.1)).Nodup := by
    rw [mappedFields_eq_map, List.map_map]
    exact hnames
  have hmem : (f.1, f.2.mapping) ∈ mappedFields fields := by
    rw [mappedFields_eq_map]
    exact List.mem_map_of_mem hf
  rw [child?, h]
  exact Json.lookup_sortMembers_of_mem hkeys hmem

theorem covers_of_children {fields : Fields} (hnames : DistinctNames fields) {mapping : Json}
    (h : ∀ f ∈ fields, child? mapping f.1 = some f.2.mapping) :
    Covers mapping fields := by
  induction fields using Fields.induction generalizing mapping with
  | nil => trivial
  | cons name kind rest hbelow ih =>
    obtain ⟨-, hinner, hrest⟩ := distinctNames_cons.mp hnames
    obtain ⟨hhead, htail⟩ := List.forall_mem_cons.mp h
    refine ⟨⟨kind.mapping, hhead, FieldKind.covered_iff.mpr ⟨kind.type?_mapping, ?_, ?_⟩⟩,
      ih hrest htail⟩
    · intro hdual
      cases kind with
      | textWithKeyword => rfl
      | _ => contradiction
    · apply hbelow hinner
      cases kind with
      | nested below => exact child?_of_properties rfl hinner.nodup
      | _ => exact List.forall_mem_nil _

/-- The mapping that is rendered for a declaration covers it. -/
theorem covers_mappings {fields : Fields} (hnames : DistinctNames fields) :
    Covers (mappings fields) fields :=
  covers_of_children hnames (child?_of_properties rfl hnames.nodup)

theorem differences_mappings {fields : Fields} (hnames : DistinctNames fields) (place : String) :
    differences place fields (mappings fields) = [] :=
  differences_eq_nil_iff.mpr (covers_mappings hnames)

/-! ## The declarations of documents -/

theorem distinctNames_conversationFields :
    DistinctNames conversationFields := by
  simp [conversationFields, participantFields, DistinctNames, FieldKind.IsDistinct]

theorem distinctNames_messageFields :
    DistinctNames messageFields := by
  simp [messageFields, DistinctNames, FieldKind.IsDistinct]

end ConversationSearch.Schema

namespace ConversationSearch

theorem Entity.distinctNames_fields (e : Entity) :
    Schema.DistinctNames e.fields := by
  cases e with
  | conversation => exact Schema.distinctNames_conversationFields
  | message => exact Schema.distinctNames_messageFields

/-- The mapping that is rendered for a kind of document is valid. -/
theorem Entity.verify_mappings (e : Entity) :
    e.verify (Schema.mappings e.fields) = ⟨true, []⟩ := by
  rw [Entity.verify, Schema.differences_mappings e.distinctNames_fields]
  rfl

end ConversationSearch
