import ConversationSearch.Proofs.Schema.Verification
import ConversationSearch.Proofs.Text.Cutting

/-!
# Lookups and the rendered mapping

A dotted path finds the field of a declaration that it spells out. In the mapping that is rendered
for the declaration the same path leads, through the properties, to the mapping of that field. So
the declaration and the mapping tell the same fields to be analysed, to be dates and to be kept
verbatim, and a filter names a field that the index keeps verbatim, each of them from one path.
-/

namespace ConversationSearch.Schema

/-! ## Paths into a declaration -/

@[simp] theorem resolve_no_fields (path : List String) :
    resolve [] path = none := by
  match path with
  | [] => rfl
  | [_] => rfl
  | _ :: _ :: _ => rfl

theorem resolve_descend (fields : Fields) (name next : String) (rest : List String) :
    resolve fields (name :: next :: rest) =
      (fields.lookup name).bind fun kind => resolve kind.inner (next :: rest) := by
  rw [resolve]
  · cases fields.lookup name with
    | none => rfl
    | some kind => cases kind <;> simp [FieldKind.inner]
  · exact List.cons_ne_nil next rest

/-- A longer path goes on below the field that its front finds. -/
theorem resolve_append (fields : Fields) {path rest : List String} (hpath : path ≠ [])
    (hrest : rest ≠ []) :
    resolve fields (path ++ rest) =
      (resolve fields path).bind fun kind => resolve kind.inner rest := by
  obtain ⟨next, below, rfl⟩ := List.exists_cons_of_ne_nil hrest
  induction path generalizing fields with
  | nil => contradiction
  | cons name path ih =>
    cases path with
    | nil => exact resolve_descend fields name next below
    | cons second path =>
      rw [List.cons_append, List.cons_append, resolve_descend, resolve_descend, Option.bind_assoc]
      congr 1
      funext kind
      exact ih kind.inner (List.cons_ne_nil _ _)

theorem resolve_cons (name : String) (kind : FieldKind) (rest : Fields) (first : String)
    (path : List String) :
    resolve ((name, kind) :: rest) (first :: path) =
      if first = name then (if path = [] then some kind else resolve kind.inner path)
      else resolve rest (first :: path) := by
  have hlookup : ((name, kind) :: rest).lookup first =
      if first = name then some kind else rest.lookup first := by
    by_cases heq : first = name
    · simp [heq]
    · have hne : (first == name) = false := by simpa using heq
      rw [List.lookup_cons, hne, if_neg heq]
  cases path with
  | nil => exact hlookup
  | cons next path =>
    rw [resolve_descend, resolve_descend, hlookup, if_neg (List.cons_ne_nil _ _)]
    split <;> rfl

/-- A declaration has a field of the given kind at a path. -/
def Declares (fields : Fields) (path : List String) (kind : FieldKind) : Prop :=
  ∃ f ∈ declaredFields fields, f.path = path ∧ f.kind = kind

theorem declares_cons {name : String} {first : FieldKind} {rest : Fields} {path : List String}
    {kind : FieldKind} :
    Declares ((name, first) :: rest) path kind ↔
      path = [name] ∧ first = kind ∨
        (∃ below, path = name :: below ∧ Declares first.inner below kind) ∨
        Declares rest path kind := by
  unfold Declares
  rw [declaredFields_cons]
  constructor
  · rintro ⟨f, hf, rfl, rfl⟩
    rcases List.mem_append.mp hf with hf | hf
    · rcases List.mem_cons.mp hf with rfl | hf
      · exact .inl ⟨rfl, rfl⟩
      · obtain ⟨below, hbelow, rfl⟩ := List.mem_map.mp hf
        exact .inr (.inl ⟨below.path, rfl, below, hbelow, rfl, rfl⟩)
    · exact .inr (.inr ⟨f, hf, rfl, rfl⟩)
  · rintro (⟨rfl, rfl⟩ | ⟨_, rfl, f, hf, rfl, rfl⟩ | ⟨f, hf, rfl, rfl⟩)
    · exact ⟨_, List.mem_append_left _ List.mem_cons_self, rfl, rfl⟩
    · exact ⟨f.under name,
        List.mem_append_left _ (List.mem_cons_of_mem _ (List.mem_map_of_mem hf)), rfl, rfl⟩
    · exact ⟨f, List.mem_append_right _ hf, rfl, rfl⟩

theorem Declares.exists_cons {fields : Fields} {path : List String} {kind : FieldKind}
    (h : Declares fields path kind) :
    ∃ name rest, path = name :: rest ∧ name ∈ fields.map (·.1) := by
  obtain ⟨f, hf, rfl, -⟩ := h
  exact exists_path_eq_cons hf

/-- A path finds the field that is declared there, and nothing else. -/
theorem resolve_eq_some_iff {fields : Fields} (hnames : DistinctNames fields) {path : List String}
    {kind : FieldKind} :
    resolve fields path = some kind ↔ Declares fields path kind := by
  induction fields using Fields.induction generalizing path kind with
  | nil => simp [Declares, declaredFields]
  | cons name first rest hbelow ih =>
    obtain ⟨hname, hinner, hrest⟩ := distinctNames_cons.mp hnames
    rw [declares_cons]
    cases path with
    | nil =>
      have hnone : ¬Declares rest [] kind := fun h => by
        obtain ⟨_, _, heq, -⟩ := h.exists_cons
        contradiction
      have hempty : resolve ((name, first) :: rest) [] = none := rfl
      simp [hempty, hnone]
    | cons segment path =>
      rw [resolve_cons]
      by_cases hsegment : segment = name
      · subst hsegment
        have hother : ¬Declares rest (segment :: path) kind := by
          intro h
          obtain ⟨_, _, heq, hlisted⟩ := h.exists_cons
          obtain ⟨rfl, -⟩ := List.cons.inj heq
          exact hname hlisted
        have hlevel : ¬Declares first.inner [] kind := fun h => by
          obtain ⟨_, _, heq, -⟩ := h.exists_cons
          contradiction
        by_cases hpath : path = []
        · simp [hpath, hlevel, hpath ▸ hother]
        · simp [hpath, hbelow hinner, hother]
      · simp [hsegment, ih hrest]

/-! ## Paths into a mapping -/

/-- The mapping of a field that the index keeps beside the field with the given mapping. -/
def subfield? (mapping : Json) (name : String) : Option Json :=
  (mapping.get? "fields").bind (·.get? name)

/-- The type at a path that goes down through the properties. -/
def typeAt? (mapping : Json) (path : List String) : Option String :=
  (at? mapping path).bind type?

/-- A path leads to a type: it goes down through the properties, and its last step may go to a field
that the index keeps beside another. -/
def LeadsTo (mapping : Json) (path : List String) (type : String) : Prop :=
  typeAt? mapping path = some type ∨
    ∃ parents name, path = parents ++ [name] ∧
      ((at? mapping parents).bind (subfield? · name)).bind type? = some type

theorem child?_eq_lookup {fields : Fields} (hnames : DistinctNames fields) {mapping : Json}
    (h : mapping.get? "properties" = some (.ofMembers (mappedFields fields))) (name : String) :
    child? mapping name = (fields.lookup name).map (·.mapping) := by
  cases hfound : fields.lookup name with
  | none =>
    have hkey : name ∉ (mappedFields fields).map (·.1) := by
      intro hmem
      rw [mappedFields_eq_map, List.map_map] at hmem
      obtain ⟨f, hf, rfl⟩ := List.mem_map.mp hmem
      have hself := List.lookup_eq_none_iff.mp hfound f hf
      simp at hself
    rw [child?, h]
    exact Json.lookup_foldl_insert_of_not_mem hkey []
  | some kind =>
    exact child?_of_properties h hnames.nodup (name, kind) (Json.mem_of_lookup hfound)

theorem DistinctNames.inner_of_mem {fields : Fields} (h : DistinctNames fields) {name : String}
    {kind : FieldKind} (hmem : (name, kind) ∈ fields) :
    DistinctNames kind.inner := by
  induction fields with
  | nil => contradiction
  | cons first rest ih =>
    obtain ⟨-, hinner, hrest⟩ := distinctNames_cons.mp h
    rcases List.mem_cons.mp hmem with rfl | hmem
    · exact hinner
    · exact ih hrest hmem

/-- A path leads through the properties to the mapping of the field that it finds. -/
theorem at?_of_properties {fields : Fields} (hnames : DistinctNames fields) {mapping : Json}
    (h : mapping.get? "properties" = some (.ofMembers (mappedFields fields)))
    {path : List String} (hpath : path ≠ []) :
    at? mapping path = (resolve fields path).map (·.mapping) := by
  induction path generalizing fields mapping with
  | nil => contradiction
  | cons name path ih =>
    rw [at?, child?_eq_lookup hnames h]
    cases path with
    | nil =>
      have hlookup : resolve fields [name] = fields.lookup name := rfl
      rw [hlookup]
      cases fields.lookup name <;> rfl
    | cons next path =>
      rw [resolve_descend]
      cases hfound : fields.lookup name with
      | none => rfl
      | some kind =>
        rw [Option.map_some, Option.bind_some, Option.bind_some]
        have hinner := hnames.inner_of_mem (Json.mem_of_lookup hfound)
        cases kind with
        | nested below => exact ih hinner rfl (List.cons_ne_nil _ _)
        | _ =>
          -- nothing is below a field that is not nested, and its mapping has no properties
          have hnone : resolve [] (next :: path) = none := resolve_no_fields _
          exact congrArg (Option.map (·.mapping)) hnone.symm

theorem at?_mappings {fields : Fields} (hnames : DistinctNames fields) (p : String) :
    at? (mappings fields) (Text.segments p) = (field? fields p).map (·.mapping) :=
  at?_of_properties hnames rfl (Text.segments_ne_nil p)

theorem typeAt?_mappings {fields : Fields} (hnames : DistinctNames fields) (p : String) :
    typeAt? (mappings fields) (Text.segments p) = (field? fields p).map (·.typeName) := by
  rw [typeAt?, at?_mappings hnames]
  cases field? fields p with
  | none => rfl
  | some kind => exact kind.type?_mapping

/-- Only a field that is both analysed and kept verbatim has another beside it. -/
theorem type?_subfield?_mapping {kind : FieldKind} {name type : String} :
    (subfield? kind.mapping name).bind type? = some type ↔
      kind.isDual = true ∧ name = keywordSubfield ∧ type = "keyword" := by
  cases kind with
  | textWithKeyword =>
    by_cases hname : name = keywordSubfield
    · subst hname
      have htype : (subfield? FieldKind.textWithKeyword.mapping keywordSubfield).bind type? =
          some "keyword" := rfl
      simp [htype, FieldKind.isDual, eq_comm]
    · have hne : (name == keywordSubfield) = false := by simpa using hname
      have hnone : subfield? FieldKind.textWithKeyword.mapping name = none := by
        simp [subfield?, FieldKind.mapping, Json.get?, List.lookup_cons, hne]
      simp [hnone, hname]
  | _ =>
    have hnone : ∀ mapping : Json, mapping.get? "fields" = none →
        (subfield? mapping name).bind type? = none := by
      intro mapping h
      rw [subfield?, h]
      rfl
    rw [hnone _ rfl]
    simp [FieldKind.isDual]

/-! ## Paths that lead to a type -/

variable {fields : Fields}

/-- A path leads to the type of the field that it finds, or it names the verbatim field of one that
is both analysed and kept verbatim. -/
theorem leadsTo_mappings_iff (hnames : DistinctNames fields) {q type : String} :
    LeadsTo (mappings fields) (Text.segments q) type ↔
      (∃ kind, field? fields q = some kind ∧ kind.typeName = type) ∨
        ∃ p kind, field? fields p = some kind ∧ kind.isDual = true ∧
          q = p ++ "." ++ keywordSubfield ∧ type = "keyword" := by
  unfold LeadsTo
  rw [typeAt?_mappings hnames, Option.map_eq_some_iff]
  apply or_congr Iff.rfl
  have hlast : Text.segments keywordSubfield = [keywordSubfield] := by decide
  constructor
  · rintro ⟨parents, name, hq, htype⟩
    have hparents : parents ≠ [] := by
      rintro rfl
      have hroot : subfield? (mappings fields) name = none := rfl
      rw [at?, Option.bind_some, hroot] at htype
      contradiction
    obtain ⟨p, rfl⟩ := Text.exists_segments_eq hparents fun parent hparent =>
      Text.not_mem_of_mem_segments (hq ▸ List.mem_append_left _ hparent)
    rw [at?_mappings hnames] at htype
    cases hfound : field? fields p with
    | none =>
      rw [hfound] at htype
      contradiction
    | some kind =>
      rw [hfound, Option.map_some, Option.bind_some, type?_subfield?_mapping] at htype
      obtain ⟨hdual, rfl, rfl⟩ := htype
      refine ⟨p, kind, hfound, hdual, Text.segments_injective ?_, rfl⟩
      rw [hq, Text.segments_dot, hlast]
  · rintro ⟨p, kind, hfound, hdual, rfl, rfl⟩
    refine ⟨Text.segments p, keywordSubfield, by rw [Text.segments_dot, hlast], ?_⟩
    rw [at?_mappings hnames, hfound, Option.map_some, Option.bind_some, type?_subfield?_mapping]
    exact ⟨hdual, rfl, rfl⟩

theorem exactPath_eq_some_iff {kind : FieldKind} {p q : String} :
    kind.exactPath p = some q ↔
      (kind.typeName = "keyword" ∨ kind.typeName = "boolean") ∧ p = q ∨
        kind.isDual = true ∧ q = p ++ "." ++ keywordSubfield := by
  cases kind <;> simp [FieldKind.exactPath, FieldKind.typeName, FieldKind.isDual, eq_comm]

theorem exactField_eq_some_iff {p q : String} :
    exactField fields p = some q ↔ ∃ kind, field? fields p = some kind ∧
      ((kind.typeName = "keyword" ∨ kind.typeName = "boolean") ∧ p = q ∨
        kind.isDual = true ∧ q = p ++ "." ++ keywordSubfield) := by
  unfold exactField
  rw [Option.bind_eq_some_iff]
  exact exists_congr fun kind => and_congr_right fun _ => exactPath_eq_some_iff

/-- The paths that filters name are those that lead to a verbatim type. -/
theorem exists_exactField_iff (hnames : DistinctNames fields) {q : String} :
    (∃ p, exactField fields p = some q) ↔
      LeadsTo (mappings fields) (Text.segments q) "keyword" ∨
        LeadsTo (mappings fields) (Text.segments q) "boolean" := by
  rw [leadsTo_mappings_iff hnames, leadsTo_mappings_iff hnames]
  constructor
  · rintro ⟨p, h⟩
    obtain ⟨kind, hfound, ⟨hkeyword | hboolean, rfl⟩ | ⟨hdual, rfl⟩⟩ :=
      exactField_eq_some_iff.mp h
    · exact .inl (.inl ⟨kind, hfound, hkeyword⟩)
    · exact .inr (.inl ⟨kind, hfound, hboolean⟩)
    · exact .inl (.inr ⟨p, kind, hfound, hdual, rfl, rfl⟩)
  · rintro ((⟨kind, hfound, htype⟩ | ⟨p, kind, hfound, hdual, rfl, -⟩) |
      (⟨kind, hfound, htype⟩ | ⟨p, kind, -, -, -, htype⟩))
    · exact ⟨q, exactField_eq_some_iff.mpr ⟨kind, hfound, .inl ⟨.inl htype, rfl⟩⟩⟩
    · exact ⟨p, exactField_eq_some_iff.mpr ⟨kind, hfound, .inr ⟨hdual, rfl⟩⟩⟩
    · exact ⟨q, exactField_eq_some_iff.mpr ⟨kind, hfound, .inl ⟨.inr htype, rfl⟩⟩⟩
    · contradiction

theorem field?_below {p rest : String} {kind : FieldKind} (hfound : field? fields p = some kind) :
    field? fields (p ++ "." ++ rest) = resolve kind.inner (Text.segments rest) := by
  unfold field? at hfound ⊢
  rw [Text.segments_dot, resolve_append fields (Text.segments_ne_nil p) (Text.segments_ne_nil rest),
    hfound, Option.bind_some]

theorem FieldKind.inner_of_isDual {kind : FieldKind} (hdual : kind.isDual = true) :
    kind.inner = [] := by
  cases kind <;> first | rfl | contradiction

/-- Different paths have different exact paths. -/
theorem exactField_injective {p p' q : String} (h : exactField fields p = some q)
    (h' : exactField fields p' = some q) :
    p = p' := by
  -- the verbatim field of a field that has one is not found itself
  have hapart : ∀ {p kind q}, field? fields p = some kind → kind.isDual = true →
      q = p ++ "." ++ keywordSubfield → field? fields q = none := by
    rintro p kind _ hfound hdual rfl
    rw [field?_below hfound, FieldKind.inner_of_isDual hdual, resolve_no_fields]
  obtain ⟨kind, hfound, ⟨-, rfl⟩ | ⟨hdual, hq⟩⟩ := exactField_eq_some_iff.mp h
  · obtain ⟨kind', hfound', ⟨-, rfl⟩ | ⟨hdual', hq'⟩⟩ := exactField_eq_some_iff.mp h'
    · rfl
    · rw [hapart hfound' hdual' hq'] at hfound
      contradiction
  · obtain ⟨kind', hfound', ⟨-, rfl⟩ | ⟨hdual', hq'⟩⟩ := exactField_eq_some_iff.mp h'
    · rw [hapart hfound hdual hq] at hfound'
      contradiction
    · have hsegments := congrArg Text.segments (hq.symm.trans hq')
      rw [Text.segments_dot, Text.segments_dot] at hsegments
      exact Text.segments_injective (List.append_cancel_right hsegments)

theorem isFullText_iff (hnames : DistinctNames fields) {p : String} :
    isFullText fields p = true ↔
      typeAt? (mappings fields) (Text.segments p) = some "text" := by
  rw [typeAt?_mappings hnames, isFullText]
  cases field? fields p with
  | none => simp
  | some kind => cases kind <;> simp [FieldKind.isFullText, FieldKind.typeName]

theorem isDate_iff (hnames : DistinctNames fields) {p : String} :
    isDate fields p = true ↔ typeAt? (mappings fields) (Text.segments p) = some "date" := by
  rw [typeAt?_mappings hnames, isDate]
  cases field? fields p with
  | none => simp
  | some kind => cases kind <;> simp [FieldKind.isDate, FieldKind.typeName]

/-! ## Paths that lead to nothing -/

/-- Neither the declaration nor its mapping has anything at a path. -/
structure LeadsNowhere (fields : Fields) (p : String) : Prop where
  field : field? fields p = none
  exact : exactField fields p = none
  fullText : isFullText fields p = false
  date : isDate fields p = false
  mapped : at? (mappings fields) (Text.segments p) = none

theorem leadsNowhere_iff (hnames : DistinctNames fields) {p : String} :
    LeadsNowhere fields p ↔ field? fields p = none := by
  constructor
  · exact LeadsNowhere.field
  · intro h
    exact ⟨h, by rw [exactField, h]; rfl, by rw [isFullText, h]; rfl, by rw [isDate, h]; rfl,
      by rw [at?_mappings hnames, h]; rfl⟩

/-- Each name on the way to a declared field is the name of a declared field. -/
theorem Declares.exists_name {path : List String} {kind : FieldKind}
    (h : Declares fields path kind) {name : String} (hname : name ∈ path) :
    ∃ f ∈ declaredFields fields, f.name = name := by
  induction fields using Fields.induction generalizing path kind with
  | nil => simp [Declares, declaredFields] at h
  | cons first below rest hbelow ih =>
    rcases declares_cons.mp h with ⟨rfl, -⟩ | ⟨path, rfl, hpath⟩ | hrest
    · obtain rfl := List.mem_singleton.mp hname
      exact ⟨_, head_mem_declaredFields _ _ _, rfl⟩
    · rcases List.mem_cons.mp hname with rfl | hname
      · exact ⟨_, head_mem_declaredFields _ _ _, rfl⟩
      · obtain ⟨f, hf, rfl⟩ := hbelow hpath hname
        exact ⟨_, under_mem_declaredFields hf _ _, rfl⟩
    · obtain ⟨f, hf, rfl⟩ := ih hrest hname
      exact ⟨f, tail_mem_declaredFields hf _ _, rfl⟩

/-- Where no declared field has an empty name, an empty segment leads to nothing. -/
theorem leadsNowhere_of_empty_segment (hnames : DistinctNames fields)
    (hnamed : ∀ f ∈ declaredFields fields, f.name ≠ "") {p : String}
    (hempty : "" ∈ Text.segments p) :
    LeadsNowhere fields p := by
  rw [leadsNowhere_iff hnames, Option.eq_none_iff_forall_ne_some]
  intro kind hfound
  obtain ⟨f, hf, hname⟩ := ((resolve_eq_some_iff hnames).mp hfound).exists_name hempty
  exact hnamed f hf hname

/-- The lookups of a declaration agree with the mapping that is rendered for it, where no name is
given twice at one level. The path that a filter names leads to a verbatim type, and each path that
does is named by a filter on exactly one field. The paths of analysed fields and of dates are those
with these types. A path finds a field exactly where it spells out a declared one, so nothing is
below a field that is not nested, and an empty segment, as behind a dot at the end, leads to
nothing, unless there is a field that has no name. -/
theorem lookups_agree_with_mapping {fields : Fields} (hnames : DistinctNames fields) :
    (∀ p q, exactField fields p = some q →
      LeadsTo (mappings fields) (Text.segments q) "keyword" ∨
        LeadsTo (mappings fields) (Text.segments q) "boolean") ∧
    (∀ q, LeadsTo (mappings fields) (Text.segments q) "keyword" ∨
        LeadsTo (mappings fields) (Text.segments q) "boolean" →
      ∃! p, exactField fields p = some q) ∧
    (∀ p, isFullText fields p = true ↔
      typeAt? (mappings fields) (Text.segments p) = some "text") ∧
    (∀ p, isDate fields p = true ↔
      typeAt? (mappings fields) (Text.segments p) = some "date") ∧
    (∀ p kind, field? fields p = some kind ↔ Declares fields (Text.segments p) kind) ∧
    (∀ p rest kind, field? fields p = some kind → kind.typeName ≠ "nested" →
      LeadsNowhere fields (p ++ "." ++ rest)) ∧
    ((∀ f ∈ declaredFields fields, f.name ≠ "") →
      (∀ p, "" ∈ Text.segments p → LeadsNowhere fields p) ∧
        ∀ p, LeadsNowhere fields (p ++ ".")) := by
  refine ⟨fun p q h => (exists_exactField_iff hnames).mp ⟨p, h⟩, ?_,
    fun _ => isFullText_iff hnames, fun _ => isDate_iff hnames,
    fun _ _ => resolve_eq_some_iff hnames, ?_, ?_⟩
  · intro q hq
    obtain ⟨p, hp⟩ := (exists_exactField_iff hnames).mpr hq
    exact ⟨p, hp, fun _ hp' => exactField_injective hp' hp⟩
  · intro p rest kind hfound hkind
    rw [leadsNowhere_iff hnames, field?_below hfound]
    cases kind with
    | nested below => exact absurd rfl hkind
    | _ => exact resolve_no_fields _
  · intro hnamed
    refine ⟨fun p => leadsNowhere_of_empty_segment hnames hnamed, fun p => ?_⟩
    have hend := Text.segments_dot p ""
    rw [String.append_empty] at hend
    have hempty : "" ∈ Text.segments "" := by decide
    exact leadsNowhere_of_empty_segment hnames hnamed
      (hend ▸ List.mem_append_right (Text.segments p) hempty)

/-- In conversations the handle of a participant leads to a field that is kept verbatim, and one
path names the id. There is nothing below the last message, behind an empty segment or behind a dot
at the end. -/
theorem paths_of_conversations :
    DistinctNames conversationFields ∧
    LeadsTo (mappings conversationFields) ["participants", "handle", "keyword"] "keyword" ∧
    (∃! p, exactField conversationFields p = some "id") ∧
    typeAt? (mappings conversationFields) ["lastMessage"] = some "text" ∧
    isDate conversationFields "date" = true ∧
    Declares conversationFields ["participants", "username"] .textWithKeyword ∧
    LeadsNowhere conversationFields "lastMessage.keyword" ∧
    LeadsNowhere conversationFields "participants..handle" ∧
    LeadsNowhere conversationFields "date." := by
  have hnames := distinctNames_conversationFields
  obtain ⟨hexact, honly, hfullText, hdate, hdeclared, hbelow, hempty⟩ :=
    lookups_agree_with_mapping hnames
  have hnamed : ∀ f ∈ declaredFields conversationFields, f.name ≠ "" := by
    simp [conversationFields, participantFields, declaredFields, FieldKind.declared,
      DeclaredField.under]
  obtain ⟨hsegment, hend⟩ := hempty hnamed
  have hhandle : LeadsTo (mappings conversationFields) ["participants", "handle", "keyword"]
      "keyword" := by
    rcases hexact "participants.handle" "participants.handle.keyword" (by decide) with h | h
    · exact h
    · rw [leadsTo_mappings_iff hnames] at h
      rcases h with ⟨kind, hfound, -⟩ | ⟨_, _, -, -, -, htype⟩
      · have hnone : field? conversationFields "participants.handle.keyword" = none := by decide
        rw [hnone] at hfound
        contradiction
      · contradiction
  have hid : LeadsTo (mappings conversationFields) ["id"] "keyword" := .inl (by decide)
  exact ⟨hnames, hhandle, honly "id" (.inl hid), (hfullText "lastMessage").mp (by decide),
    (hdate "date").mpr (by decide), (hdeclared "participants.username" _).mp (by rfl),
    hbelow "lastMessage" "keyword" .text (by rfl) (by decide), hsegment _ (by decide),
    hend "date"⟩

/-- A field without a name is found at the empty path, and within a nested field behind a dot at the
end. -/
theorem field_without_name_is_found :
    let fields : Fields := [("", .keyword), ("owner", .nested [("", .boolean)])]
    DistinctNames fields ∧ (∀ f ∈ declaredFields fields, '.' ∉ f.name.toList) ∧
      "" ∈ Text.segments "" ∧ exactField fields "" = some "" ∧ ¬LeadsNowhere fields "" ∧
      exactField fields "owner." = some "owner." ∧ ¬LeadsNowhere fields ("owner" ++ ".") := by
  intro fields
  have hnames : DistinctNames fields := by
    simp [fields, DistinctNames, FieldKind.IsDistinct]
  have hfound : exactField fields "" = some "" := by decide
  have hbelow : exactField fields "owner." = some "owner." := by decide
  refine ⟨hnames, ?_, by decide, hfound, fun h => ?_, hbelow, fun h => ?_⟩
  · simp [fields, declaredFields, FieldKind.declared, DeclaredField.under]
  · exact absurd (hfound.symm.trans h.exact) (by decide)
  · exact absurd (hbelow.symm.trans h.exact) (by decide)

end ConversationSearch.Schema
