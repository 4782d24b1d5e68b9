import ConversationSearch.Proofs.Schema.Coverage

/-!
# The errors of a comparison

What a comparison of a mapping with a declaration reports is one error at most for each declared
field, in the order of the declaration, and none for the fields below a nested field that is missing
or has another type. It looks at nothing but the types of declared fields and of their verbatim
fields.
-/

namespace ConversationSearch.Schema

/-! ## Reports in the order of the declaration -/

/-- The mapping of the innermost of some nested fields, if each of them is there as one. -/
def reached? (mapping : Json) : List String → Option Json
  | [] => some mapping
  | parent :: rest =>
    (child? mapping parent).bind fun below =>
      if type? below = some "nested" then reached? below rest else none

/-- The names that lead to a field, in the text of a report. -/
def dotted (place : String) (path : List String) : String :=
  path.foldl (fun before name => before ++ "." ++ name) place

/-- What is reported of a declared field: nothing where a nested field above it is missing or has
another type. -/
def DeclaredField.difference? (place : String) (mapping : Json) (f : DeclaredField) :
    Option Difference :=
  (reached? mapping f.parents).bind fun holder =>
    match child? holder f.name with
    | none => some (.missing (dotted place f.parents) f.name)
    | some actual => f.kind.fault? (dotted place f.path) actual

theorem DeclaredField.difference?_under (place : String) (mapping : Json) (parent : String)
    (f : DeclaredField) :
    (f.under parent).difference? place mapping =
      (child? mapping parent).bind fun below =>
        if type? below = some "nested" then f.difference? (place ++ "." ++ parent) below
        else none := by
  unfold difference?
  rw [path_under]
  simp only [under, reached?]
  cases child? mapping parent with
  | none => rfl
  | some below =>
    simp only [Option.bind_some]
    split <;> rfl

theorem filterMap_under {place name : String} {mapping : Json} (kind : FieldKind) :
    ((declaredFields kind.inner).map (·.under name)).filterMap (·.difference? place mapping) =
      match child? mapping name with
      | none => []
      | some actual =>
        if type? actual = some kind.typeName then
          (declaredFields kind.inner).filterMap (·.difference? (place ++ "." ++ name) actual)
        else [] := by
  simp only [List.filterMap_map, Function.comp_def, DeclaredField.difference?_under]
  cases child? mapping name with
  | none => simp
  | some actual =>
    simp only [Option.bind_some]
    cases kind with
    | nested fields =>
      by_cases htype : type? actual = some "nested"
      · simp [htype, FieldKind.typeName]
      · simp [htype, FieldKind.typeName]
    | _ => simp [FieldKind.inner, declaredFields]

/-- The report has the reports of the declared fields in their order, at most one for each. -/
theorem differences_eq_filterMap (place : String) (fields : Fields) (mapping : Json) :
    differences place fields mapping =
      (declaredFields fields).filterMap (·.difference? place mapping) := by
  induction fields using Fields.induction generalizing place mapping with
  | nil => rfl
  | cons name kind rest hbelow ih =>
    rw [differences_cons, declaredFields_cons, List.filterMap_append, ← ih, List.filterMap_cons,
      filterMap_under]
    have hhead : (⟨[], name, kind⟩ : DeclaredField).difference? place mapping =
        match child? mapping name with
        | none => some (.missing place name)
        | some actual => kind.fault? (place ++ "." ++ name) actual :=
      rfl
    rw [hhead]
    cases child? mapping name with
    | none => rfl
    | some actual =>
      dsimp only
      by_cases htype : type? actual = some kind.typeName
      · rw [FieldKind.differences_of_type htype, if_pos htype, hbelow]
        cases kind.fault? (place ++ "." ++ name) actual <;> rfl
      · rw [FieldKind.differences_of_not_type htype, if_neg htype]
        cases kind.fault? (place ++ "." ++ name) actual <;> rfl

/-- Nothing is reported of the fields below a nested field that is missing or has another type. -/
theorem reached?_eq_none {mapping holder : Json} {parents : List String} {name : String}
    (hholder : reached? mapping parents = some holder)
    (hfault : ∀ actual, child? holder name = some actual → type? actual ≠ some "nested")
    (rest : List String) :
    reached? mapping (parents ++ name :: rest) = none := by
  induction parents generalizing mapping with
  | nil =>
    obtain rfl := Option.some.inj hholder
    rw [List.nil_append, reached?]
    cases hchild : child? mapping name with
    | none => rfl
    | some actual => exact if_neg (hfault actual hchild)
  | cons parent parents ih =>
    rw [reached?] at hholder
    obtain ⟨below, hbelow, hrest⟩ := Option.bind_eq_some_iff.mp hholder
    by_cases htype : type? below = some "nested"
    · rw [if_pos htype] at hrest
      rw [List.cons_append, reached?, hbelow, Option.bind_some, if_pos htype]
      exact ih hrest
    · rw [if_neg htype] at hrest
      contradiction

theorem DeclaredField.exists_difference? {place : String} {mapping holder : Json}
    {f : DeclaredField} {inner : Fields} (hkind : f.kind = .nested inner)
    (hholder : reached? mapping f.parents = some holder)
    (hfault : ∀ actual, child? holder f.name = some actual → type? actual ≠ some "nested") :
    ∃ d, f.difference? place mapping = some d := by
  unfold difference?
  rw [hholder, Option.bind_some]
  cases hchild : child? holder f.name with
  | none => exact ⟨_, rfl⟩
  | some actual =>
    have htype : type? actual ≠ some f.kind.typeName := by
      rw [hkind]
      exact hfault actual hchild
    exact ⟨_, if_pos htype⟩

/-! ## What a comparison looks at -/

/-- The mapping at a path. -/
def at? (mapping : Json) : List String → Option Json
  | [] => some mapping
  | name :: rest => (child? mapping name).bind (at? · rest)

/-- What a mapping says of a declared field: nothing where the field is not there, else its type,
and the type of the verbatim field where the field is of both kinds. -/
def DeclaredField.said? (mapping : Json) (f : DeclaredField) :
    Option (Option String × Option String) :=
  (at? mapping f.path).map fun actual =>
    (type? actual, if f.kind.isDual then keywordType? actual else none)

theorem DeclaredField.said?_under (mapping : Json) (parent : String) (f : DeclaredField) :
    (f.under parent).said? mapping = (child? mapping parent).bind f.said? := by
  unfold said?
  rw [path_under, at?, Option.map_bind]
  rfl

theorem FieldKind.differences_congr {kind : FieldKind} {a b : Json} {path : String}
    (htype : type? a = type? b)
    (hkeyword : kind.isDual = true → keywordType? a = keywordType? b)
    (hinner : Schema.differences path kind.inner a = Schema.differences path kind.inner b) :
    kind.differences path a = kind.differences path b := by
  have hfault : kind.fault? path a = kind.fault? path b := by
    unfold fault?
    rw [liveType_eq, liveType_eq, htype]
    by_cases hdual : kind.isDual = true
    · rw [hkeyword hdual]
    · simp [hdual]
  by_cases hkind : type? b = some kind.typeName
  · rw [differences_of_type (htype.trans hkind), differences_of_type hkind, hfault, hinner]
  · have hkind' : type? a ≠ some kind.typeName := htype ▸ hkind
    rw [differences_of_not_type hkind', differences_of_not_type hkind, hfault]

/-- Mappings that say the same of every declared field compare alike. -/
theorem differences_congr {place : String} {fields : Fields} {a b : Json}
    (h : ∀ f ∈ declaredFields fields, f.said? a = f.said? b) :
    differences place fields a = differences place fields b := by
  induction fields using Fields.induction generalizing place a b with
  | nil => rfl
  | cons name kind rest hbelow ih =>
    have hrest : differences place rest a = differences place rest b :=
      ih fun f hf => h f (tail_mem_declaredFields hf name kind)
    have hhead := h _ (head_mem_declaredFields name kind rest)
    have hunder : ∀ f ∈ declaredFields kind.inner,
        (child? a name).bind f.said? = (child? b name).bind f.said? := by
      intro f hf
      have hsaid := h _ (under_mem_declaredFields hf name rest)
      rwa [DeclaredField.said?_under, DeclaredField.said?_under] at hsaid
    rw [differences_cons, differences_cons, hrest]
    congr 1
    simp only [DeclaredField.said?, DeclaredField.path, List.nil_append, at?] at hhead
    cases hchild : child? a name with
    | none =>
      cases hother : child? b name with
      | none => rfl
      | some other => simp [hchild, hother] at hhead
    | some actual =>
      cases hother : child? b name with
      | none => simp [hchild, hother] at hhead
      | some other =>
        simp only [hchild, hother, Option.bind_some, Option.map_some, Option.some.injEq,
          Prod.mk.injEq] at hhead hunder
        obtain ⟨htype, hkeyword⟩ := hhead
        apply FieldKind.differences_congr htype _ (hbelow hunder)
        intro hdual
        simpa only [if_pos hdual] using hkeyword

/-! ## Errors -/

/-- The errors of a comparison: the texts of the differences. -/
def errors (place : String) (fields : Fields) (live : Json) : List String :=
  (differences place fields live).map (·.message)

theorem errors_eq_nil_iff {place : String} {fields : Fields} {live : Json} :
    errors place fields live = [] ↔ Covers live fields := by
  rw [errors, List.map_eq_nil_iff, differences_eq_nil_iff]

/-- There is no error exactly where the mapping covers the declaration. The errors stand in the
order of the declaration, at most one for each declared field: where a nested field is missing or
has another type, one for it and none for the fields below it. They depend on nothing but what the
mapping says of the declared fields, and there is none for the mapping that is rendered. -/
theorem errors_of_declaration (place : String) (fields : Fields) :
    (∀ live, errors place fields live = [] ↔ Covers live fields) ∧
    (∀ live, errors place fields live =
      (declaredFields fields).filterMap fun f => (f.difference? place live).map (·.message)) ∧
    (DistinctNames fields → ((declaredFields fields).map (·.path)).Nodup) ∧
    (∀ live, ∀ f ∈ declaredFields fields, ∀ inner holder, f.kind = .nested inner →
      reached? live f.parents = some holder →
      (∀ actual, child? holder f.name = some actual → type? actual ≠ some "nested") →
      (∃ d, f.difference? place live = some d) ∧
        ∀ g ∈ declaredFields fields, f.path <+: g.parents → g.difference? place live = none) ∧
    (∀ live live', (∀ f ∈ declaredFields fields, f.said? live = f.said? live') →
      errors place fields live = errors place fields live') ∧
    (DistinctNames fields → errors place fields (mappings fields) = []) := by
  refine ⟨fun live => errors_eq_nil_iff, ?_, DistinctNames.nodup_paths, ?_, ?_, ?_⟩
  · intro live
    rw [errors, differences_eq_filterMap, List.map_filterMap]
  · intro live f _ inner holder hkind hholder hfault
    refine ⟨f.exists_difference? hkind hholder hfault, ?_⟩
    rintro g - ⟨rest, hrest⟩
    have hnone := reached?_eq_none hholder hfault rest
    rw [DeclaredField.path, List.append_assoc, List.singleton_append] at hrest
    rw [DeclaredField.difference?, ← hrest, hnone, Option.bind_none]
  · intro live live' hsaid
    rw [errors, errors, differences_congr hsaid]
  · intro hnames
    rw [errors, differences_mappings hnames, List.map_nil]

/-- The mapping of an index in which the identities of a conversation are plain objects, with the
given further members. -/
def flatParticipants (others : List (String × Json)) : Json :=
  .object
    [("properties", .object
      [("date", plainMapping "date"),
       ("handle", FieldKind.textWithKeyword.mapping),
       ("id", plainMapping "keyword"),
       ("lastMessage", plainMapping "text"),
       ("participants", .object ([("properties", .object [("username", plainMapping "text")])] ++
         others)),
       ("username", FieldKind.textWithKeyword.mapping)])]

/-- Identities that are plain objects are one error, and none for the handle that they lack or for
the name that lacks its verbatim field. Attributes that are not declared change nothing. -/
theorem errors_of_flat_participants :
    DistinctNames conversationFields ∧
    errors "conversation" conversationFields (flatParticipants [("dynamic", .bool true)]) =
      ["Field conversation.participants has type 'object', expected 'nested'"] ∧
    (⟨["participants"], "handle", .textWithKeyword⟩ : DeclaredField).difference? "conversation"
      (flatParticipants []) = none ∧
    errors "conversation" conversationFields (mappings conversationFields) = [] := by
  obtain ⟨-, -, -, hsilent, hsame, hrendered⟩ :=
    errors_of_declaration "conversation" conversationFields
  have hdeclared : declaredFields conversationFields =
      [⟨[], "id", .keyword⟩, ⟨[], "username", .textWithKeyword⟩,
        ⟨[], "handle", .textWithKeyword⟩, ⟨[], "lastMessage", .text⟩, ⟨[], "date", .date⟩,
        ⟨[], "participants", .nested participantFields⟩,
        ⟨["participants"], "username", .textWithKeyword⟩,
        ⟨["participants"], "handle", .textWithKeyword⟩] :=
    rfl
  have hsaid : ∀ f ∈ declaredFields conversationFields,
      f.said? (flatParticipants [("dynamic", .bool true)]) = f.said? (flatParticipants []) := by
    rw [hdeclared]
    simp only [List.forall_mem_cons]
    exact ⟨rfl, rfl, rfl, rfl, rfl, rfl, rfl, rfl, List.forall_mem_nil _⟩
  have hparticipants := hsilent (flatParticipants [])
    ⟨[], "participants", .nested participantFields⟩ (by rw [hdeclared]; simp) participantFields
    (flatParticipants []) rfl rfl
  obtain ⟨-, hbelow⟩ := hparticipants (by
    intro actual hactual
    obtain rfl := Option.some.inj hactual
    decide)
  refine ⟨distinctNames_conversationFields, ?_, ?_, hrendered distinctNames_conversationFields⟩
  · rw [hsame _ _ hsaid]
    decide
  · exact hbelow _ (by rw [hdeclared]; simp) ⟨[], rfl⟩

end ConversationSearch.Schema

namespace ConversationSearch.Entity

/-- What is said of the mapping of a kind of document is said by the errors for its declaration. -/
theorem verify_eq_ofErrors (e : Entity) (live : Json) :
    e.verify live = .ofErrors (Schema.errors e.name e.fields live) :=
  rfl

/-- The mapping of a kind of document is valid exactly where it covers the declaration. -/
theorem isValid_verify_iff {e : Entity} {live : Json} :
    (e.verify live).isValid = true ↔ Schema.Covers live e.fields := by
  rw [verify_eq_ofErrors, Schema.Verification.ofErrors, List.isEmpty_iff, Schema.errors_eq_nil_iff]

end ConversationSearch.Entity
