import ConversationSearch.Proofs.Settings.Leaves
import ConversationSearch.Proofs.Settings.Variables
import ConversationSearch.Proofs.Toml.Keys

/-!
# Which layer gives a setting

A setting is what the last variable for it holds, else what the file holds for it, else its default.
This goes through the layers one by one: `Stands` ties what a root holds for a setting to what the
layers so far give for it, each layer keeps this, and settings are read of the root that has all
layers. A layer can keep it only if it gives no section as a list, since the items of a list are
read by their order; a variable for a section as a whole, or for a position in it, also takes away
what the file holds in the section.
-/

namespace ConversationSearch

/-- The value is an array. -/
def Toml.IsArray : Toml → Prop
  | .array _ => True
  | _ => False

instance (value : Toml) : Decidable value.IsArray :=
  match value with
  | .array _ => .isTrue trivial
  | .bool _ | .int _ | .real _ | .string _ | .date _ | .table _ => .isFalse id

namespace Settings

/-! ## What the layers give -/

namespace Setting

/-- The path is that of the setting. -/
def isAt (k : Setting) : List PathStep → Bool
  | [.key first, .key second] => Text.lower first == k.part && Text.lower second == k.name
  | _ => false

/-- The name is that of a variable for the setting. -/
def isNamedBy (k : Setting) (variableName : String) : Bool :=
  (variablePath? variableName).any fun path => k.isAt (PathStep.ofText path)

/-- What the last variable for the setting holds. -/
def inVariables? (k : Setting) (env : Environment) : Option Node :=
  (env.filter fun entry => k.isNamedBy entry.1).getLast?.map fun entry =>
    .scalar (some environmentOrigin) (variableScalar entry.2)

/-- The entries of the section of the setting in a file. -/
def entries (k : Setting) (members : List (String × Toml)) : List (String × Toml) :=
  match members.lookup k.part with
  | some (.table entries) => entries
  | _ => []

/-- The entry of a file for the setting. An empty table is none: it holds nothing that could be laid
over what is there. -/
def value? (k : Setting) (members : List (String × Toml)) : Option Toml :=
  match (k.entries members).lookup k.name with
  | some (.table []) => none
  | entry => entry

/-- What a file gives for the setting. -/
def inFile? (k : Setting) (file : Option File) : Option Node := do
  let f ← file
  let members ← Toml.parse f.content
  return fileNode f.path (← k.value? members)

/-- What the defaults hold for the setting. -/
def inDefaults? (k : Setting) : Option Node :=
  Node.member? k.name (defaultLayer.lookup k.part)

/-- What is given for the setting: what its variable holds, else what the file holds, else what the
defaults hold. -/
def given? (k : Setting) (file : Option File) (env : Environment) : Option Node :=
  ((k.inVariables? env).or (k.inFile? file)).or k.inDefaults?

end Setting

/-! ## Layers that name no section as a whole -/

/-- A key of a file that leads into a section, or to a setting within it, is the name of the section
or the setting, and no section is given as an array. -/
structure IsPlain (members : List (String × Toml)) : Prop where
  parts_spelled : ∀ k : Setting, ∀ m ∈ members,
    Node.LeadsInto k.part (PathStep.ofText m.1) → m.1 = k.part
  names_spelled : ∀ k : Setting, ∀ m ∈ k.entries members, Text.lower m.1 = k.name → m.1 = k.name
  not_array : ∀ k : Setting, ∀ value ∈ members.lookup k.part, ¬value.IsArray

instance (members : List (String × Toml)) : Decidable (IsPlain members) :=
  decidable_of_iff
    ((∀ k : Setting, ∀ m ∈ members,
        Node.LeadsInto k.part (PathStep.ofText m.1) → m.1 = k.part) ∧
      (∀ k : Setting, ∀ m ∈ k.entries members, Text.lower m.1 = k.name → m.1 = k.name) ∧
      ∀ k : Setting, ∀ value ∈ members.lookup k.part, ¬value.IsArray)
    ⟨fun ⟨hparts, hnames, harray⟩ => ⟨hparts, hnames, harray⟩,
      fun h => ⟨h.parts_spelled, h.names_spelled, h.not_array⟩⟩

/-- The file is plain, if there is one and it can be read. -/
def IsPlainFile (file : Option File) : Prop :=
  ∀ f ∈ file, ∀ members ∈ Toml.parse f.content, IsPlain members

instance (file : Option File) : Decidable (IsPlainFile file) :=
  inferInstanceAs (Decidable (∀ f ∈ file, ∀ members ∈ Toml.parse f.content, IsPlain members))

/-- The path leads neither to the section as a whole nor to a position in it. -/
def SparesSection (part : String) : List PathStep → Prop
  | .key _ :: .key _ :: _ => True
  | .key first :: _ => Text.lower first ≠ part
  | _ => True

instance (part : String) (steps : List PathStep) : Decidable (SparesSection part steps) :=
  match steps with
  | .key _ :: .key _ :: _ => .isTrue trivial
  | [.key first] => inferInstanceAs (Decidable (Text.lower first ≠ part))
  | .key first :: .position _ :: _ => inferInstanceAs (Decidable (Text.lower first ≠ part))
  | .position _ :: _ => .isTrue trivial
  | [] => .isTrue trivial

theorem SparesSection.exists_key {part first : String} {rest : List PathStep}
    (h : SparesSection part (.key first :: rest)) (hfirst : Text.lower first = part) :
    ∃ second more, rest = .key second :: more := by
  rcases rest with _ | ⟨second | index, more⟩
  · exact absurd hfirst h
  · exact ⟨second, more, rfl⟩
  · exact absurd hfirst h

/-- No variable is for a section as a whole or for a position in one. -/
def NamesNoSection (env : Environment) : Prop :=
  ∀ entry ∈ env, ∀ path ∈ variablePath? entry.1, ∀ k : Setting,
    SparesSection k.part (PathStep.ofText path)

instance (env : Environment) : Decidable (NamesNoSection env) :=
  inferInstanceAs (Decidable (∀ entry ∈ env, ∀ path ∈ variablePath? entry.1, ∀ k : Setting,
    SparesSection k.part (PathStep.ofText path)))

/-! ## What a root holds and what is given -/

variable {k : Setting} {root : Node} {given : Option Node}

/-- If what the root holds for the setting can be read, then what is given for it is read alike. -/
structure Stands (k : Setting) (root : Node) (given : Option Node) : Prop where
  isTable : root.IsTable
  not_list : ¬Node.IsList (Node.member? k.part (some root))
  reads : ∀ a, k.read (k.heldIn root) = .ok a → k.read given = .ok a

/-- The defaults of the layer are those of the settings. -/
theorem read_inDefaults? (k : Setting) :
    k.read k.inDefaults? = .ok (k.get {}) := by
  cases k <;> rfl

/-- The defaults laid over nothing are the defaults. -/
theorem heldIn_defaults (k : Setting) :
    k.heldIn (Node.empty.overlay defaultLayer) = k.inDefaults? := by
  cases k <;> rfl

theorem stands_defaults (k : Setting) :
    Stands k (Node.empty.overlay defaultLayer) k.inDefaults? where
  isTable := Node.isTable_overlay ⟨_, _, rfl⟩ defaultLayer
  not_list := by cases k <;> rintro ⟨_, _, ⟨⟩⟩
  reads := by
    rw [heldIn_defaults]
    exact fun _ => id

namespace Stands

/-- What settings that can be read say is what is given. -/
theorem get (h : Stands k root given) {s : Settings} (hs : ofNode root = .ok s) :
    k.read given = .ok (k.get s) :=
  h.reads _ (Setting.read_heldIn h.isTable h.not_list hs)

end Stands

/-! ### A file -/

namespace Setting

variable {members entries : List (String × Toml)} {value : Toml}

theorem entries_of_table (h : members.lookup k.part = some (.table entries)) :
    k.entries members = entries := by
  simp [Setting.entries, h]

theorem entries_of_ne (h : ∀ entries, members.lookup k.part ≠ some (.table entries)) :
    k.entries members = [] := by
  unfold Setting.entries
  split
  · next heq => exact absurd heq (h _)
  · rfl

theorem value?_of_missing (h : (k.entries members).lookup k.name = none) :
    k.value? members = none := by
  simp [value?, h]

theorem value?_of_ne (h : ∀ entries, members.lookup k.part ≠ some (.table entries)) :
    k.value? members = none :=
  value?_of_missing (by rw [entries_of_ne h, List.lookup_nil])

theorem value?_of_empty (h : (k.entries members).lookup k.name = some (.table [])) :
    k.value? members = none := by
  simp [value?, h]

theorem value?_of_held (h : (k.entries members).lookup k.name = some value)
    (hvalue : value ≠ .table []) :
    k.value? members = some value := by
  rw [value?, h]
  split
  · next heq => exact absurd (Option.some.inj heq) hvalue
  · rfl

end Setting

theorem fileMembers_eq_map (path : String) (members : List (String × Toml)) :
    fileMembers path members = members.map fun m => (m.1, fileNode path m.2) := by
  induction members with
  | nil => rfl
  | cons m rest ih => rw [fileMembers, ih, List.map_cons]

theorem lookup_fileMembers (path key : String) (members : List (String × Toml)) :
    (fileMembers path members).lookup key = (members.lookup key).map (fileNode path) := by
  induction members with
  | nil => rfl
  | cons m rest ih =>
    rw [fileMembers, List.lookup_cons, List.lookup_cons, ih]
    cases key == m.1 <;> rfl

theorem keys_fileMembers (path : String) (members : List (String × Toml)) :
    (fileMembers path members).map (·.1) = members.map (·.1) := by
  rw [fileMembers_eq_map, List.map_map]
  rfl

/-- The section of a setting after a file is the section of the file laid over the one before. -/
theorem member?_overlay_file {members : List (String × Toml)} (hkeys : Toml.AreDistinct members)
    (hplain : IsPlain members) (path : String) (k : Setting) (root : Node) :
    Node.member? k.part (some (root.overlay (fileMembers path members))) =
      Node.mergeGiven (Node.member? k.part (some root))
        ((members.lookup k.part).map (fileNode path)) := by
  have hspelled : ∀ entry ∈ fileMembers path members,
      Node.LeadsInto k.part (PathStep.ofText entry.1) → entry.1 = k.part := by
    rw [fileMembers_eq_map]
    intro entry hentry
    obtain ⟨m, hm, rfl⟩ := List.mem_map.mp hentry
    exact hplain.parts_spelled k m hm
  rw [Node.overlay_eq_layOver, Node.member?_layOver Node.exists_ofText_eq k.ofText_part k.lower_part
    (keys_fileMembers path members ▸ hkeys.keys) hspelled, lookup_fileMembers]

/-- What is held for a setting after the section of a file is the entry of the file laid over what
was held before. -/
theorem member?_merge_entries {members entries : List (String × Toml)}
    (hkeys : Toml.AreDistinct members) (hplain : IsPlain members) (k : Setting)
    (hentries : members.lookup k.part = some (.table entries)) (path : String)
    (held : Option Node) :
    Node.member? k.name (some (Node.merge held (fileNode path (.table entries)))) =
      Node.mergeGiven (Node.member? k.name held)
        ((entries.lookup k.name).map (fileNode path)) := by
  have hdistinct : Toml.AreDistinct entries :=
    Toml.isDistinct_table_iff.mp (hkeys.values _ (Json.mem_of_lookup hentries))
  have hspelled : ∀ entry ∈ fileMembers path entries,
      Node.LeadsInto k.name [.key entry.1] → entry.1 = k.name := by
    rw [fileMembers_eq_map]
    intro entry hentry
    obtain ⟨m, hm, rfl⟩ := List.mem_map.mp hentry
    exact hplain.names_spelled k m (Setting.entries_of_table hentries ▸ hm)
  rw [fileNode, Node.merge, Node.mergeMembers_eq_layOver,
    Node.member?_layOver (fun key => ⟨key, [], rfl⟩) rfl k.lower_name
      (keys_fileMembers path entries ▸ hdistinct.keys) hspelled, lookup_fileMembers]
  exact congrArg (Node.mergeGiven · _) (Node.member?_getD_empty k.name held)

/-- A value of a file takes the place of what is there, unless it is a table. -/
theorem merge_fileNode {value : Toml} (hvalue : ∀ inner, value ≠ .table inner) (path : String)
    (held : Option Node) :
    Node.merge held (fileNode path value) = fileNode path value := by
  cases value with
  | table inner => exact absurd rfl (hvalue inner)
  | _ => rfl

theorem member?_fileNode {value : Toml} (hvalue : ∀ inner, value ≠ .table inner)
    (path name : String) :
    Node.member? name (some (fileNode path value)) = none := by
  cases value with
  | table inner => exact absurd rfl (hvalue inner)
  | _ => rfl

theorem not_isList_fileNode {value : Toml} (hvalue : ¬value.IsArray) (path : String) :
    ¬Node.IsList (some (fileNode path value)) := by
  cases value with
  | array items => exact absurd trivial hvalue
  | _ => rintro ⟨_, _, ⟨⟩⟩

/-- A table laid over what is held for the setting can be read only if it is empty. -/
theorem eq_nil_of_read_merge {held : Option Node} {path : String} {inner : List (String × Toml)}
    {a : k.Value} (ha : k.read (some (Node.merge held (fileNode path (.table inner)))) = .ok a) :
    inner = [] ∧ k.read held = .ok a := by
  have hmerge : Node.merge held (fileNode path (.table inner)) =
      Node.mergeMembers (held.getD Node.empty) (fileMembers path inner) := rfl
  rw [hmerge] at ha
  cases inner with
  | nil =>
    rw [fileMembers, Node.mergeMembers] at ha
    cases held with
    | none =>
      have hempty : Node.empty.IsTable := ⟨_, _, rfl⟩
      exact absurd ha (Setting.read_compound_ne_ok (.inl hempty) a)
    | some node => exact ⟨rfl, ha⟩
  | cons m inner =>
    have htable := Node.isTable_mergeMembers_cons (held.getD Node.empty)
      (m.1, fileNode path m.2) (fileMembers path inner)
    exact absurd ha (Setting.read_compound_ne_ok (.inl htable) a)

/-- The entries of a section of a file, laid over what is held for the setting. -/
theorem read_entry {members entries : List (String × Toml)} {held given : Option Node}
    (hreads : ∀ a, k.read held = .ok a → k.read given = .ok a)
    (hentries : members.lookup k.part = some (.table entries)) (path : String) {a : k.Value}
    (ha : k.read (Node.mergeGiven held ((entries.lookup k.name).map (fileNode path))) = .ok a) :
    k.read (((k.value? members).map (fileNode path)).or given) = .ok a := by
  rw [← Setting.entries_of_table hentries] at ha
  cases hvalue : (k.entries members).lookup k.name with
  | none =>
    rw [hvalue, Option.map_none, Node.mergeGiven] at ha
    rw [Setting.value?_of_missing hvalue]
    exact hreads a ha
  | some value =>
    rw [hvalue, Option.map_some, Node.mergeGiven] at ha
    by_cases htable : ∃ inner, value = .table inner
    · obtain ⟨inner, rfl⟩ := htable
      obtain ⟨rfl, hheld⟩ := eq_nil_of_read_merge ha
      rw [Setting.value?_of_empty hvalue]
      exact hreads a hheld
    · have hne := not_exists.mp htable
      rw [merge_fileNode hne] at ha
      rw [Setting.value?_of_held hvalue (hne [])]
      exact ha

/-- What a root holds after a file. -/
theorem Stands.file {members : List (String × Toml)} (h : Stands k root given)
    (hgiven : k.read given = .ok (k.get {})) (hkeys : Toml.AreDistinct members)
    (hplain : IsPlain members) (path : String) :
    Stands k (root.overlay (fileMembers path members))
      (((k.value? members).map (fileNode path)).or given) := by
  have hpart := member?_overlay_file hkeys hplain path k root
  have htable := Node.isTable_overlay h.isTable (fileMembers path members)
  cases hvalue : members.lookup k.part with
  | none =>
    have hnone : k.value? members = none :=
      Setting.value?_of_ne fun entries h => Option.some_ne_none _ (h.symm.trans hvalue)
    rw [hvalue, Option.map_none, Node.mergeGiven] at hpart
    refine ⟨htable, hpart ▸ h.not_list, ?_⟩
    rw [Setting.heldIn, hpart, hnone]
    exact h.reads
  | some value =>
    rw [hvalue, Option.map_some, Node.mergeGiven] at hpart
    by_cases hentries : ∃ entries, value = .table entries
    · obtain ⟨entries, rfl⟩ := hentries
      refine ⟨htable, ?_, fun a ha => ?_⟩
      · rw [hpart]
        exact Node.not_isList_mergeMembers (Node.not_isList_getD_empty h.not_list) _
      · rw [Setting.heldIn, hpart, member?_merge_entries hkeys hplain k hvalue] at ha
        exact read_entry h.reads hvalue path ha
    · -- a section that is no table takes the place of the one before, and nothing is held in it
      have hne := not_exists.mp hentries
      have hnone : k.value? members = none :=
        Setting.value?_of_ne fun entries h => hne entries (Option.some.inj (hvalue.symm.trans h))
      rw [merge_fileNode hne] at hpart
      refine ⟨htable, ?_, fun a ha => ?_⟩
      · rw [hpart]
        exact not_isList_fileNode (hplain.not_array k value hvalue) path
      · rw [Setting.heldIn, hpart, member?_fileNode hne] at ha
        rw [hnone]
        exact hgiven.trans ha

/-! ### Variables -/

theorem Setting.isAt_iff {steps : List PathStep} :
    k.isAt steps ↔ ∃ first second, steps = [.key first, .key second] ∧
      Text.lower first = k.part ∧ Text.lower second = k.name := by
  constructor
  · intro h
    unfold isAt at h
    split at h
    · rw [Bool.and_eq_true, beq_iff_eq, beq_iff_eq] at h
      exact ⟨_, _, rfl, h⟩
    · contradiction
  · rintro ⟨first, second, rfl, hpart, hname⟩
    rw [isAt, hpart, hname, beq_self_eq_true, beq_self_eq_true, Bool.and_self]

theorem put_cons_compound (value : Node) (step : PathStep) (steps : List PathStep)
    (existing : Option Node) :
    (Node.put value (step :: steps) existing).IsTable ∨
      Node.IsList (some (Node.put value (step :: steps) existing)) := by
  cases step with
  | key key => exact .inl ⟨_, _, rfl⟩
  | position index => exact .inr ⟨_, _, rfl⟩

/-- An entry whose path leads into another section changes nothing for the setting. -/
theorem Stands.put_elsewhere (h : Stands k root given) {first : String}
    (hfirst : Text.lower first ≠ k.part) (value : Node) (rest : List PathStep) :
    Stands k (Node.put value (.key first :: rest) (some root)) given := by
  have hpart : Node.member? k.part (some (Node.put value (.key first :: rest) (some root))) =
      Node.member? k.part (some root) :=
    Node.member?_put_of_ne hfirst
  refine ⟨Node.isTable_put_key _ _ _ _, hpart ▸ h.not_list, ?_⟩
  rw [Setting.heldIn, hpart]
  exact h.reads

/-- An entry whose path leads into the section of the setting leaves a table there. -/
theorem Stands.put_within {first second : String} (hfirst : Text.lower first = k.part)
    {value : Node} {more : List PathStep}
    (hreads : ∀ a, k.read (Node.member? k.name (some (Node.put value (.key second :: more)
      (Node.member? k.part (some root))))) = .ok a → k.read given = .ok a) :
    Stands k (Node.put value (.key first :: .key second :: more) (some root)) given := by
  have hpart : Node.member? k.part
        (some (Node.put value (.key first :: .key second :: more) (some root))) =
      some (Node.put value (.key second :: more) (Node.member? k.part (some root))) :=
    Node.member?_put_self hfirst
  refine ⟨Node.isTable_put_key _ _ _ _, ?_, ?_⟩
  · rw [hpart]
    exact (Node.isTable_put_key _ _ _ _).not_isList
  · rwa [Setting.heldIn, hpart]

/-- What a root holds after an entry of a variable. -/
theorem Stands.put {steps : List PathStep} (h : Stands k root given)
    (hsteps : ∃ key rest, steps = .key key :: rest) (hspares : SparesSection k.part steps)
    (origin : Option String) (value : Scalar) :
    Stands k (Node.put (.scalar origin value) steps (some root))
      (if k.isAt steps then some (.scalar origin value) else given) := by
  obtain ⟨first, rest, rfl⟩ := hsteps
  by_cases hfirst : Text.lower first = k.part
  · obtain ⟨second, more, rfl⟩ := hspares.exists_key hfirst
    refine put_within hfirst fun a ha => ?_
    by_cases hsecond : Text.lower second = k.name
    · rw [Node.member?_put_self hsecond] at ha
      cases more with
      | nil =>
        rw [if_pos (Setting.isAt_iff.mpr ⟨first, second, rfl, hfirst, hsecond⟩)]
        exact ha
      | cons step more =>
        exact absurd ha (Setting.read_compound_ne_ok (put_cons_compound _ _ _ _) a)
    · have hat : ¬k.isAt (.key first :: .key second :: more) := by
        rw [Setting.isAt_iff]
        rintro ⟨_, _, ⟨⟩, -, hname⟩
        exact hsecond hname
      rw [Node.member?_put_of_ne hsecond] at ha
      rw [if_neg hat]
      exact h.reads a ha
  · have hat : ¬k.isAt (.key first :: rest) := by
      rw [Setting.isAt_iff]
      rintro ⟨_, _, ⟨⟩, hpart, -⟩
      exact hfirst hpart
    rw [if_neg hat]
    exact h.put_elsewhere hfirst _ rest

theorem Setting.inVariables?_cons (k : Setting) (entry : String × String) (env : Environment) :
    k.inVariables? (entry :: env) = (k.inVariables? env).or
      (if k.isNamedBy entry.1 then
        some (.scalar (some environmentOrigin) (variableScalar entry.2)) else none) := by
  unfold inVariables?
  rw [List.filter_cons]
  by_cases hnamed : k.isNamedBy entry.1 = true
  · rw [if_pos hnamed, if_pos hnamed, List.getLast?_cons]
    cases (env.filter fun entry => k.isNamedBy entry.1).getLast? <;> rfl
  · rw [if_neg hnamed, if_neg hnamed, Option.or_none]

/-- What a root holds after the variables of an environment. -/
theorem Stands.environment {env : Environment} (h : Stands k root given)
    (henv : NamesNoSection env) :
    Stands k (root.overlay (environmentLayer env)) ((k.inVariables? env).or given) := by
  induction env generalizing root given with
  | nil => exact h
  | cons entry env ih =>
    obtain ⟨variableName, v⟩ := entry
    obtain ⟨hentry, henv⟩ := List.forall_mem_cons.mp henv
    rw [Setting.inVariables?_cons, Option.or_assoc]
    cases hname : variablePath? variableName with
    | none =>
      have hlayer : environmentLayer ((variableName, v) :: env) = environmentLayer env := by
        simp [environmentLayer, hname]
      have hnamed : k.isNamedBy variableName = false := by simp [Setting.isNamedBy, hname]
      rw [hlayer, hnamed]
      exact ih h henv
    | some path =>
      have hnamed : k.isNamedBy variableName = k.isAt (PathStep.ofText path) := by
        simp [Setting.isNamedBy, hname]
      have hput := h.put (Node.exists_ofText_eq path) (hentry path hname k)
        (some environmentOrigin) (variableScalar v)
      rw [environmentLayer_cons hname, Node.overlay_cons, hnamed]
      have hrest := ih hput henv
      cases hat : k.isAt (PathStep.ofText path) with
      | true => simpa [hat] using hrest
      | false => simpa [hat] using hrest

/-! ## Loading -/

theorem fileLayer_of_parse {f : File} {members : List (String × Toml)}
    (h : Toml.parse f.content = some members) :
    fileLayer (some f) = .ok (fileMembers f.path members) := by
  rw [fileLayer, h]

theorem exists_parse_of_fileLayer {f : File} {layer : List (String × Node)}
    (h : fileLayer (some f) = .ok layer) :
    ∃ members, Toml.parse f.content = some members ∧ layer = fileMembers f.path members := by
  cases hmembers : Toml.parse f.content with
  | none =>
    rw [fileLayer, hmembers] at h
    contradiction
  | some members =>
    rw [fileLayer_of_parse hmembers] at h
    exact ⟨members, rfl, (Except.ok.inj h).symm⟩

theorem Setting.inFile?_of_parse {f : File} {members : List (String × Toml)}
    (h : Toml.parse f.content = some members) (k : Setting) :
    k.inFile? (some f) = (k.value? members).map (fileNode f.path) := by
  rw [inFile?, Option.bind_eq_bind, Option.bind_some, Option.bind_eq_bind, h, Option.bind_some]
  cases k.value? members <;> rfl

variable {file : Option File} {env : Environment} {s : Settings}

theorem stands_layered {fromFile : List (String × Node)} (hfile : IsPlainFile file)
    (henv : NamesNoSection env) (hfromFile : fileLayer file = .ok fromFile) (k : Setting) :
    Stands k (layered fromFile env) (k.given? file env) := by
  have hdefaults := stands_defaults k
  rw [layered, Setting.given?, Option.or_assoc]
  cases file with
  | none =>
    obtain rfl := Except.ok.inj hfromFile
    rw [Node.overlay_nil]
    exact hdefaults.environment henv
  | some f =>
    obtain ⟨members, hmembers, rfl⟩ := exists_parse_of_fileLayer hfromFile
    rw [Setting.inFile?_of_parse hmembers]
    exact (hdefaults.file (read_inDefaults? k) (Toml.areDistinct_of_parse hmembers)
      (hfile f rfl members hmembers) f.path).environment henv

theorem read_given (hfile : IsPlainFile file) (henv : NamesNoSection env)
    (hs : load file env = .ok s) (k : Setting) :
    k.read (k.given? file env) = .ok (k.get s) := by
  obtain ⟨fromFile, hfromFile, -, hs⟩ := load_eq_ok_iff.mp hs
  exact (stands_layered hfile henv hfromFile k).get hs

/-! ### One setting changed -/

theorem Setting.eq_of_isAt {other : Setting} {steps : List PathStep} (h : k.isAt steps)
    (hother : other.isAt steps) :
    other = k := by
  obtain ⟨_, second, rfl, -, hname⟩ := isAt_iff.mp h
  obtain ⟨_, _, ⟨⟩, -, hname'⟩ := isAt_iff.mp hother
  exact name_injective (hname'.symm.trans hname)

/-- A variable is for one setting at most. -/
theorem Setting.eq_of_isNamedBy {other : Setting} {variableName : String}
    (h : k.isNamedBy variableName) (hother : other.isNamedBy variableName) :
    other = k := by
  obtain ⟨path, hpath, hat⟩ := (Option.any_eq_true _ _).mp h
  obtain ⟨_, hpath', hat'⟩ := (Option.any_eq_true _ _).mp hother
  obtain rfl := Option.some.inj (hpath.symm.trans hpath')
  exact Setting.eq_of_isAt hat hat'

/-- A variable for one setting says nothing of another. -/
theorem Setting.inVariables?_of_ne {other : Setting} {variableName : String}
    (hname : k.isNamedBy variableName) (hother : other ≠ k) (before after : Environment)
    (v : String) :
    other.inVariables? (before ++ (variableName, v) :: after) =
      other.inVariables? (before ++ after) := by
  have hnot : other.isNamedBy variableName = false :=
    Bool.eq_false_iff.mpr fun h => hother (Setting.eq_of_isNamedBy hname h)
  simp [inVariables?, hnot]

theorem NamesNoSection.without {entry : String × String} {before after : Environment}
    (h : NamesNoSection (before ++ entry :: after)) :
    NamesNoSection (before ++ after) := by
  intro other hother
  rw [List.mem_append] at hother
  exact h other (List.mem_append.mpr (hother.imp_right (List.mem_cons_of_mem entry)))

theorem inDefaults?_eq_none (h : k.inDefaults? = none) :
    k = .usernameEnv ∨ k = .passwordEnv := by
  revert h
  cases k <;> decide

/-- Where the same is given for a setting, the setting is the same. -/
theorem get_eq_of_given_eq {file' : Option File} {env' : Environment} {s' : Settings}
    (h : k.read (k.given? file env) = .ok (k.get s))
    (h' : k.read (k.given? file' env') = .ok (k.get s'))
    (hgiven : k.given? file' env' = k.given? file env) :
    k.get s' = k.get s := by
  rw [hgiven, h] at h'
  exact (Except.ok.inj h').symm

/-- Where no section is named as a whole, neither by the file nor by a variable, settings that can
be loaded have each what its variable holds, else what the file holds, else its default, turned into
the type of the setting; only for the names of the variables of the user and the password may there
be nothing. A variable for one setting, and what the file holds for one setting, change no other. -/
theorem setting_of_uppermost_layer (hfile : IsPlainFile file) (henv : NamesNoSection env)
    (hs : load file env = .ok s) :
    (∀ k : Setting, k.read (k.given? file env) = .ok (k.get s)) ∧
    (∀ k : Setting, k.given? file env = none → k = .usernameEnv ∨ k = .passwordEnv) ∧
    (∀ (k : Setting) (variableName v : String) (before after : Environment) (s' : Settings),
      k.isNamedBy variableName → env = before ++ (variableName, v) :: after →
      load file (before ++ after) = .ok s' → ∀ other ≠ k, other.get s' = other.get s) ∧
    ∀ (k : Setting) (file' : Option File) (s' : Settings), IsPlainFile file' →
      (∀ other ≠ k, other.inFile? file' = other.inFile? file) →
      load file' env = .ok s' → ∀ other ≠ k, other.get s' = other.get s := by
  have hread := read_given hfile henv hs
  refine ⟨hread, fun k hgiven => ?_, ?_, ?_⟩
  · exact inDefaults?_eq_none (Option.or_eq_none_iff.mp hgiven).2
  · rintro k variableName v before after s' hname rfl hs' other hother
    refine get_eq_of_given_eq (hread other) (read_given hfile henv.without hs' other) ?_
    rw [Setting.given?, Setting.given?, Setting.inVariables?_of_ne hname hother]
  · intro k file' s' hfile' hsame hs' other hother
    refine get_eq_of_given_eq (hread other) (read_given hfile' henv hs' other) ?_
    rw [Setting.given?, Setting.given?, hsame other hother]

/-- A variable for a section as a whole, or for a position in it, takes away what the file holds in
the section. A section that is a list in the file loses its items to a variable for one setting. -/
theorem naming_a_section_takes_settings_away :
    (let file : Option File := some ⟨"settings.toml", "[index]\nmax_retries = 9\n"⟩
      let position : Environment := [("THREADSEEK__INDEX[0]", "http://env:9200")]
      let whole : Environment :=
        [("THREADSEEK__INDEX", "off"), ("THREADSEEK__INDEX__URL", "http://env:9200")]
      IsPlainFile file ∧
        Setting.maxRetries.read (Setting.maxRetries.inFile? file) = .ok (9 : UInt32) ∧
        ∀ env ∈ [position, whole], Setting.maxRetries.inVariables? env = none ∧
          ∃ s, load file env = .ok s ∧ s.index.maxRetries = 3) ∧
    let file : Option File := some ⟨"settings.toml", "index = [\"http://file:9200\"]\n"⟩
    let env : Environment := [("THREADSEEK__INDEX__MAX_RETRIES", "5")]
    NamesNoSection env ∧ Setting.maxRetries.isNamedBy "THREADSEEK__INDEX__MAX_RETRIES" ∧
      ∃ s s', load file [] = .ok s ∧ load file env = .ok s' ∧
        s.index.url = "http://file:9200" ∧ s'.index.url = "http://localhost:9200" := by
  constructor
  · intro file position whole
    have hfile : (Setting.maxRetries.read (Setting.maxRetries.inFile? file)).toOption =
        some (9 : UInt32) := by
      decide +kernel
    have hvariables : ∀ env ∈ [position, whole],
        (Setting.maxRetries.inVariables? env).isNone := by
      decide +kernel
    have hload : ∀ env ∈ [position, whole],
        (load file env).toOption.map (·.index.maxRetries) = some 3 := by
      decide +kernel
    refine ⟨by decide +kernel, eq_ok_of_toOption hfile, fun env henv => ?_⟩
    obtain ⟨s, hs, hretries⟩ := Option.map_eq_some_iff.mp (hload env henv)
    exact ⟨Option.isNone_iff_eq_none.mp (hvariables env henv), s, eq_ok_of_toOption hs, hretries⟩
  · intro file env
    have hload : (load file []).toOption.map (·.index.url) = some "http://file:9200" := by
      decide +kernel
    have hload' : (load file env).toOption.map (·.index.url) = some "http://localhost:9200" := by
      decide +kernel
    obtain ⟨s, hs, hurl⟩ := Option.map_eq_some_iff.mp hload
    obtain ⟨s', hs', hurl'⟩ := Option.map_eq_some_iff.mp hload'
    exact ⟨by decide +kernel, by decide +kernel, s, s', eq_ok_of_toOption hs,
      eq_ok_of_toOption hs', hurl, hurl'⟩

/-- Below a variable for the number of retries a file gives the address and another number of
retries: the variable comes first, then the file, then the defaults, and without the variable only
the number of retries is another. -/
theorem retries_of_variable_above_file :
    let file : Option File := some ⟨"settings.toml",
      "[index]\nurl = \"http://file:9200\"\nmax_retries = 7\n"⟩
    let env : Environment := [("THREADSEEK__INDEX__MAX_RETRIES", "5")]
    IsPlainFile file ∧ NamesNoSection env ∧
      Setting.maxRetries.isNamedBy "THREADSEEK__INDEX__MAX_RETRIES" ∧
      ∃ s s', load file env = .ok s ∧ load file [] = .ok s' ∧
        s.index.maxRetries = 5 ∧ s.index.url = "http://file:9200" ∧
        s.observability.logLevel = "info" ∧ s.index.passwordEnv = none ∧
        ∀ other ≠ Setting.maxRetries, other.get s' = other.get s := by
  intro file env
  have hfile : IsPlainFile file := by decide +kernel
  have henv : NamesNoSection env := by decide +kernel
  have hname : Setting.maxRetries.isNamedBy "THREADSEEK__INDEX__MAX_RETRIES" := by decide +kernel
  have hload : (load file env).toOption.isSome := by decide +kernel
  have hload' : (load file []).toOption.isSome := by decide +kernel
  obtain ⟨s, hs⟩ := Option.isSome_iff_exists.mp hload
  obtain ⟨s', hs'⟩ := Option.isSome_iff_exists.mp hload'
  have hs := eq_ok_of_toOption hs
  have hs' := eq_ok_of_toOption hs'
  obtain ⟨hread, -, hvariable, -⟩ := setting_of_uppermost_layer hfile henv hs
  have hget {k : Setting} {a : k.Value} (h : (k.read (k.given? file env)).toOption = some a) :
      k.get s = a :=
    Option.some.inj ((congrArg Except.toOption (hread k)).symm.trans h)
  have hretries : Setting.get s .maxRetries = (5 : UInt32) := hget (by decide +kernel)
  have hurl : Setting.get s .url = "http://file:9200" := hget (by decide +kernel)
  have hlevel : Setting.get s .logLevel = "info" := hget (by decide +kernel)
  have hpassword : Setting.get s .passwordEnv = none := hget (by decide +kernel)
  exact ⟨hfile, henv, hname, s, s', hs, hs', hretries, hurl, hlevel, hpassword,
    hvariable .maxRetries _ "5" [] [] s' hname rfl hs'⟩

end Settings
end ConversationSearch
