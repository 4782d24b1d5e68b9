import Mathlib.Data.List.Nodup
import ConversationSearch.Schema.Mapping

/-!
# The fields of a declaration

A declaration has the fields that it lists and, behind each nested one, those below it. Here they
stand in one list, each with the names that lead to it. An induction over a declaration goes down
into the nested fields as well as along the list. Where no name is given twice at one level, no two
fields have the same path, and the mapping that is rendered has the mapping of every field.
-/

namespace ConversationSearch.Schema

/-- The fields below a field; only nested fields have any. -/
def FieldKind.inner : FieldKind → Fields
  | .nested fields => fields
  | _ => []

/-- Whether a field is kept verbatim in a field below it. -/
def FieldKind.isDual : FieldKind → Bool
  | .textWithKeyword => true
  | _ => false

/-- What holds of a declaration if it holds of the fields behind the first one and of those below
the first one holds of all declarations. -/
theorem Fields.induction {motive : Fields → Prop} (nil : motive [])
    (cons : ∀ name kind rest, motive (FieldKind.inner kind) → motive rest →
      motive ((name, kind) :: rest)) (fields : Fields) :
    motive fields :=
  match fields with
  | [] => nil
  | (name, kind) :: rest =>
    have hinner : motive kind.inner :=
      match kind with
      | .nested below => Fields.induction nil cons below
      | .keyword | .text | .textWithKeyword | .date | .boolean => nil
    cons name kind rest hinner (Fields.induction nil cons rest)

/-! ## Fields with their paths -/

/-- A field in its place: the nested fields above it, from the outermost on, its name and its
kind. -/
structure DeclaredField where
  parents : List String
  name : String
  kind : FieldKind

namespace DeclaredField

/-- The names that lead to the field. -/
def path (f : DeclaredField) : List String :=
  f.parents ++ [f.name]

/-- The field with one more nested field above it. -/
def under (parent : String) (f : DeclaredField) : DeclaredField :=
  { f with parents := parent :: f.parents }

theorem path_under (parent : String) (f : DeclaredField) :
    (f.under parent).path = parent :: f.path :=
  rfl

end DeclaredField

mutual

/-- The fields below a field. -/
def FieldKind.declared : FieldKind → List DeclaredField
  | .nested fields => declaredFields fields
  | _ => []

/-- The fields of a declaration, behind each of them those below it. -/
def declaredFields : List (String × FieldKind) → List DeclaredField
  | [] => []
  | (name, kind) :: rest =>
    ⟨[], name, kind⟩ :: kind.declared.map (·.under name) ++ declaredFields rest

end

theorem declaredFields_cons (name : String) (kind : FieldKind) (rest : Fields) :
    declaredFields ((name, kind) :: rest) =
      ⟨[], name, kind⟩ :: (declaredFields kind.inner).map (·.under name) ++
        declaredFields rest := by
  rw [declaredFields]
  cases kind <;> rfl

theorem head_mem_declaredFields (name : String) (kind : FieldKind) (rest : Fields) :
    (⟨[], name, kind⟩ : DeclaredField) ∈ declaredFields ((name, kind) :: rest) := by
  rw [declaredFields_cons]
  exact List.mem_cons_self

theorem under_mem_declaredFields {kind : FieldKind} {f : DeclaredField}
    (h : f ∈ declaredFields kind.inner) (name : String) (rest : Fields) :
    f.under name ∈ declaredFields ((name, kind) :: rest) := by
  rw [declaredFields_cons]
  exact List.mem_append_left _ (List.mem_cons_of_mem _ (List.mem_map_of_mem h))

theorem tail_mem_declaredFields {rest : Fields} {f : DeclaredField}
    (h : f ∈ declaredFields rest) (name : String) (kind : FieldKind) :
    f ∈ declaredFields ((name, kind) :: rest) := by
  rw [declaredFields_cons]
  exact List.mem_append_right _ h

/-- The path of a field starts with a name that the declaration lists. -/
theorem exists_path_eq_cons {fields : Fields} {f : DeclaredField} (h : f ∈ declaredFields fields) :
    ∃ name rest, f.path = name :: rest ∧ name ∈ fields.map (·.1) := by
  induction fields using Fields.induction with
  | nil => contradiction
  | cons name kind rest _ ih =>
    rw [declaredFields_cons] at h
    rcases List.mem_append.mp h with h | h
    · rcases List.mem_cons.mp h with rfl | h
      · exact ⟨name, [], rfl, List.mem_cons_self⟩
      · obtain ⟨below, -, rfl⟩ := List.mem_map.mp h
        exact ⟨name, below.path, rfl, List.mem_cons_self⟩
    · obtain ⟨first, others, hpath, hfirst⟩ := ih h
      exact ⟨first, others, hpath, List.mem_cons_of_mem _ hfirst⟩

/-! ## Distinct names -/

mutual

/-- No name is given twice at a level below the field. -/
def FieldKind.IsDistinct : FieldKind → Prop
  | .nested fields => DistinctNames fields
  | _ => True

/-- No name is given twice at a level of the declaration. -/
def DistinctNames : List (String × FieldKind) → Prop
  | [] => True
  | (name, kind) :: rest => name ∉ rest.map (·.1) ∧ kind.IsDistinct ∧ DistinctNames rest

end

theorem distinctNames_cons {name : String} {kind : FieldKind} {rest : Fields} :
    DistinctNames ((name, kind) :: rest) ↔
      name ∉ rest.map (·.1) ∧ DistinctNames kind.inner ∧ DistinctNames rest := by
  rw [DistinctNames]
  cases kind <;> simp [FieldKind.IsDistinct, FieldKind.inner, DistinctNames]

theorem DistinctNames.nodup {fields : Fields} (h : DistinctNames fields) :
    (fields.map (·.1)).Nodup := by
  induction fields with
  | nil => exact List.nodup_nil
  | cons field rest ih =>
    obtain ⟨hname, -, hrest⟩ := distinctNames_cons.mp h
    exact List.nodup_cons.mpr ⟨hname, ih hrest⟩

/-- Where names are distinct no two fields have the same path. -/
theorem DistinctNames.nodup_paths {fields : Fields} (h : DistinctNames fields) :
    ((declaredFields fields).map (·.path)).Nodup := by
  induction fields using Fields.induction with
  | nil => exact List.nodup_nil
  | cons name kind rest hbelow ih =>
    obtain ⟨hname, hinner, hrest⟩ := distinctNames_cons.mp h
    have hunder : ((declaredFields kind.inner).map (·.under name)).map (·.path) =
        ((declaredFields kind.inner).map (·.path)).map (name :: ·) := by
      rw [List.map_map, List.map_map]
      rfl
    rw [declaredFields_cons, List.map_append, List.map_cons, hunder, List.nodup_append]
    refine ⟨List.nodup_cons.mpr ⟨?_, List.Nodup.map List.cons_injective (hbelow hinner)⟩,
      ih hrest, ?_⟩
    · -- a field below the first one has a longer path
      rintro hmem
      obtain ⟨path, hpath, heq⟩ := List.mem_map.mp hmem
      obtain ⟨f, hf, rfl⟩ := List.mem_map.mp hpath
      obtain ⟨first, others, hfirst, -⟩ := exists_path_eq_cons hf
      rw [hfirst] at heq
      exact absurd heq (by simp [DeclaredField.path])
    · -- the paths behind start with other names
      rintro path hpath other hother rfl
      obtain ⟨f, hf, rfl⟩ := List.mem_map.mp hother
      obtain ⟨first, others, hfirst, hlisted⟩ := exists_path_eq_cons hf
      obtain rfl : first = name := by
        rcases List.mem_cons.mp hpath with heq | hmem
        · exact (List.cons.inj (hfirst.symm.trans heq)).1
        · obtain ⟨below, -, heq⟩ := List.mem_map.mp hmem
          exact (List.cons.inj (heq.trans hfirst)).1.symm
      exact hname hlisted

end ConversationSearch.Schema
