import ConversationSearch.Search.Clause

/-!
# Evaluating queries

A query is evaluated on a view of a document: the document itself, the dates that the index keeps
for its fields, and a judgement on the texts that are found in it. A term holds of a field that is
the value or an array that contains it; the verbatim field below an analysed one stands for the
field above it. A range holds of a date within its bounds, and a combination holds where all its
clauses do, whether they count for relevance or not.
-/

namespace ConversationSearch

/-- What a query can see of a document. -/
structure DocumentView where
  document : Json
  /-- The date that is kept for a field, if there is one. -/
  dateAt : String → Option Time.Instant
  /-- Whether a text, or something close to it, is found in one of the fields. -/
  hasText : String → List BoostedField → Bool

namespace DocumentView

/-- The end of a path that leads to a verbatim field. -/
def keywordEnding : List Char :=
  '.' :: Schema.keywordSubfield.toList

/-- The field of a document that a path stands for. -/
def fieldOf (path : String) : String :=
  if keywordEnding <:+ path.toList then
    String.ofList (path.toList.take (path.toList.length - keywordEnding.length))
  else path

theorem fieldOf_verbatim (field : String) :
    fieldOf (field ++ "." ++ Schema.keywordSubfield) = field := by
  have hpath : (field ++ "." ++ Schema.keywordSubfield).toList =
      field.toList ++ keywordEnding := by
    simp [keywordEnding]
  unfold fieldOf
  rw [hpath, if_pos (List.suffix_append _ _)]
  simp

/-- Whether the field at a path is a value or an array that contains it; a field that is not there
counts as `null`. -/
def hasTerm (v : DocumentView) (path : String) (value : Json) : Bool :=
  match (v.document.get? (fieldOf path)).getD .null with
  | .array items => items.contains value
  | found => found == value

variable {v : DocumentView} {path : String}

theorem hasTerm_text_iff {found : String}
    (hfound : v.document.get? (fieldOf path) = some (.string found)) (value : String) :
    v.hasTerm path (.string value) = true ↔ found = value := by
  simp [hasTerm, hfound]

theorem hasTerm_bool_iff {found : Bool}
    (hfound : v.document.get? (fieldOf path) = some (.bool found)) (value : Bool) :
    v.hasTerm path (.bool value) = true ↔ found = value := by
  simp [hasTerm, hfound]

theorem hasTerm_texts_iff {found : List String}
    (hfound : v.document.get? (fieldOf path) = some (.array (found.map .string)))
    (value : String) :
    v.hasTerm path (.string value) = true ↔ value ∈ found := by
  simp [hasTerm, hfound]

theorem hasTerm_text_of_absent (hfound : v.document.get? (fieldOf path) = none)
    (value : String) :
    v.hasTerm path (.string value) = false := by
  simp [hasTerm, hfound]

end DocumentView

/-- A side of the bounds is found under its key. -/
theorem DateBounds.get?_toJson (b : DateBounds) :
    b.toJson.get? "gt" = b.gt.map boundJson ∧ b.toJson.get? "gte" = b.gte.map boundJson ∧
      b.toJson.get? "lt" = b.lt.map boundJson ∧ b.toJson.get? "lte" = b.lte.map boundJson := by
  obtain ⟨gt, gte, lt, lte⟩ := b
  cases gt <;> cases gte <;> cases lt <;> cases lte <;> exact ⟨rfl, rfl, rfl, rfl⟩

namespace Clause

mutual

/-- Whether a clause holds of a document. -/
def holds (v : DocumentView) : Clause → Bool
  | .matchAll => true
  | .multiMatch query fields => v.hasText query fields
  | .term field value => v.hasTerm field value
  | .range field bounds => (v.dateAt field).any bounds.contains
  | .bool must filter => allHold v must && allHold v filter

/-- Whether all clauses of a list hold of a document. -/
def allHold (v : DocumentView) : List Clause → Bool
  | [] => true
  | c :: rest => c.holds v && allHold v rest

end

theorem allHold_eq_true_iff (v : DocumentView) (clauses : List Clause) :
    allHold v clauses = true ↔ ∀ c ∈ clauses, c.holds v = true := by
  induction clauses with
  | nil => simp [allHold]
  | cons c rest ih => simp [allHold, ih]

@[simp] theorem allHold_nil (v : DocumentView) :
    allHold v [] = true :=
  rfl

@[simp] theorem allHold_append (v : DocumentView) (first second : List Clause) :
    allHold v (first ++ second) = (allHold v first && allHold v second) := by
  induction first with
  | nil => rfl
  | cons c rest ih => simp [allHold, ih, Bool.and_assoc]

/-- Clauses for a condition that may be absent hold when the condition, if it is there, has a
clause that holds. -/
theorem allHold_map_toList (v : DocumentView) (condition : Option α) (clause : α → Clause) :
    allHold v (condition.toList.map clause) = true ↔
      ∀ a, condition = some a → (clause a).holds v = true := by
  cases condition with
  | none => simp
  | some a => simp [allHold]

end Clause
end ConversationSearch
