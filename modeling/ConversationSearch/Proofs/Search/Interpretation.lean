import ConversationSearch.Proofs.Search.Evaluation
import ConversationSearch.Proofs.Time.Stamp

/-!
# Queries as they are written

A query that is written in the engine's query language is interpreted on a document: its first
member tells the kind of clause, dates and bounds are texts that are read as timestamps, and the
weight of a field stands behind its name. A query that is not understood has no interpretation.

What is written of a tree of clauses means what the tree does: it can be interpreted, and it holds
exactly where the tree, evaluated on the same document, holds.
-/

namespace ConversationSearch

open Time (Instant)

namespace QueryLanguage

/-- Whether a text, or something close to it, is found in one of the named fields. -/
abbrev TextMatch := String → List String → Bool

/-- Both hold; the second is looked at only where the first does. -/
def both (first second : Option Bool) : Option Bool := do
  if ← first then second else return false

@[simp] theorem both_some (first second : Bool) :
    both (some first) (some second) = some (first && second) := by
  cases first <;> rfl

/-- The date in a field of a document, where its text is a timestamp. -/
def dateAt (document : Json) (field : String) : Option Instant :=
  ((document.get? field).bind Json.text?).bind fun s => (Time.parse s).toOption

/-- The view of a document whose dates are timestamps; the weights of fields do not count. -/
def view (found : TextMatch) (document : Json) : DocumentView where
  document := document
  dateAt := dateAt document
  hasText query fields := found query (fields.map (·.field))

/-- The name of a field without its weight. -/
def unweighted (name : String) : String :=
  String.ofList (name.toList.takeWhile (· ≠ '^'))

/-- A match of a text in fields. -/
def matchHolds (found : TextMatch) (clause : Json) : Option Bool := do
  let items ← (clause.get? "fields").bind Json.items?
  let names ← items.mapM Json.text?
  return found (((clause.get? "query").bind Json.text?).getD "") (names.map unweighted)

/-- A value that a field has to have. -/
def termHolds (found : TextMatch) (document : Json) : Json → Option Bool
  | .object ((path, value) :: _) => some ((view found document).hasTerm path value)
  | _ => none

/-- A bound, where it is given, is a timestamp that the date meets. -/
def boundHolds (bounds : Json) (key : String) (meets : Instant → Bool) : Option Bool :=
  match (bounds.get? key).bind Json.text? with
  | none => some true
  | some s => (Time.parse s).toOption.map meets

/-- All bounds on a date. -/
def boundsHold (bounds : Json) (date : Instant) : Option Bool :=
  both (boundHolds bounds "gt" fun b => b < date)
    (both (boundHolds bounds "gte" fun b => b ≤ date)
      (both (boundHolds bounds "lt" fun b => date < b)
        (boundHolds bounds "lte" fun b => date ≤ b)))

/-- A date within bounds; a field without a date is not within any. -/
def rangeHolds (document : Json) : Json → Option Bool
  | .object ((field, bounds) :: _) =>
    match dateAt document field with
    | none => some false
    | some date => boundsHold bounds date
  | _ => none

section Interpretation

variable (found : TextMatch) (document : Json)

mutual

/-- Whether a written query holds of a document, where it is understood. -/
def holds : Json → Option Bool
  | .object ((kind, clause) :: _) =>
    match kind with
    | "match_all" => some true
    | "bool" => both (allUnder "must" clause) (allUnder "filter" clause)
    | "term" => termHolds found document clause
    | "range" => rangeHolds document clause
    | "multi_match" => matchHolds found clause
    | _ => none
  | _ => some true

/-- Whether the queries under a key all hold; where there is no list of them nothing is asked. -/
def allUnder (key : String) : Json → Option Bool
  | .object members => allAmong key members
  | _ => some true

/-- Whether the queries of the member with a key all hold. -/
def allAmong (key : String) : List (String × Json) → Option Bool
  | [] => some true
  | (k, value) :: rest => if key = k then allItems value else allAmong key rest

/-- Whether the queries of an array all hold. -/
def allItems : Json → Option Bool
  | .array items => allHold items
  | _ => some true

/-- Whether all queries of a list hold; those behind one that does not are not looked at. -/
def allHold : List Json → Option Bool
  | [] => some true
  | query :: rest => both (holds query) (allHold rest)

end

end Interpretation

/-! ## Scalars in written clauses -/

/-- The weight behind a name without a caret is taken off again. -/
theorem unweighted_text {f : BoostedField} (hf : '^' ∉ f.field.toList) :
    unweighted f.text = f.field := by
  have hname : ∀ c ∈ f.field.toList, decide (c ≠ '^') = true := by
    intro c hc
    simp only [decide_eq_true_eq]
    rintro rfl
    exact hf hc
  unfold unweighted BoostedField.text
  cases f.boost with
  | none =>
    rw [List.takeWhile_eq_self_iff.mpr hname, String.ofList_toList]
  | some boost =>
    have hcaret : "^".toList = ['^'] := rfl
    rw [String.toList_append, String.toList_append, hcaret, List.append_assoc,
      List.takeWhile_append_of_pos hname]
    simp

theorem mapM_text?_strings (texts : List String) :
    (texts.map Json.string).mapM Json.text? = some texts := by
  induction texts with
  | nil => rfl
  | cons s rest ih => simp [ih, Json.text?]

end QueryLanguage

/-- A whole number of milliseconds in a year of four digits, and in no leap second within its
minute. -/
structure Time.Instant.IsWritable (t : Instant) : Prop where
  plainYear : t.HasPlainYear
  toMillis_eq : t.toMillis = t
  leapEndsMinute : t.LeapEndsMinute

/-- Such an instant is read as it is written. -/
theorem Time.Instant.IsWritable.parse_text {t : Instant} (h : t.IsWritable) :
    Time.parse t.text = .ok t := by
  rw [t.parse_text.1 h.plainYear, asWritten_eq_self h.leapEndsMinute, h.toMillis_eq]

namespace QueryLanguage

/-- A bound that is written is the bound that is read. -/
theorem boundHolds_written {bounds : Json} {key : String} {bound : Option Instant}
    (hkey : bounds.get? key = bound.map DateBounds.boundJson)
    (hbound : ∀ t, bound = some t → t.IsWritable) (meets : Instant → Bool) :
    boundHolds bounds key meets = some (bound.all meets) := by
  unfold boundHolds
  rw [hkey]
  cases bound with
  | none => rfl
  | some t =>
    simp [DateBounds.boundJson, Json.text?, (hbound t rfl).parse_text, Except.toOption]

end QueryLanguage

/-! ## Trees of clauses -/

/-- Each bound that is given is read as it is written. -/
structure DateBounds.IsWritable (b : DateBounds) : Prop where
  gt : ∀ t, b.gt = some t → t.IsWritable
  gte : ∀ t, b.gte = some t → t.IsWritable
  lt : ∀ t, b.lt = some t → t.IsWritable
  lte : ∀ t, b.lte = some t → t.IsWritable

theorem QueryLanguage.boundsHold_toJson {b : DateBounds} (hb : b.IsWritable) (date : Instant) :
    boundsHold b.toJson date = some (b.contains date) := by
  obtain ⟨hgt, hgte, hlt, hlte⟩ := b.get?_toJson
  unfold boundsHold DateBounds.contains
  rw [boundHolds_written hgt hb.gt, boundHolds_written hgte hb.gte, boundHolds_written hlt hb.lt,
    boundHolds_written hlte hb.lte]
  simp [Bool.and_assoc]

namespace Clause

mutual

/-- Nothing of the tree is lost when it is written: no name of a field that is searched for text
holds a caret, and the bounds on dates are writable. -/
def IsWritable : Clause → Prop
  | .matchAll => True
  | .multiMatch _ fields => ∀ f ∈ fields, '^' ∉ f.field.toList
  | .term _ _ => True
  | .range _ bounds => bounds.IsWritable
  | .bool must filter => AreWritable must ∧ AreWritable filter

/-- The clauses are writable. -/
def AreWritable : List Clause → Prop
  | [] => True
  | c :: rest => IsWritable c ∧ AreWritable rest

end

theorem areWritable_iff {clauses : List Clause} :
    AreWritable clauses ↔ ∀ c ∈ clauses, c.IsWritable := by
  induction clauses with
  | nil => simp [AreWritable]
  | cons c rest ih => rw [AreWritable, ih, List.forall_mem_cons]

/-- What holds of a combination where it holds of its clauses, and of each other kind of clause,
holds of every tree. -/
theorem induction {motive : Clause → Prop} (matchAll : motive .matchAll)
    (multiMatch : ∀ query fields, motive (.multiMatch query fields))
    (term : ∀ field value, motive (.term field value))
    (range : ∀ field bounds, motive (.range field bounds))
    (bool : ∀ must filter, (∀ c ∈ must, motive c) → (∀ c ∈ filter, motive c) →
      motive (.bool must filter))
    (c : Clause) :
    motive c :=
  @Clause.rec motive (fun clauses => ∀ c ∈ clauses, motive c) matchAll multiMatch term range bool
    (List.forall_mem_nil _) (fun _ _ hc hrest => List.forall_mem_cons.mpr ⟨hc, hrest⟩) c

end Clause

namespace QueryLanguage

variable {found : TextMatch} {document : Json}

theorem matchHolds_toJson (found : TextMatch) (query : String) {fields : List BoostedField}
    (hfields : ∀ f ∈ fields, '^' ∉ f.field.toList) :
    matchHolds found
        (.object
          [("fields", .array (fields.map (.string ·.text))),
           ("fuzziness", .string Clause.fuzziness),
           ("query", .string query)]) =
      some (found query (fields.map (·.field))) := by
  have hnames : fields.map (unweighted ·.text) = fields.map (·.field) :=
    List.map_congr_left fun f hf => unweighted_text (hfields f hf)
  have hitems : (fields.map fun f => Json.string f.text).mapM Json.text? =
      some (fields.map (·.text)) := by
    have hstrings := mapM_text?_strings (fields.map (·.text))
    rwa [List.map_map] at hstrings
  simp [matchHolds, Json.get?, Json.items?, Json.text?, List.lookup_cons, hitems,
    Function.comp_def, hnames]

theorem rangeHolds_toJson (found : TextMatch) (document : Json) (field : String) {b : DateBounds}
    (hb : b.IsWritable) :
    rangeHolds document (.object [(field, b.toJson)]) =
      some ((Clause.range field b).holds (view found document)) := by
  simp only [rangeHolds, Clause.holds, view]
  cases dateAt document field with
  | none => rfl
  | some date => exact boundsHold_toJson hb date

/-- Clauses that are each written as what they mean are so as a list. -/
theorem allHold_listJson {clauses : List Clause}
    (h : ∀ c ∈ clauses, holds found document c.toJson = some (c.holds (view found document))) :
    allHold found document (Clause.listJson clauses) =
      some (Clause.allHold (view found document) clauses) := by
  induction clauses with
  | nil => rfl
  | cons c rest ih =>
    obtain ⟨hc, hrest⟩ := List.forall_mem_cons.mp h
    rw [Clause.listJson, allHold, hc, ih hrest, both_some, Clause.allHold]

theorem holds_bool_toJson {must filter : List Clause}
    (hmust : ∀ c ∈ must, holds found document c.toJson = some (c.holds (view found document)))
    (hfilter : ∀ c ∈ filter,
      holds found document c.toJson = some (c.holds (view found document))) :
    holds found document (Clause.bool must filter).toJson =
      some ((Clause.bool must filter).holds (view found document)) := by
  have hboth := both_some (Clause.allHold (view found document) must)
    (Clause.allHold (view found document) filter)
  rw [← allHold_listJson hmust, ← allHold_listJson hfilter] at hboth
  exact hboth

end QueryLanguage

/-- What is written of a tree of clauses is understood, and holds of a document exactly where the
tree does, however texts are found in fields. -/
theorem Clause.written_holds (found : QueryLanguage.TextMatch) (document : Json) {c : Clause}
    (hc : c.IsWritable) :
    QueryLanguage.holds found document c.toJson =
      some (c.holds (QueryLanguage.view found document)) := by
  induction c using Clause.induction with
  | matchAll => rfl
  | multiMatch query fields => exact QueryLanguage.matchHolds_toJson found query hc
  | term field value => rfl
  | range field bounds => exact QueryLanguage.rangeHolds_toJson found document field hc
  | bool must filter ihMust ihFilter =>
    obtain ⟨hmust, hfilter⟩ := hc
    exact QueryLanguage.holds_bool_toJson
      (fun c hc => ihMust c hc (areWritable_iff.mp hmust c hc))
      (fun c hc => ihFilter c hc (areWritable_iff.mp hfilter c hc))

/-- Two levels of clauses hold of a message of noon on the leap day, whose date is written with
another offset than the bounds. -/
theorem Clause.nested_clauses_written_hold :
    let found : QueryLanguage.TextMatch := fun _ fields => fields.contains "text"
    let noon : Instant := ⟨1709208000, 0, by decide, by decide, by decide⟩
    let c : Clause := .bool [.multiMatch "launch" [⟨"text", some 2⟩, ⟨"handle", none⟩]]
      [.term "mentions.keyword" (.string "emma789"),
       .bool [] [.range "date" { gte := some noon, lte := some noon }, .matchAll]]
    let document : Json := .object
      [("date", .string "2024-02-29T13:00:00+01:00"),
       ("mentions", .array [.string "emma789", .string "john456"])]
    c.IsWritable ∧ QueryLanguage.holds found document c.toJson = some true := by
  intro found noon c document
  have hnoon : ∀ t, some noon = some t → t.IsWritable := by
    rintro t ⟨⟩
    exact ⟨by decide, by decide, by decide⟩
  have hbounds : ({ gte := some noon, lte := some noon } : DateBounds).IsWritable :=
    ⟨by simp, hnoon, by simp, hnoon⟩
  have hnames : ∀ f ∈ [(⟨"text", some 2⟩ : BoostedField), ⟨"handle", none⟩],
      '^' ∉ f.field.toList := by
    decide
  have hwritable : c.IsWritable :=
    ⟨⟨hnames, trivial⟩, trivial, ⟨trivial, ⟨hbounds, trivial, trivial⟩⟩, trivial⟩
  have hholds : c.holds (QueryLanguage.view found document) = true := by decide
  have hwritten := Clause.written_holds found document hwritable
  rw [hholds] at hwritten
  exact ⟨hwritable, hwritten⟩

/-- A bound in a leap second within its minute is written as the second that follows, which lets in
a date that comes between the two. -/
theorem Clause.leap_second_bound_written_holds_later :
    let found : QueryLanguage.TextMatch := fun _ _ => false
    let leap : Instant := ⟨4, 1333000000, by decide, by decide, by decide⟩
    let c : Clause := .range "date" { lt := some leap }
    let document : Json := .object [("date", .string "1970-01-01T00:00:05.000Z")]
    leap.HasPlainYear ∧ leap.toMillis = leap ∧
      c.holds (QueryLanguage.view found document) = false ∧
      QueryLanguage.holds found document c.toJson = some true := by
  intro found leap c document
  exact ⟨by decide, by decide, by decide, by decide⟩

end ConversationSearch
