import ConversationSearch.Json.Decoder
import ConversationSearch.Proofs.Json.Tokens

/-!
# Texts are read back

The text that a value without doubles is written as, without blanks, is read to its end, with items
and members in their order. What is read is the value again, but that arrays and objects below the
greatest depth are rejected. So a decoder makes of the text of a value that is not nested too deeply
what it makes of the value.
-/

namespace ConversationSearch.Json

mutual

/-- A value can be told from its text: its integers have sixty-four bits, and no number is a
double. -/
def IsExact : Json → Prop
  | .null | .bool _ | .string _ => True
  | .number n => n.IsExact
  | .array items => AreExact items
  | .object members => HaveExact members

/-- The items are exact. -/
def AreExact : List Json → Prop
  | [] => True
  | item :: rest => IsExact item ∧ AreExact rest

/-- The values of the members are exact. -/
def HaveExact : List (String × Json) → Prop
  | [] => True
  | (_, value) :: rest => IsExact value ∧ HaveExact rest

end

mutual

/-- What is read from the text of a value at a depth. -/
def readingAt (depth : Nat) : Json → Reading
  | .null => .null
  | .bool b => .bool b
  | .number n => .number n
  | .string s => .string s
  | .array items => Reading.atDepth depth (.array (itemReadingsAt (depth + 1) items) none)
  | .object members => Reading.atDepth depth (.object (memberReadingsAt (depth + 1) members) none)

/-- What is read from the texts of items. -/
def itemReadingsAt (depth : Nat) : List Json → List Reading
  | [] => []
  | item :: rest => readingAt depth item :: itemReadingsAt depth rest

/-- What is read from the texts of members. -/
def memberReadingsAt (depth : Nat) : List (String × Json) → List (Reading × Reading)
  | [] => []
  | (key, value) :: rest => (.string key, readingAt depth value) :: memberReadingsAt depth rest

end

mutual

/-- A value at the given depth can be read from its text: its integers have sixty-four bits, no
number is a double, and nothing is nested too deeply. -/
def IsLegible (depth : Nat) : Json → Prop
  | .null | .bool _ | .string _ => True
  | .number n => n.IsExact
  | .array items => depth < Reading.maxDepth ∧ AreLegible (depth + 1) items
  | .object members => depth < Reading.maxDepth ∧ HaveLegible (depth + 1) members

/-- The items are legible. -/
def AreLegible (depth : Nat) : List Json → Prop
  | [] => True
  | item :: rest => IsLegible depth item ∧ AreLegible depth rest

/-- The values of the members are legible. -/
def HaveLegible (depth : Nat) : List (String × Json) → Prop
  | [] => True
  | (_, value) :: rest => IsLegible depth value ∧ HaveLegible depth rest

end

theorem areLegible_iff {depth : Nat} {items : List Json} :
    AreLegible depth items ↔ ∀ item ∈ items, item.IsLegible depth := by
  induction items with
  | nil => simp [AreLegible]
  | cons item rest ih => rw [AreLegible, ih, List.forall_mem_cons]

theorem haveLegible_iff {depth : Nat} {members : List (String × Json)} :
    HaveLegible depth members ↔ ∀ m ∈ members, m.2.IsLegible depth := by
  induction members with
  | nil => simp [HaveLegible]
  | cons m members ih =>
    obtain ⟨key, value⟩ := m
    rw [HaveLegible, ih, List.forall_mem_cons]

theorem legible_member? {depth : Nat} {f : α → Json} (hf : ∀ a, (f a).IsLegible depth)
    (key : String) (value : Option α) :
    ∀ m ∈ member? key f value, m.2.IsLegible depth := by
  cases value with
  | none => simp [member?]
  | some a => simpa [member?] using hf a

/-! ## The shape of texts -/

/-- The text of items behind another one, up to the end of the array. -/
def closingItems : List Json → List Char
  | [] => [']']
  | item :: rest => ',' :: (compactChars item ++ closingItems rest)

/-- The text of a member. -/
def memberChars (key : String) (value : Json) : List Char :=
  Quoted.encode key ++ ':' :: compactChars value

/-- The text of members behind another one, up to the end of the object. -/
def closingMembers : List (String × Json) → List Char
  | [] => ['}']
  | (key, value) :: rest => ',' :: (memberChars key value ++ closingMembers rest)

theorem compactItems_cons (item : Json) (rest : List Json) :
    compactItems (item :: rest) ++ [']'] = compactChars item ++ closingItems rest := by
  induction rest generalizing item with
  | nil => rfl
  | cons next rest ih =>
    rw [compactItems, closingItems, List.append_assoc, List.cons_append, ih]
    simp

theorem compactMembers_cons (key : String) (value : Json) (rest : List (String × Json)) :
    compactMembers ((key, value) :: rest) ++ ['}'] =
      memberChars key value ++ closingMembers rest := by
  induction rest generalizing key value with
  | nil => rfl
  | cons next rest ih =>
    obtain ⟨k, v⟩ := next
    rw [compactMembers, closingMembers, List.append_assoc, List.cons_append, ih]
    · simp [memberChars]
    · simp

theorem delimited_closingItems (items : List Json) (rest : List Char) :
    Delimited (closingItems items ++ rest) := by
  cases items <;> simp [closingItems, Delimited]

theorem delimited_closingMembers (members : List (String × Json)) (rest : List Char) :
    Delimited (closingMembers members ++ rest) := by
  cases members <;> simp [closingMembers, Delimited]

theorem skipSpace_delimited {cs : List Char} (h : Delimited cs) :
    skipSpace cs = cs := by
  rcases h.cases with rfl | ⟨c, rest, rfl, rfl | rfl | rfl⟩ <;> rfl

theorem isSpace_of_isDigit {c : Char} (hc : Text.isDigit c = true) :
    isSpace c = false := by
  by_cases hspace : isSpace c = true
  · simp only [isSpace, Bool.or_eq_true, beq_iff_eq] at hspace
    rcases hspace with ((rfl | rfl) | rfl) | rfl <;> exact absurd hc (by decide)
  · simpa using hspace

theorem exists_head_integer (n : Int) :
    ∃ c cs, Text.integer n = c :: cs ∧ isSpace c = false ∧ c ≠ ']' := by
  cases n with
  | ofNat k =>
    obtain ⟨c, cs, hdigits, hdigit⟩ := Text.exists_head_digits k
    refine ⟨c, cs, hdigits, isSpace_of_isDigit hdigit, ?_⟩
    rintro rfl
    contradiction
  | negSucc k => exact ⟨'-', _, rfl, by decide, by decide⟩

/-- The text of a value starts with neither a blank nor a closing bracket. -/
theorem exists_head_compactChars {j : Json} (hj : j.IsExact) :
    ∃ c cs, j.compactChars = c :: cs ∧ isSpace c = false ∧ c ≠ ']' := by
  cases j with
  | null => exact ⟨'n', _, rfl, by decide, by decide⟩
  | bool b =>
    cases b with
    | true => exact ⟨'t', _, rfl, by decide, by decide⟩
    | false => exact ⟨'f', _, rfl, by decide, by decide⟩
  | number n =>
    cases n with
    | real d => exact hj.elim
    | int k => exact exists_head_integer k
  | string s => exact ⟨'"', _, rfl, by decide, by decide⟩
  | array items => exact ⟨'[', _, rfl, by decide, by decide⟩
  | object members => exact ⟨'{', _, rfl, by decide, by decide⟩

theorem skipSpace_compactChars {j : Json} (hj : j.IsExact) (rest : List Char) :
    skipSpace (j.compactChars ++ rest) = j.compactChars ++ rest := by
  obtain ⟨c, cs, hchars, hspace, -⟩ := exists_head_compactChars hj
  rw [hchars, List.cons_append, skipSpace, List.dropWhile_cons_of_neg (by simp [hspace])]

theorem length_compactChars_pos {j : Json} (hj : j.IsExact) :
    0 < j.compactChars.length := by
  obtain ⟨c, cs, hchars, -⟩ := exists_head_compactChars hj
  rw [hchars]
  exact Nat.succ_pos _

theorem length_closingItems_pos (items : List Json) :
    0 < (closingItems items).length := by
  cases items <;> exact Nat.succ_pos _

theorem length_closingMembers_pos (members : List (String × Json)) :
    0 < (closingMembers members).length := by
  cases members <;> exact Nat.succ_pos _

namespace Reading

/-- A string is read from its text. -/
theorem readString_encode (s : String) (rest : List Char) :
    readString (s.toList.flatMap Quoted.escape ++ '"' :: rest) = (.string s, some rest) := by
  simp only [readString, Quoted.scan_flatMap_escape, String.ofList_toList]

theorem memberChars_append (key : String) (value : Json) (rest : List Char) :
    memberChars key value ++ rest =
      '"' :: (key.toList.flatMap Quoted.escape ++ '"' :: ':' :: (value.compactChars ++ rest)) := by
  simp [memberChars, Quoted.encode]

/-! ## Reading a part at a time -/

/-- The text of a value is read, and what stands behind it is left. -/
def ReadsBack (depth : Nat) (j : Json) : Prop :=
  ∀ supply rest, Delimited rest → 3 * j.compactChars.length ≤ supply →
    readValue supply depth (j.compactChars ++ rest) = (readingAt depth j, some rest)

/-- The text of items is read up to the end of the array, at its start and behind another item. -/
structure ItemsReadBack (depth : Nat) (items : List Json) : Prop where
  opening : ∀ supply rest, 3 * (compactItems items).length + 5 ≤ supply →
    readItems supply depth true (skipSpace (compactItems items ++ ']' :: rest)) =
      (itemReadingsAt depth items, none, some rest)
  closing : ∀ supply rest, 3 * (closingItems items).length ≤ supply →
    readItems supply depth false (closingItems items ++ rest) =
      (itemReadingsAt depth items, none, some rest)

/-- The text of members is read up to the end of the object, at its start and behind another
member. -/
structure MembersReadBack (depth : Nat) (members : List (String × Json)) : Prop where
  opening : ∀ supply rest, 3 * (compactMembers members).length + 5 ≤ supply →
    readMembers supply depth true (skipSpace (compactMembers members ++ '}' :: rest)) =
      (memberReadingsAt depth members, none, some rest)
  closing : ∀ supply rest, 3 * (closingMembers members).length ≤ supply →
    readMembers supply depth false (closingMembers members ++ rest) =
      (memberReadingsAt depth members, none, some rest)

section Items

variable {depth : Nat} {item : Json} {items : List Json}

theorem readItems_first (hitem : item.IsExact) (supply : Nat) (rest : List Char) :
    readItems (supply + 1) depth true (skipSpace (item.compactChars ++ rest)) =
      readItem supply depth (item.compactChars ++ rest) := by
  obtain ⟨c, cs, hchars, -, hbracket⟩ := exists_head_compactChars hitem
  rw [skipSpace_compactChars hitem, hchars, List.cons_append, readItems, if_neg hbracket,
    if_pos rfl]

theorem readItems_next (hitem : item.IsExact) (supply : Nat) (rest : List Char) :
    readItems (supply + 1) depth false (',' :: (item.compactChars ++ rest)) =
      readItem supply depth (item.compactChars ++ rest) := by
  have hskip := skipSpace_compactChars hitem rest
  obtain ⟨c, cs, hchars, -, hbracket⟩ := exists_head_compactChars hitem
  rw [hchars, List.cons_append] at hskip ⊢
  rw [readItems, hskip, if_neg (by decide), if_neg (by decide), if_pos rfl]
  split
  · next heq => exact absurd (List.cons.inj heq).1 hbracket
  · contradiction
  · rfl

theorem readItem_closingItems (hitem : item.IsExact) (hread : ReadsBack depth item)
    (hitems : ItemsReadBack depth items) {supply : Nat} (rest : List Char)
    (hsupply : 3 * (item.compactChars ++ closingItems items).length ≤ supply) :
    readItem supply depth (item.compactChars ++ (closingItems items ++ rest)) =
      (itemReadingsAt depth (item :: items), none, some rest) := by
  have hlength := length_compactChars_pos hitem
  have hlength' := length_closingItems_pos items
  rw [List.length_append] at hsupply
  obtain ⟨supply, rfl⟩ : ∃ n, supply = n + 1 := ⟨supply - 1, by omega⟩
  have hrest := delimited_closingItems items rest
  rw [readItem, hread supply _ hrest (by omega)]
  simp only [skipSpace_delimited hrest, hitems.closing supply rest (by omega)]
  rfl

theorem ItemsReadBack.nil : ItemsReadBack depth [] := by
  constructor
  · intro supply rest hsupply
    obtain ⟨supply, rfl⟩ : ∃ n, supply = n + 1 := ⟨supply - 1, by omega⟩
    change readItems (supply + 1) depth true (']' :: rest) = _
    rw [readItems]
    rfl
  · intro supply rest hsupply
    have hlength := length_closingItems_pos []
    obtain ⟨supply, rfl⟩ : ∃ n, supply = n + 1 := ⟨supply - 1, by omega⟩
    change readItems (supply + 1) depth false (']' :: rest) = _
    rw [readItems]
    rfl

theorem ItemsReadBack.cons (hitem : item.IsExact) (hread : ReadsBack depth item)
    (hitems : ItemsReadBack depth items) :
    ItemsReadBack depth (item :: items) := by
  constructor
  · intro supply rest hsupply
    obtain ⟨supply, rfl⟩ : ∃ n, supply = n + 1 := ⟨supply - 1, by omega⟩
    have hchars := compactItems_cons item items
    have hlength := congrArg List.length hchars
    rw [List.length_append, List.length_singleton] at hlength
    have htext : compactItems (item :: items) ++ ']' :: rest =
        item.compactChars ++ (closingItems items ++ rest) := by
      rw [← List.append_assoc, ← hchars, List.append_assoc, List.singleton_append]
    rw [htext, readItems_first hitem]
    exact readItem_closingItems hitem hread hitems rest (by omega)
  · intro supply rest hsupply
    simp only [closingItems, List.length_cons] at hsupply
    obtain ⟨supply, rfl⟩ : ∃ n, supply = n + 1 := ⟨supply - 1, by omega⟩
    rw [closingItems, List.cons_append, List.append_assoc, readItems_next hitem]
    exact readItem_closingItems hitem hread hitems rest (by omega)

theorem ReadsBack.array (hitems : ItemsReadBack (depth + 1) items) :
    ReadsBack depth (.array items) := by
  intro supply rest hrest hsupply
  simp only [compactChars, List.length_append, List.length_cons, List.length_nil] at hsupply
  obtain ⟨supply, rfl⟩ : ∃ n, supply = n + 1 := ⟨supply - 1, by omega⟩
  have hchars : compactChars (.array items) ++ rest =
      '[' :: (compactItems items ++ ']' :: rest) := by
    simp [compactChars]
  rw [hchars, readValue]
  simp only [hitems.opening supply rest (by omega)]
  rfl

end Items

section Members

variable {depth : Nat} {value : Json} {members : List (String × Json)}

theorem readMembers_first (key : String) (value : Json) (supply : Nat) (rest : List Char) :
    readMembers (supply + 1) depth true (skipSpace (memberChars key value ++ rest)) =
      readMember supply depth (memberChars key value ++ rest) := by
  rw [memberChars_append]
  change readMembers (supply + 1) depth true ('"' :: _) = _
  rw [readMembers, if_neg (by decide), if_pos rfl]

theorem readMembers_next (key : String) (value : Json) (supply : Nat) (rest : List Char) :
    readMembers (supply + 1) depth false (',' :: (memberChars key value ++ rest)) =
      readMember supply depth (memberChars key value ++ rest) := by
  rw [memberChars_append, readMembers, if_neg (by decide), if_neg (by decide), if_pos rfl]
  rfl

theorem readMember_closingMembers (key : String) (hvalue : value.IsExact)
    (hread : ReadsBack depth value) (hmembers : MembersReadBack depth members) {supply : Nat}
    (rest : List Char)
    (hsupply : 3 * (memberChars key value ++ closingMembers members).length ≤ supply) :
    readMember supply depth (memberChars key value ++ (closingMembers members ++ rest)) =
      (memberReadingsAt depth ((key, value) :: members), none, some rest) := by
  have hlength := length_compactChars_pos hvalue
  have hlength' := length_closingMembers_pos members
  simp only [memberChars, List.length_append, List.length_cons] at hsupply
  obtain ⟨supply, rfl⟩ : ∃ n, supply = n + 1 := ⟨supply - 1, by omega⟩
  have hrest := delimited_closingMembers members rest
  have hcolon : skipSpace (':' :: (value.compactChars ++ (closingMembers members ++ rest))) =
      ':' :: (value.compactChars ++ (closingMembers members ++ rest)) := rfl
  rw [memberChars_append, readMember]
  simp only [readString_encode, hcolon, skipSpace_compactChars hvalue,
    hread supply _ hrest (by omega), skipSpace_delimited hrest,
    hmembers.closing supply rest (by omega)]
  rfl

theorem MembersReadBack.nil : MembersReadBack depth [] := by
  constructor
  · intro supply rest hsupply
    obtain ⟨supply, rfl⟩ : ∃ n, supply = n + 1 := ⟨supply - 1, by omega⟩
    change readMembers (supply + 1) depth true ('}' :: rest) = _
    rw [readMembers]
    rfl
  · intro supply rest hsupply
    have hlength := length_closingMembers_pos []
    obtain ⟨supply, rfl⟩ : ∃ n, supply = n + 1 := ⟨supply - 1, by omega⟩
    change readMembers (supply + 1) depth false ('}' :: rest) = _
    rw [readMembers]
    rfl

theorem MembersReadBack.cons (key : String) (hvalue : value.IsExact)
    (hread : ReadsBack depth value) (hmembers : MembersReadBack depth members) :
    MembersReadBack depth ((key, value) :: members) := by
  constructor
  · intro supply rest hsupply
    obtain ⟨supply, rfl⟩ : ∃ n, supply = n + 1 := ⟨supply - 1, by omega⟩
    have hchars := compactMembers_cons key value members
    have hlength := congrArg List.length hchars
    rw [List.length_append, List.length_singleton] at hlength
    have htext : compactMembers ((key, value) :: members) ++ '}' :: rest =
        memberChars key value ++ (closingMembers members ++ rest) := by
      rw [← List.append_assoc, ← hchars, List.append_assoc, List.singleton_append]
    rw [htext, readMembers_first]
    exact readMember_closingMembers key hvalue hread hmembers rest (by omega)
  · intro supply rest hsupply
    simp only [closingMembers, List.length_cons] at hsupply
    obtain ⟨supply, rfl⟩ : ∃ n, supply = n + 1 := ⟨supply - 1, by omega⟩
    rw [closingMembers, List.cons_append, List.append_assoc, readMembers_next]
    exact readMember_closingMembers key hvalue hread hmembers rest (by omega)

theorem ReadsBack.object (hmembers : MembersReadBack (depth + 1) members) :
    ReadsBack depth (.object members) := by
  intro supply rest hrest hsupply
  simp only [compactChars, List.length_append, List.length_cons, List.length_nil] at hsupply
  obtain ⟨supply, rfl⟩ : ∃ n, supply = n + 1 := ⟨supply - 1, by omega⟩
  have hchars : compactChars (.object members) ++ rest =
      '{' :: (compactMembers members ++ '}' :: rest) := by
    simp [compactChars]
  rw [hchars, readValue]
  simp only [hmembers.opening supply rest (by omega)]
  rfl

end Members

section Scalars

variable {depth : Nat} {j : Json}

theorem ReadsBack.of_step (hj : j.IsExact)
    (h : ∀ supply rest, Delimited rest →
      readValue (supply + 1) depth (j.compactChars ++ rest) = (readingAt depth j, some rest)) :
    ReadsBack depth j := by
  intro supply rest hrest hsupply
  have hlength := length_compactChars_pos hj
  obtain ⟨supply, rfl⟩ : ∃ n, supply = n + 1 := ⟨supply - 1, by omega⟩
  exact h supply rest hrest

theorem ReadsBack.null : ReadsBack depth .null := by
  refine ReadsBack.of_step (by trivial) ?_
  intro supply rest hrest
  change readValue (supply + 1) depth ('n' :: 'u' :: 'l' :: 'l' :: rest) = _
  rw [readValue]
  rfl

theorem ReadsBack.bool (b : Bool) : ReadsBack depth (.bool b) := by
  refine ReadsBack.of_step (by trivial) ?_
  intro supply rest hrest
  cases b with
  | true =>
    change readValue (supply + 1) depth ('t' :: 'r' :: 'u' :: 'e' :: rest) = _
    rw [readValue]
    rfl
  | false =>
    change readValue (supply + 1) depth ('f' :: 'a' :: 'l' :: 's' :: 'e' :: rest) = _
    rw [readValue]
    rfl

theorem ReadsBack.string (s : String) : ReadsBack depth (.string s) := by
  refine ReadsBack.of_step (by trivial) ?_
  intro supply rest hrest
  have hchars : compactChars (.string s) ++ rest =
      '"' :: (s.toList.flatMap Quoted.escape ++ '"' :: rest) := by
    simp [compactChars, Quoted.encode]
  rw [hchars, readValue, readString_encode]
  rfl

end Scalars

/-! ## Reading whole texts -/

mutual

theorem readsBack (j : Json) (hj : j.IsExact) (depth : Nat) : ReadsBack depth j :=
  match j, hj with
  | .null, _ => .null
  | .bool b, _ => .bool b
  | .number _, hn => .of_step hn fun supply _ hrest => readValue_number hn supply depth hrest
  | .string s, _ => .string s
  | .array items, hitems => .array (itemsReadBack items hitems (depth + 1))
  | .object members, hmembers => .object (membersReadBack members hmembers (depth + 1))

theorem itemsReadBack (items : List Json) (hitems : AreExact items) (depth : Nat) :
    ItemsReadBack depth items :=
  match items, hitems with
  | [], _ => .nil
  | item :: rest, ⟨hitem, hrest⟩ =>
    .cons hitem (readsBack item hitem depth) (itemsReadBack rest hrest depth)

theorem membersReadBack (members : List (String × Json)) (hmembers : HaveExact members)
    (depth : Nat) : MembersReadBack depth members :=
  match members, hmembers with
  | [], _ => .nil
  | (key, value) :: rest, ⟨hvalue, hrest⟩ =>
    .cons key hvalue (readsBack value hvalue depth) (membersReadBack rest hrest depth)

end

/-- The text of an exact value is read to its end. -/
theorem read_compactChars {j : Json} (hj : j.IsExact) :
    read j.compactChars = (readingAt 0 j, some []) := by
  have hskip := skipSpace_compactChars hj []
  have hread := readsBack j hj 0 (3 * j.compactChars.length + 3) [] rfl (by omega)
  rw [List.append_nil] at hskip hread
  rw [read, hskip]
  exact hread

/-- The text of an integer beyond sixty-four bits is read as a double, or not at all. -/
theorem read_inexact {n : Int} (hn : ¬(Number.int n).IsExact) :
    ∃ r, read (Json.int n).compactChars = (r, some []) ∧
      ((∃ d, r = .number (.real d)) ∨ ∃ fault, r = .rejected fault .null) := by
  have hchars : (Json.int n).compactChars = Text.integer n := rfl
  have hskip : skipSpace (Text.integer n) = Text.integer n := by
    obtain ⟨c, cs, hinteger, hspace, -⟩ := exists_head_integer n
    rw [hinteger, skipSpace, List.dropWhile_cons_of_neg (by simp [hspace])]
  have hend : Delimited [] := rfl
  obtain ⟨r, hread, hr⟩ := readValue_inexact hn (3 * (Text.integer n).length + 2) 0 hend
  rw [List.append_nil] at hread
  exact ⟨r, by rw [read, hchars, hskip]; exact hread, hr⟩

end Reading

/-! ## Values that are not nested too deeply -/

mutual

theorem IsLegible.isExact {j : Json} {depth : Nat} (hj : j.IsLegible depth) : j.IsExact :=
  match j, hj with
  | .null, _ | .bool _, _ | .string _, _ => trivial
  | .number _, hn => hn
  | .array _, ⟨_, hitems⟩ => hitems.areExact
  | .object _, ⟨_, hmembers⟩ => hmembers.haveExact

theorem AreLegible.areExact {items : List Json} {depth : Nat} (hitems : AreLegible depth items) :
    AreExact items :=
  match items, hitems with
  | [], _ => trivial
  | _ :: _, ⟨hitem, hrest⟩ => ⟨hitem.isExact, hrest.areExact⟩

theorem HaveLegible.haveExact {members : List (String × Json)} {depth : Nat}
    (hmembers : HaveLegible depth members) : HaveExact members :=
  match members, hmembers with
  | [], _ => trivial
  | _ :: _, ⟨hvalue, hrest⟩ => ⟨hvalue.isExact, hrest.haveExact⟩

end

theorem Reading.atDepth_of_lt {depth : Nat} (h : depth < maxDepth) (r : Reading) :
    atDepth depth r = r :=
  if_neg (Nat.not_le.mpr h)

mutual

theorem IsLegible.readingAt_eq {j : Json} {depth : Nat} (hj : j.IsLegible depth) :
    readingAt depth j = toReading j :=
  match j, hj with
  | .null, _ | .bool _, _ | .number _, _ | .string _, _ => rfl
  | .array _, ⟨hdepth, hitems⟩ => by
    rw [readingAt, Reading.atDepth_of_lt hdepth, hitems.itemReadingsAt_eq, toReading]
  | .object _, ⟨hdepth, hmembers⟩ => by
    rw [readingAt, Reading.atDepth_of_lt hdepth, hmembers.memberReadingsAt_eq, toReading]

theorem AreLegible.itemReadingsAt_eq {items : List Json} {depth : Nat}
    (hitems : AreLegible depth items) :
    itemReadingsAt depth items = itemsToReadings items :=
  match items, hitems with
  | [], _ => rfl
  | _ :: _, ⟨hitem, hrest⟩ => congrArg₂ List.cons hitem.readingAt_eq hrest.itemReadingsAt_eq

theorem HaveLegible.memberReadingsAt_eq {members : List (String × Json)} {depth : Nat}
    (hmembers : HaveLegible depth members) :
    memberReadingsAt depth members = membersToReadings members :=
  match members, hmembers with
  | [], _ => rfl
  | _ :: _, ⟨hvalue, hrest⟩ => by
    rw [memberReadingsAt, hvalue.readingAt_eq, hrest.memberReadingsAt_eq, membersToReadings]

end

theorem Reading.read_legible {j : Json} (hj : j.IsLegible 0) :
    read j.compactChars = (toReading j, some []) := by
  rw [read_compactChars hj.isExact, hj.readingAt_eq]

namespace Decoder

variable {j : Json}

/-- A decoder makes of the text of a value what it makes of the value. -/
theorem ofText_compact (d : Decoder α) (hj : j.IsLegible 0) :
    d.ofText j.compact = d .text (toReading j) := by
  unfold ofText compact
  rw [String.toList_ofList, Reading.read_legible hj]
  cases hd : d .text (toReading j) with
  | error f =>
    simp only [hd]
    rfl
  | ok a =>
    simp only [hd]
    rfl

theorem ofFront_compact (d : Decoder α) (hj : j.IsLegible 0) :
    d.ofFront j.compact = d .text (toReading j) := by
  unfold ofFront compact
  rw [String.toList_ofList, Reading.read_legible hj]

end Decoder
end ConversationSearch.Json
