/-!
# Cutting texts

The blank characters are those with the Unicode property `White_Space`: twenty-five code points.
Texts that users type are compared and stored without the blanks around them, and a text of
blanks alone counts as no text at all.

A dotted path names a field by segments with dots between them. Every path has at least one segment;
two dots in a row, or one at an end, leave an empty segment.
-/

namespace ConversationSearch.Text

/-! ## Trimming -/

/-- The characters with the Unicode property `White_Space`. -/
def isBlank (c : Char) : Bool :=
  let n := c.toNat
  (9 ≤ n && n ≤ 13) || n == 0x20 || n == 0x85 || n == 0xA0 || n == 0x1680 ||
    (0x2000 ≤ n && n ≤ 0x200A) || n == 0x2028 || n == 0x2029 || n == 0x202F ||
    n == 0x205F || n == 0x3000

/-- Drops the blanks at the front. -/
def trimStart (cs : List Char) : List Char :=
  cs.dropWhile isBlank

/-- Drops the blanks at the back. -/
def trimEnd (cs : List Char) : List Char :=
  (cs.reverse.dropWhile isBlank).reverse

/-- A text without the blanks around it. -/
def trim (s : String) : String :=
  String.ofList (trimEnd (trimStart s.toList))

/-- A text without the blanks around it, or nothing when only blanks are there. -/
def nonBlank (s : String) : Option String :=
  let t := trim s
  if t = "" then none else some t

/-- Every character that the core library counts as white space is blank. -/
theorem isBlank_of_isWhitespace (c : Char) (h : c.isWhitespace = true) :
    isBlank c = true := by
  simp only [Char.isWhitespace, Bool.or_eq_true, decide_eq_true_eq] at h
  rcases h with ((h | h) | h) | h <;> subst h <;> decide

/-! ## Segments -/

/-- The segments of a text between separators. -/
def splitChars (separator : Char) : List Char → List (List Char)
  | [] => [[]]
  | c :: rest =>
    if c = separator then [] :: splitChars separator rest
    else
      match splitChars separator rest with
      | [] => [[c]]
      | segment :: segments => (c :: segment) :: segments

/-- The segments of a dotted path. -/
def segments (path : String) : List String :=
  (splitChars '.' path.toList).map String.ofList

/-- There is always a segment. -/
theorem splitChars_ne_nil (separator : Char) (cs : List Char) :
    splitChars separator cs ≠ [] := by
  cases cs with
  | nil => simp [splitChars]
  | cons c rest =>
    by_cases h : c = separator
    · simp [splitChars, h]
    · simp only [splitChars, h, if_false]
      split <;> simp

end ConversationSearch.Text
