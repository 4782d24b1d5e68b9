import ConversationSearch.Proofs.Failing
import ConversationSearch.Proofs.Json.Texts
import ConversationSearch.Proofs.Json.Values

/-!
# Texts of any depth

A reader may set no limit to the depth of arrays and objects. `parseDeep` is such a reader: it
accepts every text that `parse` accepts, with the same value, and gives back every value without
doubles from its text, however deeply it is nested. `parse` gives back those that are not nested
too deeply. The program reads with `parse` alone; `parseDeep` stands for a reader that inverts the
writer, as it is assumed of the one that a body is sent to.
-/

namespace ConversationSearch.Json

namespace Reading

mutual

/-- The reading with nothing rejected for its depth. -/
def unlimited : Reading → Reading
  | .rejected .tooDeep skipped => unlimited skipped
  | .array items close => .array (unlimitedItems items) close
  | .object members close => .object (unlimitedMembers members) close
  | r => r

/-- The items with nothing rejected for its depth. -/
def unlimitedItems : List Reading → List Reading
  | [] => []
  | item :: rest => unlimited item :: unlimitedItems rest

/-- The members with nothing rejected for its depth. -/
def unlimitedMembers : List (Reading × Reading) → List (Reading × Reading)
  | [] => []
  | (key, value) :: rest => (key, unlimited value) :: unlimitedMembers rest

end

theorem unlimited_atDepth (depth : Nat) (r : Reading) :
    (atDepth depth r).unlimited = r.unlimited := by
  unfold atDepth
  split
  · rw [unlimited]
  · rfl

mutual

theorem unlimited_readingAt (j : Json) (depth : Nat) :
    (readingAt depth j).unlimited = toReading j :=
  match j with
  | .null | .bool _ | .number _ | .string _ => rfl
  | .array items => by
    rw [readingAt, unlimited_atDepth, unlimited, unlimitedItems_itemReadingsAt items, toReading]
  | .object members => by
    rw [readingAt, unlimited_atDepth, unlimited, unlimitedMembers_memberReadingsAt members,
      toReading]

theorem unlimitedItems_itemReadingsAt (items : List Json) (depth : Nat) :
    unlimitedItems (itemReadingsAt depth items) = itemsToReadings items :=
  match items with
  | [] => rfl
  | item :: rest =>
    congrArg₂ List.cons (unlimited_readingAt item depth) (unlimitedItems_itemReadingsAt rest depth)

theorem unlimitedMembers_memberReadingsAt (members : List (String × Json)) (depth : Nat) :
    unlimitedMembers (memberReadingsAt depth members) = membersToReadings members :=
  match members with
  | [] => rfl
  | (key, value) :: rest => by
    rw [memberReadingsAt, unlimitedMembers, unlimited_readingAt value,
      unlimitedMembers_memberReadingsAt rest, membersToReadings]

end

mutual

/-- Where a reading gives a value nothing in it is rejected. -/
theorem unlimited_eq (r : Reading) {j : Json} (h : r.toJson = .ok j) : r.unlimited = r :=
  match r, h with
  | .null, _ | .bool _, _ | .number _, _ | .string _, _ | .broken _ _, _ => rfl
  | .array items close, h => by
    obtain ⟨_, hitems, -⟩ := bind_eq_ok.mp h
    rw [unlimited, unlimitedItems_eq items hitems]
  | .object members close, h => by
    obtain ⟨_, hmembers, -⟩ := bind_eq_ok.mp h
    rw [unlimited, unlimitedMembers_eq members hmembers]

theorem unlimitedItems_eq (items : List Reading) {values : List Json}
    (h : itemsToJson items = .ok values) : unlimitedItems items = items :=
  match items, h with
  | [], _ => rfl
  | item :: rest, h => by
    obtain ⟨_, hitem, h⟩ := bind_eq_ok.mp h
    obtain ⟨_, hrest, -⟩ := bind_eq_ok.mp h
    rw [unlimitedItems, unlimited_eq item hitem, unlimitedItems_eq rest hrest]

theorem unlimitedMembers_eq (members : List (Reading × Reading)) {values : List (String × Json)}
    (h : membersToJson members = .ok values) : unlimitedMembers members = members :=
  match members, h with
  | [], _ => rfl
  | (key, value) :: rest, h => by
    obtain ⟨_, _, h⟩ := bind_eq_ok.mp h
    obtain ⟨_, hvalue, h⟩ := bind_eq_ok.mp h
    obtain ⟨_, hrest, -⟩ := bind_eq_ok.mp h
    rw [unlimitedMembers, unlimited_eq value hvalue, unlimitedMembers_eq rest hrest]

end

end Reading

/-- The value that a whole text holds, whatever its depth. No function of the program uses it: it
only stands for the assumption that a reader inverts the writer. -/
def parseDeep (s : String) : Except Fault Json := do
  let (reading, rest) := Reading.read s.toList
  let value ← reading.unlimited.toJson
  Reading.finish rest
  return value

/-- What is parsed within the limit is parsed alike without one. -/
theorem parseDeep_of_parse {s : String} {j : Json} (h : parse s = .ok j) :
    parseDeep s = .ok j := by
  unfold parse at h
  unfold parseDeep
  generalize Reading.read s.toList = front at h ⊢
  obtain ⟨reading, rest⟩ := front
  obtain ⟨_, hvalue, -⟩ := bind_eq_ok.mp h
  simp only [Reading.unlimited_eq reading hvalue]
  exact h

/-- A value without doubles is parsed from its text, with its members in order. -/
theorem parseDeep_compact {j : Json} (hj : j.IsExact) :
    parseDeep j.compact = .ok j.ordered := by
  unfold parseDeep compact
  rw [String.toList_ofList, Reading.read_compactChars hj]
  simp only [Reading.unlimited_readingAt, toJson_toReading]
  rfl

/-- A value that is not nested too deeply is parsed within the limit. -/
theorem parse_compact {j : Json} (hj : j.IsLegible 0) :
    parse j.compact = .ok j.ordered := by
  unfold parse compact
  rw [String.toList_ofList, Reading.read_legible hj]
  simp only [toJson_toReading]
  rfl

end ConversationSearch.Json
