import ConversationSearch.Json.Reading
import ConversationSearch.Proofs.Failing
import ConversationSearch.Proofs.Json.Ordered

/-!
# Readings of whole values

The reading of a value has no faults, so it gives a value back: the same one, but that the members
of each object are brought into ascending order of key. Every value that a reading gives has its
members in that order, and such a value is the very one that its own reading gives.
-/

namespace ConversationSearch.Json

mutual

/-- The value with the members of each object in ascending order of key, the last of several with
one key. -/
def ordered : Json → Json
  | .array items => .array (orderedItems items)
  | .object members => .ofMembers (orderedMembers members)
  | .null => .null
  | .bool b => .bool b
  | .number n => .number n
  | .string s => .string s

/-- The items, each with its members in order. -/
def orderedItems : List Json → List Json
  | [] => []
  | item :: rest => ordered item :: orderedItems rest

/-- The members in their places, each value with its own members in order. -/
def orderedMembers : List (String × Json) → List (String × Json)
  | [] => []
  | (key, value) :: rest => (key, ordered value) :: orderedMembers rest

end

mutual

/-- The members of each object are in ascending order of key. -/
def IsOrdered : Json → Prop
  | .array items => AreOrdered items
  | .object members => Ascending members ∧ HaveOrdered members
  | .null | .bool _ | .number _ | .string _ => True

/-- The items are ordered. -/
def AreOrdered : List Json → Prop
  | [] => True
  | item :: rest => IsOrdered item ∧ AreOrdered rest

/-- The values of the members are ordered. -/
def HaveOrdered : List (String × Json) → Prop
  | [] => True
  | (_, value) :: rest => IsOrdered value ∧ HaveOrdered rest

end

theorem areOrdered_iff {items : List Json} :
    AreOrdered items ↔ ∀ item ∈ items, item.IsOrdered := by
  induction items with
  | nil => simp [AreOrdered]
  | cons item rest ih => rw [AreOrdered, ih, List.forall_mem_cons]

theorem haveOrdered_iff {members : List (String × Json)} :
    HaveOrdered members ↔ ∀ m ∈ members, m.2.IsOrdered := by
  induction members with
  | nil => simp [HaveOrdered]
  | cons m members ih =>
    obtain ⟨key, value⟩ := m
    rw [HaveOrdered, ih, List.forall_mem_cons]

mutual

/-- A value that is in order stays as it is. -/
theorem IsOrdered.ordered_eq {j : Json} (hj : j.IsOrdered) : j.ordered = j :=
  match j, hj with
  | .null, _ | .bool _, _ | .number _, _ | .string _, _ => rfl
  | .array _, hitems => congrArg Json.array (AreOrdered.orderedItems_eq hitems)
  | .object _, ⟨hascending, hvalues⟩ => by
    rw [ordered, hvalues.orderedMembers_eq, ofMembers, hascending.sortMembers_eq]

theorem AreOrdered.orderedItems_eq {items : List Json} (hitems : AreOrdered items) :
    orderedItems items = items :=
  match items, hitems with
  | [], _ => rfl
  | _ :: _, ⟨hitem, hrest⟩ => congrArg₂ List.cons hitem.ordered_eq hrest.orderedItems_eq

theorem HaveOrdered.orderedMembers_eq {members : List (String × Json)}
    (hmembers : HaveOrdered members) :
    orderedMembers members = members :=
  match members, hmembers with
  | [], _ => rfl
  | _ :: _, ⟨hvalue, hrest⟩ => by
    rw [orderedMembers, hvalue.ordered_eq, hrest.orderedMembers_eq]

end

mutual

/-- The reading of a value gives the value with its members in order. -/
theorem toJson_toReading (j : Json) : (toReading j).toJson = .ok j.ordered :=
  match j with
  | .null | .bool _ | .number _ | .string _ => rfl
  | .array items => by
    simp only [toReading, Reading.toJson, itemsToJson_itemsToReadings items, bind, Except.bind]
    rfl
  | .object members => by
    simp only [toReading, Reading.toJson, membersToJson_membersToReadings members, bind,
      Except.bind]
    rfl

theorem itemsToJson_itemsToReadings (items : List Json) :
    Reading.itemsToJson (itemsToReadings items) = .ok (orderedItems items) :=
  match items with
  | [] => rfl
  | item :: rest => by
    simp only [itemsToReadings, Reading.itemsToJson, toJson_toReading item,
      itemsToJson_itemsToReadings rest, bind, Except.bind]
    rfl

theorem membersToJson_membersToReadings (members : List (String × Json)) :
    Reading.membersToJson (membersToReadings members) = .ok (orderedMembers members) :=
  match members with
  | [] => rfl
  | (key, value) :: rest => by
    simp only [membersToReadings, Reading.membersToJson, Reading.key, toJson_toReading value,
      membersToJson_membersToReadings rest, bind, Except.bind]
    rfl

end

mutual

/-- A value that a reading gives is in order. -/
theorem isOrdered_of_toJson (r : Reading) {j : Json} (h : r.toJson = .ok j) : j.IsOrdered :=
  match r, h with
  | .null, h | .bool _, h | .number _, h | .string _, h => by
    obtain rfl := Except.ok.inj h
    trivial
  | .array items _, h => by
    obtain ⟨values, hvalues, h⟩ := bind_eq_ok.mp h
    obtain ⟨-, -, h⟩ := bind_eq_ok.mp h
    obtain rfl : Json.array values = j := Except.ok.inj h
    exact areOrdered_iff.mpr (isOrdered_of_itemsToJson items hvalues)
  | .object members _, h => by
    obtain ⟨values, hvalues, h⟩ := bind_eq_ok.mp h
    obtain ⟨-, -, h⟩ := bind_eq_ok.mp h
    obtain rfl : ofMembers values = j := Except.ok.inj h
    exact ⟨ascending_sortMembers values, haveOrdered_iff.mpr fun m hm =>
      isOrdered_of_membersToJson members hvalues m (mem_of_mem_sortMembers hm)⟩

theorem isOrdered_of_itemsToJson (items : List Reading) {values : List Json}
    (h : Reading.itemsToJson items = .ok values) : ∀ value ∈ values, value.IsOrdered :=
  match items, h with
  | [], h => by
    obtain rfl := Except.ok.inj h
    exact List.forall_mem_nil _
  | item :: rest, h => by
    obtain ⟨value, hvalue, h⟩ := bind_eq_ok.mp h
    obtain ⟨others, hothers, h⟩ := bind_eq_ok.mp h
    obtain rfl : value :: others = values := Except.ok.inj h
    exact List.forall_mem_cons.mpr
      ⟨isOrdered_of_toJson item hvalue, isOrdered_of_itemsToJson rest hothers⟩

theorem isOrdered_of_membersToJson (members : List (Reading × Reading))
    {values : List (String × Json)} (h : Reading.membersToJson members = .ok values) :
    ∀ m ∈ values, m.2.IsOrdered :=
  match members, h with
  | [], h => by
    obtain rfl := Except.ok.inj h
    exact List.forall_mem_nil _
  | (_, reading) :: rest, h => by
    obtain ⟨name, _, h⟩ := bind_eq_ok.mp h
    obtain ⟨value, hvalue, h⟩ := bind_eq_ok.mp h
    obtain ⟨others, hothers, h⟩ := bind_eq_ok.mp h
    obtain rfl : (name, value) :: others = values := Except.ok.inj h
    exact List.forall_mem_cons.mpr
      ⟨isOrdered_of_toJson reading hvalue, isOrdered_of_membersToJson rest hothers⟩

end

theorem membersToReadings_append (members others : List (String × Json)) :
    membersToReadings (members ++ others) =
      membersToReadings members ++ membersToReadings others := by
  induction members with
  | nil => rfl
  | cons m members ih =>
    obtain ⟨key, value⟩ := m
    rw [List.cons_append, membersToReadings, ih, membersToReadings, List.cons_append]

end ConversationSearch.Json
