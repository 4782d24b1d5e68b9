import ConversationSearch.Proofs.Json.Members
import ConversationSearch.Settings.Node

/-!
# What an entry of a layer changes

An entry is laid over what is there at its path, and the path says what can change. Under the first
name of the path something new is found; under every other name is found what was found before. So
two roots that differ in one setting only still differ in that setting only after an entry whose
path leads elsewhere. And where one entry of a layer at most is for a name, what is found under the
name after the layer is that entry laid over what was there.
-/

namespace ConversationSearch

namespace Node

/-- What a table holds under a name; other values hold nothing. -/
def member? (name : String) (node : Option Node) : Option Node :=
  (tableParts node).2.lookup name

/-- The node is a table. -/
def IsTable (node : Node) : Prop :=
  ∃ origin members, node = .table origin members

variable {key name : String} {value : Node} {steps : List PathStep} {existing : Option Node}

/-- Where nothing is held there is as much under a name as in an empty table. -/
theorem member?_getD_empty (name : String) (held : Option Node) :
    member? name (some (held.getD empty)) = member? name held := by
  cases held with
  | none => rfl
  | some node => rfl

theorem isTable_put_key (key : String) (value : Node) (steps : List PathStep)
    (existing : Option Node) :
    (put value (.key key :: steps) existing).IsTable :=
  ⟨_, _, rfl⟩

theorem member?_put_self (hkey : Text.lower key = name) :
    member? name (some (put value (.key key :: steps) existing)) =
      some (put value steps (member? name existing)) := by
  subst hkey
  exact Json.lookup_insert_self _ _ _

theorem member?_put_of_ne (hkey : Text.lower key ≠ name) :
    member? name (some (put value (.key key :: steps) existing)) = member? name existing :=
  Json.lookup_insert_of_ne hkey.symm _ _

/-- A value that is not made of others takes the place of what is there. -/
theorem put_scalar (origin : Option String) (s : Scalar) (existing : Option Node) :
    put (.scalar origin s) [] existing = .scalar origin s :=
  rfl

/-- A path starts with a name. -/
theorem exists_ofText_eq (s : String) :
    ∃ key steps, PathStep.ofText s = .key key :: steps := by
  unfold PathStep.ofText
  split
  · exact ⟨_, _, rfl⟩
  · split
    · exact ⟨_, _, rfl⟩
    · exact ⟨_, _, rfl⟩

theorem isTable_overlay {root : Node} (hroot : root.IsTable) (layer : List (String × Node)) :
    (overlay root layer).IsTable := by
  induction layer generalizing root with
  | nil => exact hroot
  | cons entry layer ih =>
    obtain ⟨key, steps, hsteps⟩ := exists_ofText_eq entry.1
    have hput := isTable_put_key key entry.2 steps (some root)
    rw [← hsteps] at hput
    exact ih hput

theorem overlay_nil (root : Node) :
    overlay root [] = root :=
  rfl

theorem overlay_cons (root : Node) (entry : String × Node) (layer : List (String × Node)) :
    overlay root (entry :: layer) =
      overlay (put entry.2 (PathStep.ofText entry.1) (some root)) layer :=
  rfl

theorem overlay_append (root : Node) (lower upper : List (String × Node)) :
    overlay root (lower ++ upper) = overlay (overlay root lower) upper :=
  List.foldl_append

/-! ## Places -/

theorem hasPlace_key (key : String) (steps : List PathStep) (existing : Option Node) :
    hasPlace (.key key :: steps) existing =
      hasPlace steps (member? (Text.lower key) existing) :=
  rfl

theorem hasPlaces_cons (root : Node) (entry : String × Node) (layer : List (String × Node)) :
    hasPlaces root (entry :: layer) = (hasPlace (PathStep.ofText entry.1) (some root) &&
      hasPlaces (put entry.2 (PathStep.ofText entry.1) (some root)) layer) :=
  rfl

/-- The entries of two layers have their places when those of the first have them, and those of the
second have them over the first. -/
theorem hasPlaces_append (root : Node) (lower upper : List (String × Node)) :
    hasPlaces root (lower ++ upper) =
      (hasPlaces root lower && hasPlaces (overlay root lower) upper) := by
  induction lower generalizing root with
  | nil => rfl
  | cons entry lower ih =>
    rw [List.cons_append, hasPlaces_cons, hasPlaces_cons, overlay_cons, ih, Bool.and_assoc]

/-! ## One entry for a name -/

/-- The value is a list. -/
def IsList (node : Option Node) : Prop :=
  ∃ origin items, node = some (.list origin items)

theorem IsTable.not_isList {node : Node} (h : node.IsTable) :
    ¬IsList (some node) := by
  obtain ⟨origin, members, rfl⟩ := h
  rintro ⟨_, _, ⟨⟩⟩

theorem not_isList_getD_empty {held : Option Node} (h : ¬IsList held) :
    ¬IsList (some (held.getD empty)) := by
  cases held with
  | none => exact IsTable.not_isList ⟨_, _, rfl⟩
  | some node => exact h

/-- The path starts with the name, in whatever letter case. -/
def LeadsInto (name : String) : List PathStep → Prop
  | .key key :: _ => Text.lower key = name
  | _ => False

instance (name : String) (steps : List PathStep) : Decidable (LeadsInto name steps) :=
  match steps with
  | .key key :: _ => inferInstanceAs (Decidable (Text.lower key = name))
  | .position _ :: _ => .isFalse id
  | [] => .isFalse id

/-- A value laid over what is there, if there is a value. -/
def mergeGiven (existing : Option Node) : Option Node → Option Node
  | none => existing
  | some value => some (merge existing value)

/-- Entries laid over what is there, each at the path that its name is read as. -/
def layOver (read : String → List PathStep) (root : Node) (layer : List (String × Node)) : Node :=
  layer.foldl (fun node entry => put entry.2 (read entry.1) (some node)) root

theorem overlay_eq_layOver (root : Node) (layer : List (String × Node)) :
    overlay root layer = layOver PathStep.ofText root layer :=
  rfl

theorem mergeMembers_eq_layOver (target : Node) (members : List (String × Node)) :
    mergeMembers target members = layOver (fun key => [.key key]) target members := by
  induction members generalizing target with
  | nil => rw [mergeMembers, layOver, List.foldl_nil]
  | cons member rest ih => exact ih _

theorem isTable_mergeMembers {target : Node} (htarget : target.IsTable)
    (members : List (String × Node)) :
    (mergeMembers target members).IsTable := by
  rw [mergeMembers_eq_layOver]
  induction members generalizing target with
  | nil => exact htarget
  | cons member rest ih => exact ih (isTable_put_key _ _ _ _)

theorem isTable_mergeMembers_cons (target : Node) (member : String × Node)
    (rest : List (String × Node)) :
    (mergeMembers target (member :: rest)).IsTable :=
  isTable_mergeMembers (isTable_put_key member.1 member.2 [] (some target)) rest

theorem not_isList_mergeMembers {target : Node} (h : ¬IsList (some target))
    (members : List (String × Node)) :
    ¬IsList (some (mergeMembers target members)) := by
  cases members with
  | nil => rwa [mergeMembers]
  | cons member rest => exact (isTable_mergeMembers_cons target member rest).not_isList

/-- Where one entry of a layer at most leads into a name, and this one to what it names as a whole,
what is found under the name is the entry laid over what was there, or just what was there. -/
theorem member?_layOver {read : String → List PathStep}
    (hread : ∀ s, ∃ key rest, read s = .key key :: rest) (hname : read name = [.key name])
    (hlower : Text.lower name = name) {layer : List (String × Node)}
    (hkeys : (layer.map (·.1)).Nodup)
    (hspelled : ∀ entry ∈ layer, LeadsInto name (read entry.1) → entry.1 = name) (root : Node) :
    member? name (some (layOver read root layer)) =
      mergeGiven (member? name (some root)) (layer.lookup name) := by
  induction layer generalizing root with
  | nil => rfl
  | cons entry layer ih =>
    obtain ⟨key, value⟩ := entry
    obtain ⟨hentry, hkeys⟩ := List.nodup_cons.mp hkeys
    obtain ⟨hspelledEntry, hspelled⟩ := List.forall_mem_cons.mp hspelled
    have hrest := ih hkeys hspelled (put value (read key) (some root))
    change member? name (some (layOver read (put value (read key) (some root)) layer)) = _
    by_cases heq : key = name
    · subst heq
      have hnone : layer.lookup key = none := by
        rw [List.lookup_eq_none_iff]
        intro m hm
        rw [bne_iff_ne]
        rintro rfl
        exact hentry (List.mem_map.mpr ⟨m, hm, rfl⟩)
      rw [hnone] at hrest
      rw [List.lookup_cons_self, hrest, hname, member?_put_self hlower]
      rfl
    · have hne : (name == key) = false := by
        rw [beq_eq_false_iff_ne]
        exact fun h => heq h.symm
      obtain ⟨first, rest, hfirst⟩ := hread key
      have hother : Text.lower first ≠ name := fun h => heq (hspelledEntry (hfirst ▸ h))
      rw [List.lookup_cons, hne, hrest, hfirst, member?_put_of_ne hother]

/-! ## Two values that differ under one name -/

/-- Under every other name than this one the second holds what the first holds. -/
def SameBut (name : String) (node other : Option Node) : Prop :=
  ∀ key ≠ name, member? key other = member? key node

theorem sameBut_put_self (hkey : Text.lower key = name) :
    SameBut name existing (some (put value (.key key :: steps) existing)) := by
  intro k hk
  rw [member?_put_of_ne]
  rw [hkey]
  exact hk.symm

/-- What is laid over both changes both alike. -/
theorem SameBut.put {node other : Option Node} (h : SameBut name node other) (key : String)
    (steps : List PathStep) (value : Node) :
    SameBut name (some (put value (.key key :: steps) node))
      (some (put value (.key key :: steps) other)) := by
  intro k hk
  by_cases hkey : Text.lower key = k
  · rw [member?_put_self hkey, member?_put_self hkey, h k hk]
  · rw [member?_put_of_ne hkey, member?_put_of_ne hkey, h k hk]

/-! ## One setting of one section -/

/-- The path leads neither to the setting nor to a part of it, and not to its section as a whole. -/
inductive LeadsElsewhere (part name : String) : List PathStep → Prop
  | part {first : String} {steps : List PathStep} (hfirst : Text.lower first ≠ part) :
      LeadsElsewhere part name (.key first :: steps)
  | setting {first key : String} {steps : List PathStep} (hfirst : Text.lower first = part)
      (hkey : Text.lower key ≠ name) : LeadsElsewhere part name (.key first :: .key key :: steps)

/-- Both roots hold the same, but for one setting, for which the second holds the value. -/
structure Supplies (part name : String) (value : Node) (root other : Node) : Prop where
  isTable : root.IsTable
  isTable_other : other.IsTable
  same_parts : SameBut part (some root) (some other)
  same_settings : SameBut name (member? part (some root)) (member? part (some other))
  holder : ∃ node, member? part (some other) = some node ∧ node.IsTable
  held : member? name (member? part (some other)) = some value

/-- Such roots come from laying the value over one of them. -/
theorem supplies_put {root : Node} (hroot : root.IsTable) {part name first second : String}
    (hfirst : Text.lower first = part) (hsecond : Text.lower second = name)
    (origin : Option String) (s : Scalar) :
    Supplies part name (.scalar origin s) root
      (put (.scalar origin s) [.key first, .key second] (some root)) where
  isTable := hroot
  isTable_other := isTable_put_key _ _ _ _
  same_parts := sameBut_put_self hfirst
  same_settings := by
    rw [member?_put_self hfirst]
    exact sameBut_put_self hsecond
  holder := by
    rw [member?_put_self hfirst]
    exact ⟨_, rfl, isTable_put_key _ _ _ _⟩
  held := by
    rw [member?_put_self hfirst, member?_put_self hsecond, put_scalar]

namespace Supplies

variable {part name : String} {value root other : Node}

/-- An entry whose path leads elsewhere changes both roots alike. -/
theorem put (h : Supplies part name value root other) {steps : List PathStep}
    (hsteps : LeadsElsewhere part name steps) (entry : Node) :
    Supplies part name value (Node.put entry steps (some root))
      (Node.put entry steps (some other)) := by
  cases hsteps with
  | part hfirst =>
    refine ⟨isTable_put_key _ _ _ _, isTable_put_key _ _ _ _, h.same_parts.put _ _ _, ?_, ?_, ?_⟩
    · rw [member?_put_of_ne hfirst, member?_put_of_ne hfirst]
      exact h.same_settings
    · rw [member?_put_of_ne hfirst]
      exact h.holder
    · rw [member?_put_of_ne hfirst]
      exact h.held
  | setting hfirst hkey =>
    refine ⟨isTable_put_key _ _ _ _, isTable_put_key _ _ _ _, h.same_parts.put _ _ _, ?_, ?_, ?_⟩
    · rw [member?_put_self hfirst, member?_put_self hfirst]
      exact h.same_settings.put _ _ _
    · rw [member?_put_self hfirst]
      exact ⟨_, rfl, isTable_put_key _ _ _ _⟩
    · rw [member?_put_self hfirst, member?_put_of_ne hkey]
      exact h.held

/-- A layer all of whose paths lead elsewhere changes both roots alike. -/
theorem overlay (h : Supplies part name value root other) {layer : List (String × Node)}
    (hlayer : ∀ entry ∈ layer, LeadsElsewhere part name (PathStep.ofText entry.1)) :
    Supplies part name value (root.overlay layer) (other.overlay layer) := by
  induction layer generalizing root other with
  | nil => exact h
  | cons entry layer ih =>
    obtain ⟨hentry, hlayer⟩ := List.forall_mem_cons.mp hlayer
    exact ih (h.put hentry entry.2) hlayer

/-- A path that leads elsewhere has its place in both roots or in none. -/
theorem hasPlace_eq (h : Supplies part name value root other) {steps : List PathStep}
    (hsteps : LeadsElsewhere part name steps) :
    hasPlace steps (some other) = hasPlace steps (some root) := by
  cases hsteps with
  | part hfirst => rw [hasPlace_key, hasPlace_key, h.same_parts _ hfirst]
  | setting hfirst hkey =>
    rw [hasPlace_key, hasPlace_key, hasPlace_key, hasPlace_key, hfirst, h.same_settings _ hkey]

/-- A layer all of whose paths lead elsewhere has its places in both roots or in none. -/
theorem hasPlaces_eq (h : Supplies part name value root other) {layer : List (String × Node)}
    (hlayer : ∀ entry ∈ layer, LeadsElsewhere part name (PathStep.ofText entry.1)) :
    other.hasPlaces layer = root.hasPlaces layer := by
  induction layer generalizing root other with
  | nil => rfl
  | cons entry layer ih =>
    obtain ⟨hentry, hlayer⟩ := List.forall_mem_cons.mp hlayer
    rw [hasPlaces_cons, hasPlaces_cons, h.hasPlace_eq hentry, ih (h.put hentry entry.2) hlayer]

end Supplies
end Node
end ConversationSearch
