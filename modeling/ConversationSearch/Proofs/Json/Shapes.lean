import Mathlib.Data.List.Forall2
import ConversationSearch.Json.Decoder
import ConversationSearch.Proofs.Failing
import ConversationSearch.Proofs.Json.Members

/-!
# Decoding the members of an object

A shape decodes an object whose keys are all different and each of whose members decodes; the value
is then built from the members by their keys. An object with a member that does not decode is
refused. Both hold whatever the reading comes from and in whatever order the members stand.
-/

namespace ConversationSearch.Json

/-- Each item of the first list is related to one of the second. -/
theorem exists_of_forall₂ {R : α → β → Prop} {as : List α} {bs : List β}
    (h : List.Forall₂ R as bs) :
    ∀ a ∈ as, ∃ b ∈ bs, R a b := by
  intro a ha
  obtain ⟨i, hi, rfl⟩ := List.getElem_of_mem ha
  exact ⟨_, List.getElem_mem _, h.get hi (h.length_eq ▸ hi)⟩

/-- The decoder reads a JSON value as the given one, wherever it comes from. -/
def Decoder.Reads (d : Decoder α) (j : Json) (a : α) : Prop :=
  ∀ source, d source (toReading j) = .ok a

namespace Decoder

theorem string_reads (s : String) :
    string.Reads (.string s) s :=
  fun _ => rfl

theorem bool_reads (b : Bool) :
    bool.Reads (.bool b) b :=
  fun _ => rfl

theorem uint64_reads (n : UInt64) :
    uint64.Reads (.nat n.toNat) n := by
  intro source
  have hn : natural 64 "u64" source (toReading (.nat n.toNat)) = .ok n.toNat :=
    if_pos ⟨Int.natCast_nonneg _, n.toNat_lt⟩
  rw [uint64, hn]
  exact congrArg Except.ok n.ofNat_toNat

theorem option_reads {d : Decoder α} {j : Json} {a : α} (h : d.Reads j a) (hj : j ≠ .null) :
    (option d).Reads j (some a) := by
  intro source
  have hd : some <$> d source (toReading j) = .ok (some a) := by
    rw [h source]
    rfl
  cases j with
  | null => contradiction
  | _ => exact hd

theorem variant_reads {table : List (String × α)} {name : String} {a : α}
    (h : table.lookup name = some a) :
    (variant table).Reads (.string name) a := by
  intro source
  have hpick : pick table name = .ok a := by
    unfold pick
    rw [h]
  cases source <;> exact hpick

theorem items_reads {d : Decoder α} {js : List Json} {as : List α}
    (h : List.Forall₂ d.Reads js as) (source : Source) (position : Nat) :
    items d source position (itemsToReadings js) = .ok as := by
  induction h generalizing position with
  | nil => rfl
  | cons hitem _ ih =>
    simp only [itemsToReadings, items, hitem source, ih, bind, Except.bind]
    rfl

theorem list_reads {d : Decoder α} {js : List Json} {as : List α}
    (h : List.Forall₂ d.Reads js as) :
    (list d).Reads (.array js) as := by
  intro source
  simp only [toReading, list, items_reads h, bind, Except.bind]
  rfl

theorem items_refuse {d : Decoder α} {js : List Json} {j : Json} (hj : j ∈ js) {source : Source}
    {f : Failure} (hf : d source (toReading j) = .error f) (position : Nat) :
    ∃ e, items d source position (itemsToReadings js) = .error e := by
  induction js generalizing position with
  | nil => contradiction
  | cons first rest ih =>
    have herror : ∀ {f}, d source (toReading first) = .error f →
        ∃ e, items d source position (itemsToReadings (first :: rest)) = .error e :=
      fun hf => ⟨_, bind_eq_error.mpr (.inl (mapError_eq_error.mpr ⟨_, hf, rfl⟩))⟩
    rcases List.mem_cons.mp hj with rfl | hj
    · exact herror hf
    · obtain ⟨e, he⟩ := ih hj (position + 1)
      cases hfirst : d source (toReading first) with
      | error f => exact herror hfirst
      | ok a =>
        refine ⟨e, bind_eq_error.mpr (.inr ⟨a, mapError_eq_ok.mpr hfirst, ?_⟩)⟩
        exact bind_eq_error.mpr (.inl he)

/-- An array with an item that is refused is refused. -/
theorem list_refuses {d : Decoder α} {js : List Json} {j : Json} (hj : j ∈ js) {source : Source}
    {f : Failure} (hf : d source (toReading j) = .error f) :
    ∃ e, list d source (toReading (.array js)) = .error e := by
  obtain ⟨e, he⟩ := items_refuse hj hf 0
  exact ⟨e, bind_eq_error.mpr (.inl he)⟩

/-- An array of values that are all written alike is read. -/
theorem list_reads_map {d : Decoder α} {f : α → Json} (h : ∀ a, d.Reads (f a) a) (as : List α) :
    (list d).Reads (.array (as.map f)) as :=
  list_reads (List.forall₂_map_left_iff.mpr (List.forall₂_same.mpr fun a _ => h a))

end Decoder

/-- The members of an object as they are found. -/
def Fields.ofMembers (source : Source) (members : List (String × Json)) : Fields :=
  ⟨source, members.map fun m => (m.1, toReading m.2)⟩

namespace Fields

variable {source : Source} {members : List (String × Json)} {name : String} {d : Decoder α}

theorem lookup_ofMembers :
    (ofMembers source members).found.lookup name = (members.lookup name).map toReading := by
  unfold ofMembers
  induction members with
  | nil => rfl
  | cons m members ih =>
    obtain ⟨key, j⟩ := m
    simp only [List.map_cons, List.lookup_cons]
    cases name == key with
    | true => rfl
    | false => exact ih

theorem get?_eq_some {j : Json} {a : α} (h : members.lookup name = some j) (hd : d.Reads j a) :
    (ofMembers source members).get? name d = .ok (some a) := by
  unfold get?
  rw [lookup_ofMembers, h]
  change some <$> d source (toReading j) = .ok (some a)
  rw [hd source]
  rfl

theorem get?_eq_none (h : members.lookup name = none) :
    (ofMembers source members).get? name d = .ok none := by
  unfold get?
  rw [lookup_ofMembers, h]
  rfl

end Fields

namespace Shape

/-! ## Building a value -/

section Building

variable {source : Source} {members : List (String × Json)} {name : String} {d : Decoder α}
variable {fields : Fields}

theorem build_map {f : α → β} {x : Shape α} {a : α} (hx : x.build fields = .ok a) :
    (f <$> x).build fields = .ok (f a) := by
  change (do let a ← x.build fields; return f a) = _
  rw [hx]
  rfl

theorem build_seq {f : Shape (α → β)} {g : α → β} {x : Shape α} {a : α}
    (hf : f.build fields = .ok g) (hx : x.build fields = .ok a) :
    (f <*> x).build fields = .ok (g a) := by
  change (do let g ← f.build fields; let a ← x.build fields; return g a) = _
  rw [hf, hx]
  rfl

theorem build_required {j : Json} {a : α} (h : members.lookup name = some j)
    (hd : d.Reads j a) :
    (required name d).build (.ofMembers source members) = .ok a := by
  unfold required
  simp only [Fields.get?_eq_some h hd, bind, Except.bind]
  rfl

theorem build_defaulted_some {j : Json} {a : α} (h : members.lookup name = some j)
    (hd : d.Reads j a) (default : α) :
    (defaulted name d default).build (.ofMembers source members) = .ok a := by
  change (do return (← (Fields.ofMembers source members).get? name d).getD default) = _
  rw [Fields.get?_eq_some h hd]
  rfl

theorem build_defaulted_none (h : members.lookup name = none) (default : α) :
    (defaulted name d default).build (.ofMembers source members) = .ok default := by
  change (do return (← (Fields.ofMembers source members).get? name d).getD default) = _
  rw [Fields.get?_eq_none h]
  rfl

end Building

/-! ## Visiting members -/

/-- The rules have one for the member, and by it the member decodes. -/
def Admits (rules : List Rule) (source : Source) (member : String × Json) : Prop :=
  ∃ rule, rules.find? (·.name == member.1) = some rule ∧
    rule.check source (toReading member.2) = .ok ()

theorem check_rule {name : String} {d : Decoder α} {j : Json} {a : α} (h : d.Reads j a)
    (optional trailing : Bool) (source : Source) :
    (rule name d optional trailing).check source (toReading j) = .ok () := by
  change (d source (toReading j)).map (fun _ => ()) = .ok ()
  rw [h source]
  rfl

theorem check_rule_error (name : String) {d : Decoder α} {source : Source} {r : Reading}
    {f : Failure} (h : d source r = .error f) (optional trailing : Bool) :
    (rule name d optional trailing).check source r = .error f := by
  change (d source r).map (fun _ => ()) = .error f
  rw [h]
  rfl

section Visiting

variable {rules : List Rule} {source : Source}

/-- There is a rule for each name that the rules have. -/
theorem exists_rule {name : String} (hname : name ∈ rules.map (·.name)) :
    ∃ rule ∈ rules, rules.find? (·.name == name) = some rule ∧ rule.name = name := by
  obtain ⟨known, hmem, hknown⟩ := List.mem_map.mp hname
  obtain ⟨rule, hrule⟩ : ∃ rule, rules.find? (·.name == name) = some rule := by
    apply Option.isSome_iff_exists.mp
    rw [List.find?_isSome]
    exact ⟨known, hmem, by simpa using hknown⟩
  exact ⟨rule, List.mem_of_find?_eq_some hrule, hrule, by simpa using List.find?_some hrule⟩

theorem memberKey_toReading (key : String) (j : Json) :
    Decoder.memberKey (.string key) (toReading j) = .ok key := by
  cases j <;> rfl

theorem visitMembers_step {key : String} {r : Reading} {rest : List (Reading × Reading)}
    {seen : List (String × Reading)} {rule : Rule}
    (hkey : Decoder.memberKey (.string key) r = .ok key)
    (hrule : rules.find? (·.name == key) = some rule) (hseen : seen.lookup key = none) :
    visitMembers rules source ((.string key, r) :: rest) seen =
      (do
        (rule.check source r).mapError (·.under (.member key))
        visitMembers rules source rest (seen ++ [(key, r)])) := by
  simp only [visitMembers, hkey, bind, Except.bind, hrule, hseen, Option.isSome_none]
  rfl

theorem lookup_append_none {seen : List (String × Reading)} {key other : String} {r : Reading}
    (hseen : seen.lookup other = none) (hne : other ≠ key) :
    (seen ++ [(key, r)]).lookup other = none := by
  rw [List.lookup_eq_none_iff] at hseen ⊢
  intro m hm
  rcases List.mem_append.mp hm with hm | hm
  · exact hseen m hm
  · rw [List.mem_singleton.mp hm]
    simpa using hne

theorem visitMembers_admits {members : List (String × Json)} {seen : List (String × Reading)}
    (hkeys : (members.map (·.1)).Nodup) (hseen : ∀ m ∈ members, seen.lookup m.1 = none)
    (hadmits : ∀ m ∈ members, Admits rules source m) :
    visitMembers rules source (membersToReadings members) seen =
      .ok (seen ++ members.map fun m => (m.1, toReading m.2)) := by
  induction members generalizing seen with
  | nil => simp [membersToReadings, visitMembers]
  | cons m members ih =>
    obtain ⟨key, j⟩ := m
    obtain ⟨hnew, hkeys⟩ := List.nodup_cons.mp hkeys
    obtain ⟨rule, hrule, hcheck⟩ := hadmits (key, j) List.mem_cons_self
    have hlater : ∀ m ∈ members, (seen ++ [(key, toReading j)]).lookup m.1 = none := by
      intro m hm
      -- a key that was already seen would be refused, whatever its value
      apply lookup_append_none (hseen m (List.mem_cons_of_mem _ hm))
      rintro rfl
      exact hnew (List.mem_map.mpr ⟨m, hm, rfl⟩)
    have hrest := ih hkeys hlater fun m hm => hadmits m (List.mem_cons_of_mem _ hm)
    have hfirst : seen.lookup key = none := hseen (key, j) List.mem_cons_self
    rw [membersToReadings, visitMembers_step (memberKey_toReading key j) hrule hfirst, hcheck]
    change visitMembers rules source (membersToReadings members) (seen ++ [(key, toReading j)]) = _
    rw [hrest, List.map_cons, List.append_assoc, List.singleton_append]

end Visiting

section Decoding

variable {s : Shape α} {members : List (String × Json)} {source : Source} {kind : String}

/-- An object is decoded by its members when each of them decodes. -/
theorem decoder_object (hkeys : (members.map (·.1)).Nodup)
    (hadmits : ∀ m ∈ members, Admits s.rules source m) :
    s.decoder kind source (toReading (.object members)) =
      s.build (.ofMembers source members) := by
  have hvisit := visitMembers_admits hkeys (fun _ _ => List.lookup_nil) hadmits
  rw [List.nil_append] at hvisit
  simp only [toReading, decoder, hvisit, bind, Except.bind]
  rfl

/-- Members that were visited decode by their rules. -/
theorem check_of_visitMembers {rules : List Rule} {seen found : List (String × Reading)}
    (h : visitMembers rules source (membersToReadings members) seen = .ok found) :
    ∀ m ∈ members, ∀ rule, rules.find? (·.name == m.1) = some rule →
      rule.check source (toReading m.2) = .ok () := by
  induction members generalizing seen with
  | nil => simp
  | cons first rest ih =>
    obtain ⟨key, j⟩ := first
    rw [membersToReadings, visitMembers] at h
    obtain ⟨name, hname, h⟩ := bind_eq_ok.mp h
    rw [memberKey_toReading] at hname
    obtain rfl : key = name := Except.ok.inj hname
    intro m hm rule hrule
    split at h
    · next hnone =>
      split at h
      · contradiction
      · rcases List.mem_cons.mp hm with rfl | hm
        · rw [hnone] at hrule
          contradiction
        · exact ih h m hm rule hrule
    · next visited hvisited =>
      split at h
      · contradiction
      · obtain ⟨⟨⟩, hcheck, h⟩ := bind_eq_ok.mp h
        rcases List.mem_cons.mp hm with rfl | hm
        · obtain rfl := Option.some.inj (hvisited.symm.trans hrule)
          exact mapError_eq_ok.mp hcheck
        · exact ih h m hm rule hrule

/-- An object that is decoded has no member that its rule refuses. -/
theorem check_of_decoder {a : α}
    (h : s.decoder kind source (toReading (.object members)) = .ok a) :
    ∀ m ∈ members, ∀ rule, s.rules.find? (·.name == m.1) = some rule →
      rule.check source (toReading m.2) = .ok () := by
  obtain ⟨found, hfound, -⟩ := bind_eq_ok.mp h
  exact check_of_visitMembers hfound

/-- An object with a member that its rule refuses is refused. -/
theorem decoder_object_error {member : String × Json} (hmember : member ∈ members) {rule : Rule}
    (hrule : s.rules.find? (·.name == member.1) = some rule) {f : Failure}
    (hcheck : rule.check source (toReading member.2) = .error f) :
    ∃ e, s.decoder kind source (toReading (.object members)) = .error e := by
  cases hread : s.decoder kind source (toReading (.object members)) with
  | error e => exact ⟨e, rfl⟩
  | ok a =>
    have hok := check_of_decoder hread member hmember rule hrule
    exact absurd (hok.symm.trans hcheck) (by simp)

end Decoding

end Shape

/-! ## Members in any order -/

namespace Shape

/-- Every member that the shape knows decodes, and the value is built from the members. -/
structure Takes (s : Shape α) (source : Source) (members : List (String × Json)) (a : α) :
    Prop where
  checks : ∀ rule ∈ s.rules, ∀ j, members.lookup rule.name = some j →
    rule.check source (toReading j) = .ok ()
  build : s.build (.ofMembers source members) = .ok a

namespace Takes

variable {source : Source} {members : List (String × Json)}

theorem map {f : α → β} {x : Shape α} {a : α} (hx : x.Takes source members a) :
    (f <$> x).Takes source members (f a) where
  checks := hx.checks
  build := build_map hx.build

theorem seq {f : Shape (α → β)} {g : α → β} {x : Shape α} {a : α}
    (hf : f.Takes source members g) (hx : x.Takes source members a) :
    (f <*> x).Takes source members (g a) where
  checks := by
    intro rule hrule
    rcases List.mem_append.mp hrule with hrule | hrule
    · exact hf.checks rule hrule
    · exact hx.checks rule hrule
  build := build_seq hf.build hx.build

theorem check_given {name : String} {d : Decoder α} {j : Json} {a : α} {optional trailing : Bool}
    (h : members.lookup name = some j) (hd : d.Reads j a) :
    ∀ r ∈ [rule name d optional trailing], ∀ found, members.lookup r.name = some found →
      r.check source (toReading found) = .ok () := by
  intro r hr found hfound
  obtain rfl := List.mem_singleton.mp hr
  obtain rfl : j = found := Option.some.inj (h.symm.trans hfound)
  exact check_rule hd optional trailing source

theorem required (source : Source) {name : String} {d : Decoder α} {j : Json} {a : α}
    (h : members.lookup name = some j) (hd : d.Reads j a) :
    (Shape.required name d).Takes source members a where
  checks := check_given h hd
  build := build_required h hd

theorem given (source : Source) {name : String} {d : Decoder α} {j : Json} {a : α}
    (h : members.lookup name = some j) (hd : d.Reads j a) (default : α) :
    (defaulted name d default).Takes source members a where
  checks := check_given h hd
  build := build_defaulted_some h hd default

theorem absent (source : Source) {name : String} {d : Decoder α}
    (h : members.lookup name = none) (default : α) :
    (defaulted name d default).Takes source members default := by
  refine ⟨?_, build_defaulted_none h default⟩
  intro rule hrule j hj
  obtain rfl := List.mem_singleton.mp hrule
  exact absurd (h.symm.trans hj) (by simp)

/-- A member that is there only for some values. -/
theorem optional (source : Source) {name : String} {d : Decoder (Option α)} {value : Option β}
    {f : β → Json} {g : β → Option α} (h : members.lookup name = value.map f)
    (hd : ∀ b, value = some b → d.Reads (f b) (g b)) :
    (defaulted name d none).Takes source members (value.bind g) := by
  cases value with
  | some b => exact given source h (hd b rfl) none
  | none => exact absent source h none

/-- An object in which no key stands twice, and each has a rule, is decoded as the value. -/
theorem decoder_object {s : Shape α} {kind : String} {a : α} (h : s.Takes source members a)
    (hkeys : (members.map (·.1)).Nodup)
    (hknown : ∀ m ∈ members, m.1 ∈ s.rules.map (·.name)) :
    s.decoder kind source (toReading (.object members)) = .ok a := by
  have hadmits : ∀ m ∈ members, Admits s.rules source m := by
    intro m hm
    obtain ⟨rule, hmem, hrule, hname⟩ := exists_rule (hknown m hm)
    have hfound : members.lookup rule.name = some m.2 := hname ▸ lookup_of_mem hkeys hm
    exact ⟨rule, hrule, h.checks rule hmem m.2 hfound⟩
  exact (Shape.decoder_object hkeys hadmits).trans h.build

end Takes
end Shape

/-! ## What is decoded -/

/-- The decoder gives the value for some reading. -/
def Decoder.Gives (d : Decoder α) (a : α) : Prop :=
  ∃ source r, d source r = .ok a

theorem Decoder.items_give {d : Decoder α} {source : Source} {position : Nat}
    {rs : List Reading} {as : List α} (h : items d source position rs = .ok as) :
    ∀ a ∈ as, d.Gives a := by
  induction rs generalizing position as with
  | nil =>
    obtain rfl : [] = as := Except.ok.inj h
    simp
  | cons r rs ih =>
    rw [items] at h
    obtain ⟨first, hfirst, h⟩ := bind_eq_ok.mp h
    obtain ⟨rest, hrest, h⟩ := bind_eq_ok.mp h
    obtain rfl : first :: rest = as := Except.ok.inj h
    intro a ha
    rcases List.mem_cons.mp ha with rfl | ha
    · exact ⟨source, r, mapError_eq_ok.mp hfirst⟩
    · exact ih hrest a ha

theorem Decoder.list_gives {d : Decoder α} {as : List α} (h : (list d).Gives as) :
    ∀ a ∈ as, d.Gives a := by
  obtain ⟨source, r, hr⟩ := h
  unfold list at hr
  split at hr
  · obtain ⟨found, hfound, hr⟩ := bind_eq_ok.mp hr
    obtain ⟨-, -, hr⟩ := bind_eq_ok.mp hr
    obtain rfl : found = as := Except.ok.inj hr
    exact items_give hfound
  · contradiction

namespace Shape

variable {fields : Fields} {name : String} {d : Decoder α}

theorem of_build_seq {f : Shape (α → β)} {x : Shape α} {b : β}
    (h : (f <*> x).build fields = .ok b) :
    ∃ g a, f.build fields = .ok g ∧ x.build fields = .ok a ∧ b = g a := by
  obtain ⟨g, hg, h⟩ := bind_eq_ok.mp h
  obtain ⟨a, ha, h⟩ := bind_eq_ok.mp h
  exact ⟨g, a, hg, ha, (Except.ok.inj h).symm⟩

theorem of_build_map {f : α → β} {x : Shape α} {b : β} (h : (f <$> x).build fields = .ok b) :
    ∃ a, x.build fields = .ok a ∧ b = f a := by
  obtain ⟨g, a, hg, hx, rfl⟩ := of_build_seq h
  obtain rfl : f = g := Except.ok.inj hg
  exact ⟨a, hx, rfl⟩

theorem of_get? {a : α} (h : fields.get? name d = .ok (some a)) :
    d.Gives a := by
  unfold Fields.get? at h
  split at h
  · have habsent := Except.ok.inj h
    contradiction
  · next r hr =>
    obtain ⟨found, hfound, hsome⟩ := map_eq_ok.mp h
    obtain rfl := Option.some.inj hsome
    exact ⟨fields.source, r, hfound⟩

theorem of_build_required {a : α} (h : (required name d).build fields = .ok a) :
    d.Gives a := by
  obtain ⟨found, hfound, h⟩ := bind_eq_ok.mp h
  cases found with
  | none => contradiction
  | some b =>
    obtain rfl : b = a := Except.ok.inj h
    exact of_get? hfound

theorem of_build_defaulted {a default : α} (h : (defaulted name d default).build fields = .ok a) :
    a = default ∨ d.Gives a := by
  obtain ⟨found, hfound, h⟩ := bind_eq_ok.mp h
  cases found with
  | none => exact .inl (Except.ok.inj h).symm
  | some b =>
    obtain rfl : b = a := Except.ok.inj h
    exact .inr (of_get? hfound)

/-- What an object or an array is decoded as was built from its members. -/
theorem of_decoder {s : Shape α} {kind : String} {a : α} (h : (s.decoder kind).Gives a) :
    ∃ fields, s.build fields = .ok a := by
  obtain ⟨source, r, hr⟩ := h
  unfold decoder at hr
  split at hr
  · obtain ⟨found, -, hr⟩ := bind_eq_ok.mp hr
    obtain ⟨-, -, hr⟩ := bind_eq_ok.mp hr
    exact ⟨_, hr⟩
  · obtain ⟨found, -, hr⟩ := bind_eq_ok.mp hr
    exact ⟨_, hr⟩
  · contradiction

end Shape
end ConversationSearch.Json
