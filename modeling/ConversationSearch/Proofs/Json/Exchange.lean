import ConversationSearch.Proofs.Json.Shapes

/-!
# Exchanging a member

In an object one member is left open: a value can be put in its place, or the member left out. A
shape that identifies two values of the member, or a value and its absence, decodes both objects
alike, whatever their other members are: as the same value, or with the same failure.
-/

namespace ConversationSearch.Json

/-! ## Objects with an open member -/

/-- The members of an object around the one with a key, which no other member has. -/
structure Frame (key : String) where
  before : List (Reading × Reading)
  after : List (Reading × Reading)
  close : Option Break
  fresh : ∀ m ∈ before ++ after, m.1 ≠ .string key

namespace Frame

/-- The members, with a value for the open one or without it. -/
def members (frame : Frame key) (value : Option Reading) : List (Reading × Reading) :=
  frame.before ++ ((value.map (.string key, ·)).toList ++ frame.after)

/-- The object, with a value for the open member or without it. -/
def fill (frame : Frame key) (value : Option Reading) : Reading :=
  .object (frame.members value) frame.close

end Frame

/-- Of two lists of members that were found one has the first value under the key and the other the
second; under every other key they have the same. -/
structure Exchanged (key : String) (v w : Option Reading) (found other : List (String × Reading)) :
    Prop where
  here : found.lookup key = v
  there : other.lookup key = w
  elsewhere : ∀ name, name ≠ key → found.lookup name = other.lookup name

namespace Exchanged

variable {key : String} {v w : Option Reading} {found other : List (String × Reading)}

theorem append (h : Exchanged key v w found other) {name : String} (hname : name ≠ key)
    (r : Reading) :
    Exchanged key v w (found ++ [(name, r)]) (other ++ [(name, r)]) where
  here := by
    have hkey : (key == name) = false := by simpa using hname.symm
    simp [List.lookup_append, List.lookup_cons, hkey, h.here]
  there := by
    have hkey : (key == name) = false := by simpa using hname.symm
    simp [List.lookup_append, List.lookup_cons, hkey, h.there]
  elsewhere := by
    intro name hname
    rw [List.lookup_append, List.lookup_append, h.elsewhere name hname]

/-- The open member is found behind members that have other keys. -/
theorem of_open (hfound : found.lookup key = none) (v w : Option Reading) :
    Exchanged key v w (found ++ (v.map (key, ·)).toList) (found ++ (w.map (key, ·)).toList) where
  here := by cases v <;> simp [List.lookup_append, hfound]
  there := by cases w <;> simp [List.lookup_append, hfound]
  elsewhere := by
    intro name hname
    have hkey : (name == key) = false := by simpa using hname
    cases v <;> cases w <;> simp [List.lookup_append, List.lookup_cons, hkey]

end Exchanged

/-! ## Visiting the members -/

/-- What a decoder gives for a member that may be missing. -/
def Decoder.given (d : Decoder α) (default : α) (source : Source) :
    Option Reading → Except Failure α
  | none => .ok default
  | some r => d source r

theorem Decoder.given_map (d : Decoder α) (default : α) (f : α → β) (source : Source)
    (value : Option Reading) :
    given (fun source r => (d source r).map f) (f default) source value =
      (d.given default source value).map f := by
  cases value <;> rfl

theorem Decoder.key_of_memberKey {k r : Reading} {name : String} (h : memberKey k r = .ok name) :
    k = .string name := by
  obtain ⟨found, hfound, h⟩ := bind_eq_ok.mp h
  have hname : found = name := by
    split at h
    · contradiction
    · exact Except.ok.inj h
  subst hname
  have hkey := mapError_eq_ok.mp hfound
  unfold Reading.key at hkey
  split at hkey
  · rw [Except.ok.inj hkey]
  all_goals contradiction

namespace Shape

section Visiting

variable {rules : List Rule} {source : Source} {key : String} {v w : Option Reading}

theorem visitMembers_append (first second : List (Reading × Reading))
    (seen : List (String × Reading)) :
    visitMembers rules source (first ++ second) seen =
      visitMembers rules source first seen >>= visitMembers rules source second := by
  induction first generalizing seen with
  | nil => rfl
  | cons m rest ih =>
    obtain ⟨k, r⟩ := m
    rw [List.cons_append, visitMembers, visitMembers, bind_assoc]
    congr
    funext name
    split
    · split
      · rfl
      · exact ih seen
    · split
      · rfl
      · rw [bind_assoc]
        congr
        funext _
        exact ih _

/-- Members with other keys are visited alike, whatever was found under the key before. -/
theorem visitMembers_alike {rest : List (Reading × Reading)} {seen other : List (String × Reading)}
    (hrest : ∀ m ∈ rest, m.1 ≠ .string key) (h : Exchanged key v w seen other) :
    Alike (Exchanged key v w) (visitMembers rules source rest seen)
      (visitMembers rules source rest other) := by
  induction rest generalizing seen other with
  | nil => exact .ok h
  | cons m rest ih =>
    obtain ⟨k, r⟩ := m
    obtain ⟨hk, hrest⟩ := List.forall_mem_cons.mp hrest
    rw [visitMembers, visitMembers]
    cases hkey : Decoder.memberKey k r with
    | error e => exact .error e
    | ok name =>
      have hname : name ≠ key := by
        rintro rfl
        exact hk (Decoder.key_of_memberKey hkey)
      change Alike _ (pure name >>= _) (pure name >>= _)
      rw [pure_bind, pure_bind]
      cases rules.find? (·.name == name) with
      | none =>
        cases r.skip with
        | some fault => exact .error _
        | none => exact ih hrest h
      | some rule =>
        simp only [h.elsewhere name hname]
        split
        · exact .error _
        · exact (Alike.refl _).bind fun _ _ _ => ih hrest (h.append hname r)

theorem lookup_visited {before : List (Reading × Reading)} {seen : List (String × Reading)}
    (hbefore : ∀ m ∈ before, m.1 ≠ .string key)
    (h : visitMembers rules source before [] = .ok seen) :
    seen.lookup key = none := by
  have hstart : Exchanged key none none [] [] := ⟨rfl, rfl, fun _ _ => rfl⟩
  -- a visit, set against itself, leaves the key as open as it was
  have hself : Alike (Exchanged key none none) (visitMembers rules source before [])
      (visitMembers rules source before []) :=
    visitMembers_alike hbefore hstart
  rw [h] at hself
  cases hself with
  | ok h => exact h.here

/-- The open member is checked by its rule, where it is there. -/
theorem visitMembers_open {rule : Rule} (hrule : rules.find? (·.name == key) = some rule)
    {seen : List (String × Reading)} (hseen : seen.lookup key = none)
    (hv : ∀ r ∈ v, Decoder.colonFault? r = none) (rest : List (Reading × Reading)) :
    visitMembers rules source ((v.map (Reading.string key, ·)).toList ++ rest) seen =
      (do
        (Decoder.given rule.check () source v).mapError (·.under (.member key))
        visitMembers rules source rest (seen ++ (v.map (key, ·)).toList)) := by
  cases v with
  | none =>
    change visitMembers rules source rest seen = visitMembers rules source rest (seen ++ [])
    rw [List.append_nil]
  | some r =>
    have hkey : Decoder.memberKey (.string key) r = .ok key := by
      simp only [Decoder.memberKey, hv r rfl]
      rfl
    exact visitMembers_step hkey hrule hseen

/-- An exchange that the rule of the member does not see is not seen by the visit. -/
theorem visitMembers_fill {rule : Rule} (hrule : rules.find? (·.name == key) = some rule)
    (hcheck : Decoder.given rule.check () source v = Decoder.given rule.check () source w)
    (hv : ∀ r ∈ v, Decoder.colonFault? r = none) (hw : ∀ r ∈ w, Decoder.colonFault? r = none)
    (frame : Frame key) :
    Alike (Exchanged key v w) (visitMembers rules source (frame.members v) [])
      (visitMembers rules source (frame.members w) []) := by
  obtain ⟨hbefore, hafter⟩ := List.forall_mem_append.mp frame.fresh
  unfold Frame.members
  rw [visitMembers_append, visitMembers_append]
  cases hseen : visitMembers rules source frame.before [] with
  | error e => exact .error e
  | ok seen =>
    have hnew : seen.lookup key = none := lookup_visited hbefore hseen
    change Alike _ (visitMembers rules source _ seen) (visitMembers rules source _ seen)
    rw [visitMembers_open hrule hnew hv, visitMembers_open hrule hnew hw, hcheck]
    exact (Alike.refl _).bind fun _ _ _ => visitMembers_alike hafter (.of_open hnew v w)

end Visiting

/-! ## Shapes that do not see an exchange -/

/-- Two values of a member, or a value and its absence, are checked alike, and the same is built
from them. -/
structure Identifies (s : Shape α) (source : Source) (key : String) (v w : Option Reading) :
    Prop where
  checks : ∀ rule ∈ s.rules, rule.name = key →
    Decoder.given rule.check () source v = Decoder.given rule.check () source w
  build : ∀ found other, Exchanged key v w found other →
    s.build ⟨source, found⟩ = s.build ⟨source, other⟩

namespace Identifies

variable {source : Source} {key : String} {v w : Option Reading}

theorem seq {f : Shape (α → β)} {x : Shape α} (hf : f.Identifies source key v w)
    (hx : x.Identifies source key v w) :
    (f <*> x).Identifies source key v w where
  checks := by
    intro rule hrule
    rcases List.mem_append.mp hrule with hrule | hrule
    · exact hf.checks rule hrule
    · exact hx.checks rule hrule
  build := by
    intro found other h
    change (do let g ← f.build _; let a ← x.build _; return g a) = _
    rw [hf.build found other h, hx.build found other h]
    rfl

theorem map {f : α → β} {x : Shape α} (hx : x.Identifies source key v w) :
    (f <$> x).Identifies source key v w where
  checks := hx.checks
  build := by
    intro found other h
    change (do let a ← x.build _; return f a) = _
    rw [hx.build found other h]
    rfl

/-- A member with a default is built from what is found under its name. -/
theorem build_defaulted (name : String) (d : Decoder α) (default : α)
    (found : List (String × Reading)) :
    (Shape.defaulted name d default).build ⟨source, found⟩ =
      d.given default source (found.lookup name) := by
  change (do return (← Fields.get? ⟨source, found⟩ name d).getD default) = _
  unfold Fields.get?
  cases found.lookup name with
  | none => rfl
  | some r =>
    change (do return (← some <$> d source r).getD default) = d source r
    cases d source r <;> rfl

/-- A member with a default: only its own exchange matters. -/
theorem defaulted {name : String} {d : Decoder α} {default : α}
    (h : name = key → d.given default source v = d.given default source w) :
    (Shape.defaulted name d default).Identifies source key v w where
  checks := by
    intro rule hrule hname
    obtain rfl := List.mem_singleton.mp hrule
    have hgiven := congrArg (Except.map fun _ => ()) (h hname)
    rw [← d.given_map, ← d.given_map] at hgiven
    exact hgiven
  build := by
    intro found other hexchanged
    rw [build_defaulted, build_defaulted]
    by_cases hname : name = key
    · rw [hname, hexchanged.here, hexchanged.there]
      exact h hname
    · rw [hexchanged.elsewhere name hname]

theorem defaulted_other {name : String} (hname : name ≠ key) (d : Decoder α) (default : α) :
    (Shape.defaulted name d default).Identifies source key v w :=
  .defaulted fun h => absurd h hname

/-- Objects that differ only in a member that the shape knows, with values that it identifies, are
decoded alike. -/
theorem decoder_fill {s : Shape α} (h : s.Identifies source key v w)
    (hkey : key ∈ s.rules.map (·.name)) (hv : ∀ r ∈ v, Decoder.colonFault? r = none)
    (hw : ∀ r ∈ w, Decoder.colonFault? r = none) (kind : String) (frame : Frame key) :
    s.decoder kind source (frame.fill v) = s.decoder kind source (frame.fill w) := by
  obtain ⟨rule, hmem, hrule, hname⟩ := exists_rule hkey
  have hvisit := visitMembers_fill hrule (h.checks rule hmem hname) hv hw frame
  refine Alike.eq (hvisit.bind fun found other hfound => ?_)
  rw [h.build found other hfound]
  exact .refl _

end Identifies
end Shape
end ConversationSearch.Json
