import ConversationSearch.Proofs.Json.Shapes
import ConversationSearch.Proofs.Json.Values

/-!
# Values of several kinds

A value that does not say of which kind it is is decoded as the first kind that accepts it. What
keeps the kinds apart are the members that a shape needs: an object that lacks one of them is
refused, whatever its other members are.
-/

namespace ConversationSearch.Json

/-! ## The first kind that accepts -/

namespace Decoder

variable {kind : String} {d : Decoder α} {ds : List (Decoder α)} {j : Json} {source : Source}

/-- A whole value is decoded as the first kind if that accepts it. -/
theorem untagged_first {a : α} (h : d .buffer (toReading j) = .ok a) :
    untagged kind (d :: ds) source (toReading j) = .ok a := by
  simp [untagged, toJson_toReading, h, Except.toOption]

/-- A kind that refuses the value is passed over. -/
theorem untagged_next {f : Failure} (h : d .buffer (toReading j) = .error f) :
    untagged kind (d :: ds) source (toReading j) = untagged kind ds source (toReading j) := by
  simp [untagged, toJson_toReading, h, Except.toOption]

theorem untagged_nil :
    untagged kind ([] : List (Decoder α)) source (toReading j) = .error (.of (.unmatched kind)) := by
  simp [untagged, toJson_toReading]

end Decoder

/-! ## Members that are missing -/

namespace Shape

variable {name : String} {d : Decoder α}

/-- Nothing is built where the member was not found. -/
def Needs (s : Shape α) (name : String) : Prop :=
  ∀ fields, fields.found.lookup name = none → ∀ a, s.build fields ≠ .ok a

theorem needs_required (name : String) (d : Decoder α) :
    (required name d).Needs name := by
  intro fields hfound a hbuild
  have hget : fields.get? name d = .ok none := by
    rw [Fields.get?, hfound]
  obtain ⟨found, hsome, hbuild⟩ := bind_eq_ok.mp hbuild
  obtain rfl := Except.ok.inj (hget.symm.trans hsome)
  contradiction

namespace Needs

theorem seq_left {f : Shape (α → β)} (hf : f.Needs name) (x : Shape α) :
    (f <*> x).Needs name := by
  intro fields hfound b hbuild
  obtain ⟨g, a, hg, -, -⟩ := of_build_seq hbuild
  exact hf fields hfound g hg

theorem seq_right {x : Shape α} (hx : x.Needs name) (f : Shape (α → β)) :
    (f <*> x).Needs name := by
  intro fields hfound b hbuild
  obtain ⟨g, a, -, ha, -⟩ := of_build_seq hbuild
  exact hx fields hfound a ha

end Needs

/-- Only members of the object are found. -/
theorem lookup_visitMembers_eq_none {rules : List Rule} {source : Source}
    {members : List (String × Json)} {seen found : List (String × Reading)}
    (h : visitMembers rules source (membersToReadings members) seen = .ok found)
    (hseen : seen.lookup name = none) (hmembers : ∀ m ∈ members, m.1 ≠ name) :
    found.lookup name = none := by
  induction members generalizing seen with
  | nil =>
    obtain rfl : seen = found := Except.ok.inj h
    exact hseen
  | cons first rest ih =>
    obtain ⟨key, j⟩ := first
    obtain ⟨hkey, hrest⟩ := List.forall_mem_cons.mp hmembers
    rw [membersToReadings, visitMembers] at h
    obtain ⟨visited, hvisited, h⟩ := bind_eq_ok.mp h
    rw [memberKey_toReading] at hvisited
    obtain rfl : key = visited := Except.ok.inj hvisited
    split at h
    · split at h
      · contradiction
      · exact ih h hseen hrest
    · split at h
      · contradiction
      · obtain ⟨-, -, h⟩ := bind_eq_ok.mp h
        exact ih h (lookup_append_none hseen hkey.symm) hrest

/-- An object without a member that the shape needs is refused. -/
theorem Needs.decoder_lacking {s : Shape α} (hs : s.Needs name)
    {members : List (String × Json)} (hmembers : ∀ m ∈ members, m.1 ≠ name) (kind : String)
    (source : Source) :
    ∃ f, s.decoder kind source (toReading (.object members)) = .error f := by
  cases hread : s.decoder kind source (toReading (.object members)) with
  | error f => exact ⟨f, rfl⟩
  | ok a =>
    obtain ⟨found, hfound, hbuild⟩ := bind_eq_ok.mp hread
    obtain ⟨-, -, hbuild⟩ := bind_eq_ok.mp hbuild
    have hlookup := lookup_visitMembers_eq_none hfound List.lookup_nil hmembers
    exact absurd hbuild (hs _ hlookup a)

end Shape
end ConversationSearch.Json
