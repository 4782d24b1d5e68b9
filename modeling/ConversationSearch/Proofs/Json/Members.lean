import ConversationSearch.Json.Basic

/-!
# Members by key

A member that was put into a list of members is found under its key, and what is found under the
other keys stays as it was. No other member comes into the list, and no key is lost. Taking keys out
of a list leaves what is found under the rest.
-/

namespace ConversationSearch.Json

theorem lookup_insert_self (key : String) (value : α) (members : List (String × α)) :
    (insert key value members).lookup key = some value := by
  induction members with
  | nil => simp [insert]
  | cons member rest ih =>
    obtain ⟨k, v⟩ := member
    unfold insert
    by_cases hlt : key < k
    · simp [hlt]
    · by_cases heq : key = k
      · simp [heq]
      · have hne : (key == k) = false := by simpa using heq
        rw [if_neg hlt, if_neg heq, List.lookup_cons, hne]
        exact ih

theorem lookup_insert_of_ne {key other : String} (hother : other ≠ key) (value : α)
    (members : List (String × α)) :
    (insert key value members).lookup other = members.lookup other := by
  have hkey : (other == key) = false := by simpa using hother
  induction members with
  | nil => simp [insert, List.lookup_cons, hkey]
  | cons member rest ih =>
    obtain ⟨k, v⟩ := member
    unfold insert
    by_cases hlt : key < k
    · rw [if_pos hlt, List.lookup_cons, hkey]
    · by_cases heq : key = k
      · subst heq
        rw [if_neg hlt, if_pos rfl, List.lookup_cons, List.lookup_cons, hkey]
      · rw [if_neg hlt, if_neg heq, List.lookup_cons, List.lookup_cons, ih]

theorem mem_of_mem_insert {key : String} {value : α} {member : String × α}
    {members : List (String × α)} (h : member ∈ insert key value members) :
    member = (key, value) ∨ member ∈ members := by
  induction members with
  | nil => exact .inl (List.mem_singleton.mp h)
  | cons first rest ih =>
    obtain ⟨k, v⟩ := first
    unfold insert at h
    split at h
    · exact List.mem_cons.mp h
    · split at h
      · exact (List.mem_cons.mp h).imp_right (List.mem_cons_of_mem _)
      · rcases List.mem_cons.mp h with rfl | hrest
        · exact .inr List.mem_cons_self
        · exact (ih hrest).imp_right (List.mem_cons_of_mem _)

/-- A member whose key is not there comes into the list and changes nothing else. -/
theorem insert_perm {key : String} {members : List (String × α)} (hkey : ∀ m ∈ members, m.1 ≠ key)
    (value : α) :
    (insert key value members).Perm ((key, value) :: members) := by
  induction members with
  | nil => exact .refl _
  | cons first rest ih =>
    obtain ⟨k, v⟩ := first
    have hfirst : k ≠ key := hkey (k, v) List.mem_cons_self
    have hrest := ih fun m hm => hkey m (List.mem_cons_of_mem _ hm)
    unfold insert
    by_cases hlt : key < k
    · rw [if_pos hlt]
    · rw [if_neg hlt, if_neg hfirst.symm]
      exact (hrest.cons _).trans (.swap _ _ _)

theorem key_mem_insert {k : String} {v : α} {members : List (String × α)}
    (h : (k, v) ∈ members) (key : String) (value : α) :
    ∃ v', (k, v') ∈ insert key value members := by
  induction members with
  | nil => contradiction
  | cons first rest ih =>
    obtain ⟨k₀, v₀⟩ := first
    unfold insert
    by_cases hlt : key < k₀
    · rw [if_pos hlt]
      exact ⟨v, List.mem_cons_of_mem _ h⟩
    rw [if_neg hlt]
    by_cases heq : key = k₀
    · rw [if_pos heq]
      rcases List.mem_cons.mp h with hfirst | hrest
      · -- the first member is the one that is replaced
        obtain ⟨rfl, -⟩ := Prod.mk.inj hfirst
        exact ⟨value, heq ▸ List.mem_cons_self⟩
      · exact ⟨v, List.mem_cons_of_mem _ hrest⟩
    · rw [if_neg heq]
      rcases List.mem_cons.mp h with hfirst | hrest
      · exact ⟨v, hfirst ▸ List.mem_cons_self⟩
      · obtain ⟨v', hv'⟩ := ih hrest
        exact ⟨v', List.mem_cons_of_mem _ hv'⟩

/-- A member whose key no other member has is what is found under its key. -/
theorem lookup_of_mem {members : List (String × α)} (hkeys : (members.map (·.1)).Nodup)
    {member : String × α} (h : member ∈ members) :
    members.lookup member.1 = some member.2 := by
  induction members with
  | nil => contradiction
  | cons first rest ih =>
    obtain ⟨hfirst, hrest⟩ := List.nodup_cons.mp hkeys
    rcases List.mem_cons.mp h with rfl | h
    · exact List.lookup_cons_self
    · have hne : (member.1 == first.1) = false := by
        rw [beq_eq_false_iff_ne]
        intro heq
        exact hfirst (List.mem_map.mpr ⟨member, h, heq⟩)
      rw [List.lookup_cons, hne]
      exact ih hrest h

theorem mem_of_lookup {members : List (String × α)} {key : String} {value : α}
    (h : members.lookup key = some value) :
    (key, value) ∈ members := by
  obtain ⟨before, after, rfl, -⟩ := List.lookup_eq_some_iff.mp h
  exact List.mem_append_right _ List.mem_cons_self

/-- What is found does not depend on the order of members whose keys are all different. -/
theorem lookup_eq_of_perm {members other : List (String × α)} (h : members.Perm other)
    (hkeys : (members.map (·.1)).Nodup) (key : String) :
    members.lookup key = other.lookup key := by
  have hother : (other.map (·.1)).Nodup := (h.map (·.1)).nodup hkeys
  cases hfound : members.lookup key with
  | none =>
    rw [List.lookup_eq_none_iff] at hfound
    symm
    rw [List.lookup_eq_none_iff]
    intro m hm
    exact hfound m (h.mem_iff.mpr hm)
  | some value =>
    have hmem : (key, value) ∈ other := h.mem_iff.mp (mem_of_lookup hfound)
    exact (lookup_of_mem hother hmem).symm

theorem lookup_member? (key other : String) (f : α → Json) (value : Option α) :
    (member? key f value).lookup other = if other = key then value.map f else none := by
  cases value with
  | none => simp [member?]
  | some a =>
    by_cases heq : other = key
    · simp [member?, heq]
    · have hne : (other == key) = false := by simpa using heq
      simp [member?, List.lookup_cons, hne, heq]

theorem keys_member?_sublist (key : String) (f : α → Json) (value : Option α) :
    ((member? key f value).map (·.1)).Sublist [key] := by
  cases value with
  | none => exact List.nil_sublist _
  | some a => exact List.Sublist.refl _

/-- Only the keys that are kept are found. -/
theorem lookup_filter (keeps : String → Bool) (key : String) (members : List (String × α)) :
    (members.filter fun m => keeps m.1).lookup key =
      if keeps key then members.lookup key else none := by
  induction members with
  | nil => simp
  | cons member rest ih =>
    obtain ⟨k, v⟩ := member
    rw [List.filter_cons, List.lookup_cons]
    by_cases heq : key = k
    · subst heq
      cases hkeeps : keeps key with
      | true => simp
      | false => simp [ih, hkeeps]
    · have hne : (key == k) = false := by simpa using heq
      rw [hne]
      cases hkeeps : keeps k with
      | true => simp [List.lookup_cons, hne, ih]
      | false => simp [ih]

/-! ## Members brought into order -/

theorem lookup_foldl_insert_of_not_mem {members : List (String × α)} {key : String}
    (hkey : key ∉ members.map (·.1)) (before : List (String × α)) :
    (members.foldl (fun acc m => insert m.1 m.2 acc) before).lookup key = before.lookup key := by
  induction members generalizing before with
  | nil => rfl
  | cons first rest ih =>
    rw [List.map_cons, List.mem_cons, not_or] at hkey
    obtain ⟨hfirst, hrest⟩ := hkey
    rw [List.foldl_cons, ih hrest, lookup_insert_of_ne hfirst]

/-- A member whose key no other member has is found in the sorted list. -/
theorem lookup_sortMembers_of_mem {members : List (String × α)}
    (hkeys : (members.map (·.1)).Nodup) {member : String × α} (h : member ∈ members) :
    (sortMembers members).lookup member.1 = some member.2 := by
  suffices hfound : ∀ before : List (String × α),
      (members.foldl (fun acc m => insert m.1 m.2 acc) before).lookup member.1 =
        some member.2 from hfound []
  induction members with
  | nil => contradiction
  | cons first rest ih =>
    intro before
    obtain ⟨hfirst, hrest⟩ := List.nodup_cons.mp hkeys
    rw [List.foldl_cons]
    rcases List.mem_cons.mp h with rfl | h
    · rw [lookup_foldl_insert_of_not_mem hfirst, lookup_insert_self]
    · exact ih hrest h _

end ConversationSearch.Json
