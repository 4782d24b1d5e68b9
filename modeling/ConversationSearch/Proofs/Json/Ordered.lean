import Mathlib.Data.List.Nodup
import ConversationSearch.Proofs.Json.Members

/-!
# Members in ascending order

Members in ascending order of key have no key twice, and stay in order when one is put into its
place and when some are taken out. Two such lists in which the same is found under every key are
equal. Bringing a list that is in order into order changes nothing.
-/

namespace ConversationSearch.Json

/-- The members are in ascending order of key, and no key is there twice. -/
def Ascending (members : List (String × α)) : Prop :=
  members.Pairwise fun a b => a.1 < b.1

variable {members other : List (String × α)} {key : String} {value : α}

theorem ascending_iff_keys :
    Ascending members ↔ (members.map (·.1)).Pairwise (· < ·) :=
  List.pairwise_map.symm

theorem ascending_cons {m : String × α} :
    Ascending (m :: members) ↔ (∀ n ∈ members, m.1 < n.1) ∧ Ascending members :=
  List.pairwise_cons

theorem Ascending.nodup (h : Ascending members) : (members.map (·.1)).Nodup :=
  List.pairwise_map.mpr (h.imp fun hlt => Std.ne_of_lt hlt)

theorem Ascending.insert (h : Ascending members) (key : String) (value : α) :
    Ascending (Json.insert key value members) := by
  induction members with
  | nil => exact List.pairwise_singleton _ _
  | cons first rest ih =>
    obtain ⟨k, v⟩ := first
    obtain ⟨hfirst, hrest⟩ := ascending_cons.mp h
    unfold Json.insert
    by_cases hlt : key < k
    · rw [if_pos hlt, ascending_cons]
      refine ⟨?_, h⟩
      rw [List.forall_mem_cons]
      exact ⟨hlt, fun n hn => String.lt_trans hlt (hfirst n hn)⟩
    rw [if_neg hlt]
    by_cases heq : key = k
    · rw [if_pos heq, ascending_cons]
      exact ⟨fun n hn => heq ▸ hfirst n hn, hrest⟩
    · rw [if_neg heq, ascending_cons]
      refine ⟨?_, ih hrest⟩
      intro n hn
      rcases mem_of_mem_insert hn with rfl | hn
      · exact Std.lt_of_le_of_ne (Std.not_lt.mp hlt) (Ne.symm heq)
      · exact hfirst n hn

theorem Ascending.filter (h : Ascending members) (keeps : String × α → Bool) :
    Ascending (members.filter keeps) :=
  List.Pairwise.filter keeps h

theorem ascending_sortMembers (members : List (String × α)) :
    Ascending (sortMembers members) := by
  suffices h : ∀ before : List (String × α), Ascending before →
      Ascending (members.foldl (fun acc m => Json.insert m.1 m.2 acc) before) from
    h [] List.Pairwise.nil
  induction members with
  | nil => exact fun before hbefore => hbefore
  | cons first rest ih => exact fun before hbefore => ih _ (hbefore.insert first.1 first.2)

theorem mem_of_mem_sortMembers {m : String × α} (h : m ∈ sortMembers members) :
    m ∈ members := by
  suffices hfold : ∀ before : List (String × α),
      m ∈ members.foldl (fun acc m => Json.insert m.1 m.2 acc) before → m ∈ before ∨ m ∈ members from
    (hfold [] h).resolve_left List.not_mem_nil
  clear h
  induction members with
  | nil => exact fun before h => .inl h
  | cons first rest ih =>
    intro before h
    rcases ih _ h with hinserted | hrest
    · rcases mem_of_mem_insert hinserted with rfl | hbefore
      · exact .inr List.mem_cons_self
      · exact .inl hbefore
    · exact .inr (List.mem_cons_of_mem first hrest)

/-- Members in order are those that are found, so what is found says which they are. -/
theorem Ascending.ext (h : Ascending members) (h' : Ascending other)
    (hlookup : ∀ key, members.lookup key = other.lookup key) :
    members = other := by
  have hmem : ∀ m : String × α, m ∈ members ↔ m ∈ other := by
    intro m
    constructor
    · intro hm
      exact mem_of_lookup ((hlookup m.1).symm.trans (lookup_of_mem h.nodup hm))
    · intro hm
      exact mem_of_lookup ((hlookup m.1).trans (lookup_of_mem h'.nodup hm))
  have hperm : members.Perm other :=
    (List.perm_ext_iff_of_nodup h.nodup.of_map h'.nodup.of_map).mpr hmem
  exact hperm.eq_of_pairwise (fun a b _ _ hab hba => absurd hab (Std.not_gt_of_lt hba)) h h'

/-- A member whose key is behind all others is put at the end. -/
theorem insert_eq_append (h : ∀ m ∈ members, m.1 < key) :
    insert key value members = members ++ [(key, value)] := by
  induction members with
  | nil => rfl
  | cons first rest ih =>
    obtain ⟨k, v⟩ := first
    rw [List.forall_mem_cons] at h
    obtain ⟨hfirst, hrest⟩ := h
    rw [insert, if_neg (Std.not_gt_of_lt hfirst), if_neg (Std.ne_of_lt hfirst).symm, ih hrest,
      List.cons_append]

/-- Members in order stay as they are. -/
theorem Ascending.sortMembers_eq (h : Ascending members) :
    sortMembers members = members := by
  suffices hfold : ∀ before : List (String × α), Ascending (before ++ members) →
      members.foldl (fun acc m => Json.insert m.1 m.2 acc) before = before ++ members from
    hfold [] h
  clear h
  induction members with
  | nil => exact fun before _ => (List.append_nil before).symm
  | cons first rest ih =>
    intro before hall
    obtain ⟨-, -, hbetween⟩ := List.pairwise_append.mp hall
    have hinsert : Json.insert first.1 first.2 before = before ++ [first] :=
      insert_eq_append fun m hm => hbetween m hm first List.mem_cons_self
    rw [List.foldl_cons, hinsert, List.append_cons before first rest]
    exact ih _ (by rwa [List.append_assoc])

end ConversationSearch.Json
