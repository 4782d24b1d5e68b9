/-!
# Sets of handles

A set of handles is kept as its handles in ascending order, so that equal sets are equal lists.
-/

namespace ConversationSearch

/-- Puts a handle into its place in an ascending list, unless it is there. -/
def insertHandle (h : String) : List String → List String
  | [] => [h]
  | k :: rest =>
    if h < k then h :: k :: rest
    else if h = k then k :: rest
    else k :: insertHandle h rest

/-- The handles of a list with one put in are that one and those of the list. -/
theorem mem_insertHandle {h x : String} {hs : List String} :
    x ∈ insertHandle h hs ↔ x = h ∨ x ∈ hs := by
  induction hs with
  | nil => simp [insertHandle]
  | cons k rest ih =>
    unfold insertHandle
    by_cases hlt : h < k
    · simp [hlt]
    · by_cases heq : h = k
      · simp [heq]
      · simp only [hlt, heq, if_false, List.mem_cons, ih]
        exact or_left_comm

/-- Of two different texts one comes first. -/
theorem lt_of_not_lt_of_ne {a b : String} (h : ¬a < b) (hne : a ≠ b) :
    b < a := by
  exact Std.lt_of_le_of_ne (Std.not_lt.mp h) (Ne.symm hne)

/-- Putting a handle into its place keeps the order. -/
theorem pairwise_insertHandle {h : String} {hs : List String}
    (hs_lt : hs.Pairwise (· < ·)) :
    (insertHandle h hs).Pairwise (· < ·) := by
  induction hs with
  | nil => simp [insertHandle]
  | cons k rest ih =>
    obtain ⟨hk, hrest⟩ := List.pairwise_cons.mp hs_lt
    unfold insertHandle
    by_cases hlt : h < k
    · simp only [hlt, if_true]
      refine List.pairwise_cons.mpr ⟨?_, hs_lt⟩
      intro x hx
      rcases List.mem_cons.mp hx with rfl | hx
      · exact hlt
      · exact String.lt_trans hlt (hk x hx)
    · by_cases heq : h = k
      · simpa [hlt, heq] using hs_lt
      · simp only [hlt, heq, if_false]
        refine List.pairwise_cons.mpr ⟨?_, ih hrest⟩
        intro x hx
        rcases mem_insertHandle.mp hx with rfl | hx
        · exact lt_of_not_lt_of_ne hlt heq
        · exact hk x hx

/-- A set of handles, in ascending order. -/
structure Handles where
  toList : List String
  ascending : toList.Pairwise (· < ·)
  deriving DecidableEq

namespace Handles

/-- No handles. -/
def empty : Handles :=
  ⟨[], List.Pairwise.nil⟩

/-- The set with one handle more. -/
def insert (s : Handles) (h : String) : Handles :=
  ⟨insertHandle h s.toList, pairwise_insertHandle s.ascending⟩

/-- The set of the handles in a list. -/
def ofList (hs : List String) : Handles :=
  hs.foldl insert empty

instance : Membership String Handles :=
  ⟨fun s h => h ∈ s.toList⟩

end Handles

end ConversationSearch
