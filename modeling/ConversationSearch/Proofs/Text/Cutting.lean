import Mathlib.Data.List.DropRight
import Mathlib.Data.List.TakeWhile
import ConversationSearch.Text.Cutting

/-!
# Cutting texts

A run of characters ends at the first one that does not belong to it, whatever follows. A text that
neither starts nor ends with a blank is its own trimmed form, and a trimmed form is such a text;
blanks that are put around a text do not change its trimmed form. Pieces without a separator, each
with one behind it, are the segments that a text is cut into. A dotted path is known from its
segments, and any names without dots are the segments of one.
-/

namespace ConversationSearch

section Stopping

variable {p : α → Bool} {stop : α}

theorem takeWhile_append_stop (hstop : p stop = false) (front rest : List α) :
    (front ++ stop :: rest).takeWhile p = front.takeWhile p := by
  induction front with
  | nil => simp [hstop]
  | cons a front ih =>
    rw [List.cons_append, List.takeWhile_cons, List.takeWhile_cons, ih]

theorem dropWhile_append_stop (hstop : p stop = false) (front rest : List α) :
    (front ++ stop :: rest).dropWhile p = front.dropWhile p ++ stop :: rest := by
  induction front with
  | nil => simp [hstop]
  | cons a front ih =>
    by_cases ha : p a = true
    · rw [List.cons_append, List.dropWhile_cons_of_pos ha, List.dropWhile_cons_of_pos ha, ih]
    · simp [ha]

end Stopping

namespace Text

theorem trimStart_cons {c : Char} (hc : isBlank c = false) (cs : List Char) :
    trimStart (c :: cs) = c :: cs := by
  rw [trimStart, List.dropWhile_cons_of_neg (by simp [hc])]

theorem trimStart_append_of_blanks {front : List Char} (hfront : ∀ c ∈ front, isBlank c = true)
    (cs : List Char) :
    trimStart (front ++ cs) = trimStart cs :=
  List.dropWhile_append_of_pos hfront

/-- Blanks around a text change nothing of its trimmed form. -/
theorem trim_padded {front back : List Char} (hfront : ∀ c ∈ front, isBlank c = true)
    (hback : ∀ c ∈ back, isBlank c = true) (s : String) :
    trim (String.ofList (front ++ s.toList ++ back)) = trim s := by
  have hend : ∀ cs, trimEnd (cs ++ back) = trimEnd cs := by
    intro cs
    have hblanks : ∀ c ∈ back.reverse, isBlank c = true := by simpa using hback
    unfold trimEnd
    rw [List.reverse_append, List.dropWhile_append_of_pos hblanks]
  unfold trim
  rw [String.toList_ofList, List.append_assoc, trimStart_append_of_blanks hfront]
  unfold trimStart
  rw [List.dropWhile_append]
  split
  · next hempty =>
    -- of a text of blanks nothing is left, whichever end they are dropped from first
    rw [List.isEmpty_iff.mp hempty, List.dropWhile_eq_nil_iff.mpr hback]
  · rw [hend]

theorem trim_ofList_of_ends {first last : Char} {middle : List Char}
    (hfirst : isBlank first = false) (hlast : isBlank last = false) :
    trim (String.ofList (first :: (middle ++ [last]))) =
      String.ofList (first :: (middle ++ [last])) := by
  have hend : trimEnd (first :: (middle ++ [last])) = first :: (middle ++ [last]) := by
    simp [trimEnd, hlast]
  unfold trim
  rw [String.toList_ofList, trimStart_cons hfirst, hend]

/-- Only the blanks around a text are dropped. -/
theorem trim_ofList_between {before after middle : List Char} {first last : Char}
    (hbefore : ∀ c ∈ before, isBlank c = true) (hafter : ∀ c ∈ after, isBlank c = true)
    (hfirst : isBlank first = false) (hlast : isBlank last = false) :
    trim (String.ofList (before ++ (first :: (middle ++ [last])) ++ after)) =
      String.ofList (first :: (middle ++ [last])) := by
  have htrim := trim_padded hbefore hafter (String.ofList (first :: (middle ++ [last])))
  rwa [String.toList_ofList, trim_ofList_of_ends hfirst hlast] at htrim

theorem trim_eq_self {s : String} (h : ∀ c ∈ s.toList, isBlank c = false) :
    trim s = s := by
  have hkept : ∀ cs : List Char, (∀ c ∈ cs, isBlank c = false) → cs.dropWhile isBlank = cs := by
    intro cs hcs
    rw [List.dropWhile_eq_self_iff]
    intro hne
    simp [hcs _ (List.getElem_mem hne)]
  have hstart : trimStart s.toList = s.toList := hkept _ h
  have hend : trimEnd s.toList = s.toList := by
    unfold trimEnd
    rw [hkept _ (by simpa using h), List.reverse_reverse]
  unfold trim
  rw [hstart, hend, String.ofList_toList]

/-- What the blanks at the back are dropped from still starts as before. -/
theorem trimStart_trimEnd_trimStart (cs : List Char) :
    trimStart (trimEnd (trimStart cs)) = trimEnd (trimStart cs) := by
  cases hfront : trimStart cs with
  | nil => rfl
  | cons c rest =>
    have hc : isBlank c = false := by
      have hkept : (trimStart cs).dropWhile isBlank = trimStart cs := List.dropWhile_idempotent ..
      rw [hfront, List.dropWhile_eq_self_iff] at hkept
      exact Bool.eq_false_iff.mpr (hkept (Nat.succ_pos _))
    have hend : trimEnd (c :: rest) = c :: (rest.reverse.dropWhile isBlank).reverse := by
      unfold trimEnd
      rw [List.reverse_cons, dropWhile_append_stop hc, List.reverse_append]
      rfl
    rw [hend, trimStart_cons hc]

theorem trimStart_trim (s : String) :
    trimStart (trim s).toList = (trim s).toList := by
  unfold trim
  rw [String.toList_ofList, trimStart_trimEnd_trimStart]

@[simp] theorem trim_trim (s : String) :
    trim (trim s) = trim s := by
  have hend : ∀ cs, trimEnd (trimEnd cs) = trimEnd cs := by
    intro cs
    simp only [trimEnd, List.reverse_reverse, List.dropWhile_idempotent]
  unfold trim
  rw [String.toList_ofList, trimStart_trimEnd_trimStart, hend]

theorem nonBlank_of_blanks {s : String} (h : ∀ c ∈ s.toList, isBlank c = true) :
    nonBlank s = none := by
  have htrim : trim s = "" := by
    unfold trim trimStart
    rw [List.dropWhile_eq_nil_iff.mpr h]
    rfl
  unfold nonBlank
  rw [htrim, if_pos rfl]

theorem nonBlank_padded {front back : List Char} (hfront : ∀ c ∈ front, isBlank c = true)
    (hback : ∀ c ∈ back, isBlank c = true) (s : String) :
    nonBlank (String.ofList (front ++ s.toList ++ back)) = nonBlank s := by
  unfold nonBlank
  rw [trim_padded hfront hback]

/-- What is left of a text is neither blank nor padded. -/
theorem nonBlank_of_nonBlank {s t : String} (h : nonBlank s = some t) :
    nonBlank t = some t := by
  by_cases hblank : trim s = ""
  · simp only [nonBlank, if_pos hblank] at h
    contradiction
  · simp only [nonBlank, if_neg hblank] at h
    obtain rfl := Option.some.inj h
    simp only [nonBlank, trim_trim, if_neg hblank]

/-! ## Separators -/

theorem splitChars_eq_splitOn (separator : Char) (cs : List Char) :
    splitChars separator cs = cs.splitOn separator := by
  induction cs with
  | nil => rfl
  | cons c rest ih =>
    rw [splitChars, List.splitOn_cons_eq_if_modifyHead, ← ih]
    by_cases hc : c = separator
    · simp [hc]
    · have hne : (c == separator) = false := by simpa using hc
      rw [if_neg hc, hne]
      cases hrest : splitChars separator rest with
      | nil => exact absurd hrest (splitChars_ne_nil separator rest)
      | cons segment segments => rfl

theorem splitChars_append_separator {separator : Char} {front : List Char}
    (hfront : separator ∉ front) (rest : List Char) :
    splitChars separator (front ++ separator :: rest) = front :: splitChars separator rest := by
  rw [splitChars_eq_splitOn, splitChars_eq_splitOn,
    List.splitOn_append_cons_self_of_not_mem hfront]

/-- No segment holds a separator. -/
theorem not_mem_of_mem_splitChars {separator : Char} {cs piece : List Char}
    (h : piece ∈ splitChars separator cs) :
    separator ∉ piece := by
  induction cs generalizing piece with
  | nil =>
    obtain rfl := List.mem_singleton.mp h
    exact List.not_mem_nil
  | cons c rest ih =>
    rw [splitChars] at h
    by_cases hc : c = separator
    · rw [if_pos hc] at h
      rcases List.mem_cons.mp h with rfl | h
      · exact List.not_mem_nil
      · exact ih h
    · rw [if_neg hc] at h
      split at h
      · next hrest => exact absurd hrest (splitChars_ne_nil separator rest)
      · next segment others hrest =>
        rw [hrest] at ih
        rcases List.mem_cons.mp h with rfl | h
        · rw [List.mem_cons, not_or]
          exact ⟨Ne.symm hc, ih List.mem_cons_self⟩
        · exact ih (List.mem_cons_of_mem _ h)

/-- Pieces that each end with a separator are found again. -/
theorem splitChars_pieces {separator : Char} {pieces : List (List Char)}
    (hpieces : ∀ piece ∈ pieces, separator ∉ piece) :
    splitChars separator (pieces.flatMap (· ++ [separator])) = pieces ++ [[]] := by
  induction pieces with
  | nil => rfl
  | cons piece pieces ih =>
    obtain ⟨hpiece, hpieces⟩ := List.forall_mem_cons.mp hpieces
    rw [List.flatMap_cons, List.append_assoc, List.singleton_append,
      splitChars_append_separator hpiece, ih hpieces, List.cons_append]

theorem count_pieces {separator : Char} {pieces : List (List Char)}
    (hpieces : ∀ piece ∈ pieces, separator ∉ piece) :
    (pieces.flatMap (· ++ [separator])).count separator = pieces.length := by
  induction pieces with
  | nil => rfl
  | cons piece pieces ih =>
    obtain ⟨hpiece, hpieces⟩ := List.forall_mem_cons.mp hpieces
    rw [List.flatMap_cons, List.count_append, ih hpieces, List.count_append,
      List.count_eq_zero_of_not_mem hpiece, List.count_singleton_self, List.length_cons]
    omega

theorem getLast?_pieces {separator : Char} {pieces : List (List Char)} (hne : pieces ≠ []) :
    (pieces.flatMap (· ++ [separator])).getLast? = some separator := by
  obtain ⟨before, last, rfl⟩ := (List.eq_nil_or_concat' pieces).resolve_left hne
  rw [List.flatMap_append, List.flatMap_singleton, ← List.append_assoc, List.getLast?_concat]

/-! ## Dotted paths -/

theorem segments_dot (p q : String) :
    segments (p ++ "." ++ q) = segments p ++ segments q := by
  have hdot : ".".toList = ['.'] := rfl
  simp only [segments, splitChars_eq_splitOn, String.toList_append, hdot, List.append_assoc,
    List.singleton_append, List.splitOn_append_cons_self, List.map_append]

theorem segments_ne_nil (p : String) :
    segments p ≠ [] := by
  simp [segments, splitChars_ne_nil]

/-- Different paths have different segments. -/
theorem segments_injective :
    Function.Injective segments := by
  intro p q h
  have hchars := List.map_injective_iff.mpr (fun _ _ => String.ofList_inj.mp) h
  rw [splitChars_eq_splitOn, splitChars_eq_splitOn] at hchars
  have hjoined := congrArg (['.'].intercalate ·) hchars
  simp only [List.intercalate_splitOn] at hjoined
  exact String.toList_inj.mp hjoined

theorem not_mem_of_mem_segments {p name : String} (h : name ∈ segments p) :
    '.' ∉ name.toList := by
  obtain ⟨piece, hpiece, rfl⟩ := List.mem_map.mp h
  rw [String.toList_ofList]
  exact not_mem_of_mem_splitChars hpiece

/-- Names without dots are the segments of a path. -/
theorem exists_segments_eq {names : List String} (hne : names ≠ [])
    (hdots : ∀ name ∈ names, '.' ∉ name.toList) :
    ∃ p, segments p = names := by
  refine ⟨String.ofList (['.'].intercalate (names.map String.toList)), ?_⟩
  rw [segments, splitChars_eq_splitOn, String.toList_ofList, List.splitOn_intercalate]
  · simp
  · simpa using hdots
  · simpa using hne

end Text
end ConversationSearch
