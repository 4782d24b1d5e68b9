import Mathlib.Data.List.Forall2
import ConversationSearch.Hits.Normalize
import ConversationSearch.Proofs.Json.Shapes

/-!
# Records of hits

The hits of a page become records when each of them does, and then in the same order. One hit that
does not makes the page unreadable.
-/

namespace ConversationSearch

variable {target : Entity}

theorem recordsFrom_eq_ok_iff {hits : List EngineHit} {records : List SearchRecord}
    {position : Nat} :
    recordsFrom target position hits = .ok records ↔
      List.Forall₂ (fun hit record => hit.toRecord target = .ok record) hits records := by
  induction hits generalizing position records with
  | nil =>
    rw [List.forall₂_nil_left_iff]
    exact ⟨fun h => (Except.ok.inj h).symm, fun h => congrArg Except.ok h.symm⟩
  | cons hit hits ih =>
    constructor
    · intro h
      obtain ⟨record, hhit, h⟩ := bind_eq_ok.mp h
      obtain ⟨rest, hrest, h⟩ := bind_eq_ok.mp h
      obtain rfl := Except.ok.inj h
      exact .cons (mapError_eq_ok.mp hhit) (ih.mp hrest)
    · intro h
      cases h with
      | cons hhit hrest =>
        exact bind_eq_ok.mpr ⟨_, mapError_eq_ok.mpr hhit, bind_eq_ok.mpr ⟨_, ih.mpr hrest, rfl⟩⟩

/-- The first hit that does not become a record is the one that is named. -/
theorem recordsFrom_eq_error_iff {hits : List EngineHit} {failure : SearchFailure}
    {position : Nat} :
    recordsFrom target position hits = .error failure ↔
      ∃ before hit after f, hits = before ++ hit :: after ∧
        (∀ h ∈ before, ∃ record, h.toRecord target = .ok record) ∧
        hit.toRecord target = .error f ∧
        failure = .malformedHit (hit.label (position + before.length)) f.message := by
  induction hits generalizing position with
  | nil =>
    constructor
    · intro h
      contradiction
    · rintro ⟨before, hit, after, f, hsplit, -⟩
      simp at hsplit
  | cons first rest ih =>
    constructor
    · intro h
      rcases bind_eq_error.mp h with hfirst | ⟨record, hfirst, h⟩
      · obtain ⟨f, hf, rfl⟩ := mapError_eq_error.mp hfirst
        exact ⟨[], first, rest, f, rfl, by simp, hf, rfl⟩
      · rcases bind_eq_error.mp h with hrest | ⟨records, -, h⟩
        · obtain ⟨before, hit, after, f, rfl, hbefore, hf, rfl⟩ := ih.mp hrest
          have hrecord : ∃ record, first.toRecord target = .ok record :=
            ⟨record, mapError_eq_ok.mp hfirst⟩
          refine ⟨first :: before, hit, after, f, rfl,
            List.forall_mem_cons.mpr ⟨hrecord, hbefore⟩, hf, ?_⟩
          rw [List.length_cons, Nat.add_assoc, Nat.add_comm 1]
        · contradiction
    · rintro ⟨before, hit, after, f, hsplit, hbefore, hf, rfl⟩
      cases before with
      | nil =>
        obtain ⟨rfl, rfl⟩ := List.cons.inj hsplit
        exact bind_eq_error.mpr (.inl (mapError_eq_error.mpr ⟨f, hf, rfl⟩))
      | cons h before =>
        obtain ⟨rfl, rfl⟩ := List.cons.inj hsplit
        obtain ⟨⟨record, hrecord⟩, hbefore⟩ := List.forall_mem_cons.mp hbefore
        have hrest := ih.mpr ⟨before, hit, after, f, rfl, hbefore, hf, by
          rw [List.length_cons, ← Nat.add_assoc, Nat.add_right_comm]⟩
        exact bind_eq_error.mpr (.inr ⟨record, mapError_eq_ok.mpr hrecord,
          bind_eq_error.mpr (.inl hrest)⟩)

theorem normalize_eq_ok_iff {hits : List EngineHit} {total : UInt64} {response : SearchResponse} :
    normalize target hits total = .ok response ↔
      List.Forall₂ (fun hit record => hit.toRecord target = .ok record) hits response.hits ∧
        response.total = total := by
  constructor
  · intro h
    obtain ⟨records, hrecords, h⟩ := bind_eq_ok.mp h
    obtain rfl := Except.ok.inj h
    exact ⟨recordsFrom_eq_ok_iff.mp hrecords, rfl⟩
  · rintro ⟨hrecords, rfl⟩
    exact bind_eq_ok.mpr ⟨response.hits, recordsFrom_eq_ok_iff.mpr hrecords, rfl⟩

theorem normalize_eq_error_iff {hits : List EngineHit} {total : UInt64}
    {failure : SearchFailure} :
    normalize target hits total = .error failure ↔
      ∃ before hit after f, hits = before ++ hit :: after ∧
        (∀ h ∈ before, ∃ record, h.toRecord target = .ok record) ∧
        hit.toRecord target = .error f ∧
        failure = .malformedHit (hit.label before.length) f.message := by
  have hrecords : recordsFrom target 0 hits = .error failure ↔ _ := recordsFrom_eq_error_iff
  simp only [Nat.zero_add] at hrecords
  rw [← hrecords]
  constructor
  · intro h
    rcases bind_eq_error.mp h with h | ⟨records, -, h⟩
    · exact h
    · contradiction
  · intro h
    exact bind_eq_error.mpr (.inl h)

/-- There is a response exactly when every hit becomes a record. -/
theorem exists_normalize_iff {hits : List EngineHit} {total : UInt64} :
    (∃ response, normalize target hits total = .ok response) ↔
      ∀ hit ∈ hits, ∃ record, hit.toRecord target = .ok record := by
  constructor
  · rintro ⟨response, h⟩
    intro hit hhit
    obtain ⟨record, -, hrecord⟩ := Json.exists_of_forall₂ (normalize_eq_ok_iff.mp h).1 hit hhit
    exact ⟨record, hrecord⟩
  · intro hall
    cases hresult : normalize target hits total with
    | ok response => exact ⟨response, rfl⟩
    | error failure =>
      obtain ⟨before, hit, after, f, rfl, -, hf, -⟩ := normalize_eq_error_iff.mp hresult
      obtain ⟨record, hrecord⟩ := hall hit (by simp)
      rw [hf] at hrecord
      contradiction

theorem normalize_malformed {hits : List EngineHit}
    (h : ∃ hit ∈ hits, ∃ f, hit.toRecord target = .error f) (total : UInt64) :
    ∃ id reason, normalize target hits total = .error (.malformedHit id reason) := by
  cases hresult : normalize target hits total with
  | error failure =>
    obtain ⟨before, hit, after, f, -, -, -, rfl⟩ := normalize_eq_error_iff.mp hresult
    exact ⟨_, _, rfl⟩
  | ok response =>
    obtain ⟨hit, hmem, f, hf⟩ := h
    obtain ⟨record, hrecord⟩ := exists_normalize_iff.mp ⟨response, hresult⟩ hit hmem
    rw [hf] at hrecord
    contradiction

/-! ## Hits of encoded documents -/

section Encoded

variable {encode : α → Json} {record : EngineHit → α → SearchRecord} {hits : List EngineHit}
variable {documents : List α}

theorem forall₂_of_sources (hsources : hits.map (·.source) = documents.map encode)
    (hrecord : ∀ hit : EngineHit, ∀ a ∈ documents, hit.source = encode a →
      hit.toRecord target = .ok (record hit a)) :
    List.Forall₂ (fun hit found => hit.toRecord target = .ok found) hits
      (List.zipWith record hits documents) := by
  induction hits generalizing documents with
  | nil => exact .nil
  | cons hit hits ih =>
    cases documents with
    | nil => simp at hsources
    | cons a documents =>
      simp only [List.map_cons, List.cons.injEq] at hsources
      obtain ⟨hsource, hrest⟩ := hsources
      refine .cons (hrecord hit a List.mem_cons_self hsource) (ih hrest ?_)
      intro other b hb
      exact hrecord other b (List.mem_cons_of_mem _ hb)

theorem exists_of_sources (hsources : hits.map (·.source) = documents.map encode) {a : α}
    (ha : a ∈ documents) :
    ∃ hit ∈ hits, hit.source = encode a := by
  have hmem : encode a ∈ hits.map (·.source) := by
    rw [hsources]
    exact List.mem_map_of_mem ha
  exact List.mem_map.mp hmem

/-- A page of encoded documents, in any order and any number of times each: it is read where all of
them can be read, and is unreadable otherwise. -/
theorem normalize_encoded {readable : α → Prop}
    (hsources : hits.map (·.source) = documents.map encode)
    (hreads : ∀ hit : EngineHit, ∀ a ∈ documents, hit.source = encode a → readable a →
      hit.toRecord target = .ok (record hit a))
    (hrefuses : ∀ (hit : EngineHit) a, hit.source = encode a → ¬readable a →
      ∃ f, hit.toRecord target = .error f)
    (total : UInt64) :
    ((∀ a ∈ documents, readable a) →
      normalize target hits total = .ok ⟨List.zipWith record hits documents, total⟩) ∧
    ((∃ a ∈ documents, ¬readable a) →
      ∃ id reason, normalize target hits total = .error (.malformedHit id reason)) := by
  constructor
  · intro hall
    refine normalize_eq_ok_iff.mpr ⟨forall₂_of_sources hsources ?_, rfl⟩
    intro hit a ha hsource
    exact hreads hit a ha hsource (hall a ha)
  · rintro ⟨a, ha, hunreadable⟩
    apply normalize_malformed
    obtain ⟨hit, hhit, hsource⟩ := exists_of_sources hsources ha
    exact ⟨hit, hhit, hrefuses hit a hsource hunreadable⟩

end Encoded

end ConversationSearch
