import ConversationSearch.Engine.Client
import ConversationSearch.Engine.Memory
import ConversationSearch.Proofs.Engine.Runs
import ConversationSearch.Proofs.Json.Ordered

/-!
# The indices of the engine in memory

A call leaves the engine as it is, or it writes one index, creates one that was not there or deletes
one. So it leaves the other indices alone, the indices stay in the order of their names, and no call
changes what the engine was told to do: its faults and the mappings that it reports. And two engines
that agree on an index, on the mappings reported of it and on the faults of the calls about it
answer those calls alike and agree afterwards.
-/

namespace ConversationSearch.MemoryEngine

/-! ## Indices by name -/

theorem index?_setIndex_self (m : MemoryEngine) (name : String) (i : StoredIndex) :
    (m.setIndex name i).index? name = some i :=
  Json.lookup_insert_self name i m.indices

theorem index?_setIndex_of_ne {name other : String} (hother : other ≠ name) (m : MemoryEngine)
    (i : StoredIndex) :
    (m.setIndex name i).index? other = m.index? other :=
  Json.lookup_insert_of_ne hother i m.indices

theorem index?_dropIndex_self (m : MemoryEngine) (name : String) :
    (m.dropIndex name).index? name = none := by
  unfold dropIndex index?
  rw [Json.lookup_filter (· != name)]
  simp

theorem index?_dropIndex_of_ne {name other : String} (hother : other ≠ name)
    (m : MemoryEngine) :
    (m.dropIndex name).index? other = m.index? other := by
  unfold dropIndex index?
  rw [Json.lookup_filter (· != name)]
  simp [hother]

/-! ## What calls do -/

/-- What a call can leave of an engine. -/
inductive Effect (m : MemoryEngine) : Call → MemoryEngine → Prop
  | unchanged (c : Call) : Effect m c m
  | written (index : String) (entries : List BulkDocument) :
      Effect m (.bulkIndex index entries)
        (m.setIndex index (entries.foldl StoredIndex.store ((m.index? index).getD {})))
  | created (index : String) (body : Json) :
      m.index? index = none →
      Effect m (.createIndex index body)
        (m.setIndex index { mappings := (body.get? "mappings").getD .null })
  | deleted (index : String) : Effect m (.deleteIndex index) (m.dropIndex index)

theorem effect_backend (c : Call) (m : MemoryEngine) :
    Effect m c (backend c m).2 := by
  unfold backend
  cases m.fault? c with
  | some f => exact .unchanged c
  | none =>
    cases c with
    | bulkIndex index entries => exact .written index entries
    | createIndex index body =>
      simp only [perform]
      cases hindex : m.index? index with
      | some i => exact .unchanged _
      | none => exact .created index body hindex
    | deleteIndex index =>
      simp only [perform]
      cases m.index? index with
      | some i => exact .deleted index
      | none => exact .unchanged _
    | getMapping index =>
      simp only [perform]
      split <;> exact .unchanged _
    | _ => exact .unchanged _

namespace Effect

variable {m m' : MemoryEngine} {c : Call} {name : String}

/-- A call that only looks changes nothing. -/
theorem eq_of_isRead (h : Effect m c m') (hc : Client.isRead c = true) :
    m' = m := by
  cases h with
  | unchanged => rfl
  | written => contradiction
  | created => contradiction
  | deleted => contradiction

/-- Nothing but the indices changes. -/
theorem eq_with_indices (h : Effect m c m') :
    m' = { m with indices := m'.indices } := by
  cases h <;> rfl

theorem index?_eq (h : Effect m c m') (hc : c.index? ≠ some name) :
    m'.index? name = m.index? name := by
  have hname : ∀ index, c.index? = some index → name ≠ index := by
    rintro index hindex rfl
    exact hc hindex
  cases h with
  | unchanged => rfl
  | written index entries => exact index?_setIndex_of_ne (hname index rfl) m _
  | created index body _ => exact index?_setIndex_of_ne (hname index rfl) m _
  | deleted index => exact index?_dropIndex_of_ne (hname index rfl) m

theorem ascending (h : Effect m c m') (hm : Json.Ascending m.indices) :
    Json.Ascending m'.indices := by
  cases h with
  | unchanged => exact hm
  | written index entries => exact hm.insert index _
  | created index body _ => exact hm.insert index _
  | deleted index => exact hm.filter _

end Effect

theorem ascending_backend (c : Call) {m : MemoryEngine} (h : Json.Ascending m.indices) :
    Json.Ascending (backend c m).2.indices :=
  (effect_backend c m).ascending h

theorem backend_of_isRead {c : Call} (hc : Client.isRead c = true) (m : MemoryEngine) :
    (backend c m).2 = m :=
  (effect_backend c m).eq_of_isRead hc

theorem fault?_backend (c other : Call) (m : MemoryEngine) :
    (backend c m).2.fault? other = m.fault? other := by
  rw [(effect_backend c m).eq_with_indices]
  rfl

theorem liveMappings_backend (c : Call) (m : MemoryEngine) :
    (backend c m).2.liveMappings = m.liveMappings := by
  rw [(effect_backend c m).eq_with_indices]

theorem index?_backend {c : Call} {i : String} (hc : c.index? ≠ some i) (m : MemoryEngine) :
    (backend c m).2.index? i = m.index? i :=
  (effect_backend c m).index?_eq hc

/-! ## Engines that agree on an index -/

/-- Two engines have the same index of a name, report the same mappings in place of its own, and
refuse the same calls about it with the same failures. -/
structure AgreeOn (i : String) (m₁ m₂ : MemoryEngine) : Prop where
  index : m₁.index? i = m₂.index? i
  live : m₁.liveMappings.lookup i = m₂.liveMappings.lookup i
  faults : ∀ c : Call, c.index? = some i → m₁.fault? c = m₂.fault? c

namespace AgreeOn

variable {i : String} {m₁ m₂ m₃ : MemoryEngine}

theorem refl :
    AgreeOn i m₁ m₁ :=
  ⟨rfl, rfl, fun _ _ => rfl⟩

theorem symm (h : AgreeOn i m₁ m₂) :
    AgreeOn i m₂ m₁ :=
  ⟨h.index.symm, h.live.symm, fun c hc => (h.faults c hc).symm⟩

theorem trans (h : AgreeOn i m₁ m₂) (h' : AgreeOn i m₂ m₃) :
    AgreeOn i m₁ m₃ :=
  ⟨h.index.trans h'.index, h.live.trans h'.live,
    fun c hc => (h.faults c hc).trans (h'.faults c hc)⟩

/-- After a call about something else an engine agrees with itself as it was. -/
theorem of_other {c : Call} (hc : c.index? ≠ some i) (m : MemoryEngine) :
    AgreeOn i m (backend c m).2 where
  index := (index?_backend hc m).symm
  live := by rw [liveMappings_backend]
  faults := fun other _ => (fault?_backend c other m).symm

/-- What a call about an index is answered, and which index it leaves, depends on that index. -/
theorem perform_same (h : AgreeOn i m₁ m₂) {c : Call} (hc : c.index? = some i)
    (hsearch : ∀ body, c ≠ .search i body) :
    (perform c m₁).1 = (perform c m₂).1 ∧
      (perform c m₁).2.index? i = (perform c m₂).2.index? i := by
  cases c with
  | search index body =>
    obtain rfl := Option.some.inj hc
    exact absurd rfl (hsearch body)
  | bulkIndex index documents =>
    obtain rfl := Option.some.inj hc
    simp only [perform, index?_setIndex_self, h.index, true_and]
  | indexExists index =>
    obtain rfl := Option.some.inj hc
    simp only [perform, h.index, true_and]
  | createIndex index body =>
    obtain rfl := Option.some.inj hc
    simp only [perform, h.index]
    cases hindex : m₂.index? index with
    | none => simp only [index?_setIndex_self, true_and]
    | some stored => simp only [h.index, hindex, true_and]
  | deleteIndex index =>
    obtain rfl := Option.some.inj hc
    simp only [perform, h.index]
    cases hindex : m₂.index? index with
    | none => simp only [h.index, hindex, true_and]
    | some stored => simp only [index?_dropIndex_self, true_and]
  | getMapping index =>
    obtain rfl := Option.some.inj hc
    simp only [perform, h.index, h.live]
    cases m₂.liveMappings.lookup index with
    | some live => simp only [h.index, true_and]
    | none =>
      cases hindex : m₂.index? index with
      | none => simp only [h.index, hindex, true_and]
      | some stored => simp only [h.index, hindex, true_and]
  | ping => contradiction
  | health => contradiction
  | info => contradiction

/-- Engines that agree on an index go on to do so when the same call is made to both. -/
theorem coupled (i : String) {c : Call} (hc : c.index? = some i)
    (hsearch : ∀ body, c ≠ .search i body) :
    Coupled (AgreeOn i) (backend.ask c) (backend.ask c) := by
  intro m₁ m₂ h
  have hanswers : (backend c m₁).1 = (backend c m₂).1 ∧
      (backend c m₁).2.index? i = (backend c m₂).2.index? i := by
    unfold backend
    rw [h.faults c hc]
    cases m₂.fault? c with
    | some f => exact ⟨rfl, h.index⟩
    | none => exact h.perform_same hc hsearch
  refine ⟨hanswers.1, hanswers.2, ?_, ?_⟩
  · change (backend c m₁).2.liveMappings.lookup i = (backend c m₂).2.liveMappings.lookup i
    rw [liveMappings_backend, liveMappings_backend]
    exact h.live
  · intro other hother
    change (backend c m₁).2.fault? other = (backend c m₂).2.fault? other
    rw [fault?_backend, fault?_backend]
    exact h.faults other hother

/-- A call about something else keeps the agreement. -/
theorem keeps {i : String} {c : Call} (hc : c.index? ≠ some i) (m : MemoryEngine) :
    Keeps (AgreeOn i m) (backend.ask c) :=
  fun m' h => h.trans (of_other hc m')

end AgreeOn
end ConversationSearch.MemoryEngine
