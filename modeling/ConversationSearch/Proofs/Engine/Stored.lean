import ConversationSearch.Proofs.Engine.Indices

/-!
# The documents of the engine in memory

After a call to the engine in memory each document that is stored was stored before or comes from
the call. An id that is stored stays, unless its index is deleted.
-/

namespace ConversationSearch

namespace StoredIndex

variable {i : StoredIndex} {id : String} {document : Json} {entries : List BulkDocument}

theorem mem_store {d : BulkDocument} (h : (id, document) ∈ (i.store d).documents) :
    d = ⟨id, document⟩ ∨ (id, document) ∈ i.documents := by
  rcases Json.mem_of_mem_insert h with hnew | hold
  · obtain ⟨rfl, rfl⟩ := Prod.mk.inj hnew
    exact .inl rfl
  · exact .inr hold

theorem mem_foldl_store (h : (id, document) ∈ (entries.foldl store i).documents) :
    ⟨id, document⟩ ∈ entries ∨ (id, document) ∈ i.documents := by
  induction entries generalizing i with
  | nil => exact .inr h
  | cons d entries ih =>
    rcases ih h with hlater | hstored
    · exact .inl (List.mem_cons_of_mem d hlater)
    · rcases mem_store hstored with rfl | hold
      · exact .inl List.mem_cons_self
      · exact .inr hold

theorem id_mem_foldl_store (entries : List BulkDocument) (h : (id, document) ∈ i.documents) :
    ∃ document', (id, document') ∈ (entries.foldl store i).documents := by
  induction entries generalizing i document with
  | nil => exact ⟨document, h⟩
  | cons d entries ih =>
    obtain ⟨document', hstored⟩ := Json.key_mem_insert h d.id d.document
    exact ih (i := i.store d) hstored

end StoredIndex

namespace MemoryEngine

variable {m m' : MemoryEngine} {c : Call} {name id : String} {document : Json}

/-- The index with the name has the document under the id. -/
def Holds (m : MemoryEngine) (name id : String) (document : Json) : Prop :=
  ∃ i, m.index? name = some i ∧ (id, document) ∈ i.documents

/-- The index with the name has a document under the id. -/
def HoldsId (m : MemoryEngine) (name id : String) : Prop :=
  ∃ document, m.Holds name id document

theorem index?_of_indices (h : m'.indices = m.indices) (name : String) :
    m'.index? name = m.index? name := by
  unfold index?
  rw [h]

theorem Holds.of_indices (h : m'.indices = m.indices) (hholds : m.Holds name id document) :
    m'.Holds name id document := by
  obtain ⟨i, hi, hstored⟩ := hholds
  exact ⟨i, (index?_of_indices h name).trans hi, hstored⟩

theorem holds_setIndex {index : String} {i : StoredIndex} :
    (m.setIndex index i).Holds name id document ↔
      (name = index ∧ (id, document) ∈ i.documents) ∨ (name ≠ index ∧ m.Holds name id document) := by
  unfold Holds
  by_cases hname : name = index
  · subst hname
    simp [index?_setIndex_self]
  · simp [index?_setIndex_of_ne hname, hname]

theorem holds_dropIndex {index : String} :
    (m.dropIndex index).Holds name id document ↔ name ≠ index ∧ m.Holds name id document := by
  unfold Holds
  by_cases hname : name = index
  · subst hname
    simp [index?_dropIndex_self]
  · simp [index?_dropIndex_of_ne hname, hname]

theorem holds_getD :
    (id, document) ∈ ((m.index? name).getD {}).documents ↔ m.Holds name id document := by
  unfold Holds
  cases m.index? name <;> simp

namespace Effect

/-- An index is there since before the call, or the call changes it. -/
theorem index_of_isSome (h : Effect m c m') (hname : (m'.index? name).isSome) :
    (m.index? name).isSome ∨ c.index? = some name ∧ Client.isRead c = false := by
  by_cases hc : c.index? = some name
  · cases hread : Client.isRead c with
    | false => exact .inr ⟨hc, rfl⟩
    | true =>
      rw [h.eq_of_isRead hread] at hname
      exact .inl hname
  · rw [h.index?_eq hc] at hname
    exact .inl hname

theorem holds (h : Effect m c m') (hholds : m'.Holds name id document) :
    m.Holds name id document ∨
      ∃ entries, c = .bulkIndex name entries ∧ ⟨id, document⟩ ∈ entries := by
  cases h with
  | unchanged => exact .inl hholds
  | written index entries =>
    rcases holds_setIndex.mp hholds with ⟨rfl, hstored⟩ | ⟨-, hother⟩
    · rcases StoredIndex.mem_foldl_store hstored with hentry | hbefore
      · exact .inr ⟨entries, rfl, hentry⟩
      · exact .inl (holds_getD.mp hbefore)
    · exact .inl hother
  | created index body hnone =>
    rcases holds_setIndex.mp hholds with ⟨-, hempty⟩ | ⟨-, hother⟩
    · contradiction
    · exact .inl hother
  | deleted index => exact .inl (holds_dropIndex.mp hholds).2

theorem holdsId (h : Effect m c m') (hc : c ≠ .deleteIndex name) (hid : m.HoldsId name id) :
    m'.HoldsId name id := by
  obtain ⟨document, hholds⟩ := hid
  cases h with
  | unchanged => exact ⟨document, hholds⟩
  | written index entries =>
    by_cases hname : name = index
    · subst hname
      obtain ⟨document', hstored⟩ :=
        StoredIndex.id_mem_foldl_store entries (holds_getD.mpr hholds)
      exact ⟨document', holds_setIndex.mpr (.inl ⟨rfl, hstored⟩)⟩
    · exact ⟨document, holds_setIndex.mpr (.inr ⟨hname, hholds⟩)⟩
  | created index body hnone =>
    have hname : name ≠ index := by
      rintro rfl
      obtain ⟨i, hi, -⟩ := hholds
      rw [hnone] at hi
      contradiction
    exact ⟨document, holds_setIndex.mpr (.inr ⟨hname, hholds⟩)⟩
  | deleted index =>
    have hname : name ≠ index := fun h => hc (congrArg Call.deleteIndex h.symm)
    exact ⟨document, holds_dropIndex.mpr ⟨hname, hholds⟩⟩

end Effect
end MemoryEngine
end ConversationSearch
