import ConversationSearch.Proofs.Json.Ordered
import ConversationSearch.Proofs.Provisioning.Independence
import ConversationSearch.Proofs.Schema.Coverage

/-!
# Preparing the indices again

Where no call is refused and the mappings of each index are reported as they are, preparing an index
leaves it empty and with the mappings of its declaration, whatever was there. So every such run has
success, and a second one finds the indices as it would leave them: it changes nothing, and all that
its report says more is that the indices were there.
-/

namespace ConversationSearch

/-- The same outcome for an index that was there. -/
def IndexOutcome.replacing (o : IndexOutcome) : IndexOutcome :=
  { o with replaced := true }

namespace MemoryEngine

/-- No call is refused, and the mappings that are reported of an index are its own. -/
structure Undisturbed (m : MemoryEngine) : Prop where
  faults : ∀ c, m.fault? c = none
  live : ∀ name, m.liveMappings.lookup name = none

/-- The engine with an empty index of the given name for a kind of document, in the place of the one
that is there. -/
def renew (m : MemoryEngine) (name : String) (e : Entity) : MemoryEngine :=
  (m.dropIndex name).setIndex name { mappings := Schema.mappings e.fields }

variable {m : MemoryEngine} {name other : String}

theorem Undisturbed.of_indices {m' : MemoryEngine} (h : m.Undisturbed)
    (hrest : m' = { m with indices := m'.indices }) :
    m'.Undisturbed := by
  rw [hrest]
  exact ⟨h.faults, h.live⟩

theorem Undisturbed.renew (h : m.Undisturbed) (name : String) (e : Entity) :
    (m.renew name e).Undisturbed :=
  h.of_indices rfl

theorem Undisturbed.backend_eq (h : m.Undisturbed) (c : Call) :
    backend c m = perform c m := by
  rw [backend, h.faults c]

theorem index?_renew_self (m : MemoryEngine) (name : String) (e : Entity) :
    (m.renew name e).index? name = some { mappings := Schema.mappings e.fields } :=
  index?_setIndex_self _ name _

theorem index?_renew_of_ne (hother : other ≠ name) (m : MemoryEngine) (e : Entity) :
    (m.renew name e).index? other = m.index? other := by
  rw [renew, index?_setIndex_of_ne hother, index?_dropIndex_of_ne hother]

theorem isSome_index?_renew (h : (m.index? other).isSome) (name : String) (e : Entity) :
    ((m.renew name e).index? other).isSome := by
  by_cases hother : other = name
  · rw [hother, index?_renew_self]
    rfl
  · rwa [index?_renew_of_ne hother]

theorem dropIndex_eq_self (h : m.index? name = none) :
    m.dropIndex name = m := by
  have hkeep : m.indices.filter (fun i => i.1 != name) = m.indices := by
    rw [List.filter_eq_self]
    intro i hi
    have hne := List.lookup_eq_none_iff.mp h i hi
    simpa [bne_comm] using hne
  rw [dropIndex, hkeep]

end MemoryEngine

namespace Provisioning

open MemoryEngine (Undisturbed)

variable {s : IndexSettings} {m : MemoryEngine} {o : IndexOutcome}

/-! ## One index -/

theorem verifyIndex_undisturbed (h : m.Undisturbed) {i : StoredIndex}
    (hindex : m.index? o.index = some i) :
    verifyIndex MemoryEngine.backend o m =
      ({ o with verification := some (o.entity.verify i.mappings) }, m) := by
  have hanswer : MemoryEngine.backend (.getMapping o.index) m = (.ok i.mappings, m) := by
    rw [h.backend_eq]
    simp only [MemoryEngine.perform, h.live, hindex]
  simp only [verifyIndex, Backend.ask, bind, StateT.bind, hanswer]
  rfl

/-- An index that is created from a declaration is found to be as it was declared. -/
theorem createIndex_undisturbed (h : m.Undisturbed) (hnone : m.index? o.index = none) :
    createIndex MemoryEngine.backend o m =
      ({ o with created := true, verification := some ⟨true, []⟩ },
        m.setIndex o.index { mappings := Schema.mappings o.entity.fields }) := by
  have hanswer : MemoryEngine.backend (.createIndex o.index (Schema.indexBody o.entity.fields)) m =
      (.ok (.object [("acknowledged", .bool true)]),
        m.setIndex o.index { mappings := Schema.mappings o.entity.fields }) := by
    rw [h.backend_eq]
    simp only [MemoryEngine.perform, hnone]
    rfl
  have hset : (m.setIndex o.index { mappings := Schema.mappings o.entity.fields }).Undisturbed :=
    h.of_indices rfl
  have hverify := verifyIndex_undisturbed (o := { o with created := true }) hset
    (MemoryEngine.index?_setIndex_self m o.index _)
  simp only [Entity.verify_mappings] at hverify
  simp only [createIndex, Backend.ask, bind, StateT.bind, hanswer]
  exact hverify

/-- What comes of preparing an index where nothing goes wrong. -/
def prepared (s : IndexSettings) (e : Entity) (replaced : Bool) : IndexOutcome :=
  { entity := e, index := s.indexName e, replaced := replaced, created := true,
    verification := some ⟨true, []⟩ }

theorem provisionIndex_undisturbed (s : IndexSettings) (e : Entity) (h : m.Undisturbed) :
    provisionIndex MemoryEngine.backend s e m =
      (prepared s e (m.index? (s.indexName e)).isSome, m.renew (s.indexName e) e) := by
  have hexists : MemoryEngine.backend (.indexExists (s.indexName e)) m =
      (.ok (m.index? (s.indexName e)).isSome, m) := by
    rw [h.backend_eq]
    rfl
  simp only [provisionIndex, Backend.ask, bind, StateT.bind, hexists]
  cases hindex : m.index? (s.indexName e) with
  | none =>
    rw [MemoryEngine.renew, MemoryEngine.dropIndex_eq_self hindex]
    exact createIndex_undisturbed h hindex
  | some i =>
    have hdelete : MemoryEngine.backend (.deleteIndex (s.indexName e)) m =
        (.ok (), m.dropIndex (s.indexName e)) := by
      rw [h.backend_eq]
      simp only [MemoryEngine.perform, hindex]
    simp only [Option.isSome_some, replaceIndex, Backend.ask, bind, StateT.bind, hdelete]
    exact createIndex_undisturbed (h.of_indices rfl)
      (MemoryEngine.index?_dropIndex_self m (s.indexName e))

/-! ## All indices -/

/-- The engine with empty indices in the places of all that the settings name. -/
def renewAll (s : IndexSettings) (m : MemoryEngine) : MemoryEngine :=
  (m.renew s.conversationsIndex .conversation).renew s.messagesIndex .message

theorem provision_undisturbed (s : IndexSettings) (h : m.Undisturbed) :
    provision MemoryEngine.backend s m =
      (.ok ⟨true,
        [prepared s .conversation (m.index? s.conversationsIndex).isSome,
          prepared s .message
            ((m.renew s.conversationsIndex .conversation).index? s.messagesIndex).isSome]⟩,
        renewAll s m) := by
  have hhealth : MemoryEngine.backend .health m =
      (.ok (.object [("status", .string "green")]), m) := by
    rw [h.backend_eq]
    rfl
  rw [provision_healthy (congrArg Prod.fst hhealth), hhealth]
  simp only [provisionIndex_undisturbed s .conversation h]
  rw [provisionIndex_undisturbed s .message (h.renew _ _)]
  rfl

theorem index?_renewAll (s : IndexSettings) (m : MemoryEngine) (e : Entity) :
    ∃ kind : Entity, (renewAll s m).index? (s.indexName e) =
      some { mappings := Schema.mappings kind.fields } := by
  by_cases hname : s.indexName e = s.messagesIndex
  · rw [hname]
    exact ⟨.message, MemoryEngine.index?_renew_self _ _ _⟩
  · cases e with
    | message => exact absurd rfl hname
    | conversation =>
      refine ⟨.conversation, ?_⟩
      rw [renewAll, MemoryEngine.index?_renew_of_ne hname]
      exact MemoryEngine.index?_renew_self _ _ _

theorem index?_renewAll_of_ne {name : String} (hname : ∀ e, s.indexName e ≠ name)
    (m : MemoryEngine) :
    (renewAll s m).index? name = m.index? name := by
  have hmessages : name ≠ s.messagesIndex := (hname .message).symm
  have hconversations : name ≠ s.conversationsIndex := (hname .conversation).symm
  rw [renewAll, MemoryEngine.index?_renew_of_ne hmessages,
    MemoryEngine.index?_renew_of_ne hconversations]

theorem index?_renewAll_again (s : IndexSettings) (m : MemoryEngine) (name : String) :
    (renewAll s (renewAll s m)).index? name = (renewAll s m).index? name := by
  unfold renewAll
  by_cases hmessages : name = s.messagesIndex
  · rw [hmessages, MemoryEngine.index?_renew_self, MemoryEngine.index?_renew_self]
  rw [MemoryEngine.index?_renew_of_ne hmessages, MemoryEngine.index?_renew_of_ne hmessages]
  by_cases hconversations : name = s.conversationsIndex
  · rw [hconversations, MemoryEngine.index?_renew_self, MemoryEngine.index?_renew_self]
  · rw [MemoryEngine.index?_renew_of_ne hconversations,
      MemoryEngine.index?_renew_of_ne hmessages]

theorem Undisturbed.renewAll (h : m.Undisturbed) (s : IndexSettings) :
    (renewAll s m).Undisturbed :=
  (h.renew s.conversationsIndex .conversation).renew s.messagesIndex .message

/-- No run takes the indices out of their order. -/
theorem ascending_provision (s : IndexSettings) (h : Json.Ascending m.indices) :
    Json.Ascending (provision MemoryEngine.backend s m).2.indices := by
  refine (provision_asks s).keeps (Q := fun m => Json.Ascending m.indices) ?_ m h
  exact fun c _ _ => MemoryEngine.ascending_backend c

/-- A second run finds the indices as it leaves them. -/
theorem renewAll_again (s : IndexSettings) (h : m.Undisturbed)
    (hindices : Json.Ascending m.indices) :
    renewAll s (renewAll s m) = renewAll s m := by
  have hascending : ∀ {m : MemoryEngine}, m.Undisturbed → Json.Ascending m.indices →
      Json.Ascending (renewAll s m).indices := by
    intro m h hindices
    have hkept := ascending_provision s hindices
    rwa [provision_undisturbed s h] at hkept
  have hfirst := hascending h hindices
  have hsame : (renewAll s (renewAll s m)).indices = (renewAll s m).indices :=
    (hascending (Undisturbed.renewAll h s) hfirst).ext hfirst (index?_renewAll_again s m)
  calc renewAll s (renewAll s m)
      = { renewAll s m with indices := (renewAll s (renewAll s m)).indices } := rfl
    _ = renewAll s m := by rw [hsame]

/-- Where no call is refused and mappings are reported as they are, provisioning has success from
any state. It leaves every index that the settings name empty and all others alone, and done
again it changes nothing and reports the same of indices that were there. -/
theorem provision_again (s : IndexSettings) (h : m.Undisturbed) :
    ∃ report after,
      provision MemoryEngine.backend s m = (.ok report, after) ∧
      report.success = true ∧
      report.indices.map (fun o => (o.entity, o.index)) =
        Entity.all.map (fun e => (e, s.indexName e)) ∧
      (∀ o ∈ report.indices, o.verification = some ⟨true, []⟩ ∧ o.error = none) ∧
      (∀ e, ∃ i, after.index? (s.indexName e) = some i ∧ i.documents = []) ∧
      (∀ name, (∀ e, s.indexName e ≠ name) → after.index? name = m.index? name) ∧
      after = { m with indices := after.indices } ∧
      ∃ again,
        provision MemoryEngine.backend s after =
          (.ok { report with indices := report.indices.map IndexOutcome.replacing }, again) ∧
        (∀ name, again.index? name = after.index? name) ∧
        again = { after with indices := again.indices } ∧
        (Json.Ascending m.indices → again = after) := by
  refine ⟨_, _, provision_undisturbed s h, rfl, rfl, ?_, ?_,
    fun name hname => index?_renewAll_of_ne hname m, rfl, renewAll s (renewAll s m), ?_,
    index?_renewAll_again s m, rfl, renewAll_again s h⟩
  · simp [prepared]
  · intro e
    obtain ⟨kind, hkind⟩ := index?_renewAll s m e
    exact ⟨_, hkind, rfl⟩
  · -- the second run finds both indices, and the one that comes second also after the first step
    have hthere : ∀ e, ((renewAll s m).index? (s.indexName e)).isSome = true := by
      intro e
      obtain ⟨kind, hkind⟩ := index?_renewAll s m e
      rw [hkind]
      rfl
    have hconversations := hthere .conversation
    have hmessages := MemoryEngine.isSome_index?_renew (hthere .message) s.conversationsIndex
      .conversation
    simp only [IndexSettings.indexName] at hconversations hmessages
    rw [provision_undisturbed s (Undisturbed.renewAll h s), hconversations, hmessages]
    rfl

/-- An engine with an outdated index of conversations that has a document, without an index of
messages, and with an index that the settings do not name. -/
def outdated : MemoryEngine where
  indices :=
    [("conversations", ⟨Json.object [("properties", Json.empty)], [("c1", Json.empty)]⟩),
      ("notes", ⟨.null, [("n1", Json.empty)]⟩)]

/-- The outdated index is replaced and the one that was missing is created; a second round finds
both. -/
theorem provision_outdated_again :
    outdated.Undisturbed ∧ Json.Ascending outdated.indices ∧
    ∃ report after,
      provision MemoryEngine.backend {} outdated = (.ok report, after) ∧
      report.indices.map (·.replaced) = [true, false] ∧
      after.index? "notes" = some ⟨.null, [("n1", Json.empty)]⟩ ∧
      provision MemoryEngine.backend {} after =
        (.ok { report with indices := report.indices.map IndexOutcome.replacing }, after) := by
  have hundisturbed : outdated.Undisturbed :=
    ⟨fun c => by cases hc : c.index? <;> simp [MemoryEngine.fault?, outdated, hc], fun _ => rfl⟩
  have hascending : Json.Ascending outdated.indices := by
    unfold Json.Ascending
    decide
  obtain ⟨report, after, hrun, -, -, -, -, hothers, -, again, hagain, -, -, hsame⟩ :=
    provision_again {} hundisturbed
  refine ⟨hundisturbed, hascending, report, after, hrun, ?_, ?_, ?_⟩
  · rw [provision_undisturbed {} hundisturbed] at hrun
    obtain rfl := Except.ok.inj (Prod.mk.inj hrun).1
    rfl
  · rw [hothers "notes" (by rintro (_ | _) <;> decide)]
    rfl
  · rw [hagain, hsame hascending]

end Provisioning
end ConversationSearch
