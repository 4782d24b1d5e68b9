import ConversationSearch.Proofs.Provisioning.Independence

/-!
# Inspecting after provisioning

After an index was prepared with success an engine in memory has it and reports mappings that pass
the comparison with the declaration. This lasts as long as nothing is done to the index. Where the
two kinds of documents have an index each, both can be inspected after a successful provisioning.
Where they share one, it is left with the declaration of the kind that was prepared last, and the
report does not say so.
-/

namespace ConversationSearch

namespace MemoryEngine

variable {m m' : MemoryEngine} {index : String}

/-! ## Answers that are no failures -/

/-- A call that is not refused is performed. -/
theorem performed {c : Call} (h : ∀ f, (backend c m).1 ≠ c.refusal f) :
    m.fault? c = none ∧ backend c m = perform c m := by
  unfold backend at h ⊢
  cases hfault : m.fault? c with
  | none => exact ⟨rfl, rfl⟩
  | some f =>
    rw [hfault] at h
    exact absurd rfl (h f)

theorem fault?_of_indexExists {present : Bool}
    (h : (backend (.indexExists index) m).1 = .ok present) :
    m.fault? (.indexExists index) = none := by
  have hanswer : ∀ f, (backend (.indexExists index) m).1 ≠ .error f := by simp [h]
  exact (performed hanswer).1

theorem indexExists_eq_true {i : StoredIndex} (hfault : m.fault? (.indexExists index) = none)
    (hindex : m.index? index = some i) :
    (backend (.indexExists index) m).1 = .ok true := by
  simp [backend, hfault, perform, hindex]

theorem index?_of_createIndex {body reply : Json}
    (h : (backend (.createIndex index body) m).1 = .ok reply) :
    (backend (.createIndex index body) m).2.index? index =
      some { mappings := (body.get? "mappings").getD .null } := by
  have hanswer : ∀ f, (backend (.createIndex index body) m).1 ≠ .error f := by simp [h]
  rw [(performed hanswer).2, perform] at h ⊢
  cases hindex : m.index? index with
  | some i =>
    rw [hindex] at h
    contradiction
  | none => exact index?_setIndex_self m index _

theorem eq_of_getMapping {i : StoredIndex} {live : Json} (hindex : m.index? index = some i)
    (h : (backend (.getMapping index) m).1 = .ok live) :
    live = (m.liveMappings.lookup index).getD i.mappings := by
  have hanswer : ∀ f, (backend (.getMapping index) m).1 ≠ .error f := by simp [h]
  rw [(performed hanswer).2] at h
  simp only [perform, hindex] at h
  cases hlive : m.liveMappings.lookup index with
  | none =>
    rw [hlive] at h
    exact (Except.ok.inj h).symm
  | some other =>
    rw [hlive] at h
    exact (Except.ok.inj h).symm

/-! ## Served indices -/

/-- The engine says that it has the index, and reports the mappings of it. -/
structure Serves (m : MemoryEngine) (index : String) (live : Json) : Prop where
  present : (backend (.indexExists index) m).1 = .ok true
  mappings : (backend (.getMapping index) m).1 = .ok live

theorem Serves.of_agreeOn {live : Json} (hagree : AgreeOn index m m') (h : m.Serves index live) :
    m'.Serves index live := by
  have hpresent := (AgreeOn.coupled index (c := .indexExists index) rfl (by simp) m m' hagree).1
  have hmappings := (AgreeOn.coupled index (c := .getMapping index) rfl (by simp) m m' hagree).1
  exact ⟨hpresent.symm.trans h.present, hmappings.symm.trans h.mappings⟩

/-- The mappings that are reported of an index with the declaration for a kind of document. -/
def reported (m : MemoryEngine) (index : String) (e : Entity) : Json :=
  (m.liveMappings.lookup index).getD (Schema.mappings e.fields)

/-- An engine that has created an index and then reported its mappings serves it. -/
theorem serves_of_creation {present : Bool} {before : List Answered} {e : Entity}
    {reply live : Json}
    (h : Leads backend m (⟨.indexExists index, .ok present⟩ :: (before ++
      [⟨.createIndex index (Schema.indexBody e.fields), .ok reply⟩,
        ⟨.getMapping index, .ok live⟩])) m') :
    m'.Serves index live ∧ live = m'.reported index e := by
  have hfault : m.fault? (.indexExists index) = none := by
    cases h with
    | cons hexists _ => exact fault?_of_indexExists (congrArg Prod.fst hexists)
  have hfault' : m'.fault? (.indexExists index) = none :=
    h.keeps (fun a _ st hst => (fault?_backend a.call _ st).trans hst) hfault
  rw [← List.cons_append] at h
  obtain ⟨m₁, -, hend⟩ := h.of_append
  cases hend with
  | @cons _ m₂ _ _ _ _ hcreate hrest =>
    cases hrest with
    | cons hmappings hnil =>
      cases hnil
      have hindex : m₂.index? index = some { mappings := Schema.mappings e.fields } := by
        have hcreated := index?_of_createIndex (congrArg Prod.fst hcreate)
        rw [hcreate] at hcreated
        exact hcreated
      -- the last call changes nothing, so the engine is the one after the creation
      have hsame := backend_of_isRead (c := .getMapping index) rfl m₂
      rw [hmappings] at hsame
      obtain rfl : m' = m₂ := hsame
      have hanswer := congrArg Prod.fst hmappings
      exact ⟨⟨indexExists_eq_true hfault' hindex, hanswer⟩, eq_of_getMapping hindex hanswer⟩

end MemoryEngine

namespace IndexOutcome

/-! ## Attempts that succeed -/

theorem succeeded_failed (o : IndexOutcome) (f : SearchFailure) :
    (o.failed f).succeeded = false := by
  simp [failed, succeeded]

/-- A creation that ends in success has created the index and read its mappings. -/
theorem Created.calls_of_succeeded {o outcome : IndexOutcome} {calls : List Answered}
    (h : o.Created calls outcome) (hsucceeded : outcome.succeeded = true) :
    ∃ reply live,
      calls = [⟨.createIndex o.index (Schema.indexBody o.entity.fields), .ok reply⟩,
        ⟨.getMapping o.index, .ok live⟩] ∧
      (o.entity.verify live).isValid = true := by
  cases h with
  | refused f =>
    rw [succeeded_failed] at hsucceeded
    contradiction
  | acknowledged reply hverified =>
    cases hverified with
    | unread f =>
      rw [succeeded_failed] at hsucceeded
      contradiction
    | read live =>
      have hvalid : (o.entity.verify live).isValid = true := by
        simp only [succeeded, Option.any_some, Bool.and_eq_true] at hsucceeded
        exact hsucceeded.2
      exact ⟨reply, live, rfl, hvalid⟩

/-- A preparation that ends in success has asked for the index first, and has created it and read
its mappings last. -/
theorem Prepared.calls_of_succeeded {o outcome : IndexOutcome} {calls : List Answered}
    (h : o.Prepared calls outcome) (hsucceeded : outcome.succeeded = true) :
    ∃ present before reply live,
      calls = ⟨.indexExists o.index, .ok present⟩ :: (before ++
        [⟨.createIndex o.index (Schema.indexBody o.entity.fields), .ok reply⟩,
          ⟨.getMapping o.index, .ok live⟩]) ∧
      (o.entity.verify live).isValid = true := by
  cases h with
  | unknown f =>
    rw [succeeded_failed] at hsucceeded
    contradiction
  | present hreplaced =>
    cases hreplaced with
    | refused f =>
      rw [succeeded_failed] at hsucceeded
      contradiction
    | deleted hcreated =>
      obtain ⟨reply, live, rfl, hvalid⟩ := hcreated.calls_of_succeeded hsucceeded
      exact ⟨true, [⟨.deleteIndex o.index, .ok ()⟩], reply, live, rfl, hvalid⟩
  | absent hcreated =>
    obtain ⟨reply, live, rfl, hvalid⟩ := hcreated.calls_of_succeeded hsucceeded
    exact ⟨false, [], reply, live, rfl, hvalid⟩

end IndexOutcome

namespace Provisioning

open IndexOutcome
open MemoryEngine (AgreeOn)

variable {s : IndexSettings} {m : MemoryEngine}

/-- The index for a kind of document is served, with mappings that pass the comparison. -/
structure Ready (m : MemoryEngine) (s : IndexSettings) (e : Entity) : Prop where
  serves : m.Serves (s.indexName e) (m.reported (s.indexName e) e)
  valid : (e.verify (m.reported (s.indexName e) e)).isValid = true

theorem Ready.of_agreeOn {m' : MemoryEngine} {e : Entity}
    (hagree : AgreeOn (s.indexName e) m m') (h : Ready m s e) :
    Ready m' s e := by
  have hreported : m'.reported (s.indexName e) e = m.reported (s.indexName e) e := by
    unfold MemoryEngine.reported
    rw [hagree.live]
  constructor
  · rw [hreported]
    exact h.serves.of_agreeOn hagree
  · rw [hreported]
    exact h.valid

/-- An index that was prepared with success is ready. -/
theorem provisionIndex_ready {e : Entity}
    (h : (provisionIndex MemoryEngine.backend s e m).1.succeeded = true) :
    Ready (provisionIndex MemoryEngine.backend s e m).2 s e := by
  obtain ⟨calls, outcome, after, hrun⟩ := (provisionIndex_asks s e).runs MemoryEngine.backend m
  have hprepared : (initial s e).Prepared calls outcome :=
    hrun.of_logs (provisionIndex_logs MemoryEngine.backend s e)
  rw [hrun.plain] at h ⊢
  obtain ⟨present, before, reply, live, rfl, hvalid⟩ := hprepared.calls_of_succeeded h
  obtain ⟨hserves, rfl⟩ := MemoryEngine.serves_of_creation hrun.leads
  exact ⟨hserves, hvalid⟩

theorem missingIndices_of_serves {es : List Entity} {live : Entity → Json}
    (h : ∀ e ∈ es, m.Serves (s.indexName e) (live e)) :
    missingIndices MemoryEngine.backend s es m = (.ok [], m) := by
  induction es with
  | nil => rfl
  | cons e es ih =>
    obtain ⟨he, hrest⟩ := List.forall_mem_cons.mp h
    have hanswer : MemoryEngine.backend (.indexExists (s.indexName e)) m = (.ok true, m) :=
      Prod.ext he.present (MemoryEngine.backend_of_isRead rfl m)
    simp only [missingIndices, bind, StateT.bind, Backend.ask, hanswer, ih hrest]
    rfl

theorem inspectMappings_of_serves {es : List Entity} {live : Entity → Json}
    (h : ∀ e ∈ es, m.Serves (s.indexName e) (live e)) :
    inspectMappings MemoryEngine.backend s es m =
      (.ok (es.map fun e => ⟨e, s.indexName e, live e, e.verify (live e)⟩), m) := by
  induction es with
  | nil => rfl
  | cons e es ih =>
    obtain ⟨he, hrest⟩ := List.forall_mem_cons.mp h
    have hanswer : MemoryEngine.backend (.getMapping (s.indexName e)) m = (.ok (live e), m) :=
      Prod.ext he.mappings (MemoryEngine.backend_of_isRead rfl m)
    simp only [inspectMappings, bind, StateT.bind, Backend.ask, hanswer, ih hrest]
    rfl

/-- The inspection gave the mappings of all indices, and each of them passes the comparison. -/
structure Usable (s : IndexSettings) (mappings : List IndexMapping) : Prop where
  indices : (mappings.map fun i => (i.entity, i.index)) =
    Entity.all.map fun e => (e, s.indexName e)
  compared : ∀ i ∈ mappings, i.verification = i.entity.verify i.mappings
  valid : ∀ i ∈ mappings, i.verification.isValid = true

/-- Where the indices of all kinds are served the inspection compares what is reported of them. -/
theorem inspect_usable_iff {live : Entity → Json} (h : ∀ e, m.Serves (s.indexName e) (live e)) :
    (∃ mappings, inspect MemoryEngine.backend s m = (.ok mappings, m) ∧ Usable s mappings) ↔
      ∀ e : Entity, (e.verify (live e)).isValid = true := by
  have hinspect : inspect MemoryEngine.backend s m =
      (.ok (Entity.all.map fun e => ⟨e, s.indexName e, live e, e.verify (live e)⟩), m) := by
    unfold inspect
    simp only [bind, StateT.bind, missingIndices_of_serves fun e _ => h e]
    exact inspectMappings_of_serves fun e _ => h e
  constructor
  · rintro ⟨mappings, hrun, husable⟩ e
    obtain ⟨hmappings, -⟩ := Prod.mk.inj (hinspect.symm.trans hrun)
    obtain rfl := Except.ok.inj hmappings
    have hmem : e ∈ Entity.all := by cases e <;> decide
    exact husable.valid _ (List.mem_map_of_mem hmem)
  · intro hvalid
    refine ⟨_, hinspect, by simp, ?_, ?_⟩
    · intro i hi
      obtain ⟨e, -, rfl⟩ := List.mem_map.mp hi
      rfl
    · intro i hi
      obtain ⟨e, -, rfl⟩ := List.mem_map.mp hi
      exact hvalid e

theorem liveMappings_provisionIndex (e : Entity) (m : MemoryEngine) :
    (provisionIndex MemoryEngine.backend s e m).2.liveMappings = m.liveMappings := by
  have hkeeps : Keeps (fun m' => m'.liveMappings = m.liveMappings)
      (provisionIndex MemoryEngine.backend s e) := by
    refine (provisionIndex_asks s e).keeps ?_
    intro c _ m' hm'
    exact (MemoryEngine.liveMappings_backend c m').trans hm'
  exact hkeeps m rfl

/-- A provisioning that reports success has prepared both indices with success. -/
theorem provision_of_success {report : ProvisionReport}
    (hrun : (provision MemoryEngine.backend s m).1 = .ok report) (hsuccess : report.success = true) :
    let first := provisionIndex MemoryEngine.backend s .conversation m
    let second := provisionIndex MemoryEngine.backend s .message first.2
    first.1.succeeded = true ∧ second.1.succeeded = true ∧
      (provision MemoryEngine.backend s m).2 = second.2 := by
  cases hhealth : (MemoryEngine.backend .health m).1 with
  | error f =>
    rw [provision_unhealthy hhealth] at hrun
    contradiction
  | ok reply =>
    have hprovision := provision_healthy (s := s) hhealth
    rw [MemoryEngine.backend_of_isRead rfl m] at hprovision
    rw [hprovision] at hrun ⊢
    obtain rfl := Except.ok.inj hrun
    simp only [ProvisionReport.ofOutcomes, List.all_cons, List.all_nil, Bool.and_true,
      Bool.and_eq_true] at hsuccess
    exact ⟨hsuccess.1, hsuccess.2, rfl⟩

/-- The declaration for messages lacks fields of conversations. -/
theorem conversation_verify_messages :
    (Entity.conversation.verify (Schema.mappings Entity.message.fields)).isValid = false := by
  decide

theorem usable_of_ready (h : ∀ e, Ready m s e) :
    ∃ mappings, inspect MemoryEngine.backend s m = (.ok mappings, m) ∧ Usable s mappings :=
  (inspect_usable_iff fun e => (h e).serves).mpr fun e => (h e).valid

/-- An index that both kinds share has the declaration for messages, which were prepared last. The
comparison for conversations then depends on the engine reporting something else. -/
theorem shared_usable_iff {m₁ m₂ : MemoryEngine} (hnames : s.conversationsIndex = s.messagesIndex)
    (hlive : m₂.liveMappings = m₁.liveMappings) (hfirst : Ready m₁ s .conversation)
    (hsecond : Ready m₂ s .message) :
    (∃ mappings, inspect MemoryEngine.backend s m₂ = (.ok mappings, m₂) ∧ Usable s mappings) ↔
      ∃ live, m₂.liveMappings.lookup s.messagesIndex = some live := by
  have hserves : ∀ e, m₂.Serves (s.indexName e) (m₂.reported s.messagesIndex .message) := by
    have hmessages : m₂.Serves s.messagesIndex (m₂.reported s.messagesIndex .message) :=
      hsecond.serves
    intro e
    cases e with
    | conversation =>
      change m₂.Serves s.conversationsIndex _
      rw [hnames]
      exact hmessages
    | message => exact hmessages
  rw [inspect_usable_iff hserves]
  constructor
  · intro hvalid
    cases hlookup : m₂.liveMappings.lookup s.messagesIndex with
    | some live => exact ⟨live, rfl⟩
    | none =>
      have hconversations := hvalid .conversation
      simp only [MemoryEngine.reported, hlookup, Option.getD_none,
        conversation_verify_messages] at hconversations
      contradiction
  · rintro ⟨live, hlookup⟩ e
    -- the first comparison was made on what is reported in place of the mappings, too
    have hreported₁ : m₁.reported s.conversationsIndex .conversation = live := by
      simp only [MemoryEngine.reported, hnames, ← hlive, hlookup, Option.getD_some]
    have hreported₂ : m₂.reported s.messagesIndex .message = live := by
      simp only [MemoryEngine.reported, hlookup, Option.getD_some]
    cases e with
    | conversation =>
      rw [hreported₂, ← hreported₁]
      exact hfirst.valid
    | message => exact hsecond.valid

/-- After a provisioning that reports success both indices can be inspected and pass the comparison
exactly where each kind of documents has an index of its own, or the engine reports other mappings
in place of those of the index that they share. -/
theorem usable_after_success_iff {s : IndexSettings} {m : MemoryEngine} {report : ProvisionReport}
    (hrun : (provision MemoryEngine.backend s m).1 = .ok report) (hsuccess : report.success = true) :
    let after := (provision MemoryEngine.backend s m).2
    (∃ mappings, inspect MemoryEngine.backend s after = (.ok mappings, after) ∧
      Usable s mappings) ↔
      s.conversationsIndex ≠ s.messagesIndex ∨
        ∃ live, m.liveMappings.lookup s.messagesIndex = some live := by
  obtain ⟨hfirst, hsecond, hafter⟩ := provision_of_success hrun hsuccess
  have hready₁ := provisionIndex_ready hfirst
  have hready₂ := provisionIndex_ready hsecond
  rw [hafter]
  intro after
  by_cases hnames : s.conversationsIndex = s.messagesIndex
  · rw [shared_usable_iff hnames (liveMappings_provisionIndex _ _) hready₁ hready₂,
      liveMappings_provisionIndex, liveMappings_provisionIndex]
    simp [hnames]
  · -- the second preparation leaves the index of conversations as it was verified
    have hkept : Ready after s .conversation :=
      hready₁.of_agreeOn (provisionIndex_keeps (fun h => hnames h.symm) _)
    have hready : ∀ e, Ready after s e := by
      intro e
      cases e with
      | conversation => exact hkept
      | message => exact hready₂
    exact iff_of_true (usable_of_ready hready) (.inl hnames)

theorem default_indices_usable_after_setup :
    ∃ report mappings, (provision MemoryEngine.backend {} {}).1 = .ok report ∧
      report.success = true ∧
      (inspect MemoryEngine.backend {} (provision MemoryEngine.backend {} {}).2).1 = .ok mappings ∧
      Usable {} mappings := by
  obtain ⟨report, hrun, hsuccess⟩ :
      ∃ report, (provision MemoryEngine.backend {} {}).1 = .ok report ∧ report.success = true :=
    ⟨_, rfl, by decide⟩
  obtain ⟨mappings, hinspect, husable⟩ :=
    (usable_after_success_iff hrun hsuccess).mpr (.inl (by decide))
  exact ⟨report, mappings, hrun, hsuccess, congrArg Prod.fst hinspect, husable⟩

/-- Settings may give both kinds of documents one index. The provisioning of an empty engine then
reports success, and the inspection that follows finds that the index is not one for
conversations. -/
theorem shared_index_not_usable_after_setup :
    let s : IndexSettings := { conversationsIndex := "documents", messagesIndex := "documents" }
    IndexSettings.decoder.ofJson (.object
      [("conversations_index", .string "documents"), ("messages_index", .string "documents")]) =
        .ok s ∧
      ∃ report mapping others, (provision MemoryEngine.backend s {}).1 = .ok report ∧
        report.success = true ∧
        (inspect MemoryEngine.backend s (provision MemoryEngine.backend s {}).2).1 =
          .ok (mapping :: others) ∧
        mapping.entity = .conversation ∧ mapping.verification.isValid = false :=
  ⟨rfl, _, _, _, rfl, by decide, rfl, rfl, by decide⟩

end Provisioning
end ConversationSearch
