import ConversationSearch.Proofs.Engine.Stored
import ConversationSearch.Proofs.Session.Calls

/-!
# The store over a session

What is stored in the course of a session comes from documents that were submitted in it. The
invariant is `Session.Stored`: there are no indices but those of the settings, and in each of them
every document encodes a valid one of its kind, submitted by one of the steps so far, under the id
of it. Each step keeps it, however far the step gets before a call fails, and so does a session,
whatever the engine is told to do in between.

Ids disappear in provisioning only.
-/

namespace ConversationSearch

/-- The step does not replace the indices of the engine. -/
def SessionStep.KeepsIndices : SessionStep → Prop
  | .change c => c.indices = none
  | _ => True

namespace SessionStep.MayCall

variable {s : IndexSettings} {step : SessionStep} {c : Call} {name : String}

theorem index_of_write (h : step.MayCall s c) (hread : Client.isRead c = false) :
    ∃ e, c.index? = some (s.indexName e) := by
  cases h with
  | read hlooks =>
    rw [hlooks] at hread
    contradiction
  | @write e d entries _ _ => exact ⟨e, rfl⟩
  | create e body _ => exact ⟨e, rfl⟩
  | delete e _ => exact ⟨e, rfl⟩

theorem submits_of_bulkIndex {entries : List BulkDocument}
    (h : step.MayCall s (.bulkIndex name entries)) :
    ∃ e d, name = s.indexName e ∧ step.Submits d ∧ ∀ x ∈ entries, d.Encodes e x.id x.document := by
  cases h with
  | read hlooks => contradiction
  | @write e d _ hsubmits hentries => exact ⟨e, d, rfl, hsubmits, hentries⟩

theorem provisions_of_deleteIndex (h : step.MayCall s (.deleteIndex name)) :
    step.Provisions := by
  cases h with
  | read hlooks => contradiction
  | delete e hprovisions => exact hprovisions

end SessionStep.MayCall

namespace Session

open IndexSettings (conversationsIndex messagesIndex)
open MemoryEngine (effect_backend)

variable {s : IndexSettings} {step : SessionStep} {steps : List SessionStep} {m m' : MemoryEngine}

/-- The store holds valid documents that the steps have submitted, and nothing else. -/
structure Stored (s : IndexSettings) (steps : List SessionStep) (m : MemoryEngine) : Prop where
  names : ∀ name, (m.index? name).isSome → ∃ e, name = s.indexName e
  documents : ∀ e id document, m.Holds (s.indexName e) id document →
    ∃ step ∈ steps, ∃ d, step.Submits d ∧ d.Encodes e id document

/-! ## Steps -/

/-- What is a matter of the indices and is kept by all calls of a step is kept by the step. -/
theorem take_keeps {P : MemoryEngine → Prop} (hstep : step.KeepsIndices)
    (hindices : ∀ m m' : MemoryEngine, m'.indices = m.indices → P m → P m')
    (hcalls : ∀ c, step.MayCall s c → Keeps P (MemoryEngine.backend.ask c)) (hm : P m) :
    P (take s step m).2.2 := by
  have hrun : Keeps (fun st => P st.1) (takeOn MemoryEngine.backend.recorded s step) :=
    (takeOn_asks s step).keeps fun c hc => (hcalls c hc).recorded
  cases step with
  | change c =>
    have hsame : (c.apply m).indices = m.indices := by
      change c.indices.getD m.indices = m.indices
      rw [show c.indices = none from hstep]
      rfl
    exact hindices m _ hsame hm
  | _ => exact hrun (m, []) hm

namespace Stored

theorem of_empty (hempty : m.indices = []) : Stored s [] m := by
  have hnone : ∀ name, m.index? name = none := by
    intro name
    unfold MemoryEngine.index?
    rw [hempty]
    rfl
  constructor
  · intro name hname
    rw [hnone] at hname
    contradiction
  · rintro e id document ⟨i, hi, -⟩
    rw [hnone] at hi
    contradiction

theorem mono {steps' : List SessionStep} (hsteps : ∀ step ∈ steps, step ∈ steps')
    (h : Stored s steps m) : Stored s steps' m where
  names := h.names
  documents := by
    intro e id document hholds
    obtain ⟨step, hstep, hsource⟩ := h.documents e id document hholds
    exact ⟨step, hsteps step hstep, hsource⟩

theorem of_indices (hindices : m'.indices = m.indices) (h : Stored s steps m) :
    Stored s steps m' := by
  constructor
  · intro name hname
    rw [MemoryEngine.index?_of_indices hindices] at hname
    exact h.names name hname
  · intro e id document hholds
    exact h.documents e id document (hholds.of_indices hindices.symm)

/-- A call that one of the steps may make keeps the invariant. -/
theorem call (hnames : s.conversationsIndex ≠ s.messagesIndex) {c : Call}
    (hstep : step ∈ steps) (hc : step.MayCall s c) :
    Keeps (Stored s steps) (MemoryEngine.backend.ask c) := by
  intro m h
  have heffect := effect_backend c m
  constructor
  · intro name hname
    rcases heffect.index_of_isSome hname with hbefore | ⟨hindex, hread⟩
    · exact h.names name hbefore
    · obtain ⟨e, he⟩ := hc.index_of_write hread
      exact ⟨e, Option.some.inj (hindex.symm.trans he)⟩
  · intro e id document hholds
    rcases heffect.holds hholds with hbefore | ⟨entries, rfl, hentry⟩
    · exact h.documents e id document hbefore
    · obtain ⟨e', d, hname, hsubmits, hentries⟩ := hc.submits_of_bulkIndex
      -- the index that is written tells the kind of its documents, the two names being different
      by_cases he : e = e'
      · subst he
        exact ⟨step, hstep, d, hsubmits, hentries _ hentry⟩
      · exact absurd hname (IndexSettings.indexName_ne hnames he)

theorem take (hnames : s.conversationsIndex ≠ s.messagesIndex) (hstep : step.KeepsIndices)
    (h : Stored s steps m) :
    Stored s (steps ++ [step]) (take s step m).2.2 := by
  have hbefore : Stored s (steps ++ [step]) m := h.mono fun _ => List.mem_append_left [step]
  have hmem : step ∈ steps ++ [step] := List.mem_append_right steps List.mem_cons_self
  exact take_keeps hstep (fun m m' => of_indices) (fun c hc => call hnames hmem hc) hbefore

theorem run (hnames : s.conversationsIndex ≠ s.messagesIndex)
    (hsteps : ∀ step ∈ steps, step.KeepsIndices) {before : List SessionStep}
    (h : Stored s before m) :
    Stored s (before ++ steps) (run s steps m) := by
  -- a document may come from any step so far, so the induction carries those already taken
  induction steps generalizing before m with
  | nil =>
    rw [List.append_nil]
    exact h
  | cons step steps ih =>
    obtain ⟨hstep, hrest⟩ := List.forall_mem_cons.mp hsteps
    have hnext := ih hrest (h.take hnames hstep)
    rw [List.append_assoc] at hnext
    exact hnext

end Stored

/-- A step that does not prepare the indices loses no id. -/
theorem take_holdsId {name id : String} (hstep : step.KeepsIndices) (hkeeps : ¬step.Provisions)
    (hid : m.HoldsId name id) :
    (take s step m).2.2.HoldsId name id := by
  have hindices : ∀ m m' : MemoryEngine, m'.indices = m.indices → m.HoldsId name id →
      m'.HoldsId name id := by
    rintro m m' hsame ⟨document, hholds⟩
    exact ⟨document, hholds.of_indices hsame⟩
  refine take_keeps hstep hindices ?_ hid
  intro c hc m hm
  refine (effect_backend c m).holdsId ?_ hm
  -- only a deletion loses ids, and this step may not make one
  rintro rfl
  exact hkeeps hc.provisions_of_deleteIndex

/-! ## Sessions -/

theorem run_snoc (s : IndexSettings) (before : List SessionStep) (step : SessionStep)
    (m : MemoryEngine) :
    run s (before ++ [step]) m = (take s step (run s before m)).2.2 := by
  simp [run]

/-- In a session from an empty store, with an index for each kind of documents, no other indices
come to exist, and every stored document is the encoding of a valid one of its kind that a step
submitted, under its id. A step after which a stored id is gone is one that prepares the indices. -/
theorem store_over_session {s : IndexSettings} {steps : List SessionStep} {m : MemoryEngine}
    (hnames : s.conversationsIndex ≠ s.messagesIndex) (hempty : m.indices = [])
    (hsteps : ∀ step ∈ steps, step.KeepsIndices) :
    Stored s steps (run s steps m) ∧
      ∀ before step after, steps = before ++ step :: after → ∀ name id,
        (run s before m).HoldsId name id → ¬(run s (before ++ [step]) m).HoldsId name id →
        step.Provisions := by
  constructor
  · exact (Stored.of_empty hempty).run hnames hsteps
  · intro before step after hsplit name id hheld hgone
    have hstep : step.KeepsIndices := hsteps step (by simp [hsplit])
    rw [run_snoc] at hgone
    by_cases hprovisions : step.Provisions
    · exact hprovisions
    · exact absurd (take_holdsId hstep hprovisions hheld) hgone

def greeting : Message where
  id := "9"
  conversationId := "2"
  username := "emma"
  handle := "emma789"
  text := "hello"
  date := (Time.Instant.ofEpochMillis? 1705482000000).get (by decide)
  mentions := .empty
  attachment := none
  pinned := false

/-- A message that was written is stored until the indices are prepared anew. -/
theorem greeting_stored_until_setup :
    let write : SessionStep := .index { messages := [greeting] }
    let steps := [write, .change { unreachable := some true }, .change { unreachable := some false },
      .provision]
    (∀ step ∈ steps, step.KeepsIndices) ∧
      (run {} (steps.take 3) {}).Holds "messages" "9" greeting.toJson ∧
      ¬(run {} steps {}).HoldsId "messages" "9" ∧
      Stored {} (steps.take 3) (run {} (steps.take 3) {}) ∧ SessionStep.provision.Provisions := by
  intro write steps
  have hkeeps : ∀ step ∈ steps, step.KeepsIndices := by
    simp [steps, write, SessionStep.KeepsIndices]
  have hheld : (run {} (steps.take 3) {}).Holds "messages" "9" greeting.toJson :=
    ⟨_, rfl, List.mem_cons_self⟩
  have hgone : ¬(run {} steps {}).HoldsId "messages" "9" := by
    rintro ⟨document, i, hi, hstored⟩
    obtain rfl := Option.some.inj hi
    contradiction
  have hnames : conversationsIndex {} ≠ messagesIndex {} := by decide
  obtain ⟨hstored, -⟩ := store_over_session hnames (m := {}) rfl
    fun step hstep => hkeeps step (List.mem_of_mem_take hstep)
  obtain ⟨-, hlost⟩ := store_over_session hnames (m := {}) rfl hkeeps
  exact ⟨hkeeps, hheld, hgone, hstored, hlost (steps.take 3) .provision [] rfl "messages" "9"
    ⟨_, hheld⟩ hgone⟩

end Session
end ConversationSearch
