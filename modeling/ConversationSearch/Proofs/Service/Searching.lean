import ConversationSearch.Engine.Memory
import ConversationSearch.Proofs.Hits.Projection
import ConversationSearch.Proofs.Search.Rendering
import ConversationSearch.Proofs.Service.Writing

/-!
# Running searches

Where the settings ask for it a search begins with a ping, and without an answer it ends there.
Otherwise it is one call on the index for the kind of documents that are looked for. `Searching` says
which calls a search makes and what it comes to. The response over HTTP depends on that alone, and
its status tells an engine that cannot be reached from everything else that can go wrong.
-/

namespace ConversationSearch

namespace Service

/-- The calls before a search that is run. -/
def gate (s : IndexSettings) : List Answered :=
  if s.preflightPing then [⟨.ping, true⟩] else []

/-- The settings ask for a ping, and the engine does not answer it. -/
def Barred (b : Backend σ) (s : IndexSettings) (st : σ) : Prop :=
  s.preflightPing = true ∧ (b .ping st).1 = false

/-- The call that runs a compiled search. -/
def searchCall (s : IndexSettings) (c : CompiledSearch) : Call :=
  .search (s.indexName c.target) c.body

/-- What the answer to that call comes to. -/
def pageOf (target : Entity) : Except SearchFailure EngineResponse →
    Except SearchFailure SearchResponse
  | .error f => .error (missingIndex f)
  | .ok raw => raw.normalize target

/-- The calls of a search, and what it comes to. -/
inductive Searching (s : IndexSettings) (c : CompiledSearch) :
    List Answered → Except SearchFailure SearchResponse → Prop
  | barred :
      s.preflightPing = true → Searching s c [⟨.ping, false⟩] (.error noAnswer)
  | run (answer : Except SearchFailure EngineResponse) :
      Searching s c (gate s ++ [⟨searchCall s c, answer⟩]) (pageOf c.target answer)

variable {s : IndexSettings} {q : Request} {c : CompiledSearch}

theorem runSearch_logs (b : Backend σ) :
    Logs (runSearch b.observed s c) fun calls result => Searching s c (gate s ++ calls) result := by
  apply Logs.ask_bind
  intro answer
  cases answer with
  | error f => exact .pure (.run (.error f))
  | ok raw => exact .pure (.run (.ok raw))

theorem search_logs (hcompile : compile s.enableHighlighting q = .ok c) (b : Backend σ) :
    Logs (search b.observed s q) (Searching s c) := by
  have hrun := runSearch_logs (s := s) (c := c) b
  unfold search compileAndSearch
  rw [hcompile]
  cases hping : s.preflightPing with
  | false =>
    simp only [gate, hping, Bool.false_eq_true, if_false, List.nil_append] at hrun
    exact hrun
  | true =>
    simp only [gate, hping, if_true] at hrun
    apply Logs.ask_bind
    intro answered
    cases answered with
    | false => exact .pure (.barred hping)
    | true => exact hrun

theorem compileAndSearch_asks (hcompile : compile s.enableHighlighting q = .ok c) :
    Asks (fun call => call = .ping ∨ call = searchCall s c) fun _ b => compileAndSearch b s q := by
  simp only [compileAndSearch, hcompile]
  apply Asks.ask (searchCall s c) (.inr rfl)
  intro answer
  cases answer with
  | error f => exact .pure (Except.error (missingIndex f))
  | ok raw => exact .pure (raw.normalize c.target)

theorem search_asks (hcompile : compile s.enableHighlighting q = .ok c) :
    Asks (fun call => call = .ping ∨ call = searchCall s c) fun _ b => search b s q := by
  unfold search
  cases s.preflightPing with
  | false => exact compileAndSearch_asks hcompile
  | true =>
    apply Asks.ask .ping (.inl rfl)
    intro answered
    cases answered with
    | false => exact .pure (Except.error noAnswer)
    | true => exact compileAndSearch_asks hcompile

/-- The state from which a search starts decides whether it is barred. -/
theorem Searching.barred_or_run {b : Backend σ} {st st' : σ} {calls : List Answered}
    {result : Except SearchFailure SearchResponse} (h : Searching s c calls result)
    (hleads : Leads b st calls st') :
    (Barred b s st ∧ calls = [⟨.ping, false⟩] ∧ result = .error noAnswer) ∨
      (¬Barred b s st ∧ ∃ answer, calls = gate s ++ [⟨searchCall s c, answer⟩] ∧
        result = pageOf c.target answer) := by
  cases h with
  | barred hping => exact .inl ⟨⟨hping, hleads.answer⟩, rfl, rfl⟩
  | run answer =>
    refine .inr ⟨?_, answer, rfl, rfl⟩
    rintro ⟨hping, hsilent⟩
    have hanswered : (b .ping st).1 = true := by
      simp only [gate, hping, if_true] at hleads
      exact hleads.answer
    rw [hsilent] at hanswered
    contradiction

/-! ## What the answer comes to -/

section Pages

variable {target : Entity} {answer : Except SearchFailure EngineResponse}

theorem exists_pageOf_iff :
    (∃ page, pageOf target answer = .ok page) ↔
      ∃ raw, answer = .ok raw ∧ ∀ hit ∈ raw.hits.hits, hit.Decodes target := by
  cases answer with
  | error f => simp [pageOf]
  | ok raw => simp [pageOf, EngineResponse.normalize, exists_normalize_iff, EngineHit.decodes_iff]

/-- A page shows the hits of the engine in their order, and its total is that of the engine. -/
theorem shows_of_pageOf {raw : EngineResponse} {page : SearchResponse}
    (hpage : pageOf target (.ok raw) = .ok page) :
    List.Forall₂ (fun hit record => hit.Shows target record) raw.hits.hits page.hits ∧
      raw.hits.Counts page.total := by
  obtain ⟨hrecords, htotal⟩ := normalize_eq_ok_iff.mp hpage
  simp only [EngineHit.toRecord_eq_ok_iff] at hrecords
  exact ⟨hrecords, htotal ▸ raw.hits.counts_totalCount⟩

/-- Hits that cannot be read are never a matter of the engine or of an index. -/
theorem malformed_of_normalize {raw : EngineResponse} {f : SearchFailure}
    (h : raw.normalize target = .error f) :
    ∃ id reason, f = .malformedHit id reason := by
  obtain ⟨before, hit, after, found, -, -, -, rfl⟩ := normalize_eq_error_iff.mp h
  exact ⟨_, _, rfl⟩

theorem pageOf_eq_indexUnavailable_iff {reason : String} :
    pageOf target answer = .error (.indexUnavailable reason) ↔
      answer = .error (.indexUnavailable reason) := by
  cases answer with
  | error f => cases f <;> simp [pageOf, missingIndex]
  | ok raw =>
    refine iff_of_false ?_ (by simp)
    intro h
    obtain ⟨id, detail, hf⟩ := malformed_of_normalize h
    contradiction

theorem pageOf_ne_indexNotFound {index : String} :
    pageOf target answer ≠ .error (.indexNotFound index) := by
  cases answer with
  | error f => cases f <;> simp [pageOf, missingIndex]
  | ok raw =>
    intro h
    obtain ⟨id, detail, hf⟩ := malformed_of_normalize h
    contradiction

end Pages

end Service

/-! ## Over HTTP -/

namespace Interface

open Service (Barred exists_pageOf_iff shows_of_pageOf pageOf_eq_indexUnavailable_iff
  pageOf_ne_indexNotFound)

variable {r : HttpRequest} {q : Request}

theorem search_of_decoded (hbody : decodeBody Request.decoder r = .ok q) (b : Backend σ)
    (s : IndexSettings) :
    search b s r = Service.search b s q >>= fun result => pure (.ofSearch result) := by
  simp only [search, hbody]
  congr 1
  funext result
  cases result <;> rfl

theorem respond_search (hmethod : r.method = "POST") (hroute : Route.ofPath? r.path = some .search)
    (hbody : decodeBody Request.decoder r = .ok q) (b : Backend σ) (s : IndexSettings) :
    respond b s r =
      Service.search b s q >>= fun result => pure (.ok (HttpResponse.ofSearch result)) := by
  rw [respond_post hmethod hroute rfl, answer, search_of_decoded hbody, bind_assoc]
  simp only [pure_bind]

end Interface
end ConversationSearch
