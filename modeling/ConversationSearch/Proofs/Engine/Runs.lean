import ConversationSearch.Engine.Call

/-!
# Runs on a backend

What is built on a backend is a computation on the backend's state. `Coupled` says of two
computations that they do the same as far as a relation between their states can tell, and `Keeps`
says of one that it preserves a property of its state. A backend that is observed also writes down
each call with its answer, and `Logs` relates what a computation has written down to its value.
`Runs` says of one run what it gives, which state it leaves and which calls it makes; the calls and
their answers `Leads` from the first state to the last.

`Asks` bounds the calls that an operation makes, whatever the backend. What holds of those calls is
carried through the operation by it.
-/

namespace ConversationSearch

/-- A call, and the answer that it was given. -/
structure Answered where
  call : Call
  answer : call.Answer

/-- The backend that also writes down the calls with their answers. -/
def Backend.observed (b : Backend σ) : Backend (σ × List Answered) := fun call state =>
  let (answer, inner) := b call state.1
  (answer, inner, state.2 ++ [⟨call, answer⟩])

/-- From related states the computations give the same value, and related states. -/
def Coupled (R : σ → τ → Prop) (x : StateM σ α) (y : StateM τ α) : Prop :=
  ∀ s t, R s t → (x s).1 = (y t).1 ∧ R (x s).2 (y t).2

namespace Coupled

variable {R : σ → τ → Prop}

theorem pure (a : α) :
    Coupled R (Pure.pure a) (Pure.pure a) :=
  fun _ _ hst => ⟨rfl, hst⟩

theorem bind {x : StateM σ α} {y : StateM τ α} {f : α → StateM σ β} {g : α → StateM τ β}
    (hxy : Coupled R x y) (hfg : ∀ a, Coupled R (f a) (g a)) :
    Coupled R (x >>= f) (y >>= g) := by
  intro s t hst
  obtain ⟨hvalue, hstate⟩ := hxy s t hst
  have hrest := hfg (x s).1 (x s).2 (y t).2 hstate
  change ((f (x s).1) (x s).2).1 = ((g (y t).1) (y t).2).1 ∧
    R ((f (x s).1) (x s).2).2 ((g (y t).1) (y t).2).2
  rw [← hvalue]
  exact hrest

end Coupled

/-- From states with the property the computation leads to states with the property. -/
def Keeps (P : σ → Prop) (x : StateM σ α) : Prop :=
  ∀ s, P s → P (x s).2

namespace Keeps

variable {P : σ → Prop}

theorem pure (a : α) :
    Keeps P (Pure.pure a) :=
  fun _ hs => hs

theorem bind {x : StateM σ α} {f : α → StateM σ β}
    (hx : Keeps P x) (hf : ∀ a, Keeps P (f a)) :
    Keeps P (x >>= f) :=
  fun s hs => hf (x s).1 (x s).2 (hx s hs)

/-- What a call keeps it keeps when the calls are written down. -/
theorem recorded {b : Backend σ} {call : Call} (h : Keeps P (b.ask call)) :
    Keeps (fun st => P st.1) (b.recorded.ask call) :=
  fun st hst => h st.1 hst

end Keeps

/-- Something to be done on any backend. -/
abbrev Operation (α : Type) :=
  (σ : Type) → Backend σ → StateM σ α

/-- The operation only makes calls with the property. -/
inductive Asks (P : Call → Prop) : Operation α → Prop
  | pure (a : α) : Asks P fun _ _ => Pure.pure a
  | ask (call : Call) (hcall : P call) {f : call.Answer → Operation α} :
      (∀ answer, Asks P (f answer)) →
      Asks P fun σ b => b.ask call >>= fun answer => f answer σ b

namespace Asks

variable {P : Call → Prop} {x : Operation α}

theorem mono {Q : Call → Prop} (hx : Asks P x) (hPQ : ∀ c, P c → Q c) :
    Asks Q x := by
  induction hx with
  | pure a => exact .pure a
  | ask call hcall _ ih => exact .ask call (hPQ call hcall) ih

theorem bind {f : α → Operation β} (hx : Asks P x) (hf : ∀ a, Asks P (f a)) :
    Asks P fun σ b => x σ b >>= fun a => f a σ b := by
  induction hx with
  | pure a => simpa only [pure_bind] using hf a
  | ask call hcall _ ih =>
    simp only [bind_assoc]
    exact .ask call hcall ih

/-- Two backends on which the calls are coupled couple the operation. -/
theorem coupled {R : σ → τ → Prop} {b₁ : Backend σ} {b₂ : Backend τ} (hx : Asks P x)
    (hcalls : ∀ c, P c → Coupled R (b₁.ask c) (b₂.ask c)) :
    Coupled R (x σ b₁) (x τ b₂) := by
  induction hx with
  | pure a => exact .pure a
  | ask call hcall _ ih => exact (hcalls call hcall).bind ih

/-- What the calls keep the operation keeps. -/
theorem keeps {Q : σ → Prop} {b : Backend σ} (hx : Asks P x)
    (hcalls : ∀ c, P c → Keeps Q (b.ask c)) :
    Keeps Q (x σ b) := by
  induction hx with
  | pure a => exact .pure a
  | ask call hcall _ ih => exact (hcalls call hcall).bind ih

/-- Observing an operation changes neither its value nor what it does. -/
theorem observed (hx : Asks P x) (b : Backend σ) (st : σ) (log : List Answered) :
    (x σ b st).1 = (x _ b.observed (st, log)).1 ∧
      (x σ b st).2 = (x _ b.observed (st, log)).2.1 := by
  have hcalls : ∀ c, P c →
      Coupled (fun st observed => st = observed.1) (b.ask c) (b.observed.ask c) := by
    rintro c - st ⟨inner, log⟩ rfl
    exact ⟨rfl, rfl⟩
  exact hx.coupled hcalls st (st, log) rfl

end Asks

/-- From every state, the calls that are written down and the value have a relation. -/
def Logs (x : StateM (σ × List Answered) α) (P : List Answered → α → Prop) : Prop :=
  ∀ st log, ∃ a st' calls, x (st, log) = (a, st', log ++ calls) ∧ P calls a

namespace Logs

theorem pure {P : List Answered → α → Prop} {a : α} (ha : P [] a) :
    Logs (σ := σ) (Pure.pure a) P :=
  fun st log => ⟨a, st, [], by rw [List.append_nil]; rfl, ha⟩

theorem mono {x : StateM (σ × List Answered) α} {P Q : List Answered → α → Prop}
    (hx : Logs x P) (hPQ : ∀ calls a, P calls a → Q calls a) :
    Logs x Q := by
  intro st log
  obtain ⟨a, st', calls, hrun, ha⟩ := hx st log
  exact ⟨a, st', calls, hrun, hPQ calls a ha⟩

theorem bind {x : StateM (σ × List Answered) α} {f : α → StateM (σ × List Answered) β}
    {P : List Answered → α → Prop} {Q : List Answered → β → Prop} (hx : Logs x P)
    (hf : ∀ calls a, P calls a → Logs (f a) fun more b => Q (calls ++ more) b) :
    Logs (x >>= f) Q := by
  intro st log
  obtain ⟨a, st₁, calls, hrun, ha⟩ := hx st log
  obtain ⟨b, st₂, more, hrest, hb⟩ := hf calls a ha st₁ (log ++ calls)
  refine ⟨b, st₂, calls ++ more, ?_, hb⟩
  change f (x (st, log)).1 (x (st, log)).2 = _
  rw [hrun, hrest, List.append_assoc]

/-- What is made of a value makes no calls. -/
theorem bind_pure {x : StateM (σ × List Answered) α} {f : α → StateM (σ × List Answered) β}
    {P : List Answered → α → Prop} {Q : List Answered → β → Prop} (hx : Logs x P)
    (hf : ∀ calls a, P calls a → ∃ b, f a = Pure.pure b ∧ Q calls b) :
    Logs (x >>= f) Q := by
  apply hx.bind
  intro calls a ha
  obtain ⟨b, hb, hQ⟩ := hf calls a ha
  rw [hb]
  apply Logs.pure
  rwa [List.append_nil]

/-- A call to an observed backend is the first that is written down. -/
theorem ask_bind {b : Backend σ} {call : Call}
    {f : call.Answer → StateM (σ × List Answered) β} {Q : List Answered → β → Prop}
    (hf : ∀ answer, Logs (f answer) fun more b => Q (⟨call, answer⟩ :: more) b) :
    Logs (b.observed.ask call >>= f) Q := by
  have hask : Logs (b.observed.ask call) fun calls answer => calls = [⟨call, answer⟩] :=
    fun st log => ⟨(b call st).1, (b call st).2, [⟨call, (b call st).1⟩], rfl, rfl⟩
  apply hask.bind
  rintro calls answer rfl
  exact hf answer

end Logs

/-- The calls that an operation makes have the property that bounds them. -/
theorem Asks.logs {P : Call → Prop} {x : Operation α} (hx : Asks P x) (b : Backend σ) :
    Logs (x _ b.observed) fun calls _ => ∀ a ∈ calls, P a.call := by
  induction hx with
  | pure a => exact .pure (by simp)
  | ask call hcall _ ih =>
    apply Logs.ask_bind
    intro answer
    exact (ih answer).mono fun _ _ hrest => List.forall_mem_cons.mpr ⟨hcall, hrest⟩

/-- The calls, with the answers that they are given, lead from one state to another. -/
inductive Leads (b : Backend σ) : σ → List Answered → σ → Prop
  | nil (st : σ) : Leads b st [] st
  | cons {st st₁ st₂ : σ} {call : Call} {answer : call.Answer} {rest : List Answered} :
      b call st = (answer, st₁) → Leads b st₁ rest st₂ → Leads b st (⟨call, answer⟩ :: rest) st₂

namespace Leads

variable {b : Backend σ} {st st₁ st₂ : σ} {calls more : List Answered}

theorem append (h : Leads b st calls st₁) (h' : Leads b st₁ more st₂) :
    Leads b st (calls ++ more) st₂ := by
  induction h with
  | nil st => exact h'
  | cons hcall _ ih => exact .cons hcall (ih h')

theorem of_append (h : Leads b st (calls ++ more) st₂) :
    ∃ st₁, Leads b st calls st₁ ∧ Leads b st₁ more st₂ := by
  induction calls generalizing st with
  | nil => exact ⟨st, .nil st, h⟩
  | cons answered calls ih =>
    cases h with
    | cons hcall hrest =>
      obtain ⟨st₁, hcalls, hmore⟩ := ih hrest
      exact ⟨st₁, .cons hcall hcalls, hmore⟩

/-- The first call is answered from the first state. -/
theorem answer {call : Call} {answer : call.Answer}
    (h : Leads b st (⟨call, answer⟩ :: calls) st₁) :
    (b call st).1 = answer := by
  cases h with
  | cons hcall _ => rw [hcall]

theorem eq_of_nil (h : Leads b st [] st₁) :
    st₁ = st := by
  cases h
  rfl

/-- What each of the calls keeps is kept. -/
theorem keeps {P : σ → Prop} (h : Leads b st calls st₁)
    (hcalls : ∀ a ∈ calls, ∀ st, P st → P (b a.call st).2) (hst : P st) :
    P st₁ := by
  induction h with
  | nil st => exact hst
  | @cons st st₁ st₂ call answer rest hcall _ ih =>
    obtain ⟨hfirst, hrest⟩ := List.forall_mem_cons.mp hcalls
    have hnext := hfirst st hst
    rw [hcall] at hnext
    exact ih hrest hnext

end Leads

/-- From a state the operation makes the given calls, gives the value and leaves the other state. -/
structure Runs (x : Operation α) (b : Backend σ) (st : σ) (calls : List Answered) (a : α)
    (st' : σ) : Prop where
  plain : x σ b st = (a, st')
  observed : ∀ log, x _ b.observed (st, log) = (a, st', log ++ calls)
  leads : Leads b st calls st'

namespace Runs

variable {b : Backend σ} {st st₁ st₂ : σ} {calls more : List Answered}

theorem pure (a : α) :
    Runs (fun _ _ => Pure.pure a) b st [] a st where
  plain := rfl
  observed := fun log => by rw [List.append_nil]; rfl
  leads := .nil st

theorem bind {x : Operation α} {f : α → Operation β} {a : α} {c : β}
    (hx : Runs x b st calls a st₁) (hf : Runs (f a) b st₁ more c st₂) :
    Runs (fun σ b => x σ b >>= fun a => f a σ b) b st (calls ++ more) c st₂ := by
  refine ⟨?_, ?_, hx.leads.append hf.leads⟩
  · change f (x σ b st).1 σ b (x σ b st).2 = _
    rw [hx.plain]
    exact hf.plain
  · intro log
    change f (x _ b.observed (st, log)).1 _ b.observed (x _ b.observed (st, log)).2 = _
    rw [hx.observed]
    exact (hf.observed (log ++ calls)).trans (by rw [List.append_assoc])

theorem map {x : Operation α} {a : α} (hx : Runs x b st calls a st₁) (f : α → β) :
    Runs (fun σ b => x σ b >>= fun a => Pure.pure (f a)) b st calls (f a) st₁ := by
  have hboth := hx.bind (f := fun a _ _ => Pure.pure (f a)) (.pure (f a))
  rwa [List.append_nil] at hboth

theorem ask {call : Call} {answer : call.Answer} (hanswer : b call st = (answer, st₁)) :
    Runs (fun _ b => b.ask call) b st [⟨call, answer⟩] answer st₁ := by
  refine ⟨hanswer, fun log => ?_, .cons hanswer (.nil st₁)⟩
  change ((b call st).1, (b call st).2, log ++ [⟨call, (b call st).1⟩]) = _
  rw [hanswer]

/-- Whatever the logs of an operation have in common holds of the calls of a run. -/
theorem of_logs {x : Operation α} {P : List Answered → α → Prop} {a : α}
    (hx : Runs x b st calls a st₁) (hlogs : Logs (x _ b.observed) P) :
    P calls a := by
  obtain ⟨a', st', calls', hrun, hP⟩ := hlogs st []
  rw [hx.observed [], List.nil_append, List.nil_append] at hrun
  obtain ⟨rfl, hrest⟩ := Prod.mk.inj hrun
  obtain ⟨-, rfl⟩ := Prod.mk.inj hrest
  exact hP

end Runs

/-- An operation that makes calls runs, from every state. -/
theorem Asks.runs {P : Call → Prop} {x : Operation α} (hx : Asks P x) (b : Backend σ) (st : σ) :
    ∃ calls a st', Runs x b st calls a st' := by
  induction hx generalizing st with
  | pure a => exact ⟨[], a, st, .pure a⟩
  | ask call _ _ ih =>
    obtain ⟨calls, a, st', hrest⟩ := ih (b call st).1 (b call st).2
    exact ⟨_, a, st', (Runs.ask rfl).bind hrest⟩

end ConversationSearch
