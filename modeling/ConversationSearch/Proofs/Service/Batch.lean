import ConversationSearch.Engine.Memory
import ConversationSearch.Proofs.Documents.Validity
import ConversationSearch.Proofs.Service.Writing

/-!
# Batches of documents

A batch is validated as a whole before any of it is written. With a document that is not valid the
engine is not asked for anything. A valid batch is written by at most two calls, conversations
first, and messages only once the conversations are written.
-/

namespace ConversationSearch.Service

variable {s : IndexSettings} {d : Documents}

theorem indexDocuments_refused {stop : IndexingStop} (hcheck : check d = .error stop)
    (b : Backend σ) (st : σ) :
    Runs (fun _ b => indexDocuments b s d) b st [] (.error stop) st := by
  have hpure : ∀ (τ : Type) (b : Backend τ), indexDocuments b s d = pure (.error stop) := by
    intro τ b
    unfold indexDocuments
    rw [hcheck]
  simp only [hpure]
  exact .pure _

theorem indexDocuments_tried (hcheck : check d = .ok ()) (b : Backend σ) (st : σ) :
    ∃ calls result st', Writing s d calls result ∧
      Runs (fun _ b => indexDocuments b s d) b st calls (result.mapError .failure) st' := by
  obtain ⟨calls, a, st', hrun⟩ := (indexDocuments_asks s d).runs b st
  have hindexing : Indexing s d calls a := hrun.of_logs (indexDocuments_logs s d b)
  cases hindexing with
  | refused stop hstop =>
    rw [hcheck] at hstop
    contradiction
  | tried _ hwriting => exact ⟨calls, _, st', hwriting, hrun⟩

/-- A conversation whose owner is not among its two participants. -/
def orphan : Conversation where
  id := "9"
  username := "sarah"
  handle := "sarah123"
  lastMessage := "hi"
  date := ⟨1705482000, 0, by decide, by decide, by decide⟩
  participants := [⟨"john", "john456"⟩, ⟨"emma", "emma789"⟩]

end ConversationSearch.Service
