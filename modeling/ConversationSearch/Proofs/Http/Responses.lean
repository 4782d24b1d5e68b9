import ConversationSearch.Http.Interface

/-!
# What a response tells

Each status but 500 belongs to a single kind of failure, and the kinds for an engine that cannot be
reached and for something missing each come from a single failure of searches. So a status of 503 or
404 tells which failure it was. A route answers its own method by what it does.
-/

namespace ConversationSearch

namespace FailureKind

variable {k : FailureKind}

theorem status_ne_200 (k : FailureKind) :
    k.status ≠ 200 := by
  cases k <;> decide

theorem status_eq_503_iff :
    k.status = 503 ↔ k = .indexUnavailable := by
  cases k <;> decide

theorem status_eq_404_iff :
    k.status = 404 ↔ k = .notFound := by
  cases k <;> decide

end FailureKind

namespace ApiFailure

variable {f : SearchFailure}

theorem kind_ofSearch_eq_indexUnavailable_iff :
    (ofSearch f).kind = .indexUnavailable ↔ ∃ reason, f = .indexUnavailable reason := by
  cases f <;> simp [ofSearch]

theorem kind_ofSearch_eq_notFound_iff :
    (ofSearch f).kind = .notFound ↔ ∃ index, f = .indexNotFound index := by
  cases f <;> simp [ofSearch]

end ApiFailure

namespace HttpResponse

/-- The code of the failure that a response tells of. -/
def failureCode? (r : HttpResponse) : Option String :=
  ((r.body.bind (·.get? "error")).bind (·.get? "code")).bind Json.text?

@[simp]
theorem status_ofFailure (f : ApiFailure) :
    (ofFailure f).status = f.kind.status :=
  rfl

@[simp]
theorem failureCode?_ofFailure (f : ApiFailure) :
    (ofFailure f).failureCode? = some f.kind.code := by
  simp [ofFailure, json, failureCode?, ApiFailure.toJson, Json.get?, Json.text?]

/-- The response to what a search came to. -/
def ofSearch : Except SearchFailure SearchResponse → HttpResponse
  | .error f => .ofFailure (.ofSearch f)
  | .ok page => .json 200 page.toJson

variable {result : Except SearchFailure SearchResponse}

theorem status_ofSearch_eq_200_iff :
    (ofSearch result).status = 200 ↔ ∃ page, result = .ok page := by
  cases result with
  | error f => simp [ofSearch, FailureKind.status_ne_200]
  | ok page => simp [ofSearch, json]

theorem status_ofSearch_eq_503_iff :
    (ofSearch result).status = 503 ↔ ∃ reason, result = .error (.indexUnavailable reason) := by
  cases result with
  | error f =>
    simp [ofSearch, FailureKind.status_eq_503_iff, ApiFailure.kind_ofSearch_eq_indexUnavailable_iff]
  | ok page => simp [ofSearch, json]

theorem status_ofSearch_eq_404_iff :
    (ofSearch result).status = 404 ↔ ∃ index, result = .error (.indexNotFound index) := by
  cases result with
  | error f => simp [ofSearch, FailureKind.status_eq_404_iff, ApiFailure.kind_ofSearch_eq_notFound_iff]
  | ok page => simp [ofSearch, json]

end HttpResponse

namespace Interface

variable {r : HttpRequest} {route : Route}

/-- A route that does more than to look answers what is posted on it. -/
theorem respond_post (hmethod : r.method = "POST") (hroute : Route.ofPath? r.path = some route)
    (hwrites : route.isRead = false) (b : Backend σ) (s : IndexSettings) :
    respond b s r = answer b s r route := by
  simp [respond, answerMethod, hmethod, hroute, hwrites]

theorem respond_get (hmethod : r.method = "GET") (hroute : Route.ofPath? r.path = some route)
    (hread : route.isRead = true) (b : Backend σ) (s : IndexSettings) :
    respond b s r = answer b s r route := by
  simp [respond, answerMethod, hmethod, hroute, hread]

end Interface
end ConversationSearch
