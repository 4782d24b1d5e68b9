import ConversationSearch.Proofs.Engine.Judged
import ConversationSearch.Proofs.Json.Depth

/-!
# Documents that were not written

The response to a bulk request has an item for each document, and an item whose result carries an
error is one of a document that was not written. If the response says of itself that it has errors
exactly when it has such an item, then documents count as written only when all of them are. Else
the first item with an error is told, however many items stand before it that have none or no result
at all.
-/

namespace ConversationSearch

namespace Bulk

/-! ## Items -/

/-- The items of a response; a response without a list of items has none. -/
def itemsOf (response : Json) : List Json :=
  ((response.get? "items").bind Json.items?).getD []

/-- The result of the item carries an error. -/
def Failed (item : Json) : Prop :=
  ∃ result error, item.get? "index" = some result ∧ result.get? "error" = some error

/-- The text under the key, or the other text where no text stands under it. -/
def TextOr (j : Json) (key other text : String) : Prop :=
  j.get? key = some (.string text) ∨ (∀ s, j.get? key ≠ some (.string s)) ∧ text = other

/-- What is told of an item with an error: the id of the document and the reason. -/
def Tells (item : Json) (told : String) : Prop :=
  ∃ result error id reason, item.get? "index" = some result ∧
    result.get? "error" = some error ∧ TextOr result "_id" "?" id ∧
    TextOr error "reason" "unknown reason" reason ∧ told = "document " ++ id ++ ": " ++ reason

/-- The response says that it has errors exactly when an item has one. -/
def SaysErrors (response : Json) : Prop :=
  response.get? "errors" = some (.bool true) ↔ ∃ item ∈ itemsOf response, Failed item

variable {item response : Json}

theorem reportsErrors_iff :
    reportsErrors response = true ↔ response.get? "errors" = some (.bool true) := by
  unfold reportsErrors
  cases response.get? "errors" with
  | none => simp
  | some j => cases j <;> simp [Json.bool?]

theorem textOr_getD (j : Json) (key other : String) :
    TextOr j key other (((j.get? key).bind Json.text?).getD other) := by
  unfold TextOr
  cases j.get? key with
  | none => simp
  | some value => cases value <;> simp [Json.text?]

theorem itemFailure?_of_failed (h : Failed item) :
    ∃ told, itemFailure? item = some told ∧ Tells item told := by
  obtain ⟨result, error, hresult, herror⟩ := h
  refine ⟨_, ?_, result, error, _, _, hresult, herror, textOr_getD result "_id" "?",
    textOr_getD error "reason" "unknown reason", rfl⟩
  simp [itemFailure?, hresult, herror]

theorem itemFailure?_eq_none_iff :
    itemFailure? item = none ↔ ¬Failed item := by
  constructor
  · intro hnone h
    obtain ⟨told, htold, -⟩ := itemFailure?_of_failed h
    rw [hnone] at htold
    contradiction
  · intro h
    cases hresult : item.get? "index" with
    | none => simp [itemFailure?, hresult]
    | some result =>
      cases herror : result.get? "error" with
      | none => simp [itemFailure?, hresult, herror]
      | some error => exact absurd ⟨result, error, hresult, herror⟩ h

theorem firstFailure?_eq (response : Json) :
    firstFailure? response = (itemsOf response).findSome? itemFailure? := by
  unfold firstFailure? itemsOf
  cases (response.get? "items").bind Json.items? <;> rfl

/-- The first item with an error is told; the items before it are passed over. -/
theorem firstFailure?_of_split {before after : List Json}
    (hitems : itemsOf response = before ++ item :: after)
    (hbefore : ∀ other ∈ before, ¬Failed other) (hfailed : Failed item) :
    ∃ told, Tells item told ∧ firstFailure? response = some told := by
  obtain ⟨told, hitem, htells⟩ := itemFailure?_of_failed hfailed
  refine ⟨told, htells, ?_⟩
  rw [firstFailure?_eq, List.findSome?_eq_some_iff]
  exact ⟨before, item, after, hitems, hitem, fun other h =>
    itemFailure?_eq_none_iff.mpr (hbefore other h)⟩

/-! ## Outcomes -/

/-- Documents count as written, all of them, after a success whose items have no errors. The first
item with an error is told, with the name of the index. The engine is unavailable where no answer
came, and after anything else the documents were not written. -/
structure Judged (index : String) (count : Nat) (reply : Reply)
    (answer : Except SearchFailure Nat) : Prop where
  ok_iff : ∀ n, answer = .ok n ↔
    n = count ∧ ∃ response, reply.Holds response ∧ ∀ item ∈ itemsOf response, ¬Failed item
  told : ∀ response before item after, reply.Holds response →
    itemsOf response = before ++ item :: after → (∀ other ∈ before, ¬Failed other) →
    Failed item →
      ∃ told, Tells item told ∧
        answer = .error (.indexing ("index '" ++ index ++ "': " ++ told))
  unavailable_iff : (∃ reason, answer = .error (.indexUnavailable reason)) ↔ reply.IsSilent
  indexing_iff : (∃ reason, answer = .error (.indexing reason)) ↔
    (¬∃ response, reply.Holds response ∧ ∀ item ∈ itemsOf response, ¬Failed item) ∧
    ¬reply.IsSilent

theorem outcome_of_clean {index : String} {count : Nat} (herrors : SaysErrors response)
    (hclean : ∀ item ∈ itemsOf response, ¬Failed item) :
    outcome index count response = .ok count := by
  have hreports : ¬reportsErrors response = true := by
    intro hreports
    obtain ⟨item, hitem, hfailed⟩ := herrors.mp (reportsErrors_iff.mp hreports)
    exact hclean item hitem hfailed
  rw [outcome, if_neg hreports]

theorem outcome_of_failed {index : String} {count : Nat} (herrors : SaysErrors response)
    (hfailed : ∃ item ∈ itemsOf response, Failed item) :
    outcome index count response = .error (.indexing ("index '" ++ index ++ "': " ++
      (firstFailure? response).getD "bulk request reported errors")) := by
  rw [outcome, if_pos (reportsErrors_iff.mpr (herrors.mpr hfailed))]

end Bulk

namespace Client

open Bulk

variable {c : Client} {index : String} {documents : List BulkDocument} {reply : Reply}
  {response : Json}

theorem answerOf_bulk_of_holds (hholds : reply.Holds response) :
    answerOf (.bulkIndex index documents) (bodyOf reply) =
      outcome index documents.length response := by
  obtain ⟨status, hstatus, hsuccess⟩ := hholds.succeeds
  obtain ⟨body, hbody⟩ := bodyOf_success hstatus hsuccess
  rcases valueOf_cases hbody with ⟨value, hvalue, hread⟩ | ⟨hnone, -⟩
  · obtain rfl := hholds.holds_iff.mp hvalue
    rw [hbody, answerOf, Except.bind, hread, Except.mapError, Except.bind]
  · exact absurd hholds (hnone response)

theorem holds_clean_iff (hholds : reply.Holds response) :
    (∃ other, reply.Holds other ∧ ∀ item ∈ itemsOf other, ¬Failed item) ↔
      ∀ item ∈ itemsOf response, ¬Failed item := by
  constructor
  · rintro ⟨other, hother, hclean⟩
    exact hother.holds_iff.mp hholds ▸ hclean
  · exact fun hclean => ⟨response, hholds, hclean⟩

/-- Of a response the first error is told, and nothing else keeps documents from being written. -/
theorem bulk_judged_of_holds (hholds : reply.Holds response) (herrors : SaysErrors response) :
    Judged index documents.length reply (answerOf (.bulkIndex index documents) (bodyOf reply)) := by
  have hclean := holds_clean_iff hholds
  have hsilent : ¬reply.IsSilent := fun h => h.not_holds response hholds
  rw [answerOf_bulk_of_holds hholds]
  by_cases hfailed : ∃ item ∈ itemsOf response, Failed item
  · have hnot : ¬∀ item ∈ itemsOf response, ¬Failed item := by
      obtain ⟨item, hmem, hitem⟩ := hfailed
      exact fun hall => hall item hmem hitem
    rw [outcome_of_failed herrors hfailed]
    refine ⟨by simp [hclean, hnot], ?_, by simp [hsilent], by simp [hclean, hnot, hsilent]⟩
    intro other before item after hother hitems hbefore hitem
    obtain rfl := hother.holds_iff.mp hholds
    obtain ⟨told, htells, htold⟩ := firstFailure?_of_split hitems hbefore hitem
    exact ⟨told, htells, by rw [htold, Option.getD_some]⟩
  · have hall : ∀ item ∈ itemsOf response, ¬Failed item :=
      fun item hmem hitem => hfailed ⟨item, hmem, hitem⟩
    rw [outcome_of_clean herrors hall]
    refine ⟨fun n => ?_, ?_, by simp [hsilent], ?_⟩
    · rw [hclean]
      exact ⟨fun h => ⟨(Except.ok.inj h).symm, hall⟩, fun h => congrArg Except.ok h.1.symm⟩
    · intro other before item after hother hitems _ hitem
      obtain rfl := hother.holds_iff.mp hholds
      exact absurd hitem (hall item (by simp [hitems]))
    · rw [hclean]
      exact ⟨by simp, fun h => absurd hall h.1⟩

/-- A failure to write is what an answer that is no response comes to. -/
theorem judged_of_indexing {reason : String} (hreply : ¬reply.IsSilent)
    (hholds : ∀ response, ¬reply.Holds response) :
    Judged index documents.length reply (.error (.indexing reason)) := by
  constructor <;> simp [hreply, hholds]

/-- Without a response nothing was written. -/
theorem bulk_judged_of_not_holds (hholds : ∀ response, ¬reply.Holds response) :
    Judged index documents.length reply (answerOf (.bulkIndex index documents) (bodyOf reply)) := by
  have hanswer : ∀ x, answerOf (.bulkIndex index documents) x =
      ((x.bind valueOf).mapError bulkFailure).bind (outcome index documents.length) := fun _ => rfl
  cases reply.kind with
  | success hstatus hsuccess hmissing hbusy =>
    obtain ⟨body, hbody⟩ := bodyOf_success hstatus hsuccess
    rcases valueOf_cases hbody with ⟨found, hfound, -⟩ | ⟨-, reason, hvalue⟩
    · exact absurd hfound (hholds found)
    · rw [hbody, hanswer, Except.bind, hvalue]
      exact judged_of_indexing hstatus.not_isSilent hholds
  | missing hstatus =>
    obtain ⟨text, hbody⟩ := bodyOf_refused hstatus Reply.isSuccess_missing
    rw [hbody, hanswer]
    exact judged_of_indexing hstatus.not_isSilent hholds
  | refused hstatus hsuccess hmissing =>
    obtain ⟨text, hbody⟩ := bodyOf_refused hstatus hsuccess
    rw [hbody, hanswer]
    exact judged_of_indexing hstatus.not_isSilent hholds
  | silent hsilent =>
    obtain ⟨reason, hbody⟩ := bodyOf_silent hsilent
    have hfailure : answerOf (.bulkIndex index documents) (.error (.indexUnavailable reason)) =
        .error (.indexUnavailable reason) := rfl
    rw [hbody, hfailure]
    constructor <;> simp [hholds, hsilent]

/-- Whatever the script, a client sends documents once, and what becomes of them is read off the
reply: they count as written only if none of them failed, and else the first that did is told. All
that is asked of the reply is that a response says that it has errors exactly when an item has
one. -/
theorem bulk_judged_by_reply (hc : c.Usable) (s : Script) (hdocuments : documents ≠ [])
    (herrors : ∀ response, (s.replyAt 0).Holds response → SaysErrors response) (index : String) :
    ∃ answer r, c.perform Script.wire (.bulkIndex index documents) s = (answer, s.after 1 r []) ∧
      Judged index documents.length (s.replyAt 0) answer := by
  obtain ⟨r, hr⟩ := requestOf_eq_ok hc (.bulkIndex index documents)
  refine ⟨_, r, perform_of_not_isRead rfl (by simp [hdocuments]) hr s, ?_⟩
  rw [Reply.toMethod_eq_self (by rw [method_of_request hr]; decide)]
  by_cases hholds : ∃ response, (s.replyAt 0).Holds response
  · obtain ⟨response, hholds⟩ := hholds
    exact bulk_judged_of_holds hholds (herrors response hholds)
  · exact bulk_judged_of_not_holds fun response h => hholds ⟨response, h⟩

/-- Items of a response to four documents: one without a result, one without an error, and two with
an error that lack an id that is a text, or a reason. -/
def fourItems : List Json :=
  [.object [("create", .object [("error", .object [("reason", .string "no result")])])],
    .object [("index", .object [("_id", .string "b"), ("status", .nat 201)])],
    .object [("index",
      .object [("_id", .nat 3), ("error", .object [("reason", .string "failed to parse")])])],
    .object [("index", .object [("_id", .string "d"), ("error", .null)])]]

/-- Of four documents the third is told, by its reason alone. -/
theorem third_of_four_documents_told :
    let c : Client :=
      { baseUrl := "http://localhost:9200", credentials := none, compression := true,
        maxRetries := 2, retryBackoffMs := 100 }
    let documents : List BulkDocument := ["a", "b", "c", "d"].map fun id => ⟨id, .object []⟩
    let response : Json := .object [("errors", .bool true), ("items", .array fourItems)]
    let s : Script := { replies := [.answered 200 response.compact] }
    c.Usable ∧ documents ≠ [] ∧
      (∀ other, (s.replyAt 0).Holds other → other = response ∧ SaysErrors other) ∧
      (c.perform Script.wire (.bulkIndex "notes" documents) s).1 =
        .error (.indexing "index 'notes': document ?: failed to parse") := by
  intro c documents response s
  have husable : c.Usable := usable_of_isOk (by decide +kernel)
  have hdocuments : documents ≠ [] := by simp [documents]
  have hlegible : response.IsLegible 0 := by
    simp [response, fourItems, Json.IsLegible, Json.AreLegible, Json.HaveLegible, Json.nat,
      Json.Number.IsExact, Json.Numeral.maxSignificand, Json.Reading.maxDepth]
  have hordered : response.ordered = response := by decide +kernel
  have hholds : (s.replyAt 0).Holds response :=
    ⟨200, _, rfl, rfl, by rw [Json.parse_compact hlegible, hordered]⟩
  have hitems : itemsOf response =
      fourItems.take 2 ++ fourItems[2] :: fourItems.drop 3 := rfl
  have hbefore : ∀ other ∈ fourItems.take 2, ¬Failed other := by
    have hnone : ∀ other ∈ fourItems.take 2, itemFailure? other = none := by decide
    exact fun other h => itemFailure?_eq_none_iff.mp (hnone other h)
  have hthird : Failed fourItems[2] := ⟨_, _, rfl, rfl⟩
  have herrors : SaysErrors response :=
    ⟨fun _ => ⟨_, List.getElem_mem _, hthird⟩, fun _ => rfl⟩
  have hother : ∀ other, (s.replyAt 0).Holds other → other = response ∧ SaysErrors other := by
    intro other h
    obtain rfl := hholds.holds_iff.mp h
    exact ⟨rfl, herrors⟩
  obtain ⟨answer, _, hanswer, hjudged⟩ :=
    bulk_judged_by_reply husable s hdocuments (fun other h => (hother other h).2) "notes"
  obtain ⟨told, ⟨result, error, id, reason, hresult, herror, hid, hreason, rfl⟩, htold⟩ :=
    hjudged.told response _ _ _ hholds hitems hbefore hthird
  obtain rfl := Option.some.inj hresult
  obtain rfl := Option.some.inj herror
  obtain rfl : id = "?" := by simpa [TextOr, Json.get?, Json.nat] using hid
  obtain rfl : "failed to parse" = reason := by simpa [TextOr, Json.get?] using hreason
  exact ⟨husable, hdocuments, hother, by rw [hanswer, htold]; rfl⟩

end Client
end ConversationSearch
