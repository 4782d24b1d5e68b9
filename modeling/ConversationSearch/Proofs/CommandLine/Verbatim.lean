import ConversationSearch.CommandLine.Perform
import ConversationSearch.Http.Interface
import ConversationSearch.Proofs.CommandLine.Typed
import ConversationSearch.Proofs.Http.Calls

/-!
# Searches that were typed

A search on the command line is read before it is sent, and its dates are written anew. The
interface reads what was sent and the values as they were typed as the same search, blanks, letter
case and forms of dates included, as long as the years of the dates have four digits in UTC and
neither body is too long. A date of another year is taken as it was typed, but its new form is
refused.
-/

namespace ConversationSearch

open Json (Decoder)

namespace CommandLine

/-! ## What is sent -/

/-- The place of searches in the interface. -/
def searchPath : String :=
  "/api/search"

/-- The request by which a JSON value is posted. -/
def posting (path : String) (value : Json) : HttpRequest where
  method := "POST"
  path := path
  contentType := some HttpResponse.jsonType
  body := value.compact

/-- What a server receives of a request, its path being counted from the root of the interface. -/
def received (w : WireRequest) (path : String) : HttpRequest where
  method := w.method.name
  path := path
  contentType := w.headers.lookup "content-type"
  body := w.body

theorem decodeBody_posting (d : Decoder α) {value : Json} (hvalue : value.IsLegible 0)
    {path : String} (hfits : Interface.bodyFits (posting path value) = true) :
    Interface.decodeBody d (posting path value) =
      (d .text (Json.toReading value)).mapError fun f =>
        (⟨.validation, Interface.bodyFault f⟩ : ApiFailure) := by
  have hdeclared : Interface.declaresJson (posting path value) = true := by
    have htype : (MediaType.parse? HttpResponse.jsonType).any (·.isJson) = true := by decide +kernel
    exact htype
  unfold Interface.decodeBody
  rw [hdeclared, hfits]
  change (d.ofFront value.compact).mapError _ = _
  rw [Decoder.ofFront_compact d hvalue]

/-- A request that was written on the command line is read in normal form, or refused. -/
theorem decodeBody_sent {r : Request} (hleaps : r.filters.LeapsEndMinutes) (path : String) :
    (r.filters.HasPlainYears ∧ Interface.bodyFits (posting path r.declaredJson) = true →
      Interface.decodeBody Request.decoder (posting path r.declaredJson) = .ok r.normalized) ∧
    (¬(r.filters.HasPlainYears ∧ Interface.bodyFits (posting path r.declaredJson) = true) →
      ∃ f : ApiFailure,
        Interface.decodeBody Request.decoder (posting path r.declaredJson) = .error f ∧
          f.kind = .validation) := by
  obtain ⟨members, hmembers, hwritten⟩ := r.declaredJson_eq_object
  rw [hmembers]
  constructor
  · rintro ⟨hyears, hfits⟩
    rw [decodeBody_posting _ (Request.isLegible hwritten) hfits,
      Request.decoder_reads hwritten hyears .text, Request.asWritten_eq_self hleaps]
    rfl
  · intro hrefused
    have hrejects : Interface.Rejects Request.decoder (posting path (.object members)) := by
      by_cases hfits : Interface.bodyFits (posting path (.object members)) = true
      · obtain ⟨e, he⟩ := Request.decoder_refuses hwritten (fun hyears => hrefused ⟨hyears, hfits⟩)
          .text
        refine .inr (.inr ⟨e, ?_⟩)
        exact (Decoder.ofFront_compact _ (Request.isLegible hwritten)).trans he
      · exact .inr (.inl (Bool.eq_false_of_not_eq_true hfits))
    obtain ⟨reason, hreason⟩ := Interface.decodeBody_of_rejects hrejects
    exact ⟨_, hreason, rfl⟩

theorem ofFront_verbatim {g : Given} {r : Request} (h : g.Means r) :
    Request.decoder.ofFront g.verbatim.compact = .ok (g.readVerbatim r) := by
  rw [Decoder.ofFront_compact _ g.isLegible_verbatim, Given.verbatim_reads h .text]

theorem decodeBody_verbatim {g : Given} {r : Request} (h : g.Means r) {path : String}
    (hfits : Interface.bodyFits (posting path g.verbatim) = true) :
    Interface.decodeBody Request.decoder (posting path g.verbatim) = .ok (g.readVerbatim r) := by
  rw [decodeBody_posting _ g.isLegible_verbatim hfits, Given.verbatim_reads h .text]
  rfl

/-- What is understood as a search was asked for by its name. -/
theorem search_of_command {name : String} {args : List String} {r : Request}
    (h : Command.parse name args = .ok (.search r)) :
    name = "search" ∧ ∃ given following,
      Command.searchGrammar.read args = .ok (given, following) ∧ given.Means r := by
  have hbare : ∀ command : Command, command ≠ .search r →
      (Grammar.read {} args).map (fun _ => command) ≠ .ok (.search r) := by
    intro command hne hread
    cases hgiven : Grammar.read {} args with
    | error fault =>
      rw [hgiven] at hread
      contradiction
    | ok given =>
      rw [hgiven] at hread
      exact hne (Except.ok.inj hread)
  unfold Command.parse at h
  split at h
  · obtain ⟨⟨given, following⟩, hgiven, hmeans⟩ := bind_eq_ok.mp h
    exact ⟨rfl, given, following, hgiven, Given.means_of_searchOf hmeans⟩
  · obtain ⟨⟨given, following⟩, -, hindex⟩ := bind_eq_ok.mp h
    unfold Command.indexOf at hindex
    split at hindex <;> cases hindex
  · exact absurd h (hbare .setup (by simp))
  · exact absurd h (hbare .mappings (by simp))
  · exact absurd h (hbare .health (by simp))
  · contradiction

theorem search_of_parse {args : List String} {i : Invocation} {r : Request}
    (hargs : Invocation.parse args = .ok i) (hsearch : i.command = .search r) :
    ∃ front rest given following,
      Invocation.grammar.read args = .ok (front, some ("search", rest)) ∧
      Command.searchGrammar.read rest = .ok (given, following) ∧ given.Means r := by
  obtain ⟨⟨front, following⟩, hfront, hargs⟩ := bind_eq_ok.mp hargs
  rcases following with _ | ⟨name, rest⟩
  · contradiction
  obtain ⟨command, hcommand, hargs⟩ := bind_eq_ok.mp hargs
  obtain rfl := Except.ok.inj hargs
  obtain rfl : command = .search r := hsearch
  obtain ⟨rfl, given, following, hgiven, hmeans⟩ := search_of_command hcommand
  exact ⟨front, rest, given, following, hfront, hgiven, hmeans⟩

/-- The command makes one request, to post the search as it was understood. -/
theorem run_search {args : List String} {i : Invocation} {r : Request}
    (hargs : Invocation.parse args = .ok i) (hsearch : i.command = .search r) {url : Url}
    (hurl : Url.parse (i.endpoint ++ searchPath) = .ok url)
    (contentOf : String → StateM Script (Option String)) (s : Script) :
    ∃ w, (run Script.wire contentOf args s).2.sent = s.sent ++ [w] ∧ w.url = url ∧
      received w searchPath = posting searchPath r.declaredJson := by
  let w : WireRequest :=
    { method := .post
      url := url
      headers := [("accept-encoding", "gzip"), ("content-type", "application/json")]
      body := r.declaredJson.compact }
  have hrequest : i.request .post searchPath (some r.declaredJson) = .ok w := by
    unfold Invocation.request
    rw [hurl]
    rfl
  have hfetch : (i.fetch Script.wire .post searchPath (some r.declaredJson) s).2.sent =
      s.sent ++ [w] := by
    unfold Invocation.fetch
    rw [hrequest]
    rfl
  have hrun : run Script.wire contentOf args = Outcome.ofAnswer <$>
      i.fetch Script.wire .post searchPath (some r.declaredJson) := by
    unfold run Invocation.perform
    simp only [hargs, hsearch, map_eq_pure_bind]
    rfl
  refine ⟨w, ?_, rfl, rfl⟩
  rw [hrun]
  exact hfetch

/-- A search that was typed on the command line is sent as a request of its own making, and the
interface reads it as what the values themselves stand for, in the form in which they were typed:
both compile to the same search, with and without highlighting. That is so exactly where the dates
have years of four digits in UTC and what was sent is not too long; otherwise it is refused. The
values themselves are read whatever the dates, by the interface as long as they are not too long
either. -/
theorem typed_search_reads_alike {args : List String} {i : Invocation} {r : Request}
    (hargs : Invocation.parse args = .ok i) (hsearch : i.command = .search r) :
    ∃ front rest given following,
      Invocation.grammar.read args = .ok (front, some ("search", rest)) ∧
      Command.searchGrammar.read rest = .ok (given, following) ∧
      (∀ url, Url.parse (i.endpoint ++ searchPath) = .ok url → ∀ contentOf (s : Script),
        ∃ w, (run Script.wire contentOf args s).2.sent = s.sent ++ [w] ∧ w.url = url ∧
          received w searchPath = posting searchPath r.declaredJson) ∧
      ∃ typed, Request.decoder.ofFront given.verbatim.compact = .ok typed ∧
        (Interface.bodyFits (posting searchPath given.verbatim) = true →
          Interface.decodeBody Request.decoder (posting searchPath given.verbatim) =
            .ok typed) ∧
        (r.filters.HasPlainYears ∧
            Interface.bodyFits (posting searchPath r.declaredJson) = true → ∃ sent,
          Interface.decodeBody Request.decoder (posting searchPath r.declaredJson) = .ok sent ∧
          ∀ highlighting, ∃ c,
            compile highlighting sent = .ok c ∧ compile highlighting typed = .ok c) ∧
        (¬(r.filters.HasPlainYears ∧
            Interface.bodyFits (posting searchPath r.declaredJson) = true) → ∃ f : ApiFailure,
          Interface.decodeBody Request.decoder (posting searchPath r.declaredJson) = .error f ∧
            f.kind = .validation) := by
  obtain ⟨front, rest, given, following, hfront, hgiven, hmeans⟩ := search_of_parse hargs hsearch
  obtain ⟨hread, hrefused⟩ := decodeBody_sent hmeans.leapsEndMinutes searchPath
  refine ⟨front, rest, given, following, hfront, hgiven, ?_, given.readVerbatim r,
    ofFront_verbatim hmeans, decodeBody_verbatim hmeans, ?_, hrefused⟩
  · intro url hurl contentOf s
    exact run_search hargs hsearch hurl contentOf s
  · intro hsent
    refine ⟨r.normalized, hread hsent, ?_⟩
    intro highlighting
    have hsame : Compile.compiled highlighting r.normalized =
        Compile.compiled highlighting (given.readVerbatim r) :=
      Compile.compiled_eq_of_sameConstraints (r := r.normalized) (q := given.readVerbatim r) rfl
        (Given.sameConstraints hmeans) highlighting
    exact ⟨_, Compile.compile_eq_ok highlighting _, hsame ▸ Compile.compile_eq_ok highlighting _⟩

/-- Padded values, a name in capital letters and a date with an offset and a fraction are read from
what was sent as they are from what was typed. -/
theorem padded_search_reads_alike :
    let args := ["search", " launch ", "--from", " emma789 ", "--has", "IMAGE",
      "--during= 2024-01-17T12:30:00.1239+01:00 ", "-p"]
    let given : Given :=
      { options := [("from", " emma789 "), ("has", "IMAGE"),
          ("during", " 2024-01-17T12:30:00.1239+01:00 "), ("pinned", "")]
        words := [" launch "] }
    let during : Time.Instant :=
      ⟨1705491000, 123000000, by decide, by decide, by decide⟩
    let r : Request :=
      { query := some " launch "
        filters :=
          { author := some " emma789 ", attachment := some .image, during := some during,
            pinned := some true } }
    Invocation.parse args = .ok ⟨Invocation.defaultEndpoint, .search r⟩ ∧
      ∃ typed sent,
        Interface.decodeBody Request.decoder (posting searchPath given.verbatim) = .ok typed ∧
        Interface.decodeBody Request.decoder (posting searchPath r.declaredJson) = .ok sent ∧
        ∀ highlighting, ∃ c,
          compile highlighting sent = .ok c ∧ compile highlighting typed = .ok c := by
  intro args given during r
  have hargs : Invocation.parse args = .ok ⟨Invocation.defaultEndpoint, .search r⟩ :=
    eq_ok_of_toOption (by decide +kernel)
  have hfront : Invocation.grammar.read args = .ok ({}, some ("search", args.tail)) :=
    eq_ok_of_toOption (by decide +kernel)
  have hgiven : Command.searchGrammar.read args.tail = .ok (given, none) :=
    eq_ok_of_toOption (by decide +kernel)
  have hfits : Interface.bodyFits (posting searchPath given.verbatim) = true := by decide +kernel
  have hfitsSent : Interface.bodyFits (posting searchPath r.declaredJson) = true := by
    decide +kernel
  have hyears : r.filters.HasPlainYears := by decide
  obtain ⟨front, rest, found, following, hfront', hfound, -, typed, -, htyped, hsent, -⟩ :=
    typed_search_reads_alike hargs rfl
  obtain ⟨rfl, hrest⟩ := Prod.mk.inj (Except.ok.inj (hfront'.symm.trans hfront))
  obtain ⟨-, rfl⟩ := Prod.mk.inj (Option.some.inj hrest)
  obtain ⟨rfl, -⟩ := Prod.mk.inj (Except.ok.inj (hfound.symm.trans hgiven))
  obtain ⟨sent, hsent, hcompile⟩ := hsent ⟨hyears, hfitsSent⟩
  exact ⟨hargs, typed, sent, htyped hfits, hsent, hcompile⟩

/-- A date that is in the year 9999 where it was typed, and in the next one in UTC, is read as it was
typed and refused as it was sent. -/
theorem date_past_last_year_is_refused_as_sent :
    let args := ["search", "launch", "--before", "9999-12-31T23:59:59-01:00"]
    let given : Given :=
      { options := [("before", "9999-12-31T23:59:59-01:00")], words := ["launch"] }
    ∃ r, Invocation.parse args = .ok ⟨Invocation.defaultEndpoint, .search r⟩ ∧
      Command.searchGrammar.read args.tail = .ok (given, none) ∧
      (∃ typed,
        Interface.decodeBody Request.decoder (posting searchPath given.verbatim) = .ok typed) ∧
      ¬∃ sent,
        Interface.decodeBody Request.decoder (posting searchPath r.declaredJson) = .ok sent := by
  intro args given
  let before : Time.Instant :=
    ⟨253402304399, 0, by decide, by decide, by decide⟩
  let r : Request := { query := some "launch", filters := { before := some before } }
  have hargs : Invocation.parse args = .ok ⟨Invocation.defaultEndpoint, .search r⟩ :=
    eq_ok_of_toOption (by decide +kernel)
  have hgiven : Command.searchGrammar.read args.tail = .ok (given, none) :=
    eq_ok_of_toOption (by decide +kernel)
  have hmeans : given.Means r := by
    apply Given.means_of_searchOf
    exact eq_ok_of_toOption (by decide +kernel)
  have hyears : ¬r.filters.HasPlainYears := by decide
  have hfits : Interface.bodyFits (posting searchPath given.verbatim) = true := by decide +kernel
  refine ⟨r, hargs, hgiven, ⟨_, decodeBody_verbatim hmeans hfits⟩, ?_⟩
  rintro ⟨sent, hsent⟩
  obtain ⟨f, hrefused, -⟩ :=
    (decodeBody_sent hmeans.leapsEndMinutes searchPath).2 fun h => hyears h.1
  rw [hrefused] at hsent
  contradiction

end CommandLine
end ConversationSearch
