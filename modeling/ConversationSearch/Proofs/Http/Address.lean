import ConversationSearch.Engine.Client
import ConversationSearch.Proofs.Failing
import ConversationSearch.Proofs.Text.Cutting

/-!
# Usable addresses

The address of a request is the address of the client, a slash and a path. Whether it can be used is
settled in front of the slash: a client whose own address can be used is able to make a request for
every path.
-/

namespace ConversationSearch

namespace Url

/-- A character that does not count around an address. -/
def isMargin (c : Char) : Bool :=
  c.toNat ≤ 32

/-- A character that counts wherever it stands. -/
def counts (c : Char) : Bool :=
  c != '\t' && c != '\n' && c != '\r'

/-- What counts of an address with a path: the part in front of the slash does not depend on the
path. -/
theorem significant_append_path (base path : String) :
    significant (base ++ "/" ++ path) =
      (base.toList.dropWhile isMargin).filter counts ++
        '/' :: (path.toList.reverse.dropWhile isMargin).reverse.filter counts := by
  have hmargin : isMargin '/' = false := by decide
  have hcounts : counts '/' = true := by decide
  have htext : (base ++ "/" ++ path).toList = base.toList ++ '/' :: path.toList := by simp
  change (((base ++ "/" ++ path).toList.dropWhile isMargin).reverse.dropWhile
    isMargin).reverse.filter counts = _
  rw [htext, dropWhile_append_stop hmargin, List.reverse_append, List.reverse_cons,
    List.append_assoc, List.singleton_append, dropWhile_append_stop hmargin,
    List.reverse_append, List.reverse_cons, List.reverse_reverse, List.append_assoc,
    List.singleton_append, List.filter_append, List.filter_cons_of_pos hcounts]

/-- The scheme stands in front of the slash. -/
theorem splitScheme_append_slash {front rest cs : List Char} {scheme : String}
    (h : splitScheme (front ++ '/' :: rest) = some (scheme, cs)) :
    ∃ tail, cs = tail ++ '/' :: rest ∧
      ∀ other, splitScheme (front ++ '/' :: other) = some (scheme, tail ++ '/' :: other) := by
  have hslash : isSchemeChar '/' = false := by decide
  simp only [splitScheme, takeWhile_append_stop hslash, dropWhile_append_stop hslash] at h ⊢
  cases hbehind : front.dropWhile isSchemeChar with
  | nil => simp [hbehind] at h
  | cons colon tail =>
    rw [hbehind, List.cons_append] at h
    simp only [List.cons_append]
    split at h
    · next c name rest' hname hcolon =>
      obtain ⟨rfl, rfl⟩ := List.cons.inj hcolon
      rw [hname]
      by_cases halpha : c.isAlpha = true
      · simp only [halpha, if_true, Option.some.injEq, Prod.mk.injEq] at h ⊢
        exact ⟨tail, h.2.symm, fun other => ⟨h.1, rfl⟩⟩
      · simp [halpha] at h
    · contradiction

/-- The host and the number behind it. -/
def authority (cs : List Char) : List Char × Option (List Char) :=
  splitPort false (withoutUser ((cs.dropWhile isSlash).takeWhile fun c => !endsAuthority c))

/-- Whether an address can be used depends on the host and the number behind it alone. -/
theorem exists_parseRest_iff (secure : Bool) (cs : List Char) :
    (∃ u, parseRest secure cs = .ok u) ↔
      (∃ host, Host.parse (authority cs).1 = .ok host) ∧
      (∃ number, parsePort (authority cs).2 = .ok number) := by
  have hauthority :
      splitPort false (withoutUser (((cs.dropWhile isSlash).takeWhile (· != '#')).takeWhile
        fun c => !endsAuthority c)) = authority cs := by
    have hends : (fun c => decide ((!endsAuthority c) = true ∧ (c != '#') = true)) =
        fun c => !endsAuthority c := by
      funext c
      rw [Bool.eq_iff_iff]
      by_cases hc : c = '#' <;> simp [hc, endsAuthority]
    rw [authority, List.takeWhile_takeWhile, hends]
  unfold parseRest
  simp only [hauthority]
  constructor
  · rintro ⟨u, hu⟩
    obtain ⟨host, hhost, hu⟩ := bind_eq_ok.mp hu
    obtain ⟨number, hnumber, -⟩ := bind_eq_ok.mp hu
    exact ⟨⟨host, mapError_eq_ok.mp hhost⟩, ⟨number, hnumber⟩⟩
  · rintro ⟨⟨host, hhost⟩, ⟨number, hnumber⟩⟩
    rw [hhost, hnumber]
    exact ⟨_, rfl⟩

/-- The host and the number behind it stand in front of the slash. -/
theorem parseRest_append_slash {secure : Bool} {tail : List Char} {u : Url}
    (h : parseRest secure (tail ++ ['/']) = .ok u) (rest : List Char) :
    ∃ u', parseRest secure (tail ++ '/' :: rest) = .ok u' := by
  have hends : (!endsAuthority '/') = false := by decide
  obtain ⟨hhost, hnumber⟩ := (exists_parseRest_iff secure _).mp ⟨u, h⟩
  have hauthority : authority (tail ++ '/' :: rest) = authority (tail ++ ['/']) := by
    by_cases hslashes : (tail.dropWhile isSlash).isEmpty = true
    · -- without anything between the slashes there is no host
      have hempty : authority (tail ++ ['/']) = ([], none) := by
        rw [authority, List.dropWhile_append, if_pos hslashes]
        rfl
      rw [hempty] at hhost
      obtain ⟨host, hhost⟩ := hhost
      contradiction
    · simp only [authority, List.dropWhile_append, if_neg hslashes]
      rw [takeWhile_append_stop (p := fun c => !endsAuthority c) hends,
        takeWhile_append_stop (p := fun c => !endsAuthority c) hends]
  rw [exists_parseRest_iff, hauthority]
  exact ⟨hhost, hnumber⟩

theorem parse_append_path {base : String} {u : Url} (h : parse (base ++ "/") = .ok u)
    (path : String) :
    ∃ u', parse (base ++ "/" ++ path) = .ok u' := by
  have hbase := significant_append_path base ""
  rw [String.append_empty, show "".toList = [] from rfl] at hbase
  unfold parse at h ⊢
  rw [hbase] at h
  rw [significant_append_path]
  split at h
  · contradiction
  · next cs hsplit =>
    obtain ⟨tail, rfl, hother⟩ := splitScheme_append_slash hsplit
    rw [hother]
    exact parseRest_append_slash h _
  · next cs hsplit =>
    obtain ⟨tail, rfl, hother⟩ := splitScheme_append_slash hsplit
    rw [hother]
    exact parseRest_append_slash h _
  · contradiction

end Url

namespace Client

/-- The address under which the client looks for the engine can be used. -/
def Usable (c : Client) : Prop :=
  ∃ url, Url.parse (c.baseUrl ++ "/") = .ok url

theorem usable_of_isOk {c : Client} (h : (Url.parse (c.baseUrl ++ "/")).isOk = true) :
    c.Usable := by
  unfold Usable
  cases hurl : Url.parse (c.baseUrl ++ "/") with
  | ok url => exact ⟨url, rfl⟩
  | error fault =>
    rw [hurl] at h
    contradiction

theorem request_eq_ok {c : Client} (hc : c.Usable) (method : Method)
    (path contentType body : String) :
    ∃ r, c.request method path contentType body = .ok r := by
  obtain ⟨base, hbase⟩ := hc
  obtain ⟨url, hurl⟩ := Url.parse_append_path hbase (withoutLeadingSlashes path)
  simp only [request, address, hurl]
  exact ⟨_, rfl⟩

/-- A client whose address can be used makes a request of every call. -/
theorem requestOf_eq_ok {c : Client} (hc : c.Usable) (call : Call) :
    ∃ r, c.requestOf call = .ok r := by
  cases call <;> exact request_eq_ok hc _ _ _ _

end Client
end ConversationSearch
