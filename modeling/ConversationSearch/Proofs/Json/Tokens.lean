import ConversationSearch.Json.Reader
import ConversationSearch.Json.Printer
import ConversationSearch.Proofs.Failing
import ConversationSearch.Proofs.Text.Digits

/-!
# Strings and integers are read back

What a string or an integer of sixty-four bits is written as is read as it again, and what stands
behind it is left, be it the end of the text, a comma or a closing bracket. What an integer beyond
sixty-four bits is written as is read as no integer.
-/

namespace ConversationSearch.Json

/-! ## Quoted texts -/

namespace Quoted

theorem unit?_control {n : Nat} (hn : n < 32) :
    unit? '0' '0' (Text.hexDigit (n / 16)) (Text.hexDigit (n % 16)) = some n := by
  have hvalues : ∀ k < 32,
      unit? '0' '0' (Text.hexDigit (k / 16)) (Text.hexDigit (k % 16)) = some k := by decide
  exact hvalues n hn

/-- A plain character is read as itself. -/
theorem scan_plain {c : Char} (hquote : c ≠ '"') (hbackslash : c ≠ '\\') (hplain : ¬c.toNat < 32)
    (rest : List Char) :
    scan (c :: rest) = (scan rest).push c := by
  simp [scan, hbackslash, hplain]

theorem scan_unescape {letter c : Char} (hletter : letter ≠ 'u') (h : unescape? letter = some c)
    (rest : List Char) :
    scan ('\\' :: letter :: rest) = (scan rest).push c := by
  simp [scan, hletter, h]

theorem scan_unit {a b c d : Char} {unit : Nat} (h : unit? a b c d = some unit)
    (hlow : isLow unit = false) (hhigh : isHigh unit = false) (rest : List Char) :
    scan ('\\' :: 'u' :: a :: b :: c :: d :: rest) = (scan rest).push (Char.ofNat unit) := by
  rw [scan.eq_def]
  simp [h, hlow, hhigh]

/-- The letters of the short escapes and the characters that they stand for. -/
def letters : List (Char × Char) :=
  [('"', '"'), ('\\', '\\'), ('n', '\n'), ('r', '\r'), ('t', '\t'), ('b', Char.ofNat 8),
   ('f', Char.ofNat 12)]

theorem escape_letters :
    ∀ p ∈ letters, escape p.2 = ['\\', p.1] ∧ p.1 ≠ 'u' ∧ unescape? p.1 = some p.2 := by
  decide

theorem scan_control {c : Char} (hcontrol : c.toNat < 32) (rest : List Char) :
    scan ('\\' :: 'u' :: '0' :: '0' :: Text.hexDigit (c.toNat / 16) ::
      Text.hexDigit (c.toNat % 16) :: rest) = (scan rest).push c := by
  have hlow : isLow c.toNat = false := by
    simp only [isLow, Bool.and_eq_false_iff, decide_eq_false_iff_not]
    omega
  have hhigh : isHigh c.toNat = false := by
    simp only [isHigh, Bool.and_eq_false_iff, decide_eq_false_iff_not]
    omega
  have hscan := scan_unit (unit?_control hcontrol) hlow hhigh rest
  rwa [Char.ofNat_toNat] at hscan

/-- A character is written by a short escape, as a control character or as itself. -/
theorem escape_cases (c : Char) :
    (∃ p ∈ letters, p.2 = c) ∨
      (c.toNat < 32 ∧ escape c = ['\\', 'u', '0', '0', Text.hexDigit (c.toNat / 16),
        Text.hexDigit (c.toNat % 16)]) ∨
      (c ≠ '"' ∧ c ≠ '\\' ∧ ¬c.toNat < 32 ∧ escape c = [c]) := by
  by_cases hletter : ∃ p ∈ letters, p.2 = c
  · exact .inl hletter
  · have hne : ∀ p ∈ letters, c ≠ p.2 := fun p hp h => hletter ⟨p, hp, h.symm⟩
    simp only [letters, List.forall_mem_cons] at hne
    obtain ⟨hquote, hbackslash, hn, hr, ht, hb, hf, -⟩ := hne
    unfold escape
    simp only [hquote, hbackslash, hn, hr, ht, hb, hf, if_false]
    by_cases hcontrol : c.toNat < 32
    · exact .inr (.inl ⟨hcontrol, if_pos hcontrol⟩)
    · exact .inr (.inr ⟨hquote, hbackslash, hcontrol, if_neg hcontrol⟩)

theorem scan_escape (c : Char) (rest : List Char) :
    scan (escape c ++ rest) = (scan rest).push c := by
  rcases escape_cases c with ⟨p, hp, rfl⟩ | ⟨hcontrol, hescape⟩ |
    ⟨hquote, hbackslash, hplain, hescape⟩
  · obtain ⟨hescape, hu, hunescape⟩ := escape_letters p hp
    rw [hescape]
    exact scan_unescape hu hunescape rest
  · rw [hescape]
    exact scan_control hcontrol rest
  · rw [hescape]
    exact scan_plain hquote hbackslash hplain rest

/-- An escaped text is read up to the quote behind it. -/
theorem scan_flatMap_escape (cs rest : List Char) :
    scan (cs.flatMap escape ++ '"' :: rest) = .closed cs rest := by
  induction cs with
  | nil => rw [List.flatMap_nil, List.nil_append, scan]
  | cons c cs ih =>
    rw [List.flatMap_cons, List.append_assoc, scan_escape, ih]
    rfl

end Quoted

/-! ## Numerals -/

/-- What can stand behind a value: the end of the text, a comma or a closing bracket. -/
def Delimited (cs : List Char) : Prop :=
  cs.head?.all (fun c => c = ',' ∨ c = ']' ∨ c = '}') = true

theorem Delimited.cases {cs : List Char} (h : Delimited cs) :
    cs = [] ∨ ∃ c rest, cs = c :: rest ∧ (c = ',' ∨ c = ']' ∨ c = '}') := by
  cases cs with
  | nil => exact .inl rfl
  | cons c rest => exact .inr ⟨c, rest, rfl, by simpa [Delimited] using h⟩

theorem spanDigits_delimited {ds rest : List Char} (hds : ∀ c ∈ ds, Text.isDigit c = true)
    (hrest : Delimited rest) :
    Text.spanDigits (ds ++ rest) = (ds, rest) := by
  apply Text.spanDigits_stops hds
  rintro c after rfl
  obtain h | ⟨_, _, h, hc⟩ := hrest.cases
  · contradiction
  · obtain ⟨rfl, -⟩ := List.cons.inj h
    rcases hc with rfl | rfl | rfl <;> decide

namespace Numeral

theorem scanFraction_delimited (numeral : Numeral) {rest : List Char} (hrest : Delimited rest) :
    scanFraction numeral rest = .ok (numeral, rest) := by
  rcases hrest.cases with rfl | ⟨c, rest, rfl, rfl | rfl | rfl⟩ <;> rfl

theorem scan_digits (negative : Bool) (n : Nat) {rest : List Char} (hrest : Delimited rest) :
    scan negative (Text.digits n ++ rest) =
      .ok (⟨negative, Text.digits n, none, none⟩, rest) := by
  have hspan := spanDigits_delimited (fun c => Text.isDigit_of_mem_digits (n := n)) hrest
  have hscan := scanFraction_delimited ⟨negative, Text.digits n, none, none⟩ hrest
  unfold scan
  rw [hspan]
  split
  · next heq => exact absurd (Prod.mk.inj heq).1 (Text.digits_ne_nil n)
  · next heq => exact absurd (Text.digits_zero_front (Prod.mk.inj heq).1) (by simp)
  · next heq =>
    obtain ⟨rfl, rfl⟩ := Prod.mk.inj heq
    exact hscan

theorem le_foldl_digits (cs : List Char) (significand : Nat) :
    significand ≤ cs.foldl (fun n c => 10 * n + (Text.digitValue? c).getD 0) significand := by
  induction cs generalizing significand with
  | nil => exact Nat.le_refl _
  | cons c cs ih =>
    have hnext := ih (10 * significand + (Text.digitValue? c).getD 0)
    rw [List.foldl_cons]
    omega

/-- Digits are gathered whole as long as the number fits. -/
theorem gatherWhole_eq {cs : List Char} {significand : Nat}
    (h : cs.foldl (fun n c => 10 * n + (Text.digitValue? c).getD 0) significand ≤ maxSignificand) :
    gatherWhole cs significand 0 =
      (cs.foldl (fun n c => 10 * n + (Text.digitValue? c).getD 0) significand, 0) := by
  induction cs generalizing significand with
  | nil => rfl
  | cons c cs ih =>
    rw [List.foldl_cons] at h ⊢
    have hnext := Nat.le_trans (le_foldl_digits cs _) h
    rw [gatherWhole, if_pos ⟨rfl, hnext⟩]
    exact ih h

theorem le_dropped (cs : List Char) (significand dropped : Nat) :
    dropped ≤ (gatherWhole cs significand dropped).2 := by
  induction cs generalizing significand dropped with
  | nil => exact Nat.le_refl _
  | cons c cs ih =>
    rw [gatherWhole]
    split
    · next hfits =>
      rw [hfits.1]
      exact Nat.zero_le _
    · exact Nat.le_trans (Nat.le_succ _) (ih significand (dropped + 1))

/-- Where no digit was dropped the number fits. -/
theorem foldl_digits_le {cs : List Char} {significand : Nat} (hstart : significand ≤ maxSignificand)
    (h : (gatherWhole cs significand 0).2 = 0) :
    cs.foldl (fun n c => 10 * n + (Text.digitValue? c).getD 0) significand ≤ maxSignificand := by
  induction cs generalizing significand with
  | nil => exact hstart
  | cons c cs ih =>
    rw [gatherWhole] at h
    split at h
    · next hfits => exact ih hfits.2 h
    · have hdropped := le_dropped cs significand (0 + 1)
      omega

theorem value_digits (negative : Bool) {n : Nat} (hn : n ≤ maxSignificand) :
    value ⟨negative, Text.digits n, none, none⟩ = .ok (whole? negative n) := by
  have hnumber : (Text.digits n).foldl (fun n c => 10 * n + (Text.digitValue? c).getD 0) 0 = n :=
    Text.number_digits n
  have hgather := gatherWhole_eq (Nat.le_trans (Nat.le_of_eq hnumber) hn)
  rw [hnumber] at hgather
  simp [value, hgather, gatherFraction]

/-- A double or nothing at all. -/
def IsNoInteger (result : Except Fault Number) : Prop :=
  ∀ k, result ≠ .ok (.int k)

theorem isNoInteger_real (negative : Bool) (significand : Nat) (exponent : Int) :
    IsNoInteger (real negative significand exponent) := by
  intro k h
  obtain ⟨d, -, hd⟩ := bind_eq_ok.mp h
  cases hd

/-- Digits beyond sixty-four bits, or beyond sixty-three behind a sign, stand for no integer. -/
theorem isNoInteger_value_digits {negative : Bool} {n : Nat}
    (hn : maxSignificand < n ∨ negative = true ∧ leastMagnitude < n) :
    IsNoInteger (value ⟨negative, Text.digits n, none, none⟩) := by
  by_cases hfits : n ≤ maxSignificand
  · obtain ⟨hnegative, hlarge⟩ := hn.resolve_left (Nat.not_lt.mpr hfits)
    intro k
    rw [value_digits negative hfits, hnegative, whole?, if_pos rfl, if_pos (.inr hlarge)]
    simp
  · have hdropped : (gatherWhole (Text.digits n) 0 0).2 ≠ 0 := by
      intro hzero
      have hle := foldl_digits_le (Nat.zero_le _) hzero
      have hnumber : (Text.digits n).foldl
          (fun n c => 10 * n + (Text.digitValue? c).getD 0) 0 = n := Text.number_digits n
      exact hfits (hnumber ▸ hle)
    simp only [value, gatherFraction, Option.getD_none, Option.isNone_none, hdropped, and_false,
      if_false]
    exact isNoInteger_real _ _ _

end Numeral

/-- An integer of sixty-four bits, with a sign or without one. -/
def Number.IsExact : Number → Prop
  | .int n => -(Numeral.leastMagnitude : Int) ≤ n ∧ n ≤ Numeral.maxSignificand
  | .real _ => False

namespace Reading

theorem readNumber_digits (negative : Bool) {n : Nat} (hn : n ≤ Numeral.maxSignificand)
    {rest : List Char} (hrest : Delimited rest) :
    readNumber negative (Text.digits n ++ rest) =
      (.number (Numeral.whole? negative n), some rest) := by
  simp only [readNumber, Numeral.scan_digits negative n hrest, Numeral.value_digits negative hn]

theorem readValue_digit (supply depth : Nat) {c : Char} (hc : Text.isDigit c = true)
    (cs : List Char) :
    readValue (supply + 1) depth (c :: cs) = readNumber false (c :: cs) := by
  have hne : ∀ d, Text.isDigit d = false → c = d → False := by
    rintro d hd rfl
    rw [hc] at hd
    contradiction
  rw [readValue, if_pos hc] <;> exact hne _ (by decide)

/-- An integer is read as its digits are, behind its sign. -/
theorem readValue_integer (n : Int) (supply depth : Nat) (rest : List Char) :
    readValue (supply + 1) depth (Text.integer n ++ rest) =
      readNumber (decide (n < 0)) (Text.digits n.natAbs ++ rest) := by
  cases n with
  | ofNat k =>
    obtain ⟨c, cs, hdigits, hdigit⟩ := Text.exists_head_digits k
    have hsign : decide (Int.ofNat k < 0) = false := by simp
    rw [hsign]
    change readValue (supply + 1) depth (Text.digits k ++ rest) =
      readNumber false (Text.digits k ++ rest)
    rw [hdigits, List.cons_append, readValue_digit supply depth hdigit]
  | negSucc k =>
    rw [decide_eq_true (Int.negSucc_lt_zero k)]
    change readValue (supply + 1) depth ('-' :: (Text.digits (k + 1) ++ rest)) =
      readNumber true (Text.digits (k + 1) ++ rest)
    rw [readValue]

/-- An integer of sixty-four bits is read from its text. -/
theorem readValue_number {n : Number} (hn : n.IsExact) (supply depth : Nat) {rest : List Char}
    (hrest : Delimited rest) :
    readValue (supply + 1) depth (n.text ++ rest) = (.number n, some rest) := by
  cases n with
  | real d => exact hn.elim
  | int k =>
    obtain ⟨hleast, hmost⟩ := hn
    have hbound : k.natAbs ≤ Numeral.maxSignificand := by
      unfold Numeral.leastMagnitude at hleast
      unfold Numeral.maxSignificand at *
      omega
    have hwhole : Numeral.whole? (decide (k < 0)) k.natAbs = .int k := by
      unfold Numeral.leastMagnitude at hleast
      by_cases hsign : k < 0
      · have hinteger : -(k.natAbs : Int) = k := by omega
        simp only [Numeral.whole?, hsign, decide_true, if_true, hinteger]
        rw [if_neg (by unfold Numeral.leastMagnitude; omega)]
      · have hinteger : (k.natAbs : Int) = k := by omega
        simp [Numeral.whole?, hsign, hinteger]
    change readValue (supply + 1) depth (Text.integer k ++ rest) = _
    rw [readValue_integer, readNumber_digits _ hbound hrest, hwhole]

/-- An integer beyond sixty-four bits is read as a double, or not at all. -/
theorem readValue_inexact {n : Int} (hn : ¬(Number.int n).IsExact) (supply depth : Nat)
    {rest : List Char} (hrest : Delimited rest) :
    ∃ r, readValue (supply + 1) depth (Text.integer n ++ rest) = (r, some rest) ∧
      ((∃ d, r = .number (.real d)) ∨ ∃ fault, r = .rejected fault .null) := by
  have hlarge : Numeral.maxSignificand < n.natAbs ∨
      decide (n < 0) = true ∧ Numeral.leastMagnitude < n.natAbs := by
    simp only [Number.IsExact, not_and_or, decide_eq_true_eq] at hn ⊢
    omega
  have hvalue := Numeral.isNoInteger_value_digits hlarge
  rw [readValue_integer]
  simp only [readNumber, Numeral.scan_digits _ _ hrest]
  cases hresult : Numeral.value ⟨decide (n < 0), Text.digits n.natAbs, none, none⟩ with
  | error fault => exact ⟨_, rfl, .inr ⟨fault, rfl⟩⟩
  | ok number =>
    cases number with
    | int k => exact absurd hresult (hvalue k)
    | real d => exact ⟨_, rfl, .inl ⟨d, rfl⟩⟩

end Reading
end ConversationSearch.Json
