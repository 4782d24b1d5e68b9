import ConversationSearch.Proofs.Text.Digits
import ConversationSearch.Text.Decimal

/-!
# Texts that are numbers

A text is that of an integer if it is digits with or without a sign. It is that of a decimal if it
has digits around a point and perhaps an exponent, or if it names an infinity or what is not a
number. These are said of texts here, apart from the readers; the readers find exactly the numbers
that texts have.
-/

namespace ConversationSearch.Text

open Json (Double)

/-! ## Signs -/

/-- A sign or none, and whether it makes a number negative. -/
inductive IsSign : List Char → Bool → Prop
  | missing : IsSign [] false
  | plus : IsSign ['+'] false
  | minus : IsSign ['-'] true

/-- The text does not start with a sign. -/
def Unsigned (cs : List Char) : Prop :=
  ∀ rest, cs ≠ '+' :: rest ∧ cs ≠ '-' :: rest

theorem takeSign_append {sign body : List Char} {negative : Bool} (hsign : IsSign sign negative)
    (hbody : Unsigned body) :
    takeSign (sign ++ body) = (negative, body) := by
  cases hsign with
  | missing =>
    rw [List.nil_append]
    unfold takeSign
    split
    · exact absurd rfl (hbody _).2
    · exact absurd rfl (hbody _).1
    · rfl
  | plus => rfl
  | minus => rfl

theorem exists_sign (cs : List Char) :
    ∃ sign, IsSign sign (takeSign cs).1 ∧ cs = sign ++ (takeSign cs).2 := by
  fun_cases takeSign cs with
  | case1 rest => exact ⟨_, .minus, rfl⟩
  | case2 rest => exact ⟨_, .plus, rfl⟩
  | case3 rest => exact ⟨_, .missing, rfl⟩

theorem unsigned_of_head {c : Char} {cs : List Char} (hplus : c ≠ '+') (hminus : c ≠ '-') :
    Unsigned (c :: cs) := by
  intro rest
  exact ⟨fun h => hplus (List.cons.inj h).1, fun h => hminus (List.cons.inj h).1⟩

theorem unsigned_of_isDigit {c : Char} {cs : List Char} (hc : isDigit c = true) :
    Unsigned (c :: cs) := by
  apply unsigned_of_head
  · rintro rfl
    contradiction
  · rintro rfl
    contradiction

/-! ## Integers -/

/-- Digits, at least one, behind a sign or none, are the text of an integer. -/
inductive IsInteger : List Char → Int → Prop
  | digits {sign ds : List Char} {negative : Bool} (hsign : IsSign sign negative)
      (hne : ds ≠ []) (hds : ∀ c ∈ ds, isDigit c = true) :
      IsInteger (sign ++ ds) (if negative then -(number ds) else number ds)

theorem natural?_eq_some_iff {cs : List Char} {n : Nat} :
    natural? cs = some n ↔ cs ≠ [] ∧ (∀ c ∈ cs, isDigit c = true) ∧ number cs = n := by
  simp [natural?, and_assoc]

theorem integer?_eq (cs : List Char) :
    integer? cs = (natural? (takeSign cs).2).map fun n : Nat =>
      if (takeSign cs).1 then -(n : Int) else (n : Int) := by
  unfold integer?
  generalize takeSign cs = taken
  dsimp only
  cases natural? taken.2 <;> rfl

theorem integer?_eq_some_iff {cs : List Char} {n : Int} :
    integer? cs = some n ↔ IsInteger cs n := by
  rw [integer?_eq, Option.map_eq_some_iff]
  constructor
  · rintro ⟨m, hm, rfl⟩
    obtain ⟨sign, hsign, hcs⟩ := exists_sign cs
    obtain ⟨hne, hds, rfl⟩ := natural?_eq_some_iff.mp hm
    have hinteger := IsInteger.digits hsign hne hds
    rwa [← hcs] at hinteger
  · rintro (@⟨sign, ds, negative, hsign, hne, hds⟩)
    obtain ⟨c, cs, rfl⟩ := List.exists_cons_of_ne_nil hne
    rw [takeSign_append hsign (unsigned_of_isDigit (hds c List.mem_cons_self))]
    exact ⟨_, natural?_eq_some_iff.mpr ⟨hne, hds, rfl⟩, rfl⟩

/-- An integer is written as usual. -/
theorem ofList_integer (n : Int) :
    String.ofList (integer n) = toString n := by
  cases n with
  | ofNat k => exact ofList_digits k
  | negSucc k =>
    have hdigits := ofList_digits (k + 1)
    rw [integer]
    change String.ofList (['-'] ++ digits (k + 1)) = "-" ++ toString (k + 1)
    rw [String.ofList_append, hdigits]

/-! ## Decimals -/

/-- A point and the digits behind it, or neither. -/
inductive IsFraction : List Char → List Char → Prop
  | missing : IsFraction [] []
  | point {ds : List Char} (hds : ∀ c ∈ ds, isDigit c = true) : IsFraction ('.' :: ds) ds

/-- A letter and an integer behind it, or neither. -/
inductive IsExponent : List Char → Int → Prop
  | missing : IsExponent [] 0
  | small {cs : List Char} {e : Int} (h : IsInteger cs e) : IsExponent ('e' :: cs) e
  | capital {cs : List Char} {e : Int} (h : IsInteger cs e) : IsExponent ('E' :: cs) e

/-- Digits around a point and perhaps an exponent, behind a sign or none, are the text of a decimal.
So are the names of the infinities and of what is not a number, in any letter case. -/
inductive IsDecimal : List Char → Double → Prop
  | infinity {sign name : List Char} {negative : Bool} (hsign : IsSign sign negative)
      (hname : String.ofList (name.map Char.toLower) = "inf" ∨
        String.ofList (name.map Char.toLower) = "infinity") :
      IsDecimal (sign ++ name) (.infinity negative)
  | nan {sign name : List Char} {negative : Bool} (hsign : IsSign sign negative)
      (hname : String.ofList (name.map Char.toLower) = "nan") :
      IsDecimal (sign ++ name) .nan
  | digits {sign whole point fraction exponent : List Char} {negative : Bool} {e : Int}
      (hsign : IsSign sign negative) (hwhole : ∀ c ∈ whole, isDigit c = true)
      (hpoint : IsFraction point fraction) (hne : whole ++ fraction ≠ [])
      (hexponent : IsExponent exponent e) :
      IsDecimal (sign ++ (whole ++ (point ++ exponent)))
        (decimalDouble negative (number (whole ++ fraction)) (e - fraction.length))

theorem exponent?_eq_some_iff {cs : List Char} {e : Int} :
    exponent? cs = some e ↔ IsExponent cs e := by
  fun_cases exponent? cs with
  | case1 =>
    constructor
    · intro h
      obtain rfl := Option.some.inj h
      exact .missing
    · rintro ⟨⟩
      rfl
  | case2 rest =>
    rw [integer?_eq_some_iff]
    exact ⟨.small, fun | .small h => h⟩
  | case3 rest =>
    rw [integer?_eq_some_iff]
    exact ⟨.capital, fun | .capital h => h⟩
  | case4 cs hempty hsmall hcapital =>
    constructor
    · intro h
      contradiction
    · rintro (_ | _ | _)
      · exact (hempty rfl).elim
      · exact (hsmall _ rfl).elim
      · exact (hcapital _ rfl).elim

/-- The parts of a decimal without its sign: digits, a point with digits behind it or neither, and
what is left, with which neither can go on. -/
structure IsSplit (whole point fraction rest : List Char) : Prop where
  hwhole : ∀ c ∈ whole, isDigit c = true
  hpoint : IsFraction point fraction
  hstops : StopsDigits rest
  hpointless : point = [] → ∀ after, rest ≠ '.' :: after

theorem exists_split (cs : List Char) :
    ∃ whole point fraction rest, cs = whole ++ (point ++ rest) ∧
      IsSplit whole point fraction rest := by
  obtain ⟨whole, rest, rfl, hwhole, hstops⟩ := exists_spanDigits cs
  by_cases hpoint : ∃ after, rest = '.' :: after
  · obtain ⟨after, rfl⟩ := hpoint
    obtain ⟨fraction, rest, rfl, hfraction, hstops⟩ := exists_spanDigits after
    exact ⟨whole, '.' :: fraction, fraction, rest, rfl, hwhole, .point hfraction, hstops, by simp⟩
  · exact ⟨whole, [], [], rest, rfl, hwhole, .missing, hstops,
      fun _ after h => hpoint ⟨after, h⟩⟩

/-- A decimal without its sign is read off its parts. -/
theorem decimal?_of_split {whole point fraction rest : List Char}
    (h : IsSplit whole point fraction rest) (negative : Bool) :
    decimal? negative (whole ++ (point ++ rest)) =
      if whole ++ fraction = [] then none
      else (exponent? rest).map fun e =>
        decimalDouble negative (number (whole ++ fraction)) (e - fraction.length) := by
  obtain ⟨hwhole, hpoint, hstops, hpointless⟩ := h
  cases hpoint with
  | missing =>
    have hspan : spanDigits (whole ++ ([] ++ rest)) = (whole, rest) :=
      spanDigits_stops hwhole hstops
    unfold decimal?
    rw [hspan]
    dsimp only
    split
    · next after => exact absurd rfl (hpointless rfl after)
    · simp
  | point hfraction =>
    have hspan : spanDigits (whole ++ ('.' :: fraction ++ rest)) =
        (whole, '.' :: (fraction ++ rest)) :=
      spanDigits_append hwhole rfl
    unfold decimal?
    rw [hspan]
    simp [spanDigits_stops hfraction hstops]

theorem IsExponent.stopsDigits {cs : List Char} {e : Int} (h : IsExponent cs e) :
    StopsDigits cs := by
  cases h with
  | missing => simp [StopsDigits]
  | small => rintro c rest ⟨⟩; rfl
  | capital => rintro c rest ⟨⟩; rfl

theorem IsExponent.ne_point {cs : List Char} {e : Int} (h : IsExponent cs e)
    (after : List Char) :
    cs ≠ '.' :: after := by
  rintro rfl
  contradiction

/-- The text of a decimal without its sign: the significand and the exponent. -/
theorem decimal?_eq_some_iff {negative : Bool} {cs : List Char} {d : Double} :
    decimal? negative cs = some d ↔
      ∃ whole point fraction exponent e, cs = whole ++ (point ++ exponent) ∧
        (∀ c ∈ whole, isDigit c = true) ∧ IsFraction point fraction ∧ whole ++ fraction ≠ [] ∧
        IsExponent exponent e ∧
        decimalDouble negative (number (whole ++ fraction)) (e - fraction.length) = d := by
  constructor
  · intro h
    obtain ⟨whole, point, fraction, rest, rfl, hsplit⟩ := exists_split cs
    rw [decimal?_of_split hsplit] at h
    split at h
    · contradiction
    · next hne =>
      obtain ⟨e, he, hd⟩ := Option.map_eq_some_iff.mp h
      exact ⟨whole, point, fraction, rest, e, rfl, hsplit.hwhole, hsplit.hpoint, hne,
        exponent?_eq_some_iff.mp he, hd⟩
  · rintro ⟨whole, point, fraction, exponent, e, rfl, hwhole, hpoint, hne, hexponent, rfl⟩
    have hsplit : IsSplit whole point fraction exponent :=
      ⟨hwhole, hpoint, hexponent.stopsDigits, fun _ => hexponent.ne_point⟩
    rw [decimal?_of_split hsplit, if_neg hne, exponent?_eq_some_iff.mpr hexponent,
      Option.map_some]

/-- A decimal without its sign starts with a digit or a point. -/
theorem exists_head_of_decimal {whole point fraction : List Char}
    (hwhole : ∀ c ∈ whole, isDigit c = true) (hpoint : IsFraction point fraction)
    (hne : whole ++ fraction ≠ []) (exponent : List Char) :
    ∃ c cs, whole ++ (point ++ exponent) = c :: cs ∧ (isDigit c = true ∨ c = '.') := by
  cases whole with
  | cons c whole => exact ⟨c, _, rfl, .inl (hwhole c List.mem_cons_self)⟩
  | nil =>
    cases hpoint with
    | missing => exact absurd rfl hne
    | point hds => exact ⟨'.', _, rfl, .inr rfl⟩

/-! ## Names of doubles -/

/-- A text in any letter case starts as its small letters do. -/
theorem head?_of_lowered {c : Char} {cs : List Char} {name : String}
    (h : String.ofList ((c :: cs).map Char.toLower) = name) :
    name.toList.head? = some c.toLower := by
  simp [← h]

theorem unsigned_of_named {name : List Char} {other : String}
    (hname : String.ofList (name.map Char.toLower) = other)
    (hother : ∀ c, other.toList.head? = some c → c ≠ '+' ∧ c ≠ '-') :
    Unsigned name := by
  cases name with
  | nil => simp [Unsigned]
  | cons c cs =>
    have hhead := hother _ (head?_of_lowered hname)
    apply unsigned_of_head
    · rintro rfl
      exact hhead.1 rfl
    · rintro rfl
      exact hhead.2 rfl

theorem toLower_of_numeral {c : Char} (hc : isDigit c = true ∨ c = '.') :
    c.toLower ≠ 'i' ∧ c.toLower ≠ 'n' := by
  rcases hc with hc | rfl
  · obtain ⟨k, hk, rfl⟩ := exists_eq_digit hc
    have hdigits : ∀ k < 10, (digit k).toLower ≠ 'i' ∧ (digit k).toLower ≠ 'n' := by decide
    exact hdigits k hk
  · decide

theorem unsigned_of_numeral {c : Char} {cs : List Char} (hc : isDigit c = true ∨ c = '.') :
    Unsigned (c :: cs) := by
  rcases hc with hc | rfl
  · exact unsigned_of_isDigit hc
  · exact unsigned_of_head (by decide) (by decide)

theorem real?_eq (cs : List Char) :
    real? cs =
      let name := String.ofList ((takeSign cs).2.map Char.toLower)
      if name = "inf" ∨ name = "infinity" then some (.infinity (takeSign cs).1)
      else if name = "nan" then some .nan
      else decimal? (takeSign cs).1 (takeSign cs).2 :=
  rfl

theorem isDecimal_of_real? {cs : List Char} {d : Double} (h : real? cs = some d) :
    IsDecimal cs d := by
  obtain ⟨sign, hsign, hcs⟩ := exists_sign cs
  rw [hcs]
  rw [real?_eq] at h
  dsimp only at h
  split at h
  · next hname =>
    obtain rfl := Option.some.inj h
    exact .infinity hsign hname
  · split at h
    · next hname =>
      obtain rfl := Option.some.inj h
      exact .nan hsign hname
    · obtain ⟨whole, point, fraction, exponent, e, hbody, hwhole, hpoint, hne, hexponent, rfl⟩ :=
        decimal?_eq_some_iff.mp h
      rw [hbody]
      exact .digits hsign hwhole hpoint hne hexponent

theorem real?_of_isDecimal {cs : List Char} {d : Double} (h : IsDecimal cs d) :
    real? cs = some d := by
  rw [real?_eq]
  cases h with
  | infinity hsign hname =>
    have hunsigned := hname.elim (unsigned_of_named · (by simp)) (unsigned_of_named · (by simp))
    rw [takeSign_append hsign hunsigned]
    exact if_pos hname
  | nan hsign hname =>
    have hunsigned := unsigned_of_named hname (by simp)
    rw [takeSign_append hsign hunsigned]
    simp [hname]
  | @digits sign whole point fraction exponent negative e hsign hwhole hpoint hne hexponent =>
    obtain ⟨c, cs, hbody, hc⟩ := exists_head_of_decimal hwhole hpoint hne exponent
    obtain ⟨hi, hn⟩ := toLower_of_numeral hc
    have hdecimal : decimal? negative (whole ++ (point ++ exponent)) = some _ :=
      decimal?_eq_some_iff.mpr
        ⟨whole, point, fraction, exponent, e, rfl, hwhole, hpoint, hne, hexponent, rfl⟩
    rw [hbody] at hdecimal ⊢
    rw [takeSign_append hsign (unsigned_of_numeral hc)]
    -- none of the names starts as a decimal does
    have hname : ∀ other, String.ofList ((c :: cs).map Char.toLower) = other →
        other.toList.head? = some 'i' ∨ other.toList.head? = some 'n' → False := by
      intro other hother hhead
      rw [head?_of_lowered hother] at hhead
      rcases hhead with h | h
      · exact hi (Option.some.inj h)
      · exact hn (Option.some.inj h)
    dsimp only
    rw [if_neg, if_neg, hdecimal]
    · exact fun h => hname _ h (.inr rfl)
    · rintro (h | h)
      · exact hname _ h (.inl rfl)
      · exact hname _ h (.inl rfl)

theorem real?_eq_some_iff {cs : List Char} {d : Double} :
    real? cs = some d ↔ IsDecimal cs d :=
  ⟨isDecimal_of_real?, real?_of_isDecimal⟩

end ConversationSearch.Text
