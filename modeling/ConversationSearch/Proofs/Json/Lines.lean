import ConversationSearch.Proofs.Json.Tokens

/-!
# Values on one line

The text that a value is written as without blanks has no control characters, whatever is in its
strings and keys: there they are escaped, and nothing else of the text is one. So it has no line
breaks.
-/

namespace ConversationSearch.Json

/-- No character is a control character. -/
def IsPrintable (cs : List Char) : Prop :=
  ∀ c ∈ cs, 32 ≤ c.toNat

instance (cs : List Char) : Decidable (IsPrintable cs) :=
  decidable_of_iff (cs.all fun c => 32 ≤ c.toNat) (by simp [IsPrintable])

section Parts

variable {c : Char} {cs ds : List Char}

theorem isPrintable_cons :
    IsPrintable (c :: cs) ↔ 32 ≤ c.toNat ∧ IsPrintable cs :=
  List.forall_mem_cons

theorem isPrintable_append :
    IsPrintable (cs ++ ds) ↔ IsPrintable cs ∧ IsPrintable ds :=
  List.forall_mem_append

theorem isPrintable_ite {p : Prop} [Decidable p] (hcs : IsPrintable cs) (hds : IsPrintable ds) :
    IsPrintable (if p then cs else ds) := by
  split
  · exact hcs
  · exact hds

theorem IsPrintable.subset (hds : IsPrintable ds) (h : cs ⊆ ds) :
    IsPrintable cs :=
  fun c hc => hds c (h hc)

theorem isPrintable_replicate (hc : 32 ≤ c.toNat) (count : Nat) :
    IsPrintable (List.replicate count c) := by
  intro d hd
  rwa [List.eq_of_mem_replicate hd]

theorem isPrintable_digits (n : Nat) :
    IsPrintable (Text.digits n) := by
  intro c hc
  have hdigit := (Text.toNat_of_isDigit (Text.isDigit_of_mem_digits hc)).1
  omega

end Parts

/-! ## Strings -/

theorem isPrintable_escape (c : Char) :
    IsPrintable (Quoted.escape c) := by
  have hletters : ∀ p ∈ Quoted.letters, IsPrintable (Quoted.escape p.2) := by decide
  have hcontrols : ∀ n < 32, IsPrintable
      ['\\', 'u', '0', '0', Text.hexDigit (n / 16), Text.hexDigit (n % 16)] := by decide
  rcases Quoted.escape_cases c with ⟨p, hp, rfl⟩ | ⟨hcontrol, hescape⟩ | ⟨-, -, hplain, hescape⟩
  · exact hletters p hp
  · rw [hescape]
    exact hcontrols c.toNat hcontrol
  · rw [hescape]
    exact isPrintable_cons.mpr ⟨Nat.not_lt.mp hplain, List.forall_mem_nil _⟩

theorem isPrintable_encode (s : String) :
    IsPrintable (Quoted.encode s) := by
  have hescaped : IsPrintable (s.toList.flatMap Quoted.escape) := by
    intro d hd
    obtain ⟨c, -, hc⟩ := List.mem_flatMap.mp hd
    exact isPrintable_escape c d hc
  exact isPrintable_append.mpr ⟨isPrintable_cons.mpr ⟨by decide, hescaped⟩, by decide⟩

/-! ## Numbers -/

theorem isPrintable_positional {digits : List Char} (hdigits : IsPrintable digits) (point : Int) :
    IsPrintable (Double.positional digits point).1 ∧
      IsPrintable (Double.positional digits point).2 := by
  have hzeros := isPrintable_replicate (c := '0') (by decide)
  unfold Double.positional
  split
  · exact ⟨hzeros 1, isPrintable_append.mpr ⟨hzeros _, hdigits⟩⟩
  · exact ⟨isPrintable_append.mpr ⟨hdigits.subset (List.take_subset _ _), hzeros _⟩,
      hdigits.subset (List.drop_subset _ _)⟩

theorem isPrintable_exponent (e : Int) :
    IsPrintable ('e' :: (if e < 0 then '-' else '+') :: Text.digits e.natAbs) := by
  have hsign : 32 ≤ (if e < 0 then '-' else '+').toNat := by
    split <;> decide
  exact isPrintable_cons.mpr ⟨by decide, isPrintable_cons.mpr ⟨hsign, isPrintable_digits _⟩⟩

theorem isPrintable_text (d : Double) :
    IsPrintable d.text := by
  have hdigits := isPrintable_digits d.magnitude.digits
  obtain ⟨hwhole, hplaces⟩ := isPrintable_positional hdigits d.pointOf
  have hfraction := isPrintable_cons.mpr
    ⟨(by decide : 32 ≤ '.'.toNat), isPrintable_ite
      (p := (Double.positional (Text.digits d.magnitude.digits) d.pointOf).2.isEmpty)
      (by decide : IsPrintable ['0']) hplaces⟩
  have hrest := hdigits.subset (List.drop_subset 1 _)
  have hmore := isPrintable_ite
    (p := ((Text.digits d.magnitude.digits).drop 1).isEmpty)
    (List.forall_mem_nil _) (isPrintable_cons.mpr ⟨(by decide : 32 ≤ '.'.toNat), hrest⟩)
  have hbody := isPrintable_ite (p := -4 ≤ d.pointOf ∧ d.pointOf ≤ 16)
    (isPrintable_append.mpr ⟨hwhole, hfraction⟩)
    (isPrintable_append.mpr ⟨isPrintable_append.mpr
      ⟨hdigits.subset (List.take_subset 1 _), hmore⟩, isPrintable_exponent (d.pointOf - 1)⟩)
  exact isPrintable_ite (isPrintable_cons.mpr ⟨by decide, hbody⟩) hbody

theorem isPrintable_number (n : Number) :
    IsPrintable n.text := by
  cases n with
  | real d => exact isPrintable_text d
  | int k =>
    cases k with
    | ofNat k => exact isPrintable_digits k
    | negSucc k => exact isPrintable_cons.mpr ⟨by decide, isPrintable_digits (k + 1)⟩

/-! ## Values -/

mutual

theorem isPrintable_compactChars (j : Json) :
    IsPrintable j.compactChars :=
  match j with
  | .null => by decide
  | .bool true => by decide
  | .bool false => by decide
  | .number n => isPrintable_number n
  | .string s => isPrintable_encode s
  | .array items => isPrintable_append.mpr
      ⟨isPrintable_cons.mpr ⟨by decide, isPrintable_compactItems items⟩, by decide⟩
  | .object members => isPrintable_append.mpr
      ⟨isPrintable_cons.mpr ⟨by decide, isPrintable_compactMembers members⟩, by decide⟩

theorem isPrintable_compactItems (items : List Json) :
    IsPrintable (compactItems items) :=
  match items with
  | [] => List.forall_mem_nil _
  | [item] => isPrintable_compactChars item
  | item :: next :: rest => isPrintable_append.mpr ⟨isPrintable_compactChars item,
      isPrintable_cons.mpr ⟨by decide, isPrintable_compactItems (next :: rest)⟩⟩

theorem isPrintable_compactMembers (members : List (String × Json)) :
    IsPrintable (compactMembers members) :=
  match members with
  | [] => List.forall_mem_nil _
  | [(key, value)] => isPrintable_append.mpr ⟨isPrintable_encode key,
      isPrintable_cons.mpr ⟨by decide, isPrintable_compactChars value⟩⟩
  | (key, value) :: next :: rest => isPrintable_append.mpr
      ⟨isPrintable_append.mpr ⟨isPrintable_encode key,
        isPrintable_cons.mpr ⟨by decide, isPrintable_compactChars value⟩⟩,
        isPrintable_cons.mpr ⟨by decide, isPrintable_compactMembers (next :: rest)⟩⟩

end

/-- The text of a value has no line breaks. -/
theorem newline_not_mem_compactChars (j : Json) :
    '\n' ∉ j.compactChars := by
  intro h
  exact absurd (isPrintable_compactChars j '\n' h) (by decide)

end ConversationSearch.Json
