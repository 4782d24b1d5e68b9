import ConversationSearch.Proofs.Text.Cutting
import ConversationSearch.Text.Digits

/-!
# Numbers and their digits

The digits that a number is written with are digits, there are as many of them as asked for, and
they stand for the number again. So a number that is written in front of something else is read
back, and what stood behind it is left. A run of digits is the number it stands for, padded to the
length of the run.
-/

namespace ConversationSearch.Text

theorem digitValue?_digit (n : Nat) :
    digitValue? (digit n) = some (n % 10) := by
  have hvalues : ∀ k < 10, digitValue? (Char.ofNat ('0'.toNat + k)) = some k := by decide
  exact hvalues (n % 10) (Nat.mod_lt n (by decide))

theorem isDigit_digit (n : Nat) :
    isDigit (digit n) = true := by
  simp [isDigit, digitValue?_digit]

theorem toNat_of_isDigit {c : Char} (hc : isDigit c = true) :
    48 ≤ c.toNat ∧ c.toNat ≤ 57 := by
  have hrange : '0' ≤ c ∧ c ≤ '9' := by
    by_contra h
    simp [isDigit, digitValue?, h] at hc
  exact hrange

/-- A digit is no blank. -/
theorem isBlank_of_isDigit {c : Char} (hc : isDigit c = true) :
    isBlank c = false := by
  obtain ⟨hlow, hhigh⟩ := toNat_of_isDigit hc
  have hne : ∀ n : Nat, 57 < n → (c.toNat == n) = false := by
    intro n hn
    simp only [beq_eq_false_iff_ne]
    omega
  simp only [isBlank, hne 0x85 (by omega), hne 0xA0 (by omega), hne 0x1680 (by omega),
    hne 0x2028 (by omega), hne 0x2029 (by omega), hne 0x202F (by omega), hne 0x205F (by omega),
    hne 0x3000 (by omega), Bool.or_false, Bool.or_eq_false_iff, Bool.and_eq_false_iff,
    decide_eq_false_iff_not, beq_eq_false_iff_ne]
  omega

theorem number_append_digit (cs : List Char) (n : Nat) :
    number (cs ++ [digit n]) = 10 * number cs + n % 10 := by
  simp [number, List.foldl_append, digitValue?_digit]

theorem number_append_zeros (cs : List Char) (count : Nat) :
    number (cs ++ List.replicate count '0') = number cs * Nat.pow 10 count := by
  have hzero : '0' = digit 0 := by decide
  induction count with
  | zero => simp
  | succ count ih =>
    have hpow : Nat.pow 10 (count + 1) = Nat.pow 10 count * 10 := rfl
    rw [List.replicate_succ', ← List.append_assoc, hzero, number_append_digit, ← hzero, ih,
      Nat.mul_comm 10, hpow, Nat.mul_assoc, Nat.zero_mod, Nat.add_zero]

/-! ## Padded numbers -/

theorem length_padded (width n : Nat) :
    (padded width n).length = width := by
  induction width generalizing n with
  | zero => rfl
  | succ width ih => simp [padded, ih]

theorem padded_ne_nil {width : Nat} (hwidth : 0 < width) (n : Nat) :
    padded width n ≠ [] :=
  List.ne_nil_of_length_pos (by rw [length_padded]; exact hwidth)

theorem isDigit_of_mem_padded {width n : Nat} {c : Char} (hc : c ∈ padded width n) :
    isDigit c = true := by
  induction width generalizing n with
  | zero => contradiction
  | succ width ih =>
    rcases List.mem_append.mp hc with hc | hc
    · exact ih hc
    · rw [List.mem_singleton.mp hc]
      exact isDigit_digit n

theorem number_padded {width n : Nat} (hn : n < Nat.pow 10 width) :
    number (padded width n) = n := by
  induction width generalizing n with
  | zero =>
    obtain rfl : n = 0 := Nat.lt_one_iff.mp hn
    rfl
  | succ width ih =>
    have hpow : Nat.pow 10 (width + 1) = Nat.pow 10 width * 10 := rfl
    have hrest : n / 10 < Nat.pow 10 width := by
      rw [hpow] at hn
      omega
    rw [padded, number_append_digit, ih hrest]
    omega

/-! ## Numbers without zeros in front -/

theorem isDigit_of_mem_digits {n : Nat} {c : Char} (hc : c ∈ digits n) :
    isDigit c = true := by
  fun_induction digits n with
  | case1 n hn =>
    rw [List.mem_singleton.mp hc]
    exact isDigit_digit n
  | case2 n hn ih =>
    rcases List.mem_append.mp hc with hc | hc
    · exact ih hc
    · rw [List.mem_singleton.mp hc]
      exact isDigit_digit n

theorem number_digits (n : Nat) :
    number (digits n) = n := by
  fun_induction digits n with
  | case1 n hn =>
    have hdigit := number_append_digit [] n
    have hempty : number [] = 0 := rfl
    rw [List.nil_append] at hdigit
    omega
  | case2 n hn ih =>
    rw [number_append_digit, ih]
    omega

theorem digits_ne_nil (n : Nat) :
    digits n ≠ [] := by
  fun_cases digits n with
  | case1 hn => simp
  | case2 hn => simp

theorem exists_head_digits (n : Nat) :
    ∃ c cs, digits n = c :: cs ∧ isDigit c = true := by
  obtain ⟨c, cs, hdigits⟩ := List.exists_cons_of_ne_nil (digits_ne_nil n)
  exact ⟨c, cs, hdigits, isDigit_of_mem_digits (n := n) (by rw [hdigits]; exact List.mem_cons_self)⟩

/-- Only the number zero is written with a zero in front. -/
theorem digits_zero_front {n : Nat} {cs : List Char} (h : digits n = '0' :: cs) :
    cs = [] := by
  fun_induction digits n generalizing cs with
  | case1 n hn => exact (List.cons.inj h).2.symm
  | case2 n hn ih =>
    obtain ⟨c, front, hfront, -⟩ := exists_head_digits (n / 10)
    rw [hfront, List.cons_append] at h
    obtain ⟨rfl, -⟩ := List.cons.inj h
    obtain rfl := ih hfront
    have hzero := number_digits (n / 10)
    rw [hfront] at hzero
    have : number ['0'] = 0 := rfl
    omega

theorem number_atLeast (width n : Nat) :
    number (atLeast width n) = n := by
  unfold atLeast
  split
  · next hn => exact number_padded hn
  · exact number_digits n

/-- The digits of a number are those of its usual text. -/
theorem ofList_digits (n : Nat) :
    String.ofList (digits n) = toString n := by
  have hdigit : ∀ k < 10, digit k = Nat.digitChar k := by decide
  have hdigits : digits n = Nat.toDigits 10 n := by
    induction n using digits.induct with
    | case1 n hn =>
      rw [digits, if_pos hn, Nat.toDigits_of_lt_base hn, hdigit n hn]
    | case2 n hn ih =>
      have hlast : digit n = Nat.digitChar (n % 10) := by
        rw [← hdigit (n % 10) (Nat.mod_lt n (by decide))]
        simp [digit]
      rw [digits, if_neg hn, Nat.toDigits_of_base_le (by decide) (Nat.not_lt.mp hn), ih, hlast]
  rw [hdigits, Nat.toString_eq_repr, Nat.repr_eq_ofList_toDigits]

/-! ## Runs of digits -/

theorem spanDigits_append {ds rest : List Char} {stop : Char}
    (hds : ∀ c ∈ ds, isDigit c = true) (hstop : isDigit stop = false) :
    spanDigits (ds ++ stop :: rest) = (ds, stop :: rest) := by
  have htake : ds.takeWhile isDigit = ds := List.takeWhile_eq_self_iff.mpr hds
  have hdrop : ds.dropWhile isDigit = [] := List.dropWhile_eq_nil_iff.mpr hds
  simp only [spanDigits, takeWhile_append_stop hstop, dropWhile_append_stop hstop, htake, hdrop,
    List.nil_append]

/-- No digit stands at the front. -/
def StopsDigits (cs : List Char) : Prop :=
  ∀ c rest, cs = c :: rest → isDigit c = false

theorem spanDigits_stops {ds rest : List Char} (hds : ∀ c ∈ ds, isDigit c = true)
    (hrest : StopsDigits rest) :
    spanDigits (ds ++ rest) = (ds, rest) := by
  cases rest with
  | nil =>
    have htake : ds.takeWhile isDigit = ds := List.takeWhile_eq_self_iff.mpr hds
    have hdrop : ds.dropWhile isDigit = [] := List.dropWhile_eq_nil_iff.mpr hds
    rw [List.append_nil, spanDigits, htake, hdrop]
  | cons c rest => exact spanDigits_append hds (hrest c rest rfl)

theorem exists_spanDigits (cs : List Char) :
    ∃ ds rest, cs = ds ++ rest ∧ (∀ c ∈ ds, isDigit c = true) ∧ StopsDigits rest := by
  refine ⟨cs.takeWhile isDigit, cs.dropWhile isDigit, List.takeWhile_append_dropWhile.symm,
    fun c hc => List.mem_takeWhile_imp hc, ?_⟩
  intro c rest hrest
  have hhead := List.head?_dropWhile_not isDigit cs
  rw [hrest] at hhead
  simpa using hhead

theorem exists_eq_digit {c : Char} (hc : isDigit c = true) :
    ∃ k < 10, c = digit k := by
  obtain ⟨hlow, hhigh⟩ := toNat_of_isDigit hc
  refine ⟨c.toNat - 48, by omega, ?_⟩
  have hmod : '0'.toNat + (c.toNat - 48) % 10 = c.toNat := by
    have hzero : '0'.toNat = 48 := rfl
    omega
  rw [digit, hmod, Char.ofNat_toNat]

theorem digit_mod (n : Nat) :
    digit (n % 10) = digit n := by
  rw [digit, digit, Nat.mod_mod]

theorem padded_succ (width n k : Nat) (hk : k < 10) :
    padded (width + 1) (10 * n + k) = padded width n ++ [digit k] := by
  have hdiv : (10 * n + k) / 10 = n := by omega
  have hmod : (10 * n + k) % 10 = k := by omega
  rw [padded, hdiv, ← digit_mod, hmod]

/-- A run of digits is its number, padded to the length of the run. -/
theorem padded_number {ds : List Char} (hds : ∀ c ∈ ds, isDigit c = true) :
    padded ds.length (number ds) = ds ∧ number ds < Nat.pow 10 ds.length := by
  induction ds using List.reverseRecOn with
  | nil => exact ⟨rfl, by decide⟩
  | append_singleton ds c ih =>
    obtain ⟨hfront, hbound⟩ := ih fun d hd => hds d (List.mem_append_left _ hd)
    obtain ⟨k, hk, rfl⟩ := exists_eq_digit (hds c (by simp))
    have hpow : Nat.pow 10 (ds.length + 1) = Nat.pow 10 ds.length * 10 := rfl
    rw [number_append_digit, Nat.mod_eq_of_lt hk, List.length_append, List.length_singleton,
      padded_succ _ _ _ hk, hfront, hpow]
    exact ⟨rfl, by omega⟩

theorem number_append (front back : List Char) (hback : ∀ c ∈ back, isDigit c = true) :
    number (front ++ back) = number front * Nat.pow 10 back.length + number back := by
  induction back using List.reverseRecOn with
  | nil => simp [number]
  | append_singleton back c ih =>
    obtain ⟨k, hk, rfl⟩ := exists_eq_digit (hback c (by simp))
    have hpow : Nat.pow 10 (back.length + 1) = Nat.pow 10 back.length * 10 := rfl
    rw [← List.append_assoc, number_append_digit, number_append_digit,
      ih fun d hd => hback d (List.mem_append_left _ hd), List.length_append,
      List.length_singleton, hpow, ← Nat.mul_assoc]
    omega

end ConversationSearch.Text
