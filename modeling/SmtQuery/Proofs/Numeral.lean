import Mathlib
import SmtQuery.Numeral

/-!
# Numerals read back

Writing a number and reading it again gives the number.  `Nat.toDigits` is what
writes, `Numeral.value` is what reads, and the two meet in `value_toDigits`;
everything else here is bookkeeping about the texts in between.

* `value_append`, `value_replicate_zero`: the value is positional, so zeros in front do not count.
* `value_toDigits`, `value_padded`: the digits of `n` have the value `n`, with or without padding.
* `value_lt_weight`: a value fits the number of its digits.
* `length_padded_eq_iff`: padding gives the width asked for exactly when the number fits it.
* `padded_value`: every numeral is its value, padded, since length and value tell a numeral.
* `wrap_lt`, `wrap_modEq`: the residue of an integer modulo a width.

What a digit cannot be is said once, by `ne_of_isDigit`: a character that is no digit of any base
differs from every digit.  This is how a numeral is told from other text throughout.
-/

namespace SmtQuery
namespace Numeral

/-! ## Digits -/

theorem weight_eq (base place : ℕ) : weight base place = base ^ place := rfl

/-- The digits that are written are the digits that are read. -/
theorem digitOf_digitChar {d : ℕ} (h : d < 16) : digitOf (Nat.digitChar d) = d := by
  have key : ∀ d < 16, digitOf (Nat.digitChar d) = d := by decide
  exact key d h

/-- A character that is a digit of no base in use is not a digit. -/
theorem ne_of_isDigit {base : ℕ} {c d : Char} (hbase : base ≤ 36) (hc : isDigit base c = true)
    (hd : digitOf d = 36) : c ≠ d := by
  rintro rfl
  rw [isDigit, decide_eq_true_eq, hd] at hc
  omega

theorem isDigit_of_mem_toDigits {base n : ℕ} {c : Char} (h1 : 1 < base) (h16 : base ≤ 16)
    (hc : c ∈ Nat.toDigits base n) : isDigit base c = true := by
  induction n using Nat.strong_induction_on with
  | _ n ih =>
    have hlast : ∀ d < base, isDigit base (Nat.digitChar d) = true := by
      intro d hd
      rw [isDigit, digitOf_digitChar (by omega)]
      exact decide_eq_true hd
    rw [Nat.toDigits_eq_if h1] at hc
    split at hc
    · next hn =>
      rw [List.mem_singleton] at hc
      rw [hc]
      exact hlast n hn
    · next hn =>
      rw [List.mem_append, List.mem_singleton] at hc
      rcases hc with hc | rfl
      · exact ih (n / base) (Nat.div_lt_self (by omega) h1) hc
      · exact hlast _ (Nat.mod_lt _ (by omega))

theorem all_isDigit_toDigits {base : ℕ} (h1 : 1 < base) (h16 : base ≤ 16) (n : ℕ) :
    (Nat.toDigits base n).all (isDigit base) = true :=
  List.all_eq_true.2 fun _ hc => isDigit_of_mem_toDigits h1 h16 hc

/-! ## Values -/

theorem value_nil (base : ℕ) : value base [] = 0 := rfl

theorem value_concat (base : ℕ) (text : List Char) (c : Char) :
    value base (text ++ [c]) = base * value base text + digitOf c := by
  rw [value, List.foldl_append]
  rfl

/-- The value is positional: what stands in front is shifted by the digits behind. -/
theorem value_append (base : ℕ) (front back : List Char) :
    value base (front ++ back) = value base front * weight base back.length + value base back := by
  induction back using List.reverseRecOn with
  | nil => rw [List.append_nil, List.length_nil, weight_eq, pow_zero, mul_one, value_nil, add_zero]
  | append_singleton back c ih =>
    rw [← List.append_assoc, value_concat, ih, value_concat, List.length_append,
      List.length_singleton, weight_eq, weight_eq, pow_succ]
    ring

/-- Zeros in front do not count. -/
theorem value_replicate_zero (base n : ℕ) (text : List Char) :
    value base (List.replicate n '0' ++ text) = value base text := by
  have hzero : value base (List.replicate n '0') = 0 := by
    induction n with
    | zero => rfl
    | succ n ih =>
      rw [List.replicate_succ', value_concat, ih]
      rfl
  rw [value_append, hzero, zero_mul, zero_add]

/-- **The digits of a number have its value.** -/
theorem value_toDigits {base : ℕ} (h1 : 1 < base) (h16 : base ≤ 16) (n : ℕ) :
    value base (Nat.toDigits base n) = n := by
  induction n using Nat.strong_induction_on with
  | _ n ih =>
    rw [Nat.toDigits_eq_if h1]
    split
    · next hn =>
      show base * 0 + digitOf (Nat.digitChar n) = n
      rw [digitOf_digitChar (by omega), mul_zero, zero_add]
    · next hn =>
      have hmod : n % base < base := Nat.mod_lt _ (by omega)
      rw [value_concat, ih _ (Nat.div_lt_self (by omega) h1), digitOf_digitChar (by omega)]
      exact Nat.div_add_mod n base

/-- A value fits the number of its digits. -/
theorem value_lt_weight {base : ℕ} {text : List Char}
    (h : ∀ c ∈ text, isDigit base c = true) : value base text < weight base text.length := by
  induction text using List.reverseRecOn with
  | nil => rw [value_nil, List.length_nil, weight_eq, pow_zero]; exact one_pos
  | append_singleton text c ih =>
    have hvalue := ih fun d hd => h d (List.mem_append_left _ hd)
    have hc : digitOf c < base :=
      of_decide_eq_true (h c (List.mem_append_right _ (List.mem_singleton_self c)))
    rw [value_concat, List.length_append, List.length_singleton, weight_eq, pow_succ]
    rw [weight_eq] at hvalue
    calc base * value base text + digitOf c
        < base * value base text + base := Nat.add_lt_add_left hc _
      _ = base * (value base text + 1) := by ring
      _ ≤ base * base ^ text.length := Nat.mul_le_mul_left _ hvalue
      _ = base ^ text.length * base := Nat.mul_comm _ _

theorem isNumeral_toDigits {base : ℕ} (h1 : 1 < base) (h16 : base ≤ 16) (n : ℕ) :
    isNumeral base (Nat.toDigits base n) = true := by
  rw [isNumeral, all_isDigit_toDigits h1 h16, Bool.and_true, Bool.not_eq_true',
    List.isEmpty_eq_false_iff]
  exact Nat.toDigits_ne_nil

theorem read?_toDigits {base : ℕ} (h1 : 1 < base) (h16 : base ≤ 16) (n : ℕ) :
    read? base (Nat.toDigits base n) = some n := by
  rw [read?, if_pos (isNumeral_toDigits h1 h16 n), value_toDigits h1 h16]

theorem isNumeral_iff {base : ℕ} {text : List Char} :
    isNumeral base text = true ↔ text ≠ [] ∧ ∀ c ∈ text, isDigit base c = true := by
  rw [isNumeral, Bool.and_eq_true, Bool.not_eq_true', List.isEmpty_eq_false_iff, List.all_eq_true]

/-- With zeros in front a numeral is still one. -/
theorem isNumeral_replicate_zero {base : ℕ} {text : List Char} (hbase : 0 < base) (n : ℕ)
    (h : isNumeral base text = true) : isNumeral base (List.replicate n '0' ++ text) = true := by
  obtain ⟨hne, hdigits⟩ := isNumeral_iff.1 h
  refine isNumeral_iff.2 ⟨List.append_ne_nil_of_right_ne_nil _ hne, ?_⟩
  refine List.forall_mem_append.2 ⟨fun c hc => ?_, hdigits⟩
  rw [List.eq_of_mem_replicate hc]
  exact decide_eq_true hbase

/-- A numeral starts with a digit. -/
theorem head?_ne_of_isNumeral {base : ℕ} {text : List Char} {d : Char} (hbase : base ≤ 36)
    (h : isNumeral base text = true) (hd : digitOf d = 36) : text.head? ≠ some d := by
  intro he
  have hmem : d ∈ text := List.mem_of_mem_head? he
  exact ne_of_isDigit hbase ((isNumeral_iff.1 h).2 d hmem) hd rfl

/-! ## Padding -/

theorem padded_eq (base width n : ℕ) :
    padded base width n =
      List.replicate (width - (Nat.toDigits base n).length) '0' ++ Nat.toDigits base n := rfl

theorem padded_ne_nil (base width n : ℕ) : padded base width n ≠ [] := by
  rw [padded_eq]
  exact List.append_ne_nil_of_right_ne_nil _ Nat.toDigits_ne_nil

theorem isNumeral_padded {base : ℕ} (h1 : 1 < base) (h16 : base ≤ 16) (width n : ℕ) :
    isNumeral base (padded base width n) = true := by
  rw [padded_eq]
  exact isNumeral_replicate_zero (by omega) _ (isNumeral_toDigits h1 h16 n)

theorem isDigit_of_mem_padded {base width n : ℕ} {c : Char} (h1 : 1 < base) (h16 : base ≤ 16)
    (hc : c ∈ padded base width n) : isDigit base c = true :=
  (isNumeral_iff.1 (isNumeral_padded h1 h16 width n)).2 c hc

theorem value_padded {base : ℕ} (h1 : 1 < base) (h16 : base ≤ 16) (width n : ℕ) :
    value base (padded base width n) = n := by
  rw [padded_eq, value_replicate_zero, value_toDigits h1 h16]

theorem length_padded (base width n : ℕ) :
    (padded base width n).length = max width (Nat.toDigits base n).length := by
  rw [padded_eq, List.length_append, List.length_replicate]
  omega

/-- Padding gives exactly the width asked for when the number fits it, and only
then: a text of width zero would have no digit at all. -/
theorem length_padded_eq_iff {base width n : ℕ} (h1 : 1 < base) :
    (padded base width n).length = width ↔ 0 < width ∧ n < weight base width := by
  rw [length_padded, max_eq_left_iff]
  rcases Nat.eq_zero_or_pos width with rfl | hw
  · exact iff_of_false (not_le.2 Nat.length_toDigits_pos) fun h => lt_irrefl 0 h.1
  · rw [Nat.length_toDigits_le_iff h1 hw, weight_eq]
    exact ⟨fun h => ⟨hw, h⟩, fun h => h.2⟩

/-! ## Numerals of one length -/

/-- Decimal digits of one value are the same digit. -/
theorem eq_of_digitOf_eq {c d : Char} (hc : isDigit 10 c = true) (hd : isDigit 10 d = true)
    (h : digitOf c = digitOf d) : c = d := by
  have hrange : ∀ {c : Char}, isDigit 10 c = true → '0' ≤ c ∧ digitOf c = c.toNat - '0'.toNat := by
    intro c hc
    rw [isDigit, decide_eq_true_eq] at hc
    unfold digitOf at hc ⊢
    split at hc
    · next hdigit => exact ⟨hdigit.1, if_pos hdigit⟩
    · split at hc
      · omega
      · split at hc <;> omega
  obtain ⟨hlow, hvalue⟩ := hrange hc
  obtain ⟨hlow', hvalue'⟩ := hrange hd
  have hle : '0'.toNat ≤ c.toNat := hlow
  have hle' : '0'.toNat ≤ d.toNat := hlow'
  rw [hvalue, hvalue'] at h
  exact Char.toNat_inj.1 (by omega)

/-- **A numeral is known by its length and its value.** -/
theorem eq_of_value_eq {s t : List Char} (hs : ∀ c ∈ s, isDigit 10 c = true)
    (ht : ∀ c ∈ t, isDigit 10 c = true) (hlength : s.length = t.length)
    (h : value 10 s = value 10 t) : s = t := by
  induction s using List.reverseRecOn generalizing t with
  | nil => exact (List.length_eq_zero_iff.1 hlength.symm).symm
  | append_singleton s c ih =>
    rcases List.eq_nil_or_concat' t with rfl | ⟨t, d, rfl⟩
    · exact absurd hlength (by simp)
    · rw [List.forall_mem_append, List.forall_mem_singleton] at hs ht
      have hc : digitOf c < 10 := of_decide_eq_true hs.2
      have hd : digitOf d < 10 := of_decide_eq_true ht.2
      rw [value_concat, value_concat] at h
      rw [ih hs.1 ht.1 (by simpa using hlength) (by omega),
        eq_of_digitOf_eq hs.2 ht.2 (by omega)]

/-- **Every numeral is a padded one.** -/
theorem padded_value {text : List Char} (h : isNumeral 10 text = true) :
    padded 10 text.length (value 10 text) = text := by
  obtain ⟨hne, hdigits⟩ := isNumeral_iff.1 h
  have hlength : (padded 10 text.length (value 10 text)).length = text.length :=
    (length_padded_eq_iff (by omega)).2 ⟨List.length_pos_iff.2 hne, value_lt_weight hdigits⟩
  exact eq_of_value_eq (fun c => isDigit_of_mem_padded (by omega) (by omega)) hdigits hlength
    (value_padded (by omega) (by omega) _ _)

/-! ## Residues -/

/-- A residue is smaller than the modulus. -/
theorem wrap_lt (width : ℕ) (n : ℤ) : wrap width n < weight 2 width := by
  have hpos : (0 : ℤ) < weight 2 width := Int.ofNat_lt.2 (Nat.two_pow_pos width)
  have h := Int.emod_lt_of_pos n hpos
  rw [← wrap_eq_emod] at h
  exact Int.ofNat_lt.1 h

/-- A residue agrees with the number modulo the width. -/
theorem wrap_modEq (width : ℕ) (n : ℤ) : (wrap width n : ℤ) ≡ n [ZMOD weight 2 width] := by
  rw [wrap_eq_emod]
  exact Int.mod_modEq n _

/-- Reduction modulo the width is idempotent. -/
theorem wrap_wrap (width : ℕ) (n : ℤ) : wrap width (wrap width n) = wrap width n := by
  have h : (wrap width (wrap width n) : ℤ) = wrap width n := by
    rw [wrap_eq_emod, wrap_eq_emod, Int.emod_emod_of_dvd _ (dvd_refl _)]
  exact Int.ofNat_inj.1 h

end Numeral
end SmtQuery
