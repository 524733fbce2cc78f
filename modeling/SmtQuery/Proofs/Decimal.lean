import Mathlib
import SmtQuery.Decimal
import SmtQuery.Proofs.Numeral

/-!
# Exact decimals read back

A decimal is a numeral, a point and a numeral; `readUnsigned?_eq_some_iff` says
that reading accepts exactly those texts and which rational it gives.  From it,
`read?_write?`: the exact decimal of a rational reads back as the rational.

The writer scales by a power of ten that clears the denominator, fills the digits with zeros and
splits them in front of the places; the two halves are the quotient and the remainder by that power
(`splitAt_padded`).  Reading joins them again and divides by the same power, so all that has to be
checked is that scaling lost nothing, which is `scaled_mul_den`, and that the places that were
counted are enough (`weight_mod_of_places?`).
-/

namespace SmtQuery
namespace Decimal

open Numeral

/-! ## What is read -/

theorem ne_point_of_isNumeral {text : List Char} (h : isNumeral 10 text = true) :
    ∀ c ∈ text, decide (c ≠ '.') = true := by
  intro c hc
  exact decide_eq_true (ne_of_isDigit (by omega) ((isNumeral_iff.1 h).2 c hc) rfl)

/-- **Unsigned decimals.**  A text is read exactly when it is a numeral, a point and a
numeral, and then it denotes the digits as a whole over a power of ten. -/
theorem readUnsigned?_eq_some_iff {text : List Char} {q : ℚ} :
    readUnsigned? text = some q ↔ ∃ whole frac, isNumeral 10 whole = true ∧
      isNumeral 10 frac = true ∧ text = whole ++ '.' :: frac ∧
      q = mkRat (value 10 (whole ++ frac)) (weight 10 frac.length) := by
  constructor
  · intro h
    have hsplit : text.takeWhile (· ≠ '.') ++ text.dropWhile (· ≠ '.') = text :=
      List.takeWhile_append_dropWhile
    have hhead := List.head?_dropWhile_not (fun c => decide (c ≠ '.')) text
    rw [readUnsigned?] at h
    split at h
    · next c frac hdrop =>
      split at h
      · next hnum =>
        rw [Bool.and_eq_true] at hnum
        rw [hdrop, List.head?_cons] at hhead
        have hc : c = '.' := by simpa using hhead
        rw [hdrop, hc] at hsplit
        exact ⟨_, frac, hnum.1, hnum.2, hsplit.symm, (Option.some.inj h).symm⟩
      · exact absurd h (by simp)
    · exact absurd h (by simp)
  · rintro ⟨whole, frac, hwhole, hfrac, rfl, rfl⟩
    have htake : ('.' :: frac).takeWhile (fun c => decide (c ≠ '.')) = [] := rfl
    have hdrop : ('.' :: frac).dropWhile (fun c => decide (c ≠ '.')) = '.' :: frac := rfl
    rw [readUnsigned?, List.takeWhile_append_of_pos (ne_point_of_isNumeral hwhole),
      List.dropWhile_append_of_pos (ne_point_of_isNumeral hwhole), htake, hdrop, List.append_nil]
    simp only [hwhole, hfrac, Bool.and_self, if_true]

theorem read?_neg (text : List Char) : read? ('-' :: text) = (readUnsigned? text).map (- ·) := by
  rw [read?]

theorem read?_of_head?_ne {text : List Char} (h : text.head? ≠ some '-') :
    read? text = readUnsigned? text := by
  rw [read?]
  rintro rest rfl
  exact h rfl

/-! ## Where the point goes -/

theorem weight_ten_pos (k : ℕ) : 0 < weight 10 k := by
  rw [weight_eq]
  positivity

/-- There are as many digits in front of the places as the quotient has. -/
theorem length_padded_succ (k n : ℕ) :
    (padded 10 (k + 1) n).length = (Nat.toDigits 10 (n / weight 10 k)).length + k := by
  have hle : ∀ i, 0 < i → ((padded 10 (k + 1) n).length ≤ i + k ↔
      (Nat.toDigits 10 (n / weight 10 k)).length ≤ i) := by
    intro i hi
    rw [length_padded, max_le_iff, Nat.length_toDigits_le_iff (by omega) (by omega),
      Nat.length_toDigits_le_iff (by omega) hi, Nat.div_lt_iff_lt_mul (weight_ten_pos k),
      weight_eq, ← pow_add]
    exact and_iff_right (by omega)
  have hlength : k + 1 ≤ (padded 10 (k + 1) n).length := by
    rw [length_padded]
    exact le_max_left _ _
  refine le_antisymm ((hle _ Nat.length_toDigits_pos).2 le_rfl) ?_
  have h := (hle ((padded 10 (k + 1) n).length - k) (by omega)).1 (by omega)
  omega

/-- The digits of a number, filled with zeros until there is one more of them than places, are those
of the quotient and the remainder by the weight of the place in front of the point. -/
theorem padded_succ {k : ℕ} (hk : 0 < k) (n : ℕ) : padded 10 (k + 1) n =
    Nat.toDigits 10 (n / weight 10 k) ++ padded 10 k (n % weight 10 k) := by
  have hplaces : (padded 10 k (n % weight 10 k)).length = k :=
    (length_padded_eq_iff (by omega)).2 ⟨hk, Nat.mod_lt _ (weight_ten_pos k)⟩
  refine eq_of_value_eq (fun c hc => isDigit_of_mem_padded (by omega) (by omega) hc)
    (List.forall_mem_append.2 ⟨fun c hc => isDigit_of_mem_toDigits (by omega) (by omega) hc,
      fun c hc => isDigit_of_mem_padded (by omega) (by omega) hc⟩) ?_ ?_
  · rw [length_padded_succ, List.length_append, hplaces]
  · rw [value_append, hplaces, value_padded (by omega) (by omega),
      value_padded (by omega) (by omega), value_toDigits (by omega) (by omega), Nat.div_add_mod']

/-- **Where the point goes**: in front of the last places. -/
theorem splitAt_padded {k : ℕ} (hk : 0 < k) (n : ℕ) :
    (padded 10 (k + 1) n).splitAt ((padded 10 (k + 1) n).length - k) =
      (Nat.toDigits 10 (n / weight 10 k), padded 10 k (n % weight 10 k)) := by
  have hwhole : (padded 10 (k + 1) n).length - k =
      (Nat.toDigits 10 (n / weight 10 k)).length := by
    rw [length_padded_succ, Nat.add_sub_cancel]
  rw [List.splitAt_eq, hwhole, padded_succ hk, List.take_left, List.drop_left]

/-! ## What is written -/

/-- The digits of the decimal with `k` places, without the point. -/
def scaled (k : ℕ) (q : ℚ) : ℕ := q.num.natAbs * weight 10 k / q.den

/-- The decimal with `k` places, without its sign. -/
def magnitude (k : ℕ) (q : ℚ) : List Char :=
  Nat.toDigits 10 (scaled k q / weight 10 k) ++ '.' :: padded 10 k (scaled k q % weight 10 k)

theorem withPlaces_eq {k : ℕ} (hk : 0 < k) (q : ℚ) :
    withPlaces k q = if q < 0 then '-' :: magnitude k q else magnitude k q := by
  have hsplit := splitAt_padded hk (scaled k q)
  rw [scaled] at hsplit
  simp only [withPlaces, hsplit]
  rfl

/-- Scaling by a power of ten that clears the denominator loses nothing. -/
theorem scaled_mul_den {k : ℕ} {q : ℚ} (h : weight 10 k % q.den = 0) :
    scaled k q * q.den = q.num.natAbs * weight 10 k :=
  Nat.div_mul_cancel (Dvd.dvd.mul_left (Nat.dvd_of_mod_eq_zero h) _)

/-- The absolute value as a quotient of natural numbers. -/
theorem abs_eq_div (q : ℚ) : |q| = (q.num.natAbs : ℚ) / (q.den : ℚ) := by
  conv_lhs => rw [← Rat.num_div_den q]
  rw [abs_div, Nat.abs_cast, Nat.cast_natAbs, Int.cast_abs]

theorem mkRat_scaled {k : ℕ} {q : ℚ} (h : weight 10 k % q.den = 0) :
    mkRat (scaled k q) (weight 10 k) = |q| := by
  have hw : ((weight 10 k : ℕ) : ℚ) ≠ 0 := Nat.cast_ne_zero.2 (weight_ten_pos k).ne'
  have hd : ((q.den : ℕ) : ℚ) ≠ 0 := Nat.cast_ne_zero.2 q.den_nz
  rw [Rat.mkRat_eq_div, abs_eq_div, Int.cast_natCast, div_eq_div_iff hw hd]
  exact_mod_cast scaled_mul_den h

/-- The unsigned decimal with enough places reads back as the absolute value. -/
theorem readUnsigned?_magnitude {k : ℕ} {q : ℚ} (hk : 0 < k) (h : weight 10 k % q.den = 0) :
    readUnsigned? (magnitude k q) = some |q| := by
  have hlen : (padded 10 k (scaled k q % weight 10 k)).length = k :=
    (length_padded_eq_iff (by omega)).2 ⟨hk, Nat.mod_lt _ (weight_ten_pos k)⟩
  rw [readUnsigned?_eq_some_iff]
  refine ⟨_, _, isNumeral_toDigits (by omega) (by omega) _,
    isNumeral_padded (by omega) (by omega) k _, rfl, ?_⟩
  rw [value_append, hlen, value_toDigits (by omega) (by omega),
    value_padded (by omega) (by omega), Nat.div_add_mod', mkRat_scaled h]

theorem head?_magnitude_ne (k : ℕ) (q : ℚ) : (magnitude k q).head? ≠ some '-' := by
  rw [magnitude, List.head?_append_of_ne_nil _ Nat.toDigits_ne_nil]
  exact head?_ne_of_isNumeral (by omega) (isNumeral_toDigits (by omega) (by omega) _) rfl

/-- A decimal with enough places reads back as the rational. -/
theorem read?_withPlaces {k : ℕ} {q : ℚ} (hk : 0 < k) (h : weight 10 k % q.den = 0) :
    read? (withPlaces k q) = some q := by
  rw [withPlaces_eq hk]
  split
  · next hq =>
    rw [read?_neg, readUnsigned?_magnitude hk h, Option.map_some, abs_of_neg hq, neg_neg]
  · next hq =>
    rw [read?_of_head?_ne (head?_magnitude_ne k q), readUnsigned?_magnitude hk h,
      abs_of_nonneg (not_lt.1 hq)]

/-- Nothing is lost when a factor is taken out. -/
theorem eq_of_strip? {factor rounds n count rest : ℕ}
    (h : strip? factor rounds n = some (count, rest)) : n = factor ^ count * rest := by
  induction rounds generalizing n count with
  | zero => exact absurd h (by simp [strip?])
  | succ rounds ih =>
    rw [strip?] at h
    split at h
    · next hmod =>
      obtain ⟨⟨count', rest'⟩, hstrip, heq⟩ := Option.map_eq_some_iff.1 h
      obtain ⟨rfl, rfl⟩ := Prod.mk.inj heq
      have hdiv : n / factor * factor = n := Nat.div_mul_cancel (Nat.dvd_of_mod_eq_zero hmod)
      rw [← hdiv, ih hstrip, pow_succ]
      ring
    · obtain ⟨rfl, rfl⟩ := Prod.mk.inj (Option.some.inj h)
      rw [pow_zero, one_mul]

/-- The places that are counted clear the denominator. -/
theorem weight_mod_of_places? {k : ℕ} {q : ℚ} (h : places? q = some k) :
    weight 10 k % q.den = 0 := by
  obtain ⟨⟨twos, half⟩, htwos, h⟩ := Option.bind_eq_some_iff.1 h
  obtain ⟨⟨fives, rest⟩, hfives, h⟩ := Option.bind_eq_some_iff.1 h
  obtain ⟨hrest, hk⟩ := Option.ite_none_right_eq_some.1 h
  have hden : q.den = 2 ^ twos * 5 ^ fives := by
    rw [eq_of_strip? htwos, eq_of_strip? hfives, show rest = 1 from hrest, mul_one]
  have hten : (10 : ℕ) ^ max twos fives = 2 ^ max twos fives * 5 ^ max twos fives := by
    rw [← Nat.mul_pow]
  rw [hden, weight_eq, ← Option.some.inj hk, hten]
  exact Nat.mod_eq_zero_of_dvd (Nat.mul_dvd_mul (pow_dvd_pow 2 (le_max_left _ _))
    (pow_dvd_pow 5 (le_max_right _ _)))

/-- One more place does no harm. -/
theorem weight_mod_max {k : ℕ} {q : ℚ} (h : weight 10 k % q.den = 0) :
    weight 10 (max k 1) % q.den = 0 := by
  refine Nat.mod_eq_zero_of_dvd ((Nat.dvd_of_mod_eq_zero h).trans ?_)
  rw [weight_eq, weight_eq]
  exact pow_dvd_pow 10 (le_max_left k 1)

/-- The written decimal has at least one place, and enough of them. -/
theorem write?_eq_some {q : ℚ} {text : List Char} (h : write? q = some text) :
    ∃ k, 0 < k ∧ weight 10 k % q.den = 0 ∧ text = withPlaces k q := by
  rw [write?, Option.map_eq_some_iff] at h
  obtain ⟨k, hk, rfl⟩ := h
  exact ⟨max k 1, by omega, weight_mod_max (weight_mod_of_places? hk), rfl⟩

/-- **Exact decimals read back.** -/
theorem read?_write? {q : ℚ} {text : List Char} (h : write? q = some text) :
    read? text = some q := by
  obtain ⟨k, hk, hden, rfl⟩ := write?_eq_some h
  exact read?_withPlaces hk hden

end Decimal
end SmtQuery
