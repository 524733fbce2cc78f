import Mathlib
import SmtQuery.Value
import SmtQuery.Proofs.Atom
import SmtQuery.Proofs.Decimal

/-!
# The places of an exact decimal

A rational has an exact decimal if some power of ten clears its denominator, and then the decimal
has as few places as that takes, but at least one.  How many that are can be told from the factors
of the denominator: take out the twos, then the fives, as often as they divide it.  If nothing but
one is left, the larger of the two counts is the least exponent of ten that clears it, and else none
does.

* `strip?_eq_factorization`: **the factors come to an end**: a number has been stripped of a prime
  after as many rounds as it has binary digits.
* `exists_strip`: what is left of a denominator decides which powers of ten clear it.
* `write?_eq_some_iff`: a text is written exactly if it is the shortest decimal of the rational, and
  there is one such text only (`IsExact`).
* `isExact_write`: all of this, and that two reals are never written alike.
-/

namespace SmtQuery
namespace Decimal

open Numeral

variable {q : ℚ} {k : ℕ}

/-! ## Powers of ten that clear a denominator -/

/-- Whether the rational is an integer once the point is moved this many places. -/
def ClearedBy (q : ℚ) (k : ℕ) : Prop := ∃ n : ℤ, q * 10 ^ k = n

theorem clearedBy_iff_dvd : ClearedBy q k ↔ q.den ∣ 10 ^ k := by
  have hden : (q.den : ℚ) ≠ 0 := Nat.cast_ne_zero.2 q.den_nz
  have hnum : q * q.den = q.num := Rat.mul_den_eq_num q
  constructor
  · rintro ⟨n, hn⟩
    have hcross : q.num * 10 ^ k = n * q.den := by
      have hrat : (q.num : ℚ) * 10 ^ k = n * q.den := by
        rw [← hnum, ← hn]
        ring
      exact_mod_cast hrat
    have hdvd : q.den ∣ q.num.natAbs * 10 ^ k := by
      have habs := congrArg Int.natAbs hcross
      rw [Int.natAbs_mul, Int.natAbs_mul, Int.natAbs_natCast, Int.natAbs_pow] at habs
      exact ⟨n.natAbs, habs.trans (Nat.mul_comm _ _)⟩
    exact q.reduced.symm.dvd_of_dvd_mul_left hdvd
  · rintro ⟨c, hc⟩
    refine ⟨q.num * c, ?_⟩
    have hpow : (10 : ℚ) ^ k = q.den * c := by exact_mod_cast hc
    rw [hpow, ← mul_assoc, hnum]
    push_cast
    rfl

theorem clearedBy_iff_mod : ClearedBy q k ↔ weight 10 k % q.den = 0 := by
  rw [clearedBy_iff_dvd, weight_eq, Nat.dvd_iff_mod_eq_zero]

/-! ## Taking out a factor -/

/-- **The rounds end.**  Each of them at least halves the number, so there are no more of them than
the number has binary digits.  What they find is the exponent of the prime in the number. -/
theorem strip?_eq_factorization {p n rounds : ℕ} (hp : p.Prime) (hn : n ≠ 0)
    (h : n < 2 ^ rounds) : strip? p rounds n = some (n.factorization p, ordCompl[p] n) := by
  induction rounds generalizing n with
  | zero => exact absurd h (by omega)
  | succ rounds ih =>
    rw [strip?]
    split
    · next hmod =>
      obtain ⟨m, rfl⟩ := Nat.dvd_of_mod_eq_zero hmod
      have hm : m ≠ 0 := right_ne_zero_of_mul hn
      have hlt : m < 2 ^ rounds := by
        have hle : 2 * m ≤ p * m := Nat.mul_le_mul_right m hp.two_le
        rw [pow_succ] at h
        omega
      rw [Nat.mul_div_cancel_left m hp.pos, ih hm hlt, Option.map_some,
        Nat.factorization_mul hp.ne_zero hm, Finsupp.add_apply, hp.factorization_self,
        Nat.add_comm 1, pow_succ', Nat.mul_div_mul_left _ _ hp.pos]
    · next hmod =>
      have hzero : n.factorization p = 0 :=
        Nat.factorization_eq_zero_of_not_dvd fun hdvd => hmod (Nat.mod_eq_zero_of_dvd hdvd)
      rw [hzero, pow_zero, Nat.div_one]

/-- Which powers of ten a product of twos, fives and something else divides. -/
theorem mul_dvd_ten_pow_iff {twos fives rest : ℕ} (h2 : Nat.Coprime 2 rest)
    (h5 : Nat.Coprime 5 rest) :
    2 ^ twos * (5 ^ fives * rest) ∣ 10 ^ k ↔ rest = 1 ∧ max twos fives ≤ k := by
  have hten : (10 : ℕ) ^ k = 2 ^ k * 5 ^ k := by rw [← Nat.mul_pow]
  constructor
  · intro h
    have htwos : 2 ^ twos ∣ 2 ^ k * 5 ^ k := hten ▸ (Dvd.intro _ rfl).trans h
    have hfives : 5 ^ fives ∣ 2 ^ k * 5 ^ k :=
      hten ▸ ((Dvd.intro _ rfl).trans (Dvd.intro_left _ rfl)).trans h
    have hrest : rest ∣ 2 ^ k * 5 ^ k :=
      hten ▸ ((Dvd.intro_left _ rfl).trans (Dvd.intro_left _ rfl)).trans h
    have hcoprime : Nat.Coprime rest (2 ^ k * 5 ^ k) :=
      Nat.Coprime.mul_right (h2.symm.pow_right k) (h5.symm.pow_right k)
    refine ⟨hcoprime.eq_one_of_dvd hrest, max_le ?_ ?_⟩
    · have h25 : Nat.Coprime (2 ^ twos) (5 ^ k) := Nat.Coprime.pow _ _ (by decide)
      exact (Nat.pow_dvd_pow_iff_le_right (by omega)).1 (h25.dvd_of_dvd_mul_right htwos)
    · have h52 : Nat.Coprime (5 ^ fives) (2 ^ k) := Nat.Coprime.pow _ _ (by decide)
      exact (Nat.pow_dvd_pow_iff_le_right (by omega)).1 (h52.dvd_of_dvd_mul_left hfives)
  · rintro ⟨rfl, hle⟩
    rw [mul_one, hten]
    exact Nat.mul_dvd_mul (pow_dvd_pow 2 ((le_max_left _ _).trans hle))
      (pow_dvd_pow 5 ((le_max_right _ _).trans hle))

/-- **What is left of a denominator.**  Its twos are taken out, and the fives of what remains; the
powers of ten that clear it can be told from the two counts and what is left in the end. -/
theorem exists_strip (q : ℚ) : ∃ twos half fives rest,
    (∀ rounds, q.den < 2 ^ rounds → strip? 2 rounds q.den = some (twos, half)) ∧
    (∀ rounds, half < 2 ^ rounds → strip? 5 rounds half = some (fives, rest)) ∧
    ∀ k, ClearedBy q k ↔ rest = 1 ∧ max twos fives ≤ k := by
  have hhalf : ordCompl[2] q.den ≠ 0 := (Nat.ordCompl_pos 2 q.den_nz).ne'
  have htwos := Nat.ordProj_mul_ordCompl_eq_self q.den 2
  have hfives := Nat.ordProj_mul_ordCompl_eq_self (ordCompl[2] q.den) 5
  have hcoprime := Nat.coprime_ordCompl Nat.prime_two q.den_nz
  refine ⟨_, _, _, _, fun _ => strip?_eq_factorization Nat.prime_two q.den_nz,
    fun _ => strip?_eq_factorization Nat.prime_five hhalf, fun k => ?_⟩
  rw [clearedBy_iff_dvd, ← mul_dvd_ten_pow_iff
    (hcoprime.coprime_dvd_right (Dvd.intro_left _ hfives))
    (Nat.coprime_ordCompl Nat.prime_five hhalf), hfives, htwos]

/-! ## The number of places -/

/-- The places are counted to the end, since there are rounds enough. -/
theorem places?_eq {twos half fives rest : ℕ}
    (htwos : ∀ rounds, q.den < 2 ^ rounds → strip? 2 rounds q.den = some (twos, half))
    (hfives : ∀ rounds, half < 2 ^ rounds → strip? 5 rounds half = some (fives, rest)) :
    places? q = if rest = 1 then some (max twos fives) else none := by
  simp only [places?, htwos _ Nat.lt_log2_self, hfives _ Nat.lt_log2_self, Option.bind_eq_bind,
    Option.bind_some]

theorem isLeast_max {least : ℕ} (h : ∀ k, ClearedBy q k ↔ least ≤ k) :
    IsLeast {k | 0 < k ∧ ClearedBy q k} (max least 1) :=
  ⟨⟨by omega, (h _).2 (le_max_left _ _)⟩, fun _ hk => max_le ((h _).1 hk.2) hk.1⟩

/-- **When a rational is written, and with how many places.** -/
theorem write?_eq_some_iff_isLeast {text : List Char} : write? q = some text ↔
    ∃ k, IsLeast {k | 0 < k ∧ ClearedBy q k} k ∧ text = withPlaces k q := by
  obtain ⟨twos, half, fives, rest, htwos, hfives, hcleared⟩ := exists_strip q
  rw [write?, places?_eq htwos hfives]
  split
  · next hrest =>
    have hleast : IsLeast {k | 0 < k ∧ ClearedBy q k} (max (max twos fives) 1) :=
      isLeast_max fun k => by rw [hcleared, and_iff_right hrest]
    rw [Option.map_some, Option.some.injEq]
    constructor
    · rintro rfl
      exact ⟨_, hleast, rfl⟩
    · rintro ⟨k, hk, rfl⟩
      rw [hk.unique hleast]
  · next hrest =>
    refine iff_of_false (by simp) ?_
    rintro ⟨k, hk, -⟩
    exact hrest ((hcleared k).1 hk.1.2).1

/-! ## The text -/

/-- Whether a numeral has no zeros in front but a zero that is its only digit. -/
def IsPlain (whole : List Char) : Prop :=
  isNumeral 10 whole = true ∧ (whole.head? = some '0' → whole = ['0'])

theorem isPlain_toDigits (n : ℕ) : IsPlain (Nat.toDigits 10 n) := by
  refine ⟨isNumeral_toDigits (by omega) (by omega) n, fun hhead => ?_⟩
  obtain ⟨tail, htext⟩ := List.head?_eq_some_iff.1 hhead
  have hvalue : value 10 tail = n := by
    have hzero := value_replicate_zero 10 1 tail
    rw [List.replicate_one, List.singleton_append, ← htext] at hzero
    rw [← hzero, value_toDigits (by omega) (by omega)]
  have hdigits : ∀ c ∈ tail, isDigit 10 c = true := fun c hc =>
    isDigit_of_mem_toDigits (n := n) (by omega) (by omega) (htext ▸ List.mem_cons_of_mem _ hc)
  cases tail with
  | nil => exact htext
  | cons c tail =>
    -- the number would fit fewer digits than it has
    have hlt := value_lt_weight hdigits
    rw [hvalue, weight_eq, ← Nat.length_toDigits_le_iff (by omega) (by simp), htext] at hlt
    simp at hlt

/-- A numeral without zeros in front is what its value is written as. -/
theorem IsPlain.toDigits_value {whole : List Char} (h : IsPlain whole) :
    Nat.toDigits 10 (value 10 whole) = whole := by
  have hpadded := padded_value h.1
  rw [padded_eq] at hpadded
  generalize hzeros : whole.length - (Nat.toDigits 10 (value 10 whole)).length = zeros at hpadded
  cases zeros with
  | zero => exact hpadded
  | succ zeros =>
    have hhead : whole.head? = some '0' := by
      rw [← hpadded]
      rfl
    rw [h.2 hhead]
    rfl

/-- A decimal: a minus sign for a negative rational, the whole part, a point and the places. -/
def joined (q : ℚ) (whole frac : List Char) : List Char :=
  if q < 0 then '-' :: (whole ++ '.' :: frac) else whole ++ '.' :: frac

theorem withPlaces_eq_joined (hk : 0 < k) (q : ℚ) : withPlaces k q =
    joined q (Nat.toDigits 10 (scaled k q / weight 10 k))
      (padded 10 k (scaled k q % weight 10 k)) :=
  withPlaces_eq hk q

/-- Whether the two numerals, with a point between them, are the exact decimal of the rational. -/
structure IsExact (q : ℚ) (whole frac : List Char) : Prop where
  plain : IsPlain whole
  isNumeral_frac : isNumeral 10 frac = true
  /-- There are as few places as clear the denominator, but at least one. -/
  fewest : IsLeast {k | 0 < k ∧ ClearedBy q k} frac.length
  read : read? (joined q whole frac) = some q

theorem isExact_withPlaces (h : IsLeast {k | 0 < k ∧ ClearedBy q k} k) :
    IsExact q (Nat.toDigits 10 (scaled k q / weight 10 k))
      (padded 10 k (scaled k q % weight 10 k)) where
  plain := isPlain_toDigits _
  isNumeral_frac := isNumeral_padded (by omega) (by omega) _ _
  fewest := by
    rwa [(length_padded_eq_iff (by omega)).2 ⟨h.1.1, Nat.mod_lt _ (weight_ten_pos k)⟩]
  read := by
    rw [← withPlaces_eq_joined h.1.1]
    exact read?_withPlaces h.1.1 (clearedBy_iff_mod.1 h.1.2)

namespace IsExact

variable {whole frac : List Char}

/-- The digits on both sides of the point are those of the scaled rational. -/
theorem value_append_eq (h : IsExact q whole frac) :
    value 10 (whole ++ frac) = scaled frac.length q := by
  have hnumber : readUnsigned? (whole ++ '.' :: frac) =
      some (mkRat (value 10 (whole ++ frac)) (weight 10 frac.length)) :=
    readUnsigned?_eq_some_iff.2 ⟨whole, frac, h.plain.1, h.isNumeral_frac, rfl, rfl⟩
  have habs : mkRat (value 10 (whole ++ frac)) (weight 10 frac.length) = |q| := by
    have hread := h.read
    rw [joined] at hread
    split at hread
    · next hq =>
      rw [read?_neg, hnumber, Option.map_some, Option.some.injEq] at hread
      rw [abs_of_neg hq, ← hread, neg_neg]
    · next hq =>
      have hhead : (whole ++ '.' :: frac).head? ≠ some '-' := by
        rw [List.head?_append_of_ne_nil _ (isNumeral_iff.1 h.plain.1).1]
        exact head?_ne_of_isNumeral (by omega) h.plain.1 rfl
      rw [read?_of_head?_ne hhead, hnumber, Option.some.injEq] at hread
      rw [abs_of_nonneg (not_lt.1 hq), hread]
  have hscaled := mkRat_scaled (clearedBy_iff_mod.1 h.fewest.1.2)
  have hweight : ((weight 10 frac.length : ℕ) : ℚ) ≠ 0 :=
    Nat.cast_ne_zero.2 (weight_ten_pos _).ne'
  rw [← habs, Rat.mkRat_eq_div, Rat.mkRat_eq_div, div_left_inj' hweight] at hscaled
  exact_mod_cast hscaled.symm

/-- **There is only one exact decimal.** -/
theorem joined_eq (h : IsExact q whole frac) : joined q whole frac = withPlaces frac.length q := by
  have hdigits := (isNumeral_iff.1 h.isNumeral_frac).2
  have hlt : value 10 frac < weight 10 frac.length := value_lt_weight hdigits
  have hscaled := h.value_append_eq
  rw [value_append] at hscaled
  have hwhole : Nat.toDigits 10 (scaled frac.length q / weight 10 frac.length) = whole := by
    rw [← hscaled, Nat.add_comm, Nat.add_mul_div_right _ _ (weight_ten_pos _),
      Nat.div_eq_of_lt hlt, Nat.zero_add, h.plain.toDigits_value]
  have hfrac : padded 10 frac.length (scaled frac.length q % weight 10 frac.length) = frac := by
    rw [← hscaled, Nat.mul_add_mod_of_lt hlt, padded_value h.isNumeral_frac]
  rw [withPlaces_eq_joined h.fewest.1.1, hwhole, hfrac]

end IsExact

/-- **What is written**: the exact decimal, where there is one. -/
theorem write?_eq_some_iff {text : List Char} : write? q = some text ↔
    ∃ whole frac, text = joined q whole frac ∧ IsExact q whole frac := by
  rw [write?_eq_some_iff_isLeast]
  constructor
  · rintro ⟨k, hk, rfl⟩
    exact ⟨_, _, withPlaces_eq_joined hk.1.1 q, isExact_withPlaces hk⟩
  · rintro ⟨whole, frac, rfl, h⟩
    exact ⟨_, h.fewest, h.joined_eq⟩

/-- What can be written is what some power of ten clears. -/
theorem exists_write?_iff : (∃ text, write? q = some text) ↔ ∃ k, ClearedBy q k := by
  obtain ⟨twos, half, fives, rest, htwos, hfives, hcleared⟩ := exists_strip q
  simp only [write?, places?_eq htwos hfives, hcleared]
  split
  · next hrest => exact iff_of_true ⟨_, rfl⟩ ⟨_, hrest, le_refl _⟩
  · next hrest =>
    refine iff_of_false (by simp) ?_
    rintro ⟨k, hone, -⟩
    exact hrest hone

end Decimal

/-! ## The text of a real -/

namespace Value

open Numeral Decimal

theorem slash_notMem_of_isNumeral {text : List Char} (h : isNumeral 10 text = true) :
    '/' ∉ text :=
  fun hmem => ne_of_isDigit (by omega) ((isNumeral_iff.1 h).2 _ hmem) (by decide) rfl

theorem slash_notMem_toDigits (n : ℕ) : '/' ∉ Nat.toDigits 10 n :=
  slash_notMem_of_isNumeral (isNumeral_toDigits (by omega) (by omega) n)

theorem slash_notMem_signed (n : ℤ) : '/' ∉ signed n := by
  rw [signed]
  split
  · rw [List.mem_cons, not_or]
    exact ⟨by decide, slash_notMem_toDigits _⟩
  · exact slash_notMem_toDigits _

theorem slash_notMem_of_write? {q : ℚ} {text : List Char} (h : write? q = some text) :
    '/' ∉ text := by
  obtain ⟨whole, frac, rfl, hexact⟩ := write?_eq_some_iff.1 h
  have hpoint : '/' ∉ whole ++ '.' :: frac := by
    rw [List.mem_append, List.mem_cons, not_or, not_or]
    exact ⟨slash_notMem_of_isNumeral hexact.plain.1, by decide,
      slash_notMem_of_isNumeral hexact.isNumeral_frac⟩
  rw [joined]
  split
  · rw [List.mem_cons, not_or]
    exact ⟨by decide, hpoint⟩
  · exact hpoint

/-- A real without an exact decimal is written as a quotient. -/
theorem toList_text_real (q : ℚ) : (Value.real q).text.toList =
    (write? q).getD (signed q.num ++ '/' :: Nat.toDigits 10 q.den) := by
  rw [text]
  split
  · next h => rw [h, String.toList_ofList, Option.getD_some]
  · next h => rw [h, String.toList_ofList, Option.getD_none]

/-- **Two reals are never written alike.**  A decimal has no slash, and each of the two forms can be
read back. -/
theorem text_real_injective : Function.Injective fun q : ℚ => (Value.real q).text := by
  intro p q h
  have htext := congrArg String.toList h
  simp only [toList_text_real] at htext
  cases hp : write? p with
  | some text =>
    rw [hp, Option.getD_some] at htext
    cases hq : write? q with
    | some other =>
      rw [hq, Option.getD_some] at htext
      exact Option.some.inj ((read?_write? hp).symm.trans (htext ▸ read?_write? hq))
    | none =>
      rw [hq, Option.getD_none] at htext
      exact absurd (htext ▸ by simp) (slash_notMem_of_write? hp)
  | none =>
    rw [hp, Option.getD_none] at htext
    cases hq : write? q with
    | some other =>
      rw [hq, Option.getD_some] at htext
      exact absurd (htext ▸ by simp) (slash_notMem_of_write? hq)
    | none =>
      rw [hq, Option.getD_none, List.append_cons_inj_of_notMem (slash_notMem_signed _)
        (slash_notMem_toDigits _)] at htext
      obtain ⟨hnum, -, hden⟩ := htext
      have hint := Atom.int?_signed p.num
      have hnat : value 10 (Nat.toDigits 10 p.den) = p.den :=
        value_toDigits (by omega) (by omega) p.den
      rw [hnum, Atom.int?_signed, Option.some.injEq] at hint
      rw [hden, value_toDigits (by omega) (by omega)] at hnat
      exact Rat.ext hint.symm hnat.symm

end Value

namespace Decimal

/-- **Exact decimals are exact, complete and shortest.**  A text is written for a rational exactly
if it is a minus sign for a negative one, a whole part without superfluous zeros, a point, and as
few places as make the rational an integer when the point is moved behind them, but at least one,
and if it is read as the rational.  There is such a text exactly if some power of ten makes the
rational an integer.  The places can be counted by taking the twos out of the denominator, and the
fives out of what remains: both come to an end, and the larger count is the number of places if
nothing but one is left.  And two rationals are never written alike, be it as a decimal or as a
quotient. -/
theorem isExact_write :
    (∀ (q : ℚ) (text : List Char), write? q = some text ↔
      ∃ whole frac, text = joined q whole frac ∧ IsExact q whole frac) ∧
    (∀ q : ℚ, (∃ text, write? q = some text) ↔ ∃ (k : ℕ) (n : ℤ), q * 10 ^ k = n) ∧
    (∀ q : ℚ, ∃ twos half fives rest,
      (∀ rounds, q.den < 2 ^ rounds → strip? 2 rounds q.den = some (twos, half)) ∧
      (∀ rounds, half < 2 ^ rounds → strip? 5 rounds half = some (fives, rest)) ∧
      write? q = if rest = 1 then some (withPlaces (max (max twos fives) 1) q) else none) ∧
    Function.Injective fun q : ℚ => (Value.real q).text := by
  refine ⟨fun q text => write?_eq_some_iff, fun q => exists_write?_iff, fun q => ?_,
    Value.text_real_injective⟩
  obtain ⟨twos, half, fives, rest, htwos, hfives, -⟩ := exists_strip q
  refine ⟨twos, half, fives, rest, htwos, hfives, ?_⟩
  rw [write?, places?_eq htwos hfives]
  split <;> rfl

end Decimal
end SmtQuery
