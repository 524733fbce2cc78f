import Mathlib
import SmtQuery.Proofs.Width

/-!
# Three reductions modulo a width

A bit-vector of a width stands for integers modulo `2 ^ width`, and integers are reduced in three
places: when a value is made, when a literal is written, and when a literal in a reply is decoded.
Values lie on both sides of zero if the kind is signed, and literals never do.  The three agree: it
does not matter whether an integer is brought into range before it is written, and what is written
comes back as the integer in range.

* `Numeral.wrap_eq_tmod`: the residue by means of a remainder that has the sign of the dividend.
* `Numeral.wrap_congr`: integers that agree modulo the width have one residue, so one literal.
* `Kind.inRange_iff_mem`: the range of a kind as an interval.
* `Kind.normalize_agrees`: **the three reductions agree**.
-/

namespace SmtQuery

open Numeral

namespace Numeral

/-- The modulus of a width, as an integer. -/
theorem weight_two_cast (width : ℕ) : (weight 2 width : ℤ) = 2 ^ width := by
  rw [weight_eq]
  push_cast
  rfl

/-- Integers that agree modulo the width have one residue. -/
theorem wrap_congr {width : ℕ} {m n : ℤ} (h : m ≡ n [ZMOD weight 2 width]) :
    wrap width m = wrap width n := by
  have hcast : (wrap width m : ℤ) = wrap width n := by
    rw [wrap_eq_emod, wrap_eq_emod]
    exact h
  exact Int.ofNat_inj.1 hcast

/-- **The residue from a truncating remainder**, which is negative for negative integers: it is
moved up by the modulus and reduced once more. -/
theorem wrap_eq_tmod (width : ℕ) (n : ℤ) :
    (wrap width n : ℤ) = (n.tmod (2 ^ width) + 2 ^ width).tmod (2 ^ width) := by
  have hpos : (0 : ℤ) < 2 ^ width := by positivity
  have hnonneg : 0 ≤ n.tmod (2 ^ width) + 2 ^ width := by
    have hlt := Int.lt_tmod_of_pos n hpos
    omega
  have hmod : n.tmod (2 ^ width) ≡ n [ZMOD 2 ^ width] := by
    refine Int.modEq_iff_dvd.2 ⟨n.tdiv (2 ^ width), ?_⟩
    have hdiv := Int.mul_tdiv_add_tmod n (2 ^ width)
    linarith
  rw [wrap_eq_emod, weight_two_cast, Int.tmod_eq_emod_of_nonneg hnonneg, Int.add_emod_right]
  exact hmod.symm

end Numeral

namespace Kind

/-- The integers that a bit-vector kind of positive width has. -/
def interval (signed : Bool) (width : ℕ) : Set ℤ :=
  if signed then Set.Ico (-2 ^ (width - 1)) (2 ^ (width - 1)) else Set.Ico 0 (2 ^ width)

theorem mem_interval_false {width : ℕ} {m : ℤ} :
    m ∈ interval false width ↔ 0 ≤ m ∧ m < 2 ^ width := by
  unfold interval
  simp only [Bool.false_eq_true, if_false, Set.mem_Ico]

theorem mem_interval_true {width : ℕ} {m : ℤ} :
    m ∈ interval true width ↔ -2 ^ (width - 1) ≤ m ∧ m < 2 ^ (width - 1) := by
  unfold interval
  simp only [if_true, Set.mem_Ico]

theorem inRange_iff_mem {signed : Bool} {width : UInt32} (hwidth : 0 < width.toNat) {m : ℤ} :
    (bitVec signed width).InRange m ↔ m ∈ interval signed width.toNat := by
  have hweight := weight_two_cast width.toNat
  cases signed with
  | false =>
    show 0 ≤ m ∧ m < (weight 2 width.toNat : ℤ) ↔ _
    rw [mem_interval_false, hweight]
  | true =>
    -- the bounds of a signed range are half the modulus, which is even
    have hhalf : (weight 2 width.toNat : ℤ) = 2 * 2 ^ (width.toNat - 1) := by
      rw [hweight, ← pow_succ', Nat.sub_add_cancel hwidth]
    show -(weight 2 width.toNat : ℤ) ≤ 2 * m ∧ 2 * m < weight 2 width.toNat ↔ _
    rw [mem_interval_true, hhalf]
    constructor
    · rintro ⟨hlower, hupper⟩
      exact ⟨by linarith, by linarith⟩
    · rintro ⟨hlower, hupper⟩
      exact ⟨by linarith, by linarith⟩

variable {signed : Bool} {width : UInt32}

/-- The integer in range, as the member of an interval. -/
theorem eq_normalize_iff_mem (hwidth : 0 < width.toNat) {m n : ℤ} :
    m = (bitVec signed width).normalize n ↔
      m ∈ interval signed width.toNat ∧ m ≡ n [ZMOD 2 ^ width.toNat] := by
  rw [eq_normalize_iff, inRange_iff_mem hwidth, weight_two_cast]

/-- An integer in range stays where it is. -/
theorem normalize_normalize (signed : Bool) (width : UInt32) (n : ℤ) :
    (bitVec signed width).normalize ((bitVec signed width).normalize n) =
      (bitVec signed width).normalize n :=
  (eq_normalize_iff.2 ⟨inRange_normalize rfl n, Int.ModEq.rfl⟩).symm

/-- Integers that agree modulo the width have one literal. -/
theorem toString_term_normalize (signed : Bool) (width : UInt32) (n : ℤ) :
    toString (Value.integer (bitVec signed width) n).term =
      toString (Value.int (bitVec signed width) n).term := by
  have hwrap := wrap_congr (normalize_modEq signed width n)
  show toString (Term.bitVecForm _ _) = toString (Term.bitVecForm _ _)
  rw [Term.bitVecForm, Term.bitVecForm, hwrap]

/-- **The three reductions agree.**  An integer, of either sign and of any size, is brought into the
range of a bit-vector kind: that is the only integer in the interval of the kind which agrees with
it modulo `2 ^ width`, and bringing it into range again changes nothing.  The literal for the
integer is read as a bit-vector of the width, whose number is the residue that a truncating
remainder gives, and at the kind this is decoded as the integer in range.  So the literal is the
same whether the integer was brought into range before it was written or not. -/
theorem normalize_agrees (hwidth : 0 < width.toNat) (n : ℤ) :
    (∀ m, m = (bitVec signed width).normalize n ↔
      m ∈ interval signed width.toNat ∧ m ≡ n [ZMOD 2 ^ width.toNat]) ∧
    (bitVec signed width).normalize ((bitVec signed width).normalize n) =
      (bitVec signed width).normalize n ∧
    (∃ bits : ℤ, SExpr.read (toString (Term.bitVec n width)) = .ok (.bitVec bits width) ∧
      0 ≤ bits ∧ bits < 2 ^ width.toNat ∧
      bits = (n.tmod (2 ^ width.toNat) + 2 ^ width.toNat).tmod (2 ^ width.toNat) ∧
      decode (bitVec signed width) (.bitVec bits width) =
        .value (.integer (bitVec signed width) n)) ∧
    toString (Value.integer (bitVec signed width) n).term =
      toString (Value.int (bitVec signed width) n).term := by
  refine ⟨fun m => eq_normalize_iff_mem hwidth, normalize_normalize signed width n,
    ⟨wrap width.toNat n, ?_, Int.natCast_nonneg _, ?_, wrap_eq_tmod width.toNat n, ?_⟩,
    toString_term_normalize signed width n⟩
  · exact SExpr.read_toString (Term.reads_bitVecForm hwidth n)
  · exact_mod_cast wrap_lt width.toNat n
  · refine decode_of_claim ?_
    show Verdict.claim (Value.integer (bitVec signed width) (wrap width.toNat n)) = _
    rw [Value.integer, normalize_wrap]
    rfl

/-- An integer below the range of a signed byte: it comes back as the byte `-44`. -/
theorem normalize_agrees_byte : 0 < (8 : UInt32).toNat ∧
    (bitVec true 8).normalize (-300) = -44 ∧
    (∃ bits : ℤ, SExpr.read (toString (Term.bitVec (-300) 8)) = .ok (.bitVec bits 8) ∧
      bits = 212 ∧ decode (bitVec true 8) (.bitVec bits 8) = .value (.int (bitVec true 8) (-44))) ∧
    toString (Value.int (bitVec true 8) (-44)).term =
      toString (Value.int (bitVec true 8) (-300)).term := by
  have hwidth : 0 < (8 : UInt32).toNat := by decide
  obtain ⟨hunique, -, ⟨bits, hread, -, -, hbits, hdecode⟩, htext⟩ :=
    @normalize_agrees true 8 hwidth (-300)
  have hmem : (-44 : ℤ) ∈ interval true (8 : UInt32).toNat :=
    ⟨by decide, by decide⟩
  have hnormal : (bitVec true 8).normalize (-300) = -44 :=
    ((hunique (-44)).2 ⟨hmem, by decide⟩).symm
  rw [Value.integer, hnormal] at hdecode htext
  exact ⟨hwidth, hnormal, ⟨bits, hread, hbits.trans (by decide), hdecode⟩, htext⟩

end Kind
end SmtQuery
