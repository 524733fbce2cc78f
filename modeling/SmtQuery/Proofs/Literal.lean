import Mathlib
import SmtQuery.SExpr.Fold
import SmtQuery.Proofs.Lexeme

/-!
# Literals read back

Both printers, of terms and of trees, write some numbers as lists: a bit-vector
with an index, a floating-point value by its fields.  The reader folds such lists,
so each of these forms is read as one leaf.  This file says so once for both.

* `Ieee.ofFields_fields`: a pattern is put together again from its fields, and the fields fit their
  places (`Ieee.sign_lt`, `Ieee.exponent_lt`, `Ieee.fraction_lt`).
* `Form.reads_binary`: a binary literal filled with zeros to its width.
* `Form.reads_indexedBitVec`: the form `(_ bvN w)`, for every width.
* `Form.reads_floatFields`: the form `(fp s e m)`, for every sign, exponent and fraction.
-/

namespace SmtQuery

open Numeral

/-! ## Fields of a pattern -/

namespace Ieee

variable (x : Ieee)

theorem toNat_lt : x.bits.toNat < 2 * (weight 2 x.precision.exponentBits *
    weight 2 x.precision.fractionBits) := by
  have h : x.bits.toNat < 2 ^ (1 + x.precision.exponentBits + x.precision.fractionBits) :=
    x.bits.isLt
  rw [pow_add, pow_add, pow_one, Nat.mul_assoc] at h
  exact h

theorem weight_fields : weight 2 (x.precision.exponentBits + x.precision.fractionBits) =
    weight 2 x.precision.exponentBits * weight 2 x.precision.fractionBits :=
  pow_add 2 _ _

theorem sign_lt : x.sign < 2 := by
  rw [sign, weight_fields]
  exact Nat.div_lt_of_lt_mul (by rw [Nat.mul_comm]; exact toNat_lt x)

theorem exponent_lt : x.exponent < weight 2 x.precision.exponentBits :=
  Nat.mod_lt _ (Nat.two_pow_pos _)

theorem fraction_lt : x.fraction < weight 2 x.precision.fractionBits :=
  Nat.mod_lt _ (Nat.two_pow_pos _)

/-- The fields, in their places, are the pattern. -/
theorem fields_eq : (x.sign * weight 2 x.precision.exponentBits + x.exponent) *
    weight 2 x.precision.fractionBits + x.fraction = x.bits.toNat := by
  rw [sign, exponent, fraction, weight_fields, Nat.mul_comm (weight 2 x.precision.exponentBits),
    ← Nat.div_div_eq_div_mul, Nat.div_add_mod', Nat.div_add_mod']

/-- **A pattern is put together again from its fields.** -/
theorem ofFields_fields : ofFields x.precision x.sign x.exponent x.fraction = x := by
  rw [ofFields, fields_eq, BitVec.ofNat_toNat, BitVec.setWidth_eq]

end Ieee

theorem Precision.ofSizes?_self (p : Precision) :
    Precision.ofSizes? p.exponentBits (p.fractionBits + 1) = some p := by
  cases p <;> rfl

namespace SExpr

theorem size?_int {n : ℕ} (h : n < UInt32.size) : size? (int n) = some n :=
  if_pos ⟨Int.natCast_nonneg n, h⟩

theorem field?_bitVec {n width : ℕ} {w : UInt32} (hw : w.toNat = width)
    (hn : n < weight 2 width) : field? width (bitVec n w) = some n :=
  if_pos ⟨hw, Int.natCast_nonneg n, fitsWidth_iff.2 hn⟩

/-- The number in an index is a bit-vector if it fits the width.  Zeros in front of it do not
count. -/
theorem number?_indexedBitVec {digits : List Char} {n w : ℕ} (hread : read? 10 digits = some n)
    (hw : 0 < w) (hsize : w < UInt32.size) (hn : n < weight 2 w) :
    number? [symbol "_", symbol (String.ofList ('b' :: 'v' :: digits)), int w] =
      some (bitVec n (UInt32.ofNat w)) := by
  have hfits : (decide (0 < w) && fitsWidth n w) = true := by
    rw [decide_eq_true hw, fitsWidth_iff.2 hn, Bool.and_self]
  rw [number?, if_neg (by decide), if_pos rfl, indexedBitVec?, size?_int hsize]
  simp only [String.toList_ofList, hread, hfits, Option.bind_eq_bind, Option.bind_some, if_true]

/-- Three fields of the right widths are a floating-point value. -/
theorem number?_fields (p : Precision) {s e m : ℕ} {ws we wm : UInt32} (hs : s < 2)
    (he : e < weight 2 p.exponentBits) (hm : m < weight 2 p.fractionBits) (hws : ws.toNat = 1)
    (hwe : we.toNat = p.exponentBits) (hwm : wm.toNat = p.fractionBits) :
    number? [symbol "fp", bitVec s ws, bitVec e we, bitVec m wm] =
      some (float (Ieee.ofFields p s e m)) := by
  have hsign : s < weight 2 1 := hs
  rw [number?, if_neg (by decide), if_pos rfl, fields?]
  simp only [width?, hwe, hwm, Precision.ofSizes?_self, field?_bitVec hws hsign,
    field?_bitVec hwe he, field?_bitVec hwm hm, Option.bind_eq_bind, Option.bind_some]

theorem fold_of_number? {items : List SExpr} {leaf : SExpr} (h : number? items = some leaf) :
    fold items = leaf := by
  rw [fold, h]
  rfl

end SExpr

namespace Form

/-! ## Literals of a fixed width -/

theorem reads_word {text : String} (h : SExpr.needsBars text.toList = false) :
    (word text).Reads (.symbol text) := by
  rw [word, Reads]
  exact isLexeme_word h

theorem reads_nat (n : ℕ) : (nat n).Reads (.int n) := by
  rw [nat, Reads]
  exact isLexeme_toDigits n

/-- A binary literal is as wide as it is asked to be, if the number fits. -/
theorem reads_binary {width n : ℕ} (hwidth : 0 < width) (hsize : width < UInt32.size)
    (hn : n < weight 2 width) : (binary width n).Reads (.bitVec n (UInt32.ofNat width)) := by
  have hlen : (padded 2 width n).length = width :=
    (length_padded_eq_iff (by omega)).2 ⟨hwidth, hn⟩
  have hnum : isNumeral 2 (padded 2 width n) = true := isNumeral_padded (by omega) (by omega) _ _
  have hlex := isLexeme_binary (Token.isDelimiter_of_isNumeral (by omega) hnum)
    (Atom.signedGrouped?_of_isNumeral (by omega) hnum) (by rw [hlen, Nat.mul_one]; exact hsize)
  rw [hlen, Nat.mul_one, value_padded (by omega) (by omega)] at hlex
  rw [binary, Reads]
  exact hlex

/-- The word `bvN`, which starts with a letter, is a symbol. -/
theorem isLexeme_bv {text : List Char} (h : ∀ c ∈ text, Token.isDelimiter c = false) :
    IsLexeme ('b' :: 'v' :: text) (.symbol (String.ofList ('b' :: 'v' :: text))) :=
  isLexeme_of_classify (List.cons_ne_nil _ _)
    (Token.isDelimiter_cons rfl (Token.isDelimiter_cons rfl h))
    (Atom.classify_cons (by decide) (by decide) (by decide))

/-- What an indexed bit-vector is read as before its list is folded. -/
theorem readsAll_indexed {text : List Char} (h : ∀ c ∈ text, Token.isDelimiter c = false)
    (width : ℕ) : ReadsAll (word "_" :: lexeme ('b' :: 'v' :: text) :: [width].map nat)
      [.symbol "_", .symbol (String.ofList ('b' :: 'v' :: text)), .int width] := by
  have hbv : (lexeme ('b' :: 'v' :: text)).Reads
      (.symbol (String.ofList ('b' :: 'v' :: text))) := by
    rw [Reads]
    exact isLexeme_bv h
  exact readsAll_cons (reads_word (by decide))
    (readsAll_cons hbv (readsAll_cons (reads_nat width) readsAll_nil))

/-- **A bit-vector with an index** is read at its width, however wide it is. -/
theorem reads_indexedBitVec {width n : ℕ} (hwidth : 0 < width) (hsize : width < UInt32.size)
    (hn : n < weight 2 width) :
    (indexed (lexeme ('b' :: 'v' :: Nat.toDigits 10 n)) [width]).Reads
      (.bitVec n (UInt32.ofNat width)) := by
  have h := reads_group (readsAll_indexed (isDelimiter_toDigits n) width)
  have hread : read? 10 (Nat.toDigits 10 n) = some n := read?_toDigits (by omega) (by omega) n
  rwa [SExpr.fold_of_number? (SExpr.number?_indexedBitVec hread hwidth hsize hn)] at h

/-! ## Floating-point values -/

/-- The sign is written as a decimal number, which is its binary digit. -/
theorem toDigits_sign {s : ℕ} (hs : s < 2) : Nat.toDigits 10 s = padded 2 1 s := by
  interval_cases s <;> rfl

/-- **A floating-point value by its fields** is read as the value. -/
theorem reads_floatFields (p : Precision) {s e m : ℕ} (hs : s < 2)
    (he : e < weight 2 p.exponentBits) (hm : m < weight 2 p.fractionBits) :
    (floatFields p.exponentBits p.fractionBits s e m).Reads
      (.float (Ieee.ofFields p s e m)) := by
  have hexponent : 0 < p.exponentBits ∧ p.exponentBits < UInt32.size := by cases p <;> decide
  have hfraction : 0 < p.fractionBits ∧ p.fractionBits < UInt32.size := by cases p <;> decide
  have hone : (UInt32.ofNat 1).toNat = 1 := rfl
  have hword : (word "fp").Reads (.symbol "fp") := reads_word (by decide)
  have hsign : (lexeme ('#' :: 'b' :: Nat.toDigits 10 s)).Reads (.bitVec s (UInt32.ofNat 1)) := by
    rw [toDigits_sign hs]
    exact reads_binary (by omega) (by decide) hs
  have h := reads_group (readsAll_cons hword (readsAll_cons hsign
    (readsAll_cons (reads_binary hexponent.1 hexponent.2 he)
      (readsAll_cons (reads_binary hfraction.1 hfraction.2 hm) readsAll_nil))))
  rwa [SExpr.fold_of_number? (SExpr.number?_fields p hs he hm hone
    (UInt32.toNat_ofNat_of_lt' hexponent.2) (UInt32.toNat_ofNat_of_lt' hfraction.2))] at h

/-- The fields of a value give the value back. -/
theorem reads_floatFields_self (x : Ieee) :
    (floatFields x.precision.exponentBits x.precision.fractionBits x.sign x.exponent
      x.fraction).Reads (.float x) := by
  have h := reads_floatFields x.precision x.sign_lt x.exponent_lt x.fraction_lt
  rwa [x.ofFields_fields] at h

end Form
end SmtQuery
