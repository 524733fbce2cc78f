import Mathlib
import SmtQuery.Proofs.Typing

/-!
# Literals of another width

A solver answers for a bit-vector input with a literal, and the literal has a width as the input
has.  The rule for integers takes the number in the literal and leaves its width alone, so an input
of eight bits is bound from a literal of any width.  What it is bound to is the one integer in its
range that agrees with the literal modulo `2 ^ 8`; that is the number of the literal, or its
two's complement, as long as the widths agree.

* `Kind.eq_normalize_iff`: the integer in the range of a kind, modulo its width.
* `SExpr.ComesDownTo`: what is left of a value when ascriptions and constant functions are taken
  off it, one inside the other.
* `decode_bitVec_eq_value_iff`: **every value of a bit-vector input**, and what it is decoded from.
* `InputIndex.bindPair_of_literal`: **what a literal binds**, whatever its width.
-/

namespace SmtQuery

open Numeral

/-! ## Integers modulo a width -/

namespace Kind

variable {signed : Bool} {width : UInt32}

/-- Bringing an integer into range does not change it modulo the width. -/
theorem normalize_modEq (signed : Bool) (width : UInt32) (n : ℤ) :
    (bitVec signed width).normalize n ≡ n [ZMOD weight 2 width.toNat] := by
  have hwrap := wrap_modEq width.toNat n
  cases signed with
  | false => rwa [normalize_unsigned]
  | true =>
    rw [normalize_signed]
    split
    · exact hwrap
    · exact (Int.sub_modulus_modEq_iff.2 rfl).trans hwrap

/-- Two integers in range are less than the modulus apart. -/
theorem InRange.abs_sub_lt {m n : ℤ} (hm : (bitVec signed width).InRange m)
    (hn : (bitVec signed width).InRange n) : |m - n| < weight 2 width.toNat := by
  rw [abs_lt]
  cases signed with
  | false => exact ⟨by linarith [hm.1, hn.2], by linarith [hm.2, hn.1]⟩
  | true => exact ⟨by linarith [hm.1, hn.2], by linarith [hm.2, hn.1]⟩

/-- **The integer in range** is the only one that agrees modulo the width. -/
theorem eq_normalize_iff {m n : ℤ} : m = (bitVec signed width).normalize n ↔
    (bitVec signed width).InRange m ∧ m ≡ n [ZMOD weight 2 width.toNat] := by
  constructor
  · rintro rfl
    exact ⟨inRange_normalize rfl n, normalize_modEq signed width n⟩
  · rintro ⟨hrange, hmod⟩
    have hdvd : (weight 2 width.toNat : ℤ) ∣ m - (bitVec signed width).normalize n :=
      ((normalize_modEq signed width n).trans hmod.symm).dvd
    have hlt := hrange.abs_sub_lt (inRange_normalize rfl n)
    exact sub_eq_zero.1 (Int.eq_zero_of_abs_lt_dvd hdvd hlt)

end Kind

/-- The number that the bits of a literal stand for: the upper half of the signed ones is
negative. -/
def Numeral.twosComplement (signed : Bool) (width : ℕ) (n : ℤ) : ℤ :=
  if signed ∧ weight 2 width ≤ 2 * n then n - weight 2 width else n

/-- The bits of a literal are in the range of a kind of the same width. -/
theorem Kind.normalize_eq_twosComplement {signed : Bool} {width : UInt32} {n : ℤ} (hn : 0 ≤ n)
    (hlt : n < weight 2 width.toNat) :
    (Kind.bitVec signed width).normalize n = twosComplement signed width.toNat n := by
  refine (eq_normalize_iff.2 ?_).symm
  rw [twosComplement]
  cases signed with
  | false => exact ⟨⟨by simpa using hn, by simpa using hlt⟩, by simp⟩
  | true =>
    split
    · next h => exact ⟨⟨by omega, by omega⟩, Int.sub_modulus_modEq_iff.2 rfl⟩
    · next h =>
      have hhalf : 2 * n < weight 2 width.toNat := by simpa using h
      exact ⟨⟨by omega, hhalf⟩, rfl⟩

/-! ## Values of a bit-vector input -/

namespace SExpr

/-- What a value comes down to: the ascription around it is taken off, and if that leaves a constant
function, the same is done with its last operand. -/
inductive ComesDownTo : SExpr → SExpr → Prop
  | here (tree : SExpr) : ComesDownTo tree tree.stripAscription
  | operand {tree last part : SExpr} {operands : List SExpr}
    (htree : tree.stripAscription = list (symbol "LAMBDA" :: (operands ++ [last])))
    (h : ComesDownTo last part) : ComesDownTo tree part

/-- What a leaf stands for at a bit-vector kind: a number for the integer in range, whether it is
written as a numeral or as a literal of some width, and a decimal for itself. -/
inductive StandsForAt (signed : Bool) (width : UInt32) : SExpr → Value → Prop
  | numeral (n : ℤ) : StandsForAt signed width (int n) (.integer (.bitVec signed width) n)
  | literal (n : ℤ) (w : UInt32) :
    StandsForAt signed width (bitVec n w) (.integer (.bitVec signed width) n)
  | decimal (q : ℚ) : StandsForAt signed width (decimal q) (.real q)

end SExpr

namespace Rule

variable {signed : Bool} {width : UInt32} {tree : SExpr} {value : Value}

theorem apply_constantFunction_ne_claim {kind : Kind} :
    constantFunction.apply kind tree ≠ .claim value := by
  unfold apply
  dsimp only
  split
  · split <;> simp
  · simp

/-- What is claimed for a bit-vector input. -/
theorem first_eq_claim_iff : first all (.bitVec signed width) tree = .claim value ↔
    tree.StandsForAt signed width value := by
  constructor
  · intro h
    cases tree with
    | int n => obtain rfl := Verdict.claim.inj h; exact .numeral n
    | bitVec n w => obtain rfl := Verdict.claim.inj h; exact .literal n w
    | decimal q => obtain rfl := Verdict.claim.inj h; exact .decimal q
    | list items =>
      rw [first_list, first] at h
      split at h
      · exact absurd h (by simp [first])
      · exact absurd h apply_constantFunction_ne_claim
    | symbol _ | string _ | float _ =>
      exact absurd (show Verdict.pass = Verdict.claim value from h) (by simp)
  · rintro (n | ⟨n, w⟩ | q)
    · rfl
    · rfl
    · rfl

end Rule

/-- **Every value of a bit-vector input**: that of a leaf that the tree comes down to. -/
theorem decode_bitVec_eq_value_iff {signed : Bool} {width : UInt32} {tree : SExpr}
    {value : Value} : decode (.bitVec signed width) tree = .value value ↔
      ∃ leaf, tree.ComesDownTo leaf ∧ leaf.StandsForAt signed width value := by
  constructor
  · -- along the recursion of the decoder, which is taken once for each constant function
    intro h
    rw [decode] at h
    induction tree using decodeWith.induct Rule.all (.bitVec signed width) with
    | case1 tree hfirst =>
      rw [decodeWith, hfirst] at h
      exact absurd h (by simp)
    | case2 tree claimed hfirst =>
      rw [decodeWith, hfirst] at h
      obtain rfl := Decoded.value.inj h
      exact ⟨_, .here tree, Rule.first_eq_claim_iff.1 hfirst⟩
    | case3 tree reason hfirst =>
      rw [decodeWith, hfirst] at h
      exact absurd h (by simp)
    | case4 tree part smaller hfirst ih =>
      have hfits := Rule.fits_first Rule.all (.bitVec signed width) tree.stripAscription
      rw [hfirst] at hfits
      rw [decodeWith, hfirst] at h
      obtain ⟨operands, htree⟩ := hfits
      obtain ⟨leaf, hleaf, hvalue⟩ := ih h
      exact ⟨leaf, .operand htree hleaf, hvalue⟩
  · rintro ⟨leaf, hleaf, hvalue⟩
    induction hleaf with
    | here tree => exact decode_of_claim (Rule.first_eq_claim_iff.2 hvalue)
    | @operand tree last part operands htree _ ih =>
      obtain ⟨smaller, hfirst⟩ :=
        Rule.exists_first_constantFunction (.bitVec signed width) htree
      rw [decode, decodeWith, hfirst]
      exact ih hvalue

namespace InputIndex

variable {inputs : List Input} {input : Input} {reference tree : SExpr} {line : String}
  {strictness : Strictness}

/-- A pair that names a bit-vector input binds it to what a leaf of its value stands for. -/
theorem bindPair_bitVec_eq_some_iff {signed : Bool} {width : UInt32}
    (hnamed : input.IsNamedBy inputs reference) (hkind : input.kind = .bitVec signed width)
    {b : Binding} : (ofList inputs).bindPair [reference, tree] line strictness = .ok (some b) ↔
      ∃ leaf value, tree.ComesDownTo leaf ∧ leaf.StandsForAt signed width value ∧
        b = ⟨input.id, input.name, value⟩ := by
  rw [bindPair_eq_some_iff hnamed, hkind]
  simp only [decode_bitVec_eq_value_iff]
  constructor
  · rintro ⟨value, ⟨leaf, hleaf, hvalue⟩, hb⟩
    exact ⟨leaf, value, hleaf, hvalue, hb⟩
  · rintro ⟨leaf, value, hleaf, hvalue, hb⟩
    exact ⟨value, ⟨leaf, hleaf, hvalue⟩, hb⟩

/-- **What a bit-vector input is bound to.**  A pair names an input of a bit-vector kind.  It binds
the input exactly if its value comes down to a numeral, a literal or a decimal, in whatever
ascriptions and constant functions, and then to what that stands for.  A literal always binds,
whatever its width: to the one integer in the range of the kind that agrees with it modulo the width
of the kind.  Where the literal has this width itself, and is less than its modulus, the integer is
the one that the bits of the literal stand for. -/
theorem bindPair_of_literal {signed : Bool} {width : UInt32}
    (hnamed : input.IsNamedBy inputs reference) (hkind : input.kind = .bitVec signed width) :
    (∀ b, (ofList inputs).bindPair [reference, tree] line strictness = .ok (some b) ↔
      ∃ leaf value, tree.ComesDownTo leaf ∧ leaf.StandsForAt signed width value ∧
        b = ⟨input.id, input.name, value⟩) ∧
    ∀ n w, tree.ComesDownTo (.bitVec n w) → ∃ m,
      (ofList inputs).bindPair [reference, tree] line strictness =
        .ok (some ⟨input.id, input.name, .int input.kind m⟩) ∧
      (∀ k, k = m ↔ input.kind.InRange k ∧ k ≡ n [ZMOD weight 2 width.toNat]) ∧
      (w = width → 0 ≤ n → n < weight 2 w.toNat → m = twosComplement signed w.toNat n) := by
  refine ⟨fun b => bindPair_bitVec_eq_some_iff hnamed hkind, fun n w hleaf =>
    ⟨(Kind.bitVec signed width).normalize n, ?_, ?_, ?_⟩⟩
  · rw [hkind]
    exact (bindPair_bitVec_eq_some_iff hnamed hkind).2 ⟨_, _, hleaf, .literal n w, rfl⟩
  · intro k
    rw [hkind]
    exact Kind.eq_normalize_iff
  · rintro rfl hn hlt
    exact Kind.normalize_eq_twosComplement hn hlt

/-- A signed byte is bound from a literal of eight bits in an ascription in a constant function. -/
theorem bindPair_of_literal_wrapped :
    let reference := SExpr.symbol byteInput.id.symbol
    let tree := SExpr.list [.symbol "LAMBDA", .list [],
      .list [.symbol "as", .bitVec 255 8, .symbol "Byte"]]
    byteInput.IsNamedBy [byteInput] reference ∧ byteInput.kind = .bitVec true 8 ∧
      tree.ComesDownTo (.bitVec 255 8) ∧
      ∃ m, (ofList [byteInput]).bindPair [reference, tree] "" .strict =
          .ok (some ⟨⟨0⟩, "byte", .int (.bitVec true 8) m⟩) ∧
        m = twosComplement true 8 255 := by
  intro reference tree
  have hnamed : byteInput.IsNamedBy [byteInput] reference := ⟨by decide, by decide⟩
  have hlist : tree.stripAscription = .list (.symbol "LAMBDA" ::
      ([.list []] ++ [.list [.symbol "as", .bitVec 255 8, .symbol "Byte"]])) := rfl
  have htree : tree.ComesDownTo (.bitVec 255 8) := .operand hlist (.here _)
  obtain ⟨m, hbinds, -, hbits⟩ := (bindPair_of_literal hnamed rfl).2 255 8 htree
  exact ⟨hnamed, rfl, htree, m, hbinds, hbits rfl (by decide) (by decide)⟩

/-- **A literal of another width binds.**  The literal in this line has sixteen bits and the input
eight, and the input is bound to what the lower eight stand for. -/
theorem bindLine_of_wider_literal :
    let input : Input := { ref := ⟨⟨0⟩, .bitVec false 8⟩, name := "x" }
    let line := "((s0 #x0102))"
    ∃ tree, SExpr.read line = .ok tree ∧
      tree = .list [.list [.symbol "s0", .bitVec 258 16]] ∧ (16 : UInt32) ≠ 8 ∧
      (ofList [input]).bindLine tree line .strict =
        .ok (some ⟨⟨0⟩, "x", .int (.bitVec false 8) 2⟩) ∧ (258 : ℤ) ≠ 2 := by
  intro input line
  have hread : SExpr.read line = .ok (.list [.list [.symbol "s0", .bitVec 258 16]]) := by
    decide +kernel
  have hnamed : input.IsNamedBy [input] (.symbol "s0") := ⟨by decide, by decide⟩
  refine ⟨_, hread, rfl, by decide, ?_, by decide⟩
  exact (bindPair_eq_some_iff hnamed).2 ⟨_, decode_of_claim rfl, rfl⟩

end InputIndex
end SmtQuery
