import Mathlib
import SmtQuery.Reply.Binding
import SmtQuery.Proofs.Numeral

/-!
# What a decoded value can be

A value is decoded at the kind of an input, by rules that look at the shape of a tree.  Nearly
every rule asks for a kind, and then it claims a value of that kind; the one that does not takes
any decimal, and keeps it as a real.

* `Kind.inRange_normalize`: an integer is brought into the range of its kind.
* `Rule.fits_apply`: what one rule makes of a tree.
* `Value.decodedFrom_of_decodeWith`: **what is decoded**: a value of the kind of the input, or a
  real from a decimal.

A rule may point at a part of the tree, and an ascription is taken off before the rules are tried.
So the decimal stands in the tree under ascriptions and constant functions; this is `SExpr.Wraps`.
-/

namespace SmtQuery

open Numeral

/-! ## Values of a kind -/

/-- The integers that a kind has.  A signed kind has as many negative integers as others. -/
def Kind.InRange : Kind → ℤ → Prop
  | bitVec false width, n => 0 ≤ n ∧ n < weight 2 width.toNat
  | bitVec true width, n => -(weight 2 width.toNat : ℤ) ≤ 2 * n ∧ 2 * n < weight 2 width.toNat
  | int, _ => True
  | _, _ => False

/-- Whether an element has its position: the first one in the list, if the sort lists its elements,
and otherwise none. -/
def NamedSort.HasPosition (sort : NamedSort) (name : String) (index? : Option ℕ) : Prop :=
  match sort.elements? with
  | none => index? = none
  | some elements =>
    ∃ i, index? = some i ∧ elements[i]? = some name ∧ name ∉ elements.take i

/-- Whether a value is among those of its kind: an integer in range, or an element with its
position. -/
def Value.IsMember : Value → Prop
  | int kind n => kind.InRange n
  | real _ | float _ => True
  | element sort name index? => sort.HasPosition name index?

/-- A residue has one binary digit less than the width exactly if it is in the lower half. -/
theorem Numeral.fitsWidth_wrap_iff (width : ℕ) (n : ℤ) :
    fitsWidth (wrap width n) (width - 1) = true ↔ 2 * (wrap width n : ℤ) < weight 2 width := by
  have hlt := wrap_lt width n
  rw [fitsWidth_iff]
  rw [weight_eq] at hlt ⊢
  rw [weight_eq]
  cases width with
  | zero => omega
  | succ k =>
    rw [Nat.add_sub_cancel, pow_succ]
    omega

/-- Unsigned integers are residues. -/
theorem Kind.normalize_unsigned (width : UInt32) (n : ℤ) :
    (bitVec false width).normalize n = wrap width.toNat n := by
  simp [normalize]

/-- Signed integers are residues of which the upper half is moved below zero. -/
theorem Kind.normalize_signed (width : UInt32) (n : ℤ) : (bitVec true width).normalize n =
    if 2 * (wrap width.toNat n : ℤ) < weight 2 width.toNat then (wrap width.toNat n : ℤ)
    else wrap width.toNat n - weight 2 width.toNat := by
  simp only [normalize, Int.toNat_natCast, fitsWidth_wrap_iff, true_and, ite_not]

/-- **Integers are brought into range.** -/
theorem Kind.inRange_normalize {kind : Kind} (h : kind.isIntegral) (n : ℤ) :
    kind.InRange (kind.normalize n) := by
  cases kind with
  | bitVec signed width =>
    have hlt := wrap_lt width.toNat n
    cases signed with
    | false =>
      rw [normalize_unsigned]
      exact ⟨Int.natCast_nonneg _, Int.ofNat_lt.2 hlt⟩
    | true =>
      rw [normalize_signed]
      split
      · exact ⟨by omega, by omega⟩
      · exact ⟨by omega, by omega⟩
  | int => trivial
  | real => exact absurd h Bool.false_ne_true
  | float precision => exact absurd h Bool.false_ne_true
  | named sort => exact absurd h Bool.false_ne_true

/-- The first position of a listed element. -/
theorem NamedSort.hasPosition_of_indexOf? {sort : NamedSort} {name : String}
    {elements : List String} (helements : sort.elements? = some elements) {i : ℕ}
    (h : sort.indexOf? name = some i) :
    sort.HasPosition name (some i) := by
  rw [indexOf?, helements] at h
  obtain ⟨hi, hname, hbefore⟩ := List.idxOf?_eq_some_iff.1 h
  have hfirst : name ∉ elements.take i := by
    intro hmem
    obtain ⟨j, hj, hother⟩ := List.mem_take_iff_getElem.1 hmem
    exact hbefore j (by omega) hother
  rw [HasPosition, helements]
  exact ⟨i, rfl, by rw [List.getElem?_eq_getElem hi, hname], hfirst⟩

/-! ## Wrappers -/

namespace SExpr

/-- Whether a tree is another one under ascriptions, of which the value counts, and constant
functions, of which the last operand counts. -/
inductive Wraps : SExpr → SExpr → Prop
  | refl (tree : SExpr) : Wraps tree tree
  | ascription {value part : SExpr} (sort : SExpr) (h : Wraps value part) :
    Wraps (list [symbol "as", value, sort]) part
  | constantFunction {last part : SExpr} (operands : List SExpr) (h : Wraps last part) :
    Wraps (list (symbol "LAMBDA" :: (operands ++ [last]))) part

theorem eq_symbol_of_isSymbol {tree : SExpr} {name : String} (h : tree.isSymbol name = true) :
    tree = symbol name := by
  cases tree with
  | symbol other => rw [of_decide_eq_true h]
  | _ => exact absurd h Bool.false_ne_true

/-- What is under an ascription is under the tree. -/
theorem Wraps.of_stripAscription {tree part : SExpr} (h : tree.stripAscription.Wraps part) :
    tree.Wraps part := by
  unfold stripAscription at h
  split at h
  · next head value sort =>
    split at h
    · next has =>
      rw [eq_symbol_of_isSymbol has]
      exact .ascription sort h
    · exact h
  · exact h

end SExpr

/-! ## Rules -/

/-- How a value is decoded from a tree at a kind: it is one of the values of the kind, or a real
from a decimal in the tree. -/
def Value.DecodedFrom (value : Value) (kind : Kind) (tree : SExpr) : Prop :=
  (value.kind = kind ∧ value.IsMember) ∨ ∃ q, value = .real q ∧ tree.Wraps (.decimal q)

/-- What is decoded under an ascription is decoded from the tree. -/
theorem Value.DecodedFrom.of_stripAscription {value : Value} {kind : Kind} {tree : SExpr}
    (h : value.DecodedFrom kind tree.stripAscription) : value.DecodedFrom kind tree :=
  h.imp_right fun ⟨q, hvalue, hwraps⟩ => ⟨q, hvalue, hwraps.of_stripAscription⟩

/-- What a verdict has to be right about: a value that it claims, and the part that it points at,
which is the last operand of a constant function. -/
def Verdict.Fits (kind : Kind) {tree : SExpr} : Verdict tree → Prop
  | pass | malformed _ => True
  | claim value => value.DecodedFrom kind tree
  | inside part _ => ∃ operands, tree = .list (.symbol "LAMBDA" :: (operands ++ [part]))

namespace Rule

/-- An element has its position, or is not claimed. -/
theorem fits_elementVerdict (tree : SExpr) (sort : NamedSort) (name : String) :
    (elementVerdict tree sort name).Fits (.named sort) := by
  rw [elementVerdict]
  split
  · next helements =>
    have hposition : sort.HasPosition name none := by
      rw [NamedSort.HasPosition, helements]
    exact Or.inl ⟨rfl, hposition⟩
  · next elements helements =>
    split
    · next i hindex =>
      exact Or.inl ⟨rfl, NamedSort.hasPosition_of_indexOf? helements hindex⟩
    · trivial

/-- **What a rule makes of a tree.**  Every rule but the one for decimals looks at the kind before
it claims a value. -/
theorem fits_apply (rule : Rule) (kind : Kind) (tree : SExpr) :
    (rule.apply kind tree).Fits kind := by
  unfold apply
  cases rule with
  | integer =>
    dsimp only
    split
    · next hkind =>
      split
      · exact Or.inl ⟨rfl, Kind.inRange_normalize hkind _⟩
      · exact Or.inl ⟨rfl, Kind.inRange_normalize hkind _⟩
      · trivial
    · trivial
  | real =>
    dsimp only
    split
    · next hkind =>
      split
      · exact Or.inl ⟨hkind.symm, trivial⟩
      · exact Or.inl ⟨hkind.symm, trivial⟩
      · trivial
    · trivial
  | realCast =>
    -- no kind is asked for here
    dsimp only
    split
    · exact Or.inr ⟨_, rfl, .refl _⟩
    · trivial
  | element =>
    dsimp only
    split
    · exact fits_elementVerdict _ _ _
    · trivial
  | double =>
    dsimp only
    split
    · split
      · next h => exact Or.inl ⟨by rw [Value.kind, h.1, h.2], trivial⟩
      · trivial
    · trivial
  | single =>
    dsimp only
    split
    · split
      · next h => exact Or.inl ⟨by rw [Value.kind, h.1, h.2], trivial⟩
      · trivial
    · trivial
  | constantFunction =>
    dsimp only
    split
    · next head operand operands =>
      split
      · next hlambda =>
        refine ⟨(operand :: operands).dropLast, ?_⟩
        rw [SExpr.eq_symbol_of_isSymbol hlambda, List.dropLast_append_getLast]
      · trivial
    · trivial

/-- The first verdict of several rules is that of one of them. -/
theorem fits_first (rules : List Rule) (kind : Kind) (tree : SExpr) :
    (first rules kind tree).Fits kind := by
  induction rules with
  | nil => trivial
  | cons rule rules ih =>
    rw [first]
    split
    · exact ih
    · exact fits_apply rule kind tree

end Rule

namespace Value

/-- **What is decoded**: a value of the kind of the input, or a real from a decimal. -/
theorem decodedFrom_of_decodeWith {rules : List Rule} {kind : Kind} {tree : SExpr} {value : Value}
    (h : decodeWith rules kind tree = .value value) : value.DecodedFrom kind tree := by
  induction tree using decodeWith.induct rules kind with
  | case1 tree hfirst =>
    rw [decodeWith, hfirst] at h
    exact absurd h (by simp)
  | case2 tree claimed hfirst =>
    have hfits := Rule.fits_first rules kind tree.stripAscription
    rw [hfirst] at hfits
    rw [decodeWith, hfirst] at h
    obtain rfl := Decoded.value.inj h
    exact DecodedFrom.of_stripAscription hfits
  | case3 tree reason hfirst =>
    rw [decodeWith, hfirst] at h
    exact absurd h (by simp)
  | case4 tree part smaller hfirst ih =>
    -- the last operand of a constant function is decoded at the kind of the whole
    have hfits := Rule.fits_first rules kind tree.stripAscription
    rw [hfirst] at hfits
    rw [decodeWith, hfirst] at h
    obtain ⟨operands, htree⟩ := hfits
    refine DecodedFrom.of_stripAscription ?_
    rw [htree]
    exact (ih h).imp_right fun ⟨q, hvalue, hwraps⟩ =>
      ⟨q, hvalue, .constantFunction operands hwraps⟩

end Value
end SmtQuery
