import Mathlib
import SmtQuery.Proofs.Derivation
import SmtQuery.Proofs.Typing

/-!
# Numbers spelled as arithmetic

A solver has many ways to print a rational number: `2.5` and `(/ 5 2)` are the same, and so is
`(- (/ 5.0 (- 2)))`.  An `Arithmetic` is such a spelling, with any number of signs and quotients
inside each other.  The reader folds it from the inside out, one list at a time, and each step is
exact; so what is left of the whole spelling is one leaf with the value of the spelling.

* `Arithmetic.exists_writes`: the leaf that a spelling is folded to, by induction on the spelling.
* `Arithmetic.bindsFrom_real`: what a real input is bound to.
* `Arithmetic.readAs_of_isDefined`: **every spelling keeps its value.**

## Integers and decimals

A leaf is an integer if there is neither a point nor a quotient in the spelling.  Otherwise it is a
decimal, also where its value is integral: `(/ 4 2)` is a decimal.  At a real kind both are the same
value.
-/

namespace SmtQuery

open Numeral

/-- One decimal digit or more. -/
structure Digits where
  text : List Char
  isNumeral : Numeral.isNumeral 10 text = true

/-- The natural number that the digits stand for. -/
def Digits.value (digits : Digits) : ℕ := Numeral.value 10 digits.text

/-- A number as numerals, signs and quotients spell it.  A numeral may have a minus sign of its
own. -/
inductive Arithmetic where
  | int (negative : Bool) (digits : Digits)
  | decimal (negative : Bool) (whole frac : Digits)
  | neg (e : Arithmetic)
  | quotient (a b : Arithmetic)

namespace Arithmetic

/-- A word with a minus sign in front, or without one. -/
def signedWord (negative : Bool) (word : List Char) : List Char :=
  if negative then '-' :: word else word

/-- The tokens of the spelling, as in `(- e)` and `(/ a b)`. -/
def tokens : Arithmetic → List Token
  | int negative digits => [.bare (signedWord negative digits.text)]
  | decimal negative whole frac => [.bare (signedWord negative (whole.text ++ '.' :: frac.text))]
  | neg e => Token.group [[.word "-"], e.tokens]
  | quotient a b => Token.group [[.word "/"], a.tokens, b.tokens]

/-- The number that is spelled. -/
def value : Arithmetic → ℚ
  | int negative digits => (if negative then -1 else 1) * digits.value
  | decimal negative whole frac =>
    (if negative then -1 else 1) * (whole.value + frac.value / 10 ^ frac.text.length)
  | neg e => -e.value
  | quotient a b => a.value / b.value

/-- Whether there is neither a decimal nor a quotient in the spelling. -/
def IsIntegral : Arithmetic → Prop
  | int _ _ => True
  | decimal _ _ _ => False
  | neg e => e.IsIntegral
  | quotient _ _ => False

/-- Whether no divisor in the spelling is zero. -/
def IsDefined : Arithmetic → Prop
  | int _ _ | decimal _ _ _ => True
  | neg e => e.IsDefined
  | quotient a b => a.IsDefined ∧ b.IsDefined ∧ b.value ≠ 0

end Arithmetic

/-! ## The leaf of a number -/

namespace SExpr

/-- Whether the tree is the leaf of a number with the value: an integer, or else a decimal. -/
inductive IsNumber (integral : Prop) : ℚ → SExpr → Prop
  | ofInt (h : integral) (n : ℤ) : IsNumber integral n (int n)
  | ofDecimal (h : ¬ integral) (q : ℚ) : IsNumber integral q (decimal q)

variable {integral : Prop} {p q : ℚ} {a b : SExpr}

theorem IsNumber.rational?_eq (h : a.IsNumber integral q) : a.rational? = some q := by
  cases h <;> rfl

/-- A minus sign is taken into the leaf, which stays an integer or a decimal. -/
theorem IsNumber.fold_neg (h : a.IsNumber integral q) :
    (fold [symbol "-", a]).IsNumber integral (-q) := by
  cases h with
  | ofInt h n =>
    have hfold : fold [symbol "-", int n] = int (-n) := rfl
    rw [hfold, ← Int.cast_neg]
    exact .ofInt h (-n)
  | ofDecimal h q => exact .ofDecimal h (-q)

/-- A quotient of two numbers is a decimal. -/
theorem IsNumber.fold_quotient {left right : Prop} (ha : a.IsNumber left p)
    (hb : b.IsNumber right q) (hq : q ≠ 0) :
    (fold [symbol "/", a, b]).IsNumber False (p / q) := by
  have hquotient : number? [symbol "/", a, b] = some (decimal (p / q)) := by
    rw [number?, if_pos rfl, quotient?, ha.rational?_eq, hb.rational?_eq]
    exact if_neg hq
  rw [fold_of_number? hquotient]
  exact .ofDecimal id _

/-- At a real kind a number is its value, whichever leaf it is. -/
theorem IsNumber.decode_real (h : a.IsNumber integral q) : decode .real a = .value (.real q) := by
  cases h with
  | ofInt h n => exact decode_of_claim rfl
  | ofDecimal h q => exact decode_of_claim rfl

end SExpr

namespace Arithmetic

/-! ## Words -/

/-- An integer with its sign. -/
theorem exists_writes_int (negative : Bool) (digits : Digits) : ∃ n : ℤ,
    Writes (int negative digits).tokens (.int n) ∧ (n : ℚ) = (int negative digits).value := by
  cases negative with
  | false =>
    refine ⟨digits.value, writes_of_spells (.int digits.isNumeral), ?_⟩
    rw [value, if_neg (by decide), one_mul, Int.cast_natCast]
  | true =>
    refine ⟨-digits.value, writes_of_spells (.negativeInt digits.isNumeral), ?_⟩
    rw [value, if_pos rfl, neg_one_mul, Int.cast_neg, Int.cast_natCast]

/-- The digits on both sides of the point, over a power of ten. -/
theorem mkRat_eq (whole frac : Digits) :
    mkRat (Numeral.value 10 (whole.text ++ frac.text)) (weight 10 frac.text.length) =
      whole.value + frac.value / 10 ^ frac.text.length := by
  have hpos : (10 : ℚ) ^ frac.text.length ≠ 0 := by positivity
  rw [Rat.mkRat_eq_div, value_append, weight_eq]
  push_cast
  rw [add_div, mul_div_cancel_right₀ _ hpos]
  rfl

/-- A decimal with its sign. -/
theorem writes_decimal (negative : Bool) (whole frac : Digits) :
    Writes (decimal negative whole frac).tokens (.decimal (decimal negative whole frac).value) := by
  cases negative with
  | false =>
    rw [value, if_neg (by decide), one_mul, ← mkRat_eq]
    exact writes_of_spells (.decimal whole.isNumeral frac.isNumeral)
  | true =>
    rw [value, if_pos rfl, neg_one_mul, ← mkRat_eq]
    exact writes_of_spells (.negativeDecimal whole.isNumeral frac.isNumeral)

/-! ## Spellings -/

variable {e : Arithmetic}

/-- **What a spelling is folded to**, by induction on the spelling: one leaf with its value. -/
theorem exists_writes (h : e.IsDefined) :
    ∃ leaf : SExpr, Writes e.tokens leaf ∧ leaf.IsNumber e.IsIntegral e.value := by
  induction e with
  | int negative digits =>
    obtain ⟨n, hwrites, hvalue⟩ := exists_writes_int negative digits
    rw [← hvalue]
    exact ⟨.int n, hwrites, .ofInt trivial n⟩
  | decimal negative whole frac => exact ⟨_, writes_decimal negative whole frac, .ofDecimal id _⟩
  | neg e ih =>
    obtain ⟨leaf, hwrites, hnumber⟩ := ih h
    have hminus : Writes [.word "-"] (.symbol "-") := writes_word (by decide)
    exact ⟨_, writes_group (.cons hminus (.cons hwrites .nil)), hnumber.fold_neg⟩
  | quotient a b iha ihb =>
    obtain ⟨ha, hb, hzero⟩ := h
    obtain ⟨left, hleft, hp⟩ := iha ha
    obtain ⟨right, hright, hq⟩ := ihb hb
    have hslash : Writes [.word "/"] (.symbol "/") := writes_word (by decide)
    exact ⟨_, writes_group (.cons hslash (.cons hleft (.cons hright .nil))),
      hp.fold_quotient hq hzero⟩

end Arithmetic

/-! ## Bindings -/

/-- The tokens of a line with one pair, as in `((s0 5))`. -/
def pairTokens (reference value : List Token) : List Token :=
  Token.group [Token.group [reference, value]]

/-- A line with one pair, whose reference names an input. -/
theorem writes_pair {inputs : List Input} {input : Input} {reference value : SExpr}
    {front back : List Token} (hnamed : input.IsNamedBy inputs reference)
    (hfront : Writes front reference) (hback : Writes back value) :
    Writes (pairTokens front back) (.list [.list [reference, value]]) := by
  have hpair := writes_group (.cons hfront (.cons hback .nil))
  rw [SExpr.fold_pair hnamed.1] at hpair
  exact writes_group (.cons hpair .nil)

/-- Whether the input is bound to the value wherever a line pairs a reference to it with the
tokens. -/
def Input.BindsFrom (inputs : List Input) (input : Input) (tokens : List Token) (value : Value) :
    Prop :=
  ∀ (front : List Token) (reference : SExpr), Writes front reference →
    input.IsNamedBy inputs reference → ∀ (line : String) (strictness : Strictness),
      Token.Lexes line.toList (pairTokens front tokens) →
        ∃ tree, SExpr.read line = .ok tree ∧
          (InputIndex.ofList inputs).bindLine tree line strictness =
            .ok (some ⟨input.id, input.name, value⟩)

namespace Arithmetic

variable {e : Arithmetic}

/-- **What a real input is bound to**: the value of the spelling. -/
theorem bindsFrom_real (h : e.IsDefined) {inputs : List Input} {input : Input}
    (hkind : input.kind = .real) : input.BindsFrom inputs e.tokens (.real e.value) := by
  obtain ⟨leaf, hwrites, hnumber⟩ := exists_writes h
  intro front reference hfront hnamed line strictness hline
  refine ⟨_, (writes_pair hnamed hfront hwrites).derives.read_eq hline, ?_⟩
  have hdecode : decode input.kind leaf = .value (.real e.value) := by
    rw [hkind]
    exact hnumber.decode_real
  exact (InputIndex.bindPair_eq_some_iff hnamed).2 ⟨_, hdecode, rfl⟩

/-- **Every spelling of a number keeps its value.**  A spelling in which no divisor is zero is read
as a single leaf, however it is laid out on a line.  The leaf is an integer if there is neither a
decimal nor a quotient in the spelling, and else a decimal, and it has exactly the value that is
spelled.  Hence a real input is bound to the same value by all spellings of one number. -/
theorem readAs_of_isDefined (h : e.IsDefined) :
    (e.IsIntegral → ∃ n : ℤ, (n : ℚ) = e.value ∧ ReadAs e.tokens (.int n)) ∧
    (¬ e.IsIntegral → ReadAs e.tokens (.decimal e.value)) ∧
    ∀ other : Arithmetic, other.IsDefined → other.value = e.value →
      ∀ (inputs : List Input) (input : Input), input.kind = .real →
        input.BindsFrom inputs e.tokens (.real e.value) ∧
          input.BindsFrom inputs other.tokens (.real e.value) := by
  obtain ⟨leaf, hwrites, hnumber⟩ := exists_writes h
  refine ⟨fun hintegral => ?_, fun hdecimal => ?_, ?_⟩
  · generalize e.value = q at hnumber
    cases hnumber with
    | ofInt _ n => exact ⟨n, rfl, hwrites.readAs⟩
    | ofDecimal hnot q => exact absurd hintegral hnot
  · generalize e.value = q at hnumber
    cases hnumber with
    | ofInt hintegral n => exact absurd hintegral hdecimal
    | ofDecimal _ q => exact hwrites.readAs
  · intro other hother heq inputs input hkind
    refine ⟨bindsFrom_real h hkind, ?_⟩
    rw [← heq]
    exact bindsFrom_real hother hkind

/-- The theorem at `(/ (- 5.50) (/ -0002 4))`, which is read as a decimal in spite of its integral
value, and at `(- -11)`, to which it is equal: a line with either binds a real input to eleven. -/
theorem readAs_of_isDefined_eleven :
    let e := quotient (neg (decimal false ⟨['5'], by decide⟩ ⟨['5', '0'], by decide⟩))
      (quotient (int true ⟨['0', '0', '0', '2'], by decide⟩) (int false ⟨['4'], by decide⟩))
    let other := neg (int true ⟨['1', '1'], by decide⟩)
    e.IsDefined ∧ other.IsDefined ∧ other.value = e.value ∧ bestInput.kind = .real ∧
      SExpr.read " (/(- 5.50)\t(/ -0002 4)) ; eleven" = .ok (.decimal 11) ∧
      ∃ tree, SExpr.read "((s2(-  -11)))" = .ok tree ∧
        (InputIndex.ofList [bestInput]).bindLine tree "((s2(-  -11)))" .strict =
          .ok (some ⟨⟨2⟩, "best", .real 11⟩) := by
  intro e other
  have hvalue : e.value = 11 := by
    show -((1 : ℚ) * ((5 : ℕ) + (50 : ℕ) / 10 ^ 2)) / ((-1 * (2 : ℕ)) / (1 * (4 : ℕ))) = 11
    norm_num
  have hother : other.value = 11 := by
    show -((-1 : ℚ) * (11 : ℕ)) = 11
    norm_num
  have hdivisor : (int false ⟨['4'], by decide⟩).value ≠ 0 := by
    show (1 : ℚ) * (4 : ℕ) ≠ 0
    norm_num
  have hquotient : (quotient (int true ⟨['0', '0', '0', '2'], by decide⟩)
      (int false ⟨['4'], by decide⟩)).value ≠ 0 := by
    show ((-1 : ℚ) * (2 : ℕ)) / (1 * (4 : ℕ)) ≠ 0
    norm_num
  have hdefined : e.IsDefined := ⟨trivial, ⟨trivial, trivial, hdivisor⟩, hquotient⟩
  have hequal : other.value = e.value := hother.trans hvalue.symm
  have hlexes : Token.Lexes " (/(- 5.50)\t(/ -0002 4)) ; eleven".toList e.tokens :=
    ⟨_, by cbv, by decide⟩
  have hpair : Token.Lexes "((s2(-  -11)))".toList (pairTokens [.word "s2"] other.tokens) :=
    ⟨_, by cbv, by decide⟩
  have hreference : Writes [.word "s2"] (.symbol "s2") := writes_word (by decide)
  have hnamed : bestInput.IsNamedBy [bestInput] (.symbol "s2") := ⟨by decide, by decide⟩
  obtain ⟨-, hread, hbinds⟩ := readAs_of_isDefined hdefined
  refine ⟨hdefined, trivial, hequal, rfl, ?_, ?_⟩
  · rw [← hvalue]
    exact (hread id).read_eq _ hlexes
  · rw [← hvalue]
    exact (hbinds other trivial hequal [bestInput] bestInput rfl).2 _ _ hreference hnamed _ .strict
      hpair

end Arithmetic
end SmtQuery
