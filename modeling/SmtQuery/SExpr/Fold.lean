import SmtQuery.SExpr

/-!
# Numbers written as applications

Solvers spell some numbers as lists: `(- 5)`, `(/ 1 3)`, `(_ bv10 8)`,
`(_ +oo 8 24)`, `(fp #b0 #x80 ...)`, `((_ to_fp 8 24) #x40200000)`.  `SExpr.fold`
turns such a list into the leaf it denotes and leaves every other list alone.
The reader applies it to each list once its items are complete, so nested
spellings fold from the inside out.
-/

namespace SmtQuery
namespace SExpr

open Numeral

/-- The value of a number, if the tree is one. -/
def rational? : SExpr → Option Rat
  | int n => some n
  | decimal q => some q
  | _ => none

/-- The value of an integer that can serve as a size: from zero to `2 ^ 32 - 1`. -/
def size? : SExpr → Option Nat
  | int n => if 0 ≤ n ∧ n.toNat < UInt32.size then some n.toNat else none
  | _ => none

/-- The quotient of two numbers, unless the divisor is zero.  It is a decimal
even when it is integral. -/
def quotient? (a b : SExpr) : Option SExpr := do
  let p ← rational? a
  let q ← rational? b
  if q = 0 then none else some (decimal (p / q))

/-- The literal `(_ bvN w)`: the number has to fit the width. -/
def indexedBitVec? (name width : SExpr) : Option SExpr := do
  let w ← size? width
  match name with
  | symbol s =>
    match s.toList with
    | 'b' :: 'v' :: digits =>
      let n ← read? 10 digits
      if 0 < w && fitsWidth n w then some (bitVec n (UInt32.ofNat w)) else none
    | _ => none
  | _ => none

/-- The named value `(_ +oo eb sb)` and its kin. -/
def indexedFloat? (name exponentBits significandBits : SExpr) : Option SExpr := do
  let e ← size? exponentBits
  let s ← size? significandBits
  let precision ← Precision.ofSizes? e s
  match name with
  | symbol n => (Ieee.Special.ofName? n).map fun special => float (Ieee.ofSpecial precision special)
  | _ => none

/-- The value of a bit-vector literal as an unsigned field of the given width. -/
def field? (width : Nat) : SExpr → Option Nat
  | bitVec n w => if w.toNat = width ∧ 0 ≤ n ∧ fitsWidth n.toNat width then some n.toNat else none
  | _ => none

/-- The width of a bit-vector literal. -/
def width? : SExpr → Option Nat
  | bitVec _ w => some w.toNat
  | _ => none

/-- The value `(fp s e m)` of three bit-vector literals of the right widths. -/
def fields? (sign exponent fraction : SExpr) : Option SExpr := do
  let e ← width? exponent
  let m ← width? fraction
  let precision ← Precision.ofSizes? e (m + 1)
  let s ← field? 1 sign
  let e ← field? precision.exponentBits exponent
  let m ← field? precision.fractionBits fraction
  some (float (Ieee.ofFields precision s e m))

/-- The value `((_ to_fp eb sb) b)` of a literal with `eb + sb` bits. -/
def pattern? (head : List SExpr) (bits : SExpr) : Option SExpr :=
  match head with
  | [symbol underscore, symbol conversion, exponentBits, significandBits] => do
    let e ← size? exponentBits
    let s ← size? significandBits
    let precision ← Precision.ofSizes? e s
    if underscore = "_" ∧ conversion = "to_fp" then
      (field? precision.width bits).map fun n => float ⟨precision, BitVec.ofNat _ n⟩
    else none
  | _ => none

/-- The leaf that a list of items denotes, if it is the spelling of a number. -/
def number? : List SExpr → Option SExpr
  | [symbol op, int n] => if op = "-" then some (int (-n)) else none
  | [symbol op, decimal q] => if op = "-" then some (decimal (-q)) else none
  | [list head, bits] => pattern? head bits
  | [symbol op, a, b] =>
    if op = "/" then quotient? a b else if op = "_" then indexedBitVec? a b else none
  | [symbol op, a, b, c] =>
    if op = "_" then indexedFloat? a b c else if op = "fp" then fields? a b c else none
  | _ => none

/-- The tree of a complete list: a leaf if the list spells a number. -/
def fold (items : List SExpr) : SExpr := (number? items).getD (list items)

end SExpr
end SmtQuery
