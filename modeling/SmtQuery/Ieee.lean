import SmtQuery.Numeral

/-!
# IEEE 754 bit patterns

Floating-point values are kept as their bits.  Two values are equal when all
bits agree, so a NaN equals itself, two NaNs with different payloads differ, and
so do the two zeros.  One structure serves both precisions; a pattern splits
into a sign bit, an exponent field and a fraction field, and `Ieee.ofFields`
puts them together again.
-/

namespace SmtQuery

/-- The two precisions in use: 32 and 64 bits. -/
inductive Precision where
  | single
  | double
  deriving DecidableEq, Repr

namespace Precision

/-- The number of bits of the exponent field. -/
def exponentBits : Precision → Nat
  | single => 8
  | double => 11

/-- The number of bits of the fraction field, the hidden bit not counted. -/
def fractionBits : Precision → Nat
  | single => 23
  | double => 52

/-- The number of bits of the significand, the hidden bit counted. -/
def significandBits (p : Precision) : Nat := p.fractionBits + 1

/-- The number of bits of a whole pattern. -/
def width (p : Precision) : Nat := 1 + p.exponentBits + p.fractionBits

/-- The precision with the given exponent and significand sizes, if it is one of
the two. -/
def ofSizes? (exponentBits significandBits : Nat) : Option Precision :=
  if exponentBits = 8 ∧ significandBits = 24 then some single
  else if exponentBits = 11 ∧ significandBits = 53 then some double
  else none

end Precision

/-- A floating-point value, given by its bits. -/
structure Ieee where
  /-- The precision, which fixes the layout. -/
  precision : Precision
  /-- The sign bit, then the exponent field, then the fraction field. -/
  bits : BitVec precision.width
  deriving DecidableEq

namespace Ieee

open Numeral

/-- The values that are written by name. -/
inductive Special where
  | nan
  | infinity (negative : Bool)
  | zero (negative : Bool)
  deriving DecidableEq, Repr

namespace Special

/-- The name of a special value. -/
def name : Special → String
  | nan => "NaN"
  | infinity false => "+oo"
  | infinity true => "-oo"
  | zero false => "+zero"
  | zero true => "-zero"

/-- The special value with the given name, if there is one. -/
def ofName? (name : String) : Option Special :=
  [nan, infinity false, infinity true, zero false, zero true].find? (·.name = name)

end Special

/-- The pattern with the given fields. -/
def ofFields (p : Precision) (sign exponent fraction : Nat) : Ieee :=
  ⟨p, BitVec.ofNat _
    ((sign * weight 2 p.exponentBits + exponent) * weight 2 p.fractionBits + fraction)⟩

/-- The sign bit: `0` or `1`. -/
def sign (x : Ieee) : Nat :=
  x.bits.toNat / weight 2 (x.precision.exponentBits + x.precision.fractionBits)

/-- The exponent field. -/
def exponent (x : Ieee) : Nat :=
  x.bits.toNat / weight 2 x.precision.fractionBits % weight 2 x.precision.exponentBits

/-- The fraction field. -/
def fraction (x : Ieee) : Nat := x.bits.toNat % weight 2 x.precision.fractionBits

/-- Whether the exponent field is all ones, which marks infinities and NaNs. -/
def isExceptional (x : Ieee) : Bool := x.exponent = weight 2 x.precision.exponentBits - 1

/-- Whether the pattern is a NaN, of either sign and any payload. -/
def isNaN (x : Ieee) : Bool := x.isExceptional && x.fraction ≠ 0

/-- The bits of a special value; a NaN is positive, quiet and otherwise empty. -/
def ofSpecial (p : Precision) : Special → Ieee
  | .nan => ofFields p 0 (weight 2 p.exponentBits - 1) (weight 2 (p.fractionBits - 1))
  | .infinity negative => ofFields p negative.toNat (weight 2 p.exponentBits - 1) 0
  | .zero negative => ofFields p negative.toNat 0 0

end Ieee
end SmtQuery
