import SmtQuery.Ieee

/-!
# Shortest decimals of floating-point values

Among all decimals that round to a given pattern, the printed one lies on the
coarsest grid of multiples of a power of ten that has a point in the rounding
interval, and is the point of that grid nearest to the value.  Only the two
neighbours of the value need looking at: if any point of a grid lies in the
interval, one of them does, because the interval contains the value.

The arithmetic is exact, in rationals.  The text is positional and never has an
exponent: `1` for one, `-0` for negative zero.
-/

namespace SmtQuery
namespace Ieee

open Numeral

/-- The integer significand, with the hidden bit of a normal number. -/
def significand (x : Ieee) : Nat :=
  if x.exponent = 0 then x.fraction else weight 2 x.precision.fractionBits + x.fraction

/-- The power of two that the last bit of the significand stands for. -/
def lastPlace (x : Ieee) : Int :=
  max x.exponent 1 - (weight 2 (x.precision.exponentBits - 1) - 1) - x.precision.fractionBits

/-- The absolute value of a finite pattern. -/
def magnitude (x : Ieee) : Rat := x.significand * (2 : Rat) ^ x.lastPlace

/-- The distance to the end of the rounding interval above. -/
def reachAbove (x : Ieee) : Rat := (2 : Rat) ^ (x.lastPlace - 1)

/-- The distance to the end of the rounding interval below.  It is halved at a
power of two, where the next smaller number is only half as far away. -/
def reachBelow (x : Ieee) : Rat :=
  if x.fraction = 0 ∧ 1 < x.exponent then x.reachAbove / 2 else x.reachAbove

/-- Whether a positive rational rounds to the magnitude of `x`.  The ends of the
interval round to the even neighbour. -/
def absorbs (x : Ieee) (q : Rat) : Bool :=
  let low := x.magnitude - x.reachBelow
  let high := x.magnitude + x.reachAbove
  if x.significand % 2 = 0 then low ≤ q ∧ q ≤ high else low < q ∧ q < high

/-- The point of the grid of multiples of `10 ^ place` that stands for `x`: the
nearer of the two neighbours of the magnitude, or the only one in the interval.
Of two equally near neighbours it is the larger. -/
def gridPoint? (x : Ieee) (place : Int) : Option Nat :=
  let scaled := x.magnitude / (10 : Rat) ^ place
  let down := scaled.floor.toNat
  let isInside (n : Nat) : Bool := x.absorbs (n * (10 : Rat) ^ place)
  match isInside down, isInside (down + 1) with
  | true, true => if scaled - down < 1 / 2 then some down else some (down + 1)
  | true, false => some down
  | false, true => some (down + 1)
  | false, false => none

/-- A place whose unit exceeds every number below `2 ^ (e + 1)`. -/
def placeAbove (e : Int) : Int := if 0 ≤ e then (e + 1) / 3 + 1 else 3 * (e + 1) / 10 + 1

/-- The places to try, coarsest first.  The last one is finer than the last bit
of the significand, so one of them has a point in the interval. -/
def places (x : Ieee) : List Int :=
  let top := placeAbove (x.lastPlace + x.significand.log2)
  (List.range (top - min x.lastPlace 0 + 1).toNat).map fun (k : Nat) => top - k

/-- The shortest decimal that rounds to a finite magnitude, as an integer and
the place of its last digit. -/
def shortest? (x : Ieee) : Option (Nat × Int) :=
  x.places.findSome? fun place => (x.gridPoint? place).map (·, place)

/-- The digits of `n * 10 ^ place`, with a point if the place is negative. -/
def positional (n : Nat) (place : Int) : List Char :=
  match place with
  | .ofNat zeros => Nat.toDigits 10 n ++ List.replicate zeros '0'
  | .negSucc k =>
    Nat.toDigits 10 (n / weight 10 (k + 1)) ++ '.' :: padded 10 (k + 1) (n % weight 10 (k + 1))

/-- The text of a value: its shortest decimal, or the name of an infinity or
NaN.  A NaN has no sign. -/
def text (x : Ieee) : List Char :=
  if x.isNaN then "NaN".toList
  else
    let digits :=
      if x.isExceptional then "inf".toList
      else if x.significand = 0 then ['0']
      else match x.shortest? with
        | some (n, place) => positional n place
        | none => []
    if x.sign = 1 then '-' :: digits else digits

end Ieee
end SmtQuery
