import SmtQuery.Numeral

/-!
# Exact decimals

A rational has a finite decimal expansion exactly when some power of ten clears
its denominator.  `Decimal.write?` prints such a rational with as few places as
it needs, but at least one, so that a decimal is never mistaken for an integer:
five is `5.0`.  `Decimal.read?` reads an optional minus sign, digits, a point and
digits.

The number of places is counted from the denominator: its twos are taken out, then
the fives of what remains, and in the end nothing but one may be left.  Each round
but the last at least halves the number, so there are never more rounds than the
number has binary digits.
-/

namespace SmtQuery
namespace Decimal

open Numeral

/-- Takes a factor out of a number as often as it divides it: how often that was,
and what is left.  There is no answer if so many rounds do not get to the end. -/
def strip? (factor : Nat) : Nat → Nat → Option (Nat × Nat)
  | 0, _ => none
  | rounds + 1, n =>
    if n % factor = 0 then
      (strip? factor rounds (n / factor)).map fun (count, rest) => (count + 1, rest)
    else some (0, n)

/-- The least number of places after the point with which `q` is exact, if there
is one. -/
def places? (q : Rat) : Option Nat := do
  let (twos, half) ← strip? 2 (q.den.log2 + 1) q.den
  let (fives, rest) ← strip? 5 (half.log2 + 1) half
  if rest = 1 then some (max twos fives) else none

/-- The decimal with `k` places, for a rational that becomes an integer when
multiplied by `10 ^ k`: the digits of that integer, filled with zeros until one of
them stands in front of the places, and split there. -/
def withPlaces (k : Nat) (q : Rat) : List Char :=
  let digits := padded 10 (k + 1) (q.num.natAbs * weight 10 k / q.den)
  let (whole, frac) := digits.splitAt (digits.length - k)
  let magnitude := whole ++ '.' :: frac
  if q < 0 then '-' :: magnitude else magnitude

/-- The exact decimal of `q` with the fewest places, at least one, or `none` if
the expansion does not end. -/
def write? (q : Rat) : Option (List Char) :=
  (places? q).map fun k => withPlaces (max k 1) q

/-- The rational that an unsigned decimal denotes: digits, a point, digits. -/
def readUnsigned? (text : List Char) : Option Rat :=
  let whole := text.takeWhile (· ≠ '.')
  match text.dropWhile (· ≠ '.') with
  | _ :: frac =>
    if isNumeral 10 whole && isNumeral 10 frac then
      some (mkRat (value 10 (whole ++ frac)) (weight 10 frac.length))
    else none
  | [] => none

/-- The rational that a decimal denotes, with an optional minus sign. -/
def read? : List Char → Option Rat
  | '-' :: rest => (readUnsigned? rest).map (- ·)
  | text => readUnsigned? text

end Decimal
end SmtQuery
