/-!
# Numerals

Digits in a base, for reading and for writing.  A numeral is a nonempty run of
digits; its value is positional.  Writing goes through `Nat.toDigits`, whose
digits above nine are the lower-case letters, so reading accepts either case and
writing always gives the lower one.

`Numeral.padded` fills with zeros up to a width, and `Numeral.signedPadded`
does the same for integers, where the minus sign takes one of the places: a
negative number of width four has at most three digits of padding.
-/

namespace SmtQuery
namespace Numeral

/-- The digit a character stands for, `0` to `35`; the number `36` is no digit
of any base in use. -/
def digitOf (c : Char) : Nat :=
  if '0' ≤ c ∧ c ≤ '9' then c.toNat - '0'.toNat
  else if 'a' ≤ c ∧ c ≤ 'z' then c.toNat - 'a'.toNat + 10
  else if 'A' ≤ c ∧ c ≤ 'Z' then c.toNat - 'A'.toNat + 10
  else 36

/-- Whether the character is a digit of the base. -/
def isDigit (base : Nat) (c : Char) : Bool := digitOf c < base

/-- Whether the text is a numeral of the base: one or more digits and nothing
else. -/
def isNumeral (base : Nat) (text : List Char) : Bool :=
  !text.isEmpty && text.all (isDigit base)

/-- The positional value of a run of digits. -/
def value (base : Nat) (text : List Char) : Nat :=
  text.foldl (fun n c => base * n + digitOf c) 0

/-- The weight of the digit in a place, counted from zero on the right: the base
to that power.  It is also the number of numerals with as many digits. -/
def weight (base place : Nat) : Nat := Nat.pow base place

/-- The value of a numeral, or `none` if the text is not one. -/
def read? (base : Nat) (text : List Char) : Option Nat :=
  if isNumeral base text then some (value base text) else none

/-- The digits of `n`, filled with zeros on the left up to the width. -/
def padded (base width n : Nat) : List Char :=
  (Nat.toDigits base n).leftpad width '0'

/-- A decimal integer, with a minus sign if it is negative. -/
def signed (n : Int) : List Char :=
  if n < 0 then '-' :: Nat.toDigits 10 n.natAbs else Nat.toDigits 10 n.natAbs

/-- An integer in the base, filled with zeros between sign and digits so that
the sign counts towards the width. -/
def signedPadded (base width : Nat) (n : Int) : List Char :=
  if n < 0 then '-' :: padded base (width - 1) n.natAbs else padded base width n.natAbs

/-- Whether `n` can be written with `width` binary digits.  The logarithm keeps
the test cheap for widths whose power of two would fill the memory. -/
def fitsWidth (n width : Nat) : Bool := n = 0 || n.log2 < width

theorem fitsWidth_iff {n width : Nat} : fitsWidth n width = true ↔ n < weight 2 width := by
  by_cases h : n = 0
  · subst h
    exact iff_of_true rfl (Nat.two_pow_pos width)
  · show _ ↔ n < 2 ^ width
    simp [fitsWidth, h, Nat.log2_lt h]

/-- The remainder of an integer modulo `2 ^ width`, in `[0, 2 ^ width)`.  A value
already in that range is left as it stands, without computing the modulus. -/
def wrap (width : Nat) (n : Int) : Nat :=
  if 0 ≤ n ∧ fitsWidth n.toNat width then n.toNat else (n % (weight 2 width : Int)).toNat

theorem wrap_eq_emod (width : Nat) (n : Int) :
    (wrap width n : Int) = n % (weight 2 width : Int) := by
  have hpos : 0 < weight 2 width := Nat.two_pow_pos width
  unfold wrap
  split
  · next h =>
    have hlt : n.toNat < weight 2 width := fitsWidth_iff.1 h.2
    rw [Int.toNat_of_nonneg h.1]
    exact (Int.emod_eq_of_lt h.1 ((Int.toNat_lt h.1).1 hlt)).symm
  · exact Int.toNat_of_nonneg (Int.emod_nonneg _ (by omega))

end Numeral
end SmtQuery
