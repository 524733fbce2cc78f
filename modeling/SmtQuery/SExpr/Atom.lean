import SmtQuery.Decimal
import SmtQuery.SExpr

/-!
# Atoms

What a bare word stands for.  The whole word has to match a numeric form, so
`1abc` and `#xyz` are symbols.  The forms are tried in a fixed order: bit-vector
literal, integer, decimal; a word that is none of them is a symbol.

The digits of a bit-vector literal are read leniently.  A sign may stand before
the first digit and underscores may stand after it, and the width still counts
every character, so `#x1_0` is sixteen at width twelve.
-/

namespace SmtQuery
namespace Atom

open Numeral

/-- The number that a digit followed by digits and underscores stands for. -/
def grouped? (base : Nat) : List Char → Option Nat
  | [] => none
  | c :: rest =>
    if isDigit base c && rest.all (fun d => d = '_' || isDigit base d) then
      some (value base (c :: rest.filter (· ≠ '_')))
    else none

/-- As `grouped?`, with an optional sign in front. -/
def signedGrouped? (base : Nat) : List Char → Option Int
  | [] => none
  | c :: rest =>
    if c = '-' then (grouped? base rest).map fun n => -(n : Int)
    else if c = '+' then (grouped? base rest).map Int.ofNat
    else (grouped? base (c :: rest)).map Int.ofNat

/-- A literal of digits that hold `bitsPerDigit` bits each.  Its width has to be
below `2 ^ 32`. -/
def literal? (base bitsPerDigit : Nat) (digits : List Char) : Option SExpr := do
  let n ← signedGrouped? base digits
  let width := digits.length * bitsPerDigit
  if width < UInt32.size then some (.bitVec n (UInt32.ofNat width)) else none

/-- A hexadecimal or binary literal. -/
def bitVec? : List Char → Option SExpr
  | '#' :: 'x' :: digits => literal? 16 4 digits
  | '#' :: 'b' :: digits => literal? 2 1 digits
  | _ => none

/-- A decimal integer with an optional minus sign. -/
def int? : List Char → Option Int
  | '-' :: digits => (read? 10 digits).map fun n => -(n : Int)
  | digits => (read? 10 digits).map Int.ofNat

/-- The tree that a bare word stands for. -/
def classify (word : List Char) : SExpr :=
  match bitVec? word with
  | some literal => literal
  | none =>
    match int? word with
    | some n => .int n
    | none =>
      match Decimal.read? word with
      | some q => .decimal q
      | none => .symbol (String.ofList word)

end Atom
end SmtQuery
