import SmtQuery.Decimal
import SmtQuery.Ieee.Shortest
import SmtQuery.Kind
import SmtQuery.Term

/-!
# Values

Typed constants, as they are sent to a solver and as they come back in a model.
An integer is kept in the range of its kind: `Value.integer` reduces modulo the
width and, for a signed kind, moves the upper half below zero.

An optimum is the value of an objective, which may also be infinite, or
infinitesimally close to zero where a bound is not attained.
-/

namespace SmtQuery

/-- Brings an integer into the range of a kind.  Only bit-vector kinds have a
range; the only bit-vector of width zero is zero. -/
def Kind.normalize (kind : Kind) (n : Int) : Int :=
  match kind with
  | .bitVec signed width =>
    let wrapped : Int := Numeral.wrap width.toNat n
    if signed ∧ ¬ Numeral.fitsWidth wrapped.toNat (width.toNat - 1) then
      wrapped - Numeral.weight 2 width.toNat
    else wrapped
  | _ => n

/-- A typed constant. -/
inductive Value where
  /-- An integer of an integral kind. -/
  | int (kind : Kind) (value : Int)
  | real (value : Rat)
  | float (value : Ieee)
  /-- An element of a named sort, with its position if the sort lists its
  elements. -/
  | element (sort : NamedSort) (name : String) (index? : Option Nat)
  deriving DecidableEq

namespace Value

/-- The integer of the given kind that `n` stands for. -/
def integer (kind : Kind) (n : Int) : Value := .int kind (kind.normalize n)

/-- The kind of a value. -/
def kind : Value → Kind
  | int k _ => k
  | real _ => .real
  | float x => .float x.precision
  | element sort _ _ => .named sort

/-- The literal for a floating-point value.  All NaNs are written alike. -/
def floatTerm (x : Ieee) : Term :=
  let e := UInt32.ofNat x.precision.exponentBits
  let s := UInt32.ofNat x.precision.significandBits
  if x.isNaN then .special .nan e s else .float x.sign x.exponent x.fraction e s

/-- The literal for a value. -/
def term : Value → Term
  | int (.bitVec _ width) n => .bitVec n width
  | int _ n => .int n
  | real q => .real q
  | float x => floatTerm x
  | element _ name _ => .const name

/-- The text of a value in a model: exact, as a decimal where there is one. -/
def text : Value → String
  | int _ n => String.ofList (Numeral.signed n)
  | real q =>
    match Decimal.write? q with
    | some t => String.ofList t
    | none => String.ofList (Numeral.signed q.num ++ '/' :: Nat.toDigits 10 q.den)
  | float x => String.ofList x.text
  | element _ name _ => name

instance : ToString Value := ⟨text⟩

end Value

/-- The value of an objective. -/
inductive Optimum where
  | regular (value : Value)
  | infinity (negative : Bool) (kind : Kind)
  | epsilon (negative : Bool) (kind : Kind)
  deriving DecidableEq

namespace Optimum

/-- The kind of an optimum. -/
def kind : Optimum → Kind
  | regular v => v.kind
  | infinity _ k | epsilon _ k => k

/-- The value of an optimum that is finite and attained. -/
def regular? : Optimum → Option Value
  | regular v => some v
  | _ => none

/-- The text of an optimum in a model. -/
def text : Optimum → String
  | regular v => v.text
  | infinity false _ => "oo"
  | infinity true _ => "-oo"
  | epsilon false _ => "epsilon"
  | epsilon true _ => "-epsilon"

instance : ToString Optimum := ⟨text⟩

end Optimum
end SmtQuery
