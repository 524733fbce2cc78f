import SmtQuery.Ieee
import SmtQuery.SmtSort

/-!
# Terms

Terms of the query language.  Literals, the logical core, arrays, binders and
`let` have constructors of their own; every other operator is an application by
name.

In writing, a bit-vector literal is reduced modulo its width, so negative values
come out in two's complement.  Negative numbers are written with a minus
operator, because numerals have no sign.
-/

namespace SmtQuery

/-- The two quantifiers. -/
inductive Quantifier where
  | existential
  | universal
  deriving DecidableEq, Repr

/-- A term. -/
inductive Term where
  | bool (value : Bool)
  | int (value : Int)
  /-- A bit-vector literal; any integer stands for its residue. -/
  | bitVec (value : Int) (width : UInt32)
  | real (value : Rat)
  /-- A floating-point value that has a name, with the sizes of exponent and
  significand. -/
  | special (value : Ieee.Special) (exponentBits significandBits : UInt32)
  /-- A floating-point value by its fields, with the sizes of exponent and
  significand; the fraction field is one bit shorter than the significand. -/
  | float (sign exponent fraction : Nat) (exponentBits significandBits : UInt32)
  /-- A constant or variable. -/
  | const (name : String)
  | not (term : Term)
  | and (terms : List Term)
  | or (terms : List Term)
  | implies (premise conclusion : Term)
  | eq (left right : Term)
  | distinct (terms : List Term)
  | ite (condition positive negative : Term)
  | select (array index : Term)
  | store (array index value : Term)
  /-- The array of the given sort that holds one value everywhere. -/
  | constArray (sort : SmtSort) (value : Term)
  | quantified (quantifier : Quantifier) (binders : List (String × SmtSort)) (body : Term)
  | letIn (bindings : List (String × Term)) (body : Term)
  /-- An operator or function applied to arguments. -/
  | app (name : String) (arguments : List Term)

namespace Term

/-- The conjunction of the terms; a single term is its own conjunction. -/
def conj : List Term → Term
  | [term] => term
  | terms => .and terms

/-- The form of an integer: a numeral, or minus applied to one. -/
def intForm (n : Int) : Form :=
  if n < 0 then .group [Form.word "-", Form.nat n.natAbs] else Form.nat n.natAbs

/-- The form of a bit-vector literal of any width. -/
def bitVecForm (value : Int) (width : Nat) : Form :=
  Form.indexed (.lexeme ('b' :: 'v' :: Nat.toDigits 10 (Numeral.wrap width value))) [width]

/-- A natural number as a real numeral: `5.0`. -/
def realNumeral (n : Nat) : Form := .lexeme (Nat.toDigits 10 n ++ ['.', '0'])

/-- The form of a real: a numeral or a quotient of numerals, and minus applied
to it if it is negative. -/
def realForm (q : Rat) : Form :=
  let magnitude : Form :=
    if q.den = 1 then realNumeral q.num.natAbs
    else .group [Form.word "/", realNumeral q.num.natAbs, realNumeral q.den]
  if q < 0 then .group [Form.word "-", magnitude] else magnitude

/-- The word for a quantifier. -/
def quantifierWord : Quantifier → Form
  | .existential => Form.word "exists"
  | .universal => Form.word "forall"

/-- Variables with their sorts, as binders and definitions list them. -/
def sortedVariables (binders : List (String × SmtSort)) : Form :=
  .group (binders.map fun v => .group [Symbol.form v.1, v.2.form])

/-- An operator applied to any number of operands, or the given word if there
are none. -/
def operatorForm (operator neutral : String) (operands : List Form) : Form :=
  if operands.isEmpty then Form.word neutral else .call operator.toList operands

mutual

/-- The written form of a term. -/
def form : Term → Form
  | bool value => Form.word (if value then "true" else "false")
  | int n => intForm n
  | bitVec value width => bitVecForm value width.toNat
  | real q => realForm q
  | special value e s => Form.indexed (Form.word value.name) [e.toNat, s.toNat]
  | float sign exponent fraction e s =>
    Form.floatFields e.toNat (s.toNat - 1) sign exponent fraction
  | const name => Symbol.form name
  | not t => .group [Form.word "not", form t]
  | and ts => operatorForm "and" "true" (forms ts)
  | or ts => operatorForm "or" "false" (forms ts)
  | implies a b => .group [Form.word "=>", form a, form b]
  | eq a b => .group [Form.word "=", form a, form b]
  | distinct ts => .call "distinct".toList (forms ts)
  | ite c a b => .group [Form.word "ite", form c, form a, form b]
  | select a i => .group [Form.word "select", form a, form i]
  | store a i v => .group [Form.word "store", form a, form i, form v]
  | constArray sort v => .group [.group [Form.word "as", Form.word "const", sort.form], form v]
  | quantified q binders body =>
    .group [quantifierWord q, sortedVariables binders, form body]
  | letIn bindings body => .group [Form.word "let", .group (bindingForms bindings), form body]
  | app name arguments =>
    if arguments.isEmpty then Symbol.form name
    else .call (Symbol.write name) (forms arguments)

/-- The written forms of several terms. -/
def forms : List Term → List Form
  | [] => []
  | t :: rest => form t :: forms rest

/-- The written forms of `let` bindings. -/
def bindingForms : List (String × Term) → List Form
  | [] => []
  | (name, t) :: rest => .group [Symbol.form name, form t] :: bindingForms rest

end

instance : ToString Term := ⟨fun term => toString term.form⟩

end Term
end SmtQuery
