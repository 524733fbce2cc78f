import SmtQuery.Form
import SmtQuery.Symbol
import SmtQuery.SExpr.Atom
import SmtQuery.SExpr.Token

/-!
# Writing s-expressions

Each tree has one written form.  A symbol stands between bars when it would be
read as something else without them.  A bit-vector literal is hexadecimal when
four divides its width and binary otherwise, filled with zeros to the width; a
very wide one is written with an index instead, so that the text grows with the
value and not with the width.  A decimal is exact, or else a quotient of
integers, and a floating-point value is written by its three fields.
-/

namespace SmtQuery
namespace SExpr

/-- Whether the symbol has to stand between bars to be read back. -/
def needsBars (name : List Char) : Bool :=
  name.isEmpty || name.any Token.isDelimiter || (Atom.classify name).symbol?.isNone

/-- The widest bit-vector that is written with one digit for every bit or four
bits. -/
def maxPaddedWidth : Nat := 256

/-- The form of a symbol: bare where that reads back. -/
def symbolForm (name : List Char) : Form :=
  .lexeme (if needsBars name then Symbol.barred name else name)

/-- The form of a bit-vector literal. -/
def bitVecForm (value : Int) (width : Nat) : Form :=
  if maxPaddedWidth < width then
    Form.indexed (.lexeme ('b' :: 'v' :: Numeral.signed value)) [width]
  else if width % 4 = 0 then
    .lexeme ('#' :: 'x' :: Numeral.signedPadded 16 (width / 4) value)
  else
    .lexeme ('#' :: 'b' :: Numeral.signedPadded 2 width value)

/-- The form of a rational: its decimal if it has one, or a quotient. -/
def decimalForm (q : Rat) : Form :=
  match Decimal.write? q with
  | some text => .lexeme text
  | none => .group [Form.word "/", .lexeme (Numeral.signed q.num), Form.nat q.den]

/-- The form of a floating-point value. -/
def floatForm (x : Ieee) : Form :=
  Form.floatFields x.precision.exponentBits x.precision.fractionBits x.sign x.exponent x.fraction

mutual

/-- The written form of a tree. -/
def form : SExpr → Form
  | symbol name => symbolForm name.toList
  | string text => .lexeme (Token.stringSpelling text.toList)
  | int n => .lexeme (Numeral.signed n)
  | bitVec value width => bitVecForm value width.toNat
  | decimal q => decimalForm q
  | float x => floatForm x
  | list items => .group (forms items)

/-- The written forms of several trees. -/
def forms : List SExpr → List Form
  | [] => []
  | tree :: rest => form tree :: forms rest

end

instance : ToString SExpr := ⟨fun tree => toString tree.form⟩

end SExpr
end SmtQuery
