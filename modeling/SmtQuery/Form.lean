import SmtQuery.Numeral

/-!
# Written forms

Everything in an SMT-LIB text is a lexeme or a parenthesised sequence of forms.
Terms, sorts, commands and s-expressions are first laid out as a `Form` and then
written by one function, so what a reader makes of a written form is a question
about forms alone and not about each kind of text.

`Form.call` is a sequence whose blank after the operator stands even when no
operand follows.
-/

namespace SmtQuery

/-- A written form. -/
inductive Form where
  /-- Text without further structure. -/
  | lexeme (text : List Char)
  /-- A parenthesised sequence. -/
  | group (items : List Form)
  /-- An operator, a blank, and the operands, in parentheses. -/
  | call (operator : List Char) (operands : List Form)

namespace Form

/-- A fixed word. -/
def word (text : String) : Form := .lexeme text.toList

/-- A natural number in decimal. -/
def nat (n : Nat) : Form := .lexeme (Nat.toDigits 10 n)

/-- A binary literal of at least the given number of digits. -/
def binary (width n : Nat) : Form := .lexeme ('#' :: 'b' :: Numeral.padded 2 width n)

/-- An indexed identifier: a name with numeric indices, as in `(_ BitVec 8)`. -/
def indexed (name : Form) (indices : List Nat) : Form :=
  .group (word "_" :: name :: indices.map nat)

/-- A floating-point literal by its three fields.  The sign is written as a
decimal number, which is its binary digit when it is `0` or `1`. -/
def floatFields (exponentBits fractionBits sign exponent fraction : Nat) : Form :=
  .group [word "fp", .lexeme ('#' :: 'b' :: Nat.toDigits 10 sign), binary exponentBits exponent,
    binary fractionBits fraction]

mutual

/-- The text of a form. -/
def text : Form → List Char
  | lexeme t => t
  | group items => '(' :: spaced items ++ [')']
  | call operator operands => '(' :: operator ++ ' ' :: spaced operands ++ [')']

/-- The texts of several forms, with one blank between neighbours. -/
def spaced : List Form → List Char
  | [] => []
  | [form] => text form
  | form :: next :: rest => text form ++ ' ' :: spaced (next :: rest)

end

instance : ToString Form := ⟨fun form => String.ofList form.text⟩

end Form
end SmtQuery
