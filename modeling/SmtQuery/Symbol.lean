import SmtQuery.Form

/-!
# Symbols

A symbol may be written bare when it is made of letters, digits and certain
punctuation and does not start with a digit.  Any other symbol stands between
vertical bars, where every character but the bar itself stands for itself.
-/

namespace SmtQuery
namespace Symbol

/-- The characters of a bare symbol besides ASCII letters and digits. -/
def punctuation : List Char := "~!@$%^&*_-+=<>.?/".toList

/-- Whether the character may occur in a bare symbol. -/
def isPlain (c : Char) : Bool := c.isAlphanum || punctuation.contains c

/-- Whether the symbol may be written without bars. -/
def isSimple (name : List Char) : Bool :=
  match name with
  | [] => false
  | c :: rest => !c.isDigit && isPlain c && rest.all isPlain

/-- The symbol between bars. -/
def barred (name : List Char) : List Char := '|' :: name ++ ['|']

/-- The symbol as it is written in a script: bare if it may be. -/
def write (name : String) : List Char :=
  if isSimple name.toList then name.toList else barred name.toList

/-- The form of a symbol. -/
def form (name : String) : Form := .lexeme (write name)

end Symbol
end SmtQuery
