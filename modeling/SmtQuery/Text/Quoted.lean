import SmtQuery.Text.Printable

/-!
# Quoted text

A text between double quotes, as error messages show a line.  Quotes,
backslashes and four control characters have escapes of their own; any other
character that does not show becomes its code point in lower-case hexadecimal.
-/

namespace SmtQuery
namespace Text

/-- One character of a quoted text. -/
def escape (c : Char) : List Char :=
  match c with
  | '\x00' => ['\\', '0']
  | '\t' => ['\\', 't']
  | '\r' => ['\\', 'r']
  | '\n' => ['\\', 'n']
  | '\\' => ['\\', '\\']
  | '"' => ['\\', '"']
  | _ =>
    if isPrintable c then [c]
    else "\\u\x7b".toList ++ Nat.toDigits 16 c.toNat ++ ['\x7d']

/-- The text between double quotes, with everything that would not show, or
would end the quotation, escaped. -/
def quoted (text : String) : String :=
  String.ofList ('"' :: text.toList.flatMap escape ++ ['"'])

end Text
end SmtQuery
