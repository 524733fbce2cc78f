import SmtQuery.Json

/-!
# Writing JSON

The compact text of a value, without white space.  Strings escape quotes,
backslashes and control characters and show everything else as it is.
-/

namespace SmtQuery

namespace JsonString

/-- A four-digit escape. -/
def unitEscape (codePoint : Nat) : List Char :=
  '\\' :: 'u' :: (Nat.toDigits 16 codePoint).leftpad 4 '0'

/-- One code point of a written string. -/
def escape (codePoint : Nat) : List Char :=
  match codePoint with
  | 0x22 => ['\\', '"']
  | 0x5c => ['\\', '\\']
  | 0x8 => ['\\', 'b']
  | 0xc => ['\\', 'f']
  | 0xa => ['\\', 'n']
  | 0xd => ['\\', 'r']
  | 0x9 => ['\\', 't']
  | _ =>
    if codePoint < 0x20 then unitEscape codePoint
    else match char? codePoint with
      | some c => [c]
      | none => unitEscape codePoint

/-- The written form of a string, with its quotes. -/
def write (s : JsonString) : List Char := '"' :: s.codePoints.flatMap escape ++ ['"']

end JsonString

namespace Json

mutual

/-- The written form of a value. -/
def write : Json → List Char
  | null => "null".toList
  | bool true => "true".toList
  | bool false => "false".toList
  | number spelling => spelling
  | string s => s.write
  | array items => '[' :: writeItems items ++ [']']
  | object members => '\x7b' :: writeMembers members ++ ['\x7d']

/-- The items of an array, separated by commas. -/
def writeItems : List Json → List Char
  | [] => []
  | [item] => write item
  | item :: next :: rest => write item ++ ',' :: writeItems (next :: rest)

/-- The members of an object, separated by commas. -/
def writeMembers : List (JsonString × Json) → List Char
  | [] => []
  | [(key, value)] => key.write ++ ':' :: write value
  | (key, value) :: next :: rest =>
    key.write ++ ':' :: write value ++ ',' :: writeMembers (next :: rest)

end

instance : ToString Json := ⟨fun value => String.ofList value.write⟩

end Json
end SmtQuery
