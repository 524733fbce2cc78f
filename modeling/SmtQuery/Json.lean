/-!
# JSON values

The values of JSON texts, as far as configurations need them.  A number is kept
as it is spelled, since no setting is numeric.  The members of an object stay in
order and may repeat a key, so that whoever reads the object can refuse it.

A JSON string is a sequence of code points and may hold surrogates without a
partner, which no text contains; `JsonString.toString?` fails for those.
-/

namespace SmtQuery

/-- A JSON string. -/
structure JsonString where
  codePoints : List Nat
  deriving DecidableEq

namespace JsonString

/-- The JSON string for a text. -/
def ofString (text : String) : JsonString := ⟨text.toList.map Char.toNat⟩

/-- The character with the given code point, unless it is a surrogate. -/
def char? (codePoint : Nat) : Option Char :=
  if codePoint.isValidChar then some (Char.ofNat codePoint) else none

/-- The text that a JSON string denotes, unless it holds a surrogate. -/
def toString? (s : JsonString) : Option String :=
  (s.codePoints.mapM char?).map String.ofList

end JsonString

/-- A JSON value. -/
inductive Json where
  | null
  | bool (value : Bool)
  | number (spelling : List Char)
  | string (text : JsonString)
  | array (items : List Json)
  | object (members : List (JsonString × Json))

namespace Json

/-- The value for a text. -/
def ofString (text : String) : Json := .string (JsonString.ofString text)

/-- An object with the given keys and values. -/
def ofMembers (members : List (String × Json)) : Json :=
  .object (members.map fun m => (JsonString.ofString m.1, m.2))

/-- The truth value of a Boolean. -/
def bool? : Json → Option Bool
  | bool value => some value
  | _ => none

/-- The text of a string. -/
def text? : Json → Option String
  | string s => s.toString?
  | _ => none

/-- The items of an array. -/
def items? : Json → Option (List Json)
  | array items => some items
  | _ => none

/-- The values of the named members, each at most once, of an object whose keys
are all texts.  Members with other names are ignored, whatever their values. -/
def select? (names : List String) (members : List (JsonString × Json)) :
    Option (List (Option Json)) := do
  let named ← members.mapM fun m => m.1.toString?.map (·, m.2)
  names.mapM fun name =>
    match named.filter fun m => m.1 = name with
    | [] => some none
    | [m] => some (some m.2)
    | _ => none

/-- The fields of a record, which is written as an object, or as an array of the
fields in order.  A field that is not there is `none`. -/
def fields? (names : List String) : Json → Option (List (Option Json))
  | array items =>
    if items.length ≤ names.length then
      some (items.map some ++ List.replicate (names.length - items.length) none)
    else none
  | object members => select? names members
  | _ => none

end Json
end SmtQuery
