import SmtQuery.Json.Token

/-!
# Reading JSON

A machine over tokens with a stack of the arrays and objects still open, so that
the depth of nesting costs no recursion.  The whole text has to be one value.
-/

namespace SmtQuery

/-- An array or object that is still open. -/
inductive JsonFrame where
  /-- An array, with its items so far, last one first. -/
  | array (items : List Json)
  /-- An object, with its complete members so far, last one first, and the key
  whose value is being read. -/
  | object (members : List (JsonString × Json)) (key : JsonString)

/-- What the reader expects next. -/
inductive JsonState where
  | wantValue (frames : List JsonFrame)
  /-- A value, or the end of an array that has just been opened. -/
  | arrayStart (frames : List JsonFrame)
  /-- A key, or the end of an object that has just been opened. -/
  | objectStart (frames : List JsonFrame)
  | wantKey (members : List (JsonString × Json)) (frames : List JsonFrame)
  | wantColon (members : List (JsonString × Json)) (key : JsonString) (frames : List JsonFrame)
  /-- A comma, or the end of the array. -/
  | afterItem (items : List Json) (frames : List JsonFrame)
  /-- A comma, or the end of the object. -/
  | afterMember (members : List (JsonString × Json)) (frames : List JsonFrame)
  | done (value : Json)

namespace JsonState

/-- A complete value goes to the innermost open array or object; if none is open,
it is the result. -/
def place (value : Json) : List JsonFrame → JsonState
  | [] => .done value
  | .array items :: outer => .afterItem (value :: items) outer
  | .object members key :: outer => .afterMember ((key, value) :: members) outer

/-- The start of a value. -/
def begin? (frames : List JsonFrame) : JsonToken → Option JsonState
  | .leaf value => some (place value frames)
  | .lbracket => some (.arrayStart frames)
  | .lbrace => some (.objectStart frames)
  | _ => none

/-- Takes one token. -/
def step? : JsonState → JsonToken → Option JsonState
  | .wantValue frames, token => begin? frames token
  | .arrayStart frames, .rbracket => some (place (.array []) frames)
  | .arrayStart frames, token => begin? (.array [] :: frames) token
  | .objectStart frames, .rbrace => some (place (.object []) frames)
  | .objectStart frames, .leaf (.string key) => some (.wantColon [] key frames)
  | .wantKey members frames, .leaf (.string key) => some (.wantColon members key frames)
  | .wantColon members key frames, .colon => some (.wantValue (.object members key :: frames))
  | .afterItem items frames, .comma => some (.wantValue (.array items :: frames))
  | .afterItem items frames, .rbracket => some (place (.array items.reverse) frames)
  | .afterMember members frames, .comma => some (.wantKey members frames)
  | .afterMember members frames, .rbrace => some (place (.object members.reverse) frames)
  | _, _ => none

/-- The value, once the tokens are used up. -/
def finish? : JsonState → Option Json
  | .done value => some value
  | _ => none

end JsonState

/-- The value of a JSON text, or `none` if the text is not JSON. -/
def Json.read? (text : String) : Option Json := do
  let tokens ← JsonToken.tokenize? text.toList
  let state ← tokens.foldlM JsonState.step? (.wantValue [])
  state.finish?

end SmtQuery
