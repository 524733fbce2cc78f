import SmtQuery.Json
import SmtQuery.Numeral

/-!
# Tokens of JSON

The strict grammar: four characters of white space, no comments, no control
characters inside strings.  A number or a word is cut as the longest run of
characters that can belong to one, and then has to match as a whole; nothing
that may follow a value in JSON could continue the run.
-/

namespace SmtQuery

/-- A lexical unit of JSON. -/
inductive JsonToken where
  | lbracket
  | rbracket
  | lbrace
  | rbrace
  | comma
  | colon
  /-- A literal, number or string. -/
  | leaf (value : Json)

namespace JsonToken

/-- One of the four white space characters. -/
def isSpace (c : Char) : Bool := c = ' ' || c = '\t' || c = '\n' || c = '\r'

/-- The code unit that four hexadecimal digits denote. -/
def unit? (digits : List Char) : Option Nat := Numeral.read? 16 digits

/-- The code point that an escaped character other than `u` stands for. -/
def escaped? : Char → Option Nat
  | '"' => some 0x22
  | '\\' => some 0x5c
  | '/' => some 0x2f
  | 'b' => some 0x8
  | 'f' => some 0xc
  | 'n' => some 0xa
  | 'r' => some 0xd
  | 't' => some 0x9
  | _ => none

/-- The code units of a string and the rest of the text, after an opening quote.
A character that is not escaped counts as a single unit. -/
def readString? : List Char → Option (List Nat × List Char)
  | [] => none
  | '"' :: rest => some ([], rest)
  | '\\' :: 'u' :: a :: b :: c :: d :: rest => do
    let unit ← unit? [a, b, c, d]
    let (units, rest) ← readString? rest
    some (unit :: units, rest)
  | '\\' :: c :: rest => do
    let codePoint ← escaped? c
    let (units, rest) ← readString? rest
    some (codePoint :: units, rest)
  | c :: rest =>
    if c.toNat < 0x20 || c = '\\' then none
    else do
      let (units, rest) ← readString? rest
      some (c.toNat :: units, rest)

/-- Joins each high surrogate with a low one that follows it. -/
def joinSurrogates : List Nat → List Nat
  | high :: low :: rest =>
    if 0xd800 ≤ high ∧ high < 0xdc00 ∧ 0xdc00 ≤ low ∧ low < 0xe000 then
      (0x10000 + (high - 0xd800) * 0x400 + (low - 0xdc00)) :: joinSurrogates rest
    else high :: joinSurrogates (low :: rest)
  | units => units

/-- Whether the character can belong to a number. -/
def isNumberPart (c : Char) : Bool :=
  c.isDigit || c = '-' || c = '+' || c = '.' || c = 'e' || c = 'E'

/-- Whether the text is digits, or empty where that is allowed, up to its end. -/
def isExponent : List Char → Bool
  | '-' :: digits | '+' :: digits => Numeral.isNumeral 10 digits
  | digits => Numeral.isNumeral 10 digits

/-- Whether the text is an exponent part, or nothing. -/
def isExponentPart : List Char → Bool
  | [] => true
  | c :: rest => (c = 'e' || c = 'E') && isExponent rest

/-- Whether the text is what may follow the integer part of a number. -/
def isFractionPart : List Char → Bool
  | '.' :: rest =>
    Numeral.isNumeral 10 (rest.takeWhile Char.isDigit) &&
      isExponentPart (rest.dropWhile Char.isDigit)
  | rest => isExponentPart rest

/-- Whether the text is a number without a sign.  Its integer part has no
superfluous zero in front. -/
def isUnsigned : List Char → Bool
  | '0' :: rest => isFractionPart rest
  | text =>
    Numeral.isNumeral 10 (text.takeWhile Char.isDigit) &&
      isFractionPart (text.dropWhile Char.isDigit)

/-- Whether the text is a number. -/
def isNumber : List Char → Bool
  | '-' :: rest => isUnsigned rest
  | text => isUnsigned text

/-- The literal that a word denotes. -/
def word? (word : List Char) : Option Json :=
  match String.ofList word with
  | "null" => some .null
  | "true" => some (.bool true)
  | "false" => some (.bool false)
  | _ => none

theorem length_of_readString? {text rest : List Char} {units : List Nat}
    (h : readString? text = some (units, rest)) : rest.length < text.length := by
  fun_induction readString? text generalizing units rest with
  | case1 => simp at h
  | case2 tail => simp_all
  | case3 a b c d tail ih =>
    simp only [Option.bind_eq_bind, Option.bind_eq_some_iff] at h
    obtain ⟨u, -, ⟨us, r⟩, hr, heq⟩ := h
    have := ih hr
    simp_all
    omega
  | case4 c tail _ ih =>
    simp only [Option.bind_eq_bind, Option.bind_eq_some_iff] at h
    obtain ⟨u, -, ⟨us, r⟩, hr, heq⟩ := h
    have := ih hr
    simp_all
    omega
  | case5 => simp at h
  | case6 c tail _ _ _ _ ih =>
    simp only [Option.bind_eq_bind, Option.bind_eq_some_iff] at h
    obtain ⟨⟨us, r⟩, hr, heq⟩ := h
    have := ih hr
    simp_all
    omega

/-- The token that starts with a character that is not white space, and the rest
of the text. -/
def scan? (c : Char) (rest : List Char) :
    Option (JsonToken × { r : List Char // r.length < (c :: rest).length }) :=
  let here (token : JsonToken) :
      Option (JsonToken × { r : List Char // r.length < (c :: rest).length }) :=
    some (token, ⟨rest, Nat.lt_succ_self _⟩)
  match c with
  | '[' => here lbracket
  | ']' => here rbracket
  | '\x7b' => here lbrace
  | '\x7d' => here rbrace
  | ',' => here comma
  | ':' => here colon
  | '"' =>
    match h : readString? rest with
    | some (units, after) =>
      some (leaf (.string ⟨joinSurrogates units⟩),
        ⟨after, Nat.lt_succ_of_lt (length_of_readString? h)⟩)
    | none => none
  | c =>
    if isNumberPart c && !c.isAlpha then
      let number := c :: rest.takeWhile isNumberPart
      if isNumber number then
        some (leaf (.number number),
          ⟨rest.dropWhile isNumberPart, Nat.lt_succ_of_le (List.dropWhile_sublist _).length_le⟩)
      else none
    else
      (word? (c :: rest.takeWhile Char.isAlpha)).map fun value =>
        (leaf value,
          ⟨rest.dropWhile Char.isAlpha, Nat.lt_succ_of_le (List.dropWhile_sublist _).length_le⟩)

/-- The tokens of a text, or `none` if it cannot be cut into tokens. -/
def tokenize? (text : List Char) : Option (List JsonToken) :=
  match text with
  | [] => some []
  | c :: rest =>
    if isSpace c then tokenize? rest
    else
      match scan? c rest with
      | none => none
      | some (token, ⟨after, _⟩) => (tokenize? after).map (token :: ·)
termination_by text.length
decreasing_by
  · simp
  · assumption

end JsonToken
end SmtQuery
