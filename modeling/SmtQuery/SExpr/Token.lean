/-!
# Tokens

A line is cut into parentheses, bare words, symbols between bars and string
literals.  Between tokens stand spaces and comments; a comment runs from a
semicolon to the end of its line.  Only five ASCII characters separate tokens,
so any other character, of whatever script, is part of a word.

Positions are byte offsets in the UTF-8 encoding of the line.  A token covers as
many bytes as its own spelling, since each token is spelled in one way only;
`Token.spelling` gives it back.
-/

namespace SmtQuery

/-- Why a line could not be read. -/
inductive ReadError where
  /-- No closing bar for the symbol that starts here. -/
  | unterminatedSymbol (start : Nat)
  /-- No closing quote for the string that starts here. -/
  | unterminatedString (start : Nat)
  /-- A closing parenthesis with no list open. -/
  | unexpectedClose (position : Nat)
  /-- A token after a complete expression. -/
  | trailingInput (position : Nat)
  /-- The line ended with lists still open. -/
  | unbalanced (unclosed : Nat)
  /-- The line holds no token. -/
  | empty
  deriving DecidableEq, Repr

namespace ReadError

/-- What is wrong, without saying where. -/
def reason : ReadError → String
  | unterminatedSymbol _ => "unterminated quoted symbol"
  | unterminatedString _ => "unterminated string literal"
  | unexpectedClose _ => "unexpected ')'"
  | trailingInput _ => "unexpected trailing input"
  | unbalanced unclosed => s!"unbalanced parentheses: {unclosed} unclosed"
  | empty => "empty input"

/-- The byte offset of the fault, if it has one. -/
def position? : ReadError → Option Nat
  | unterminatedSymbol p | unterminatedString p | unexpectedClose p | trailingInput p => some p
  | unbalanced _ | empty => none

/-- The reason, with the position if there is one. -/
def message (e : ReadError) : String :=
  match e.position? with
  | some p => s!"{e.reason} at byte {p}"
  | none => e.reason

end ReadError

/-- A lexical unit. -/
inductive Token where
  | lparen
  | rparen
  /-- A word that may turn out to be a number or a symbol. -/
  | bare (word : List Char)
  /-- A symbol between bars. -/
  | quoted (name : List Char)
  /-- A string literal, with doubled quotes made single. -/
  | string (text : List Char)
  deriving DecidableEq, Repr

namespace Token

/-- Whether the character separates tokens: space, tab, line feed, form feed or
carriage return. -/
def isSpace (c : Char) : Bool :=
  c = ' ' || c = '\t' || c = '\n' || c = '\x0c' || c = '\r'

/-- Whether the character ends a bare word. -/
def isDelimiter (c : Char) : Bool :=
  isSpace c || c = '(' || c = ')' || c = '|' || c = '"' || c = ';'

/-- A text with each quote doubled. -/
def doubleQuotes : List Char → List Char
  | [] => []
  | c :: rest => if c = '"' then '"' :: '"' :: doubleQuotes rest else c :: doubleQuotes rest

/-- A text between quotes. -/
def stringSpelling (text : List Char) : List Char := '"' :: doubleQuotes text ++ ['"']

/-- The text that a token is read from. -/
def spelling : Token → List Char
  | lparen => ['(']
  | rparen => [')']
  | bare word => word
  | quoted name => '|' :: name ++ ['|']
  | string text => stringSpelling text

/-- The number of bytes of a text in UTF-8. -/
def byteLength (text : List Char) : Nat := text.foldr (fun c n => c.utf8Size + n) 0

/-- The symbol and the rest of the line, after an opening bar. -/
def readQuoted? (text : List Char) : Option (List Char × List Char) :=
  match text.dropWhile (· ≠ '|') with
  | _ :: rest => some (text.takeWhile (· ≠ '|'), rest)
  | [] => none

/-- The text of a string and the rest of the line, after an opening quote.  Two
quotes in a row stand for one; a quote alone closes the string. -/
def readString? : List Char → Option (List Char × List Char)
  | [] => none
  | '"' :: '"' :: rest => (readString? rest).map fun (text, rest) => ('"' :: text, rest)
  | '"' :: rest => some ([], rest)
  | c :: rest => (readString? rest).map fun (text, rest) => (c :: text, rest)

theorem length_of_readQuoted? {text name rest : List Char}
    (h : readQuoted? text = some (name, rest)) : rest.length < text.length := by
  have hle : (text.dropWhile (· ≠ '|')).length ≤ text.length := (List.dropWhile_sublist _).length_le
  unfold readQuoted? at h
  split at h
  · next tail heq =>
    obtain ⟨-, rfl⟩ := Prod.mk.inj (Option.some.inj h)
    rw [heq, List.length_cons] at hle
    exact hle
  · exact absurd h (by simp)

theorem length_of_readString? {text string rest : List Char}
    (h : readString? text = some (string, rest)) : rest.length < text.length := by
  fun_induction readString? text generalizing string rest with
  | case1 => simp at h
  | case2 tail ih =>
    obtain ⟨⟨s, r⟩, hs, hr⟩ := Option.map_eq_some_iff.1 h
    have := ih hs
    simp_all
    omega
  | case3 tail => simp_all
  | case4 c tail _ _ ih =>
    obtain ⟨⟨s, r⟩, hs, hr⟩ := Option.map_eq_some_iff.1 h
    have := ih hs
    simp_all
    omega

/-- The token that starts with the given character, which does not separate
tokens and does not open a comment, and the rest of the line. -/
def scan (position : Nat) (c : Char) (rest : List Char) :
    Except ReadError (Token × { r : List Char // r.length ≤ rest.length }) :=
  if c = '(' then .ok (lparen, ⟨rest, Nat.le_refl _⟩)
  else if c = ')' then .ok (rparen, ⟨rest, Nat.le_refl _⟩)
  else if c = '|' then
    match h : readQuoted? rest with
    | some (name, after) => .ok (quoted name, ⟨after, Nat.le_of_lt (length_of_readQuoted? h)⟩)
    | none => .error (.unterminatedSymbol position)
  else if c = '"' then
    match h : readString? rest with
    | some (text, after) => .ok (string text, ⟨after, Nat.le_of_lt (length_of_readString? h)⟩)
    | none => .error (.unterminatedString position)
  else
    .ok (bare (c :: rest.takeWhile (!isDelimiter ·)),
      ⟨rest.dropWhile (!isDelimiter ·), (List.dropWhile_sublist _).length_le⟩)

/-- The tokens of a text whose first character lies at the given byte offset,
each with the offset at which it starts. -/
def tokensFrom (position : Nat) (text : List Char) : Except ReadError (List (Nat × Token)) :=
  match text with
  | [] => .ok []
  | c :: rest =>
    if isSpace c then tokensFrom (position + 1) rest
    else if c = ';' then
      tokensFrom (position + 1 + byteLength (rest.takeWhile (· ≠ '\n'))) (rest.dropWhile (· ≠ '\n'))
    else
      match scan position c rest with
      | .error e => .error e
      | .ok (token, ⟨after, _⟩) =>
        match tokensFrom (position + byteLength token.spelling) after with
        | .error e => .error e
        | .ok tokens => .ok ((position, token) :: tokens)
termination_by text.length
decreasing_by
  · simp
  · exact Nat.lt_succ_of_le (List.dropWhile_sublist _).length_le
  · simpa using Nat.lt_succ_of_le ‹_›

/-- The tokens of a line, each with its byte offset. -/
def tokenize (line : List Char) : Except ReadError (List (Nat × Token)) := tokensFrom 0 line

end Token
end SmtQuery
