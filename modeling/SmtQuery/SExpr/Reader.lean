import SmtQuery.SExpr.Atom
import SmtQuery.SExpr.Fold
import SmtQuery.SExpr.Token

/-!
# Reading a line

One line of solver output holds one s-expression.  The reader is a machine that
takes the tokens one at a time.  Its state is either a stack of lists still open
or the finished tree; a closing parenthesis folds the innermost list and hands
the result to the list around it.  Keeping the open lists on a stack of its own
means that the depth of nesting costs no recursion.

Faults of the tokens come first: a line with an unterminated string fails there
even if its parentheses are wrong as well.
-/

namespace SmtQuery

/-- How far the reading of a line has come. -/
inductive ReadState where
  /-- The lists still open, innermost first, each with its items so far, last one
  first. -/
  | pending (openLists : List (List SExpr))
  /-- The expression is complete. -/
  | done (tree : SExpr)

namespace ReadState

/-- Nothing read yet. -/
def start : ReadState := .pending []

/-- A complete expression goes to the innermost open list; if none is open, it
is the result. -/
def place (tree : SExpr) : List (List SExpr) → ReadState
  | [] => .done tree
  | items :: outer => .pending ((tree :: items) :: outer)

/-- Takes one token, which starts at the given byte offset. -/
def step (state : ReadState) (located : Nat × Token) : Except ReadError ReadState :=
  match state with
  | .done _ => .error (.trailingInput located.1)
  | .pending openLists =>
    match located.2 with
    | .lparen => .ok (.pending ([] :: openLists))
    | .rparen =>
      match openLists with
      | [] => .error (.unexpectedClose located.1)
      | items :: outer => .ok (place (SExpr.fold items.reverse) outer)
    | .bare word => .ok (place (Atom.classify word) openLists)
    | .quoted name => .ok (place (.symbol (String.ofList name)) openLists)
    | .string text => .ok (place (.string (String.ofList text)) openLists)

/-- The tree, once the tokens are used up. -/
def finish : ReadState → Except ReadError SExpr
  | .done tree => .ok tree
  | .pending [] => .error .empty
  | .pending openLists => .error (.unbalanced openLists.length)

end ReadState

namespace SExpr

/-- The expression that a sequence of located tokens spells. -/
def ofTokens (tokens : List (Nat × Token)) : Except ReadError SExpr := do
  let state ← tokens.foldlM ReadState.step ReadState.start
  state.finish

/-- The expression on a line. -/
def readChars (line : List Char) : Except ReadError SExpr := do
  let tokens ← Token.tokenize line
  ofTokens tokens

/-- The expression on a line. -/
def read (line : String) : Except ReadError SExpr := readChars line.toList

end SExpr
end SmtQuery
