import SmtQuery.Reply.Binding

/-!
# Optima

An optimising solver reports its goals in one line, `(objectives (s1 5) (s2 oo))`.
An item is an ordinary pair, or a pair whose value is infinite or infinitesimal.
Infinities occur for integers and reals, infinitesimals for reals only.
-/

namespace SmtQuery

/-- The decoded value of an objective. -/
structure OptimumBinding where
  name : String
  value : Optimum
  deriving DecidableEq

namespace SExpr

/-- Whether the tree is `(* -1 word)`. -/
def isNegated (word : String) : SExpr → Bool
  | list [times, factor, operand] =>
    times.isSymbol "*" && factor.isInt (-1) && operand.isSymbol word
  | _ => false

/-- Whether the tree is `(to_real -1)`. -/
def isRealMinusOne : SExpr → Bool
  | list [conversion, factor] => conversion.isSymbol "to_real" && factor.isInt (-1)
  | _ => false

/-- Whether the tree is `(* (to_real -1) word)`. -/
def isRealNegated (word : String) : SExpr → Bool
  | list [times, factor, operand] =>
    times.isSymbol "*" && factor.isRealMinusOne && operand.isSymbol word
  | _ => false

/-- Whether the tree is a reply that reports objectives. -/
def isObjectives : SExpr → Bool
  | list (head :: _) => head.isSymbol "objectives"
  | _ => false

end SExpr

/-- The infinite or infinitesimal value that a tree denotes at a kind. -/
def unbounded? (kind : Kind) (tree : SExpr) : Option Optimum :=
  if (kind = .int ∨ kind = .real) ∧ tree.isSymbol "oo" then some (.infinity false kind)
  else if (kind = .int ∨ kind = .real) ∧ tree.isNegated "oo" then some (.infinity true kind)
  else if kind = .real ∧ tree.isSymbol "epsilon" then some (.epsilon false kind)
  else if kind = .real ∧ tree.isRealNegated "epsilon" then some (.epsilon true kind)
  else none

namespace InputIndex

/-- The infinite or infinitesimal binding in a pair, if it has one. -/
def unboundedPair (index : InputIndex) (items : List SExpr) (line : String) :
    Except Error (Option OptimumBinding) := do
  match ← index.target items line, items with
  | some input, [_, value] => return (unbounded? input.kind value).map (⟨input.name, ·⟩)
  | _, _ => return none

/-- The binding of one item of a reply.  The reply itself is needed for messages
only. -/
def bindObjective (index : InputIndex) (reply : SExpr) (line : String) (item : SExpr) :
    Except Error OptimumBinding :=
  let failure : Error := .unmatchedObjective line (toString reply) (toString item)
  match item with
  | .list pair => do
    match ← index.bindPair pair line .permissive with
    | some binding => return ⟨binding.name, .regular binding.value⟩
    | none =>
      match ← index.unboundedPair pair line with
      | some binding => return binding
      | none => throw failure
  | _ => .error failure

/-- The bindings of a reply that reports objectives. -/
def bindObjectives (index : InputIndex) (reply : SExpr) (line : String) :
    Except Error (List OptimumBinding) :=
  match reply with
  | .list (head :: items) =>
    if head.isSymbol "objectives" then items.mapM (index.bindObjective reply line)
    else .error (.malformedObjectives line (toString reply))
  | _ => .error (.malformedObjectives line (toString reply))

end InputIndex
end SmtQuery
