import SmtQuery.Input
import SmtQuery.Solver
import SmtQuery.Value

/-!
# Problems

A query as it is handed over for writing: declared inputs, the values derived
from them, and the bit whose truth is asked for.  The terms inside are finished;
they refer to symbolic values by their symbols and are never looked into.

Satisfiability asks for inputs that make the output true; validity asks for
inputs that make it false.  So the inputs that a model gives values to, the free
ones, are the existential inputs in the first case and the universal ones in the
second.  The others are bound by a quantifier.
-/

namespace SmtQuery

/-- What is asked about the output. -/
inductive Mode where
  | satisfiability
  | validity
  deriving DecidableEq, Repr

/-- The quantifier of the inputs that are declared at the top. -/
def Mode.freeQuantifier : Mode → Quantifier
  | .satisfiability => .existential
  | .validity => .universal

/-- A lookup table; entry `i` is its value at index `i`. -/
structure Table where
  id : Nat
  index : Kind
  element : Kind
  entries : List Term

/-- The function that stands for a table. -/
def Table.symbol (table : Table) : String := s!"table{table.id}"

/-- An array, which may start with one value everywhere. -/
structure ArrayDecl where
  id : Nat
  index : Kind
  element : Kind
  initial? : Option Term := none

/-- The constant that stands for an array. -/
def ArrayDecl.symbol (array : ArrayDecl) : String := s!"array_{array.id}"

/-- A function without a definition, or a constant if it has no parameters. -/
structure FunctionDecl where
  name : String
  parameters : List Kind
  result : Kind

/-- A fact that is asserted as it stands. -/
structure Postulate where
  name : String
  term : Term

/-- One step in the sequence of derived values. -/
structure Assignment where
  target : Ref
  term : Term

/-- Which way an objective is to be optimised. -/
inductive Direction where
  | maximize
  | minimize
  deriving DecidableEq, Repr

/-- An optimisation goal.  The tracker is an input that is constrained to equal
the optimised value, so that the solver reports the goal under a declared
reference. -/
structure Objective where
  name : String
  direction : Direction
  value : Ref
  tracker : Ref

/-- A query. -/
structure Problem where
  mode : Mode := .satisfiability
  comments : List String := []
  /-- The declared inputs, in the order of their quantifiers. -/
  inputs : List Input := []
  constants : List (Ref × Value) := []
  tables : List Table := []
  arrays : List ArrayDecl := []
  functions : List FunctionDecl := []
  postulates : List Postulate := []
  assignments : List Assignment := []
  /-- Side conditions; hypotheses if validity is asked for. -/
  constraints : List Term := []
  /-- The bit whose truth is asked for. -/
  output : Ref
  config : Config
  /-- The optimisation goals; none for an ordinary query. -/
  objectives : List Objective := []
  /-- Kinds in use besides those of the declarations. -/
  notedKinds : List Kind := []

namespace Problem

/-- The inputs that are declared at the top. -/
def freeInputs (p : Problem) : List Input :=
  p.inputs.filter fun input => input.quantifier = p.mode.freeQuantifier

/-- The inputs that a quantifier binds. -/
def boundInputs (p : Problem) : List Input :=
  p.inputs.filter fun input => input.quantifier ≠ p.mode.freeQuantifier

/-- Whether anything is to be optimised. -/
def isOptimization (p : Problem) : Bool := !p.objectives.isEmpty

/-- The kinds of everything a problem mentions, one after another. -/
def mentionedKinds (p : Problem) : List Kind :=
  p.notedKinds ++ [p.output.kind]
    ++ p.inputs.flatMap (fun input => input.kind :: input.dependsOn.map Ref.kind)
    ++ p.constants.flatMap (fun c => [c.1.kind, c.2.kind])
    ++ p.tables.flatMap (fun table => [table.index, table.element])
    ++ p.arrays.flatMap (fun array => [array.index, array.element])
    ++ p.functions.flatMap (fun function => function.parameters ++ [function.result])
    ++ p.assignments.map (fun assignment => assignment.target.kind)
    ++ p.objectives.flatMap (fun objective => [objective.value.kind, objective.tracker.kind])

/-- The kinds a problem mentions, each once. -/
def kinds (p : Problem) : List Kind := p.mentionedKinds.eraseDups

end Problem
end SmtQuery
