import SmtQuery.Error

/-!
# Solvers and what they can do

The supported solvers, the features a problem may need, and the configuration of
a query.  A capability table is trusted as it stands; nothing asks the installed
solver.  Bit-vectors are in no table, because every solver has them.
-/

namespace SmtQuery

/-- A feature that not every solver has. -/
inductive Feature where
  | ints
  | reals
  | singleFloats
  | doubleFloats
  | quantifiers
  | namedSorts
  | optimization
  deriving DecidableEq, Repr

namespace Feature

/-- All features, in the order in which a problem is checked for them. -/
def all : List Feature :=
  [ints, reals, singleFloats, doubleFloats, quantifiers, namedSorts, optimization]

/-- The words for a feature in a message. -/
def text : Feature → String
  | ints => "unbounded integers"
  | reals => "algebraic reals"
  | singleFloats => "single-precision floating-point numbers"
  | doubleFloats => "double-precision floating-point numbers"
  | quantifiers => "quantifiers"
  | namedSorts => "uninterpreted sorts"
  | optimization => "optimization routines"

end Feature

/-- Which features a solver has, under the name that messages use for it. -/
structure Capabilities where
  name : String
  supports : Feature → Bool

namespace Capabilities

/-- A table without any feature: bit-vector problems only. -/
def bitVecOnly (name : String) : Capabilities := ⟨name, fun _ => false⟩

/-- A table with the listed features. -/
def ofList (name : String) (features : List Feature) : Capabilities :=
  ⟨name, fun feature => features.contains feature⟩

/-- The features of a table, in the order of `Feature.all`. -/
def toList (caps : Capabilities) : List Feature := Feature.all.filter caps.supports

end Capabilities

/-- The supported solvers. -/
inductive Solver where
  | z3
  | cvc5
  | yices
  | boolector
  | mathSat
  | abc
  deriving DecidableEq, Repr

namespace Solver

/-- All solvers. -/
def all : List Solver := [z3, cvc5, yices, boolector, mathSat, abc]

/-- The name of a solver in messages. -/
def text : Solver → String
  | z3 => "Z3"
  | cvc5 => "CVC5"
  | yices => "Yices"
  | boolector => "Boolector"
  | mathSat => "MathSAT"
  | abc => "ABC"

instance : ToString Solver := ⟨text⟩

/-- The name of a solver in a stored configuration. -/
def keyword : Solver → String
  | z3 => "z3"
  | cvc5 => "cvc5"
  | yices => "yices"
  | boolector => "boolector"
  | mathSat => "mathsat"
  | abc => "abc"

/-- The names a user may choose a solver by, all in lower case. -/
def aliases : Solver → List String
  | yices => ["yices", "yices2", "yices-smt2"]
  | mathSat => ["mathsat", "mathsat5"]
  | solver => [solver.keyword]

/-- The solver with the given name, in any case.  Lowering the ASCII letters is
enough: no character outside ASCII has the lower case of a letter that occurs in
one of the names. -/
def ofName (name : String) : Except Error Solver :=
  match all.find? fun solver => solver.aliases.contains name.toLower with
  | some solver => .ok solver
  | none => .error (.unknownSolver name)

/-- The built-in capability table of a solver. -/
def capabilities (solver : Solver) : Capabilities :=
  .ofList solver.text <|
    match solver with
    | z3 => Feature.all
    | cvc5 => [.ints, .reals, .singleFloats, .doubleFloats, .quantifiers, .namedSorts]
    | yices => [.ints, .reals, .namedSorts]
    | mathSat => [.ints, .reals, .singleFloats, .doubleFloats, .namedSorts]
    | boolector | abc => []

end Solver

/-- How a query is written for one solver. -/
structure Config where
  solver : Solver
  /-- The table that a problem is checked against. -/
  capabilities : Capabilities
  /-- The logic to announce; derived from the problem if there is none. -/
  logic? : Option String := none
  /-- Options to set, in order, after the one that asks for models. -/
  options : List (String × String) := []
  /-- Whether the comments of the problem are written. -/
  emitComments : Bool := true

/-- The default configuration for a solver. -/
def Config.ofSolver (solver : Solver) : Config := { solver, capabilities := solver.capabilities }

end SmtQuery
