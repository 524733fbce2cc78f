import SmtQuery.Problem

/-!
# The gate

A problem is sent to a solver only if the solver's table has every feature the
problem uses.  Features are checked in a fixed order and the first one missing
is reported.  Only when all are there does the gate look at the objectives: one
that involves a universally quantified input has no optimum, and all such
objectives are reported together.
-/

namespace SmtQuery

/-- Why a problem is not sent. -/
inductive Rejection where
  | missing (feature : Feature)
  | universalObjectives (names : List String)
  deriving DecidableEq, Repr

/-- The error for a rejection by the table of the named solver. -/
def Rejection.error (solver : String) : Rejection → Error
  | missing feature => .unsupportedFeature solver feature.text
  | universalObjectives names => .unsupportedOptimization solver names

namespace Problem

/-- Whether a problem has an input that needs a quantifier: a universal one where
satisfiability is asked for, an existential one where validity is. -/
def needsQuantifiers (p : Problem) : Bool :=
  match p.mode with
  | .satisfiability => p.inputs.any fun input => input.quantifier = .universal
  | .validity => p.inputs.any fun input => input.quantifier = .existential

/-- Whether a problem with the given kinds uses a feature. -/
def uses (p : Problem) (kinds : List Kind) : Feature → Bool
  | .ints => kinds.contains .int
  | .reals => kinds.contains .real
  | .singleFloats => kinds.contains (.float .single)
  | .doubleFloats => kinds.contains (.float .double)
  | .quantifiers => p.needsQuantifiers
  | .namedSorts => kinds.any Kind.isNamed
  | .optimization => p.isOptimization

/-- Whether an operand of the objective has the number of a universally
quantified input.  The mode of the query makes no difference here. -/
def isUniversal (p : Problem) (objective : Objective) : Bool :=
  p.inputs.any fun input =>
    input.quantifier = .universal &&
      (input.id = objective.value.id || input.id = objective.tracker.id)

/-- The names of the objectives that involve a universally quantified input. -/
def universalObjectives (p : Problem) : List String :=
  (p.objectives.filter p.isUniversal).map Objective.name

/-- Why a problem with the given kinds is not sent to a solver, if it is not. -/
def rejection? (p : Problem) (kinds : List Kind) (caps : Capabilities) : Option Rejection :=
  match Feature.all.find? fun feature => p.uses kinds feature && !caps.supports feature with
  | some feature => some (.missing feature)
  | none =>
    if p.universalObjectives.isEmpty then none
    else some (.universalObjectives p.universalObjectives)

/-- Fails unless the solver can take the problem. -/
def gate (p : Problem) (caps : Capabilities) : Except Error Unit :=
  match p.rejection? p.kinds caps with
  | some rejection => .error (rejection.error caps.name)
  | none => .ok ()

end Problem
end SmtQuery
