import SmtQuery.Text.Quoted

/-!
# Errors

What can go wrong between a problem and its decoded model.  Each error carries
the texts that a message about it needs; lines of solver output are quoted, so
that they stay on one line and control characters show.
-/

namespace SmtQuery

/-- An error of the library. -/
inductive Error where
  /-- The problem uses a feature that the solver lacks. -/
  | unsupportedFeature (solver feature : String)
  /-- Objectives that range over universally quantified inputs. -/
  | unsupportedOptimization (solver : String) (objectives : List String)
  /-- The problem contradicts itself. -/
  | invalidProblem (reason : String)
  /-- A line of output is not an s-expression. -/
  | unreadableLine (line reason : String)
  /-- A reference names more than one input. -/
  | ambiguousReference (reference line : String) (candidates : List String)
  /-- The value of an input has a shape that is not known. -/
  | unmatchedValue (input line subtree : String)
  /-- The value of an input has a known shape but cannot be one of its kind. -/
  | invalidValue (input line reason : String)
  /-- An item of an objectives reply is no objective. -/
  | unmatchedObjective (line parsed item : String)
  /-- A reply that should report objectives does not. -/
  | malformedObjectives (line parsed : String)
  /-- No solver has this name. -/
  | unknownSolver (name : String)
  /-- A stored configuration cannot be loaded. -/
  | invalidConfig (reason : String)
  deriving DecidableEq, Repr

namespace Error

/-- The message of an error. -/
def message : Error → String
  | unsupportedFeature solver feature =>
    s!"the chosen solver ({solver}) does not support {feature}"
  | unsupportedOptimization solver objectives =>
    s!"the chosen solver ({solver}) does not support optimization of universally quantified " ++
      "metric(s): " ++ ", ".intercalate objectives
  | invalidProblem reason => s!"invalid problem: {reason}"
  | unreadableLine line reason =>
    s!"cannot parse solver output line {Text.quoted line}: {reason}"
  | ambiguousReference reference line candidates =>
    s!"cannot uniquely identify value for {reference} in {Text.quoted line}; candidates: " ++
      ", ".intercalate candidates
  | unmatchedValue input line subtree =>
    s!"cannot extract value for {input} from {Text.quoted line}; unmatched: {subtree}"
  | invalidValue input line reason =>
    s!"invalid value for {input} in {Text.quoted line}: {reason}"
  | unmatchedObjective line parsed item =>
    s!"cannot extract objective value from {Text.quoted line}; parsed: {parsed}; item: {item}"
  | malformedObjectives line parsed =>
    s!"malformed objectives reply {Text.quoted line}; parsed: {parsed}"
  | unknownSolver name =>
    s!"unknown solver: {name}. Valid options: z3, cvc5, yices, boolector, mathsat, abc"
  | invalidConfig reason => s!"invalid solver configuration: {reason}"

instance : ToString Error := ⟨message⟩

end Error
end SmtQuery
