import SmtQuery.Model
import SmtQuery.SExpr.Reader
import SmtQuery.Text.Blank

/-!
# Outcomes

The first line of a reply is the verdict.  A satisfiable query, and one on which
the solver gave up, may come with a model: one line for each value, decoded line
by line.  Blank lines are skipped, where blank is meant in the wide sense of
`Text.isBlank`.  A reply without a known verdict is kept as it is.
-/

namespace SmtQuery

/-- The outcome of a query. -/
inductive Outcome where
  | unsat
  | unknown (model : Model)
  | sat (model : Model)
  | timeout
  /-- No known verdict; the lines of the reply. -/
  | proofError (lines : List String)
  deriving DecidableEq

namespace Outcome

/-- Whether the query is satisfiable. -/
def isSat : Outcome → Bool
  | sat _ => true
  | _ => false

/-- Whether the query is unsatisfiable. -/
def isUnsat : Outcome → Bool
  | unsat => true
  | _ => false

/-- Whether the solver gave up. -/
def isUnknown : Outcome → Bool
  | unknown _ => true
  | _ => false

/-- The model of an outcome that may have one. -/
def model? : Outcome → Option Model
  | sat model | unknown model => some model
  | _ => none

end Outcome

namespace InputIndex

/-- The values on one line of a reply. -/
def modelOfLine (index : InputIndex) (line : String) : Except Error Model :=
  if Text.isBlankLine line.toList then .ok .empty
  else
    match SExpr.read line with
    | .error e => .error (.unreadableLine line e.message)
    | .ok tree =>
      if tree.isObjectives then
        (index.bindObjectives tree line).map fun objectives => { objectives }
      else
        (index.bindLine tree line .strict).map fun binding => { bindings := binding.toList }

/-- The values on the lines of a reply after its verdict. -/
def modelOfLines (index : InputIndex) (lines : List String) : Except Error Model :=
  lines.foldlM (fun model line => (index.modelOfLine line).map model.append) .empty

end InputIndex

/-- The outcome that the lines of a reply report, for a query with the given
inputs. -/
def Outcome.ofReply (inputs : List Input) : List String → Except Error Outcome
  | [] => .ok (.proofError [])
  | verdict :: lines =>
    let index := InputIndex.ofList inputs
    match String.ofList (Text.trim verdict.toList) with
    | "unsat" => .ok .unsat
    | "sat" => (index.modelOfLines lines).map .sat
    | "unknown" => (index.modelOfLines lines).map .unknown
    | "timeout" => .ok .timeout
    | _ => .ok (.proofError (verdict :: lines))

end SmtQuery
