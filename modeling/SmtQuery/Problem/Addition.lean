import SmtQuery.Problem

/-!
# Additions

A problem is built from one with an output and a configuration alone, by adding
to it.  Whatever is added goes to the end of the list it belongs to and takes
nothing away.  So the kinds a problem mentions can only become more, and a
feature that a problem uses stays in use.
-/

namespace SmtQuery

/-- Something that can be added to a problem. -/
inductive Addition where
  | comment (text : String)
  | input (input : Input)
  | constant (ref : Ref) (value : Value)
  | table (table : Table)
  | array (array : ArrayDecl)
  | function (function : FunctionDecl)
  | postulate (postulate : Postulate)
  | assignment (assignment : Assignment)
  | constraint (term : Term)
  | objective (objective : Objective)
  /-- A kind that is in use without being that of a declaration, as inside a
  postulate. -/
  | kind (kind : Kind)

namespace Problem

/-- The problem with one thing added. -/
def add (p : Problem) : Addition → Problem
  | .comment text => { p with comments := p.comments ++ [text] }
  | .input input => { p with inputs := p.inputs ++ [input] }
  | .constant ref value => { p with constants := p.constants ++ [(ref, value)] }
  | .table table => { p with tables := p.tables ++ [table] }
  | .array array => { p with arrays := p.arrays ++ [array] }
  | .function function => { p with functions := p.functions ++ [function] }
  | .postulate postulate => { p with postulates := p.postulates ++ [postulate] }
  | .assignment assignment => { p with assignments := p.assignments ++ [assignment] }
  | .constraint term => { p with constraints := p.constraints ++ [term] }
  | .objective objective => { p with objectives := p.objectives ++ [objective] }
  | .kind kind => { p with notedKinds := p.notedKinds ++ [kind] }

/-- The problem with several things added, one after another. -/
def addAll (p : Problem) (additions : List Addition) : Problem := additions.foldl add p

end Problem
end SmtQuery
