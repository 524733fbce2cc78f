import SmtQuery.Input
import SmtQuery.Value

/-!
# Answers

The line by which a solver answers a request for the value of a reference, when
it spells the value as a script would.  Decoding such a line at the kind of the
value gives the value back.
-/

namespace SmtQuery

/-- The answer `((reference value))`. -/
def Value.answer (ref : Ref) (value : Value) : Form :=
  .group [.group [ref.term.form, value.term.form]]

end SmtQuery
