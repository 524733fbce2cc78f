import SmtQuery.Reply.Optima

/-!
# Models

The values a reply gives to inputs and objectives, in the order of the reply.
Looking up a name finds the first binding of it.
-/

namespace SmtQuery

/-- Values of inputs and objectives. -/
structure Model where
  bindings : List Binding := []
  objectives : List OptimumBinding := []
  deriving DecidableEq

namespace Model

/-- The model without values. -/
def empty : Model := {}

/-- The value of the input with the given name. -/
def get? (model : Model) (name : String) : Option Value :=
  (model.bindings.find? fun binding => binding.name = name).map Binding.value

/-- The value of the objective with the given name. -/
def objective? (model : Model) (name : String) : Option Optimum :=
  (model.objectives.find? fun binding => binding.name = name).map OptimumBinding.value

/-- The number of inputs that have a value. -/
def size (model : Model) : Nat := model.bindings.length

/-- Whether no input has a value. -/
def isEmpty (model : Model) : Bool := model.bindings.isEmpty

/-- The values of one model, then those of another. -/
def append (model other : Model) : Model :=
  ⟨model.bindings ++ other.bindings, model.objectives ++ other.objectives⟩

/-- The text of a model: a line for each binding, inputs first. -/
def text (model : Model) : String :=
  String.join (model.bindings.map fun b => s!"{b.name} = {b.value} :: {b.value.kind}\n")
    ++ String.join (model.objectives.map fun b => s!"{b.name} = {b.value} :: {b.value.kind}\n")

instance : ToString Model := ⟨text⟩

end Model
end SmtQuery
