import Std.Data.HashMap
import SmtQuery.Error
import SmtQuery.Kind
import SmtQuery.Term

/-!
# Inputs and references

A symbolic value is known to the solver by the letter `s` and its number.  The
inputs of a problem are such values with a name of the user's choice.  Replies
name inputs by their reference, so decoding starts from an index of the inputs
by number; a number that two inputs share cannot be resolved.
-/

namespace SmtQuery

/-- The number of a symbolic value. -/
structure NodeId where
  val : UInt64
  deriving DecidableEq, Hashable

namespace NodeId

/-- The symbol that stands for the value: `s` and the number. -/
def symbol (id : NodeId) : String := String.ofList ('s' :: Nat.toDigits 10 id.val.toNat)

/-- The number that a symbol stands for.  Leading zeros are allowed, and the
number has to be below `2 ^ 64`. -/
def ofSymbol? (symbol : String) : Option NodeId :=
  match symbol.toList with
  | 's' :: digits => do
    let n ← Numeral.read? 10 digits
    if n < UInt64.size then some ⟨UInt64.ofNat n⟩ else none
  | _ => none

instance : ToString NodeId := ⟨symbol⟩

end NodeId

/-- A symbolic value: its number and its kind. -/
structure Ref where
  id : NodeId
  kind : Kind
  deriving DecidableEq

namespace Ref

/-- The symbol that stands for the value. -/
def symbol (ref : Ref) : String := ref.id.symbol

/-- The value as a term. -/
def term (ref : Ref) : Term := .const ref.symbol

instance : ToString Ref := ⟨symbol⟩

end Ref

/-- A declared input of a problem. -/
structure Input where
  ref : Ref
  /-- The name the user knows the input by. -/
  name : String
  quantifier : Quantifier := .existential
  /-- The bound inputs that this one depends on; none for an input that precedes
  every change of quantifier. -/
  dependsOn : List Ref := []
  deriving DecidableEq

namespace Input

/-- The number of the input's value. -/
def id (input : Input) : NodeId := input.ref.id

/-- The kind of the input's value. -/
def kind (input : Input) : Kind := input.ref.kind

/-- Whether the input stands for a function of bound inputs. -/
def isSkolem (input : Input) : Bool := !input.dependsOn.isEmpty

/-- The reference, and the user's name in parentheses. -/
def text (input : Input) : String := s!"{input.ref.symbol} ({input.name})"

instance : ToString Input := ⟨text⟩

end Input

/-- Inputs by number, each entry in order of declaration. -/
structure InputIndex where
  byId : Std.HashMap NodeId (List Input)

namespace InputIndex

/-- Adds an input after those that have its number already. -/
def insert (index : InputIndex) (input : Input) : InputIndex :=
  ⟨index.byId.alter input.id fun entry => some (entry.getD [] ++ [input])⟩

/-- The index of a list of inputs. -/
def ofList (inputs : List Input) : InputIndex := inputs.foldl insert ⟨∅⟩

/-- The inputs with the given number. -/
def get (index : InputIndex) (id : NodeId) : List Input := index.byId.getD id []

/-- The number of inputs. -/
def size (index : InputIndex) : Nat :=
  index.byId.values.foldr (fun inputs n => inputs.length + n) 0

/-- Whether there is no input. -/
def isEmpty (index : InputIndex) : Bool := index.byId.isEmpty

/-- The input that a reference names, or `none` if it names no input.  A
reference that names several is an error, which quotes the line it occurs in. -/
def resolve (index : InputIndex) (reference line : String) : Except Error (Option Input) :=
  match NodeId.ofSymbol? reference with
  | none => .ok none
  | some id =>
    match index.get id with
    | [] => .ok none
    | [input] => .ok (some input)
    | several => .error (.ambiguousReference reference line (several.map Input.text))

end InputIndex
end SmtQuery
