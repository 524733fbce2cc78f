import SmtQuery.Ieee
import SmtQuery.SmtSort

/-!
# Kinds

The kind of a symbolic value says more than its sort: whether a bit-vector is
signed, and which elements a named sort has.  A named sort either lists its
elements or leaves them to the solver; an empty list is a list.
-/

namespace SmtQuery

/-- A sort declared by name. -/
structure NamedSort where
  name : String
  /-- The elements, if the sort is closed over a list of them. -/
  elements? : Option (List String) := none
  deriving DecidableEq

namespace NamedSort

/-- The first position of an element in the list, if the sort has a list and the
element is on it. -/
def indexOf? (sort : NamedSort) (element : String) : Option Nat := do
  let elements ← sort.elements?
  elements.idxOf? element

end NamedSort

/-- The kind of a symbolic value. -/
inductive Kind where
  /-- A bit-vector, read as signed or unsigned. -/
  | bitVec (signed : Bool) (width : UInt32)
  /-- The integers. -/
  | int
  /-- The algebraic reals. -/
  | real
  | float (precision : Precision)
  | named (sort : NamedSort)
  deriving DecidableEq

namespace Kind

/-- Bit-vectors and integers. -/
def isIntegral : Kind → Bool
  | bitVec _ _ | int => true
  | _ => false

/-- Whether the kind is a bit-vector of any width. -/
def isBitVec : Kind → Bool
  | bitVec _ _ => true
  | _ => false

/-- Whether the kind is a named sort. -/
def isNamed : Kind → Bool
  | named _ => true
  | _ => false

/-- Whether the kind is floating-point of either precision. -/
def isFloat : Kind → Bool
  | float _ => true
  | _ => false

/-- The sort that a value of the kind is declared with. -/
def sort : Kind → SmtSort
  | bitVec _ width => .bitVec width
  | int => .int
  | real => .real
  | float .single => .float32
  | float .double => .float64
  | named s => .named s.name

/-- The name of a kind in messages and models. -/
def text : Kind → String
  | bitVec true width => s!"Int{width.toNat}"
  | bitVec false width => s!"Word{width.toNat}"
  | int => "Integer"
  | real => "Real"
  | float .single => "Float"
  | float .double => "Double"
  | named s => s.name

instance : ToString Kind := ⟨text⟩

end Kind
end SmtQuery
