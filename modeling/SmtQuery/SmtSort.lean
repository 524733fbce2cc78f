import SmtQuery.Symbol

/-!
# Sorts

The types of SMT-LIB terms, as far as declarations need them.
-/

namespace SmtQuery

/-- A sort. -/
inductive SmtSort where
  | bool
  | int
  | real
  /-- Bit-vectors of a fixed width. -/
  | bitVec (width : UInt32)
  /-- Floating-point numbers with the given sizes of exponent and significand. -/
  | float (exponentBits significandBits : UInt32)
  | array (index element : SmtSort)
  /-- A declared sort, by its name. -/
  | named (name : String)
  deriving DecidableEq

namespace SmtSort

/-- The sort of single-precision numbers. -/
def float32 : SmtSort := .float 8 24

/-- The sort of double-precision numbers. -/
def float64 : SmtSort := .float 11 53

/-- The written form of a sort. -/
def form : SmtSort → Form
  | bool => Form.word "Bool"
  | int => Form.word "Int"
  | real => Form.word "Real"
  | bitVec width => Form.indexed (Form.word "BitVec") [width.toNat]
  | float e s => Form.indexed (Form.word "FloatingPoint") [e.toNat, s.toNat]
  | array index element => .group [Form.word "Array", form index, form element]
  | named name => Symbol.form name

instance : ToString SmtSort := ⟨fun sort => toString sort.form⟩

end SmtSort
end SmtQuery
