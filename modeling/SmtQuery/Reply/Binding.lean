import SmtQuery.Input
import SmtQuery.SExpr.Printer
import SmtQuery.Value

/-!
# Bindings

A solver answers a request for a value with `((s3 #x0a))`: a reference and a
value.  Values come in many shapes, depending on the solver.  Each shape is
recognised by one rule, and the rules are tried in order until one of them
claims the value.  A rule may also point at a part of the value, as for a
constant function, of which only the last operand counts; then the rules start
again there.  Parts are smaller than the whole, so this ends.

An answer in which the rules do not recognise the value is an error in a model,
and no binding where the caller has other shapes to try.
-/

namespace SmtQuery

/-- What to do with a value that no rule claims. -/
inductive Strictness where
  /-- Report an error. -/
  | strict
  /-- Give no binding. -/
  | permissive
  deriving DecidableEq, Repr

/-- The decoded value of an input. -/
structure Binding where
  id : NodeId
  name : String
  value : Value
  deriving DecidableEq

/-- What a rule makes of a tree. -/
inductive Verdict (tree : SExpr) where
  /-- The tree has another shape. -/
  | pass
  | claim (value : Value)
  /-- The shape is right, but no value of the kind has it. -/
  | malformed (reason : String)
  /-- The value is that of a part of the tree. -/
  | inside (part : SExpr) (smaller : sizeOf part < sizeOf tree)

/-- The shapes of values. -/
inductive Rule where
  | integer
  | real
  /-- A decimal for an input that need not be real, as after a coercion in the
  query.  It is kept as a real. -/
  | realCast
  | element
  | double
  | single
  /-- A constant function, of which the last operand is the value. -/
  | constantFunction
  deriving DecidableEq, Repr

namespace SExpr

theorem sizeOf_lt_of_mem {tree : SExpr} {items : List SExpr} (h : tree ∈ items) :
    sizeOf tree < sizeOf (list items) := by
  have := List.sizeOf_lt_of_mem h
  simp only [list.sizeOf_spec]
  omega

/-- The value in `(as value sort)`; any other tree is its own value. -/
def stripAscription : SExpr → SExpr
  | list [head, value, sort] => if head.isSymbol "as" then value else list [head, value, sort]
  | tree => tree

theorem sizeOf_stripAscription_le (tree : SExpr) : sizeOf tree.stripAscription ≤ sizeOf tree := by
  unfold stripAscription
  split
  · split
    · exact Nat.le_of_lt (sizeOf_lt_of_mem (by simp))
    · exact Nat.le_refl _
  · exact Nat.le_refl _

end SExpr

namespace Rule

/-- All rules, in the order in which they are tried. -/
def all : List Rule := [integer, real, realCast, element, double, single, constantFunction]

/-- An element of a named sort.  If the sort lists its elements, it has to be one
of them. -/
def elementVerdict (tree : SExpr) (sort : NamedSort) (name : String) : Verdict tree :=
  match sort.elements? with
  | none => .claim (.element sort name none)
  | some _ =>
    match sort.indexOf? name with
    | some i => .claim (.element sort name (some i))
    | none => .malformed s!"{name} is not an element of sort {sort.name}"

/-- What the rule makes of a tree, for an input of the given kind. -/
def apply (rule : Rule) (kind : Kind) (tree : SExpr) : Verdict tree :=
  match rule with
  | integer =>
    if kind.isIntegral then
      match tree with
      | .int n => .claim (.integer kind n)
      | .bitVec n _ => .claim (.integer kind n)
      | _ => .pass
    else .pass
  | real =>
    if kind = .real then
      match tree with
      | .decimal q => .claim (.real q)
      | .int n => .claim (.real n)
      | _ => .pass
    else .pass
  | realCast =>
    match tree with
    | .decimal q => .claim (.real q)
    | _ => .pass
  | element =>
    match kind, tree with
    | .named sort, .symbol name => elementVerdict _ sort name
    | _, _ => .pass
  | double =>
    match tree with
    | .float x => if kind = .float .double ∧ x.precision = .double then .claim (.float x) else .pass
    | _ => .pass
  | single =>
    match tree with
    | .float x => if kind = .float .single ∧ x.precision = .single then .claim (.float x) else .pass
    | _ => .pass
  | constantFunction =>
    match tree with
    | .list (head :: operand :: operands) =>
      if head.isSymbol "LAMBDA" then
        .inside ((operand :: operands).getLast (List.cons_ne_nil _ _))
          (SExpr.sizeOf_lt_of_mem (List.mem_cons_of_mem _ (List.getLast_mem _)))
      else .pass
    | _ => .pass

/-- The first verdict among the rules that is not to pass. -/
def first (rules : List Rule) (kind : Kind) (tree : SExpr) : Verdict tree :=
  match rules with
  | [] => .pass
  | rule :: rest =>
    match rule.apply kind tree with
    | .pass => first rest kind tree
    | verdict => verdict

end Rule

/-- How the decoding of a value ends. -/
inductive Decoded where
  | value (value : Value)
  | malformed (reason : String)
  /-- No rule claims this part of the value. -/
  | unmatched (part : SExpr)

/-- Decodes a value at the given kind by the given rules. -/
def decodeWith (rules : List Rule) (kind : Kind) (tree : SExpr) : Decoded :=
  match Rule.first rules kind tree.stripAscription with
  | .pass => .unmatched tree.stripAscription
  | .claim v => .value v
  | .malformed reason => .malformed reason
  | .inside part _ => decodeWith rules kind part
termination_by sizeOf tree
decreasing_by exact Nat.lt_of_lt_of_le ‹_› (SExpr.sizeOf_stripAscription_le tree)

/-- Decodes a value at the given kind. -/
def decode (kind : Kind) (tree : SExpr) : Decoded := decodeWith Rule.all kind tree

/-- The symbol at the head of a pair: a reference, or a reference applied to
arguments. -/
def referenceOf? : SExpr → Option String
  | .symbol name => some name
  | .list (.symbol name :: _) => some name
  | _ => none

namespace InputIndex

/-- The input that the first item of a pair names, if it names one. -/
def target (index : InputIndex) (items : List SExpr) (line : String) :
    Except Error (Option Input) :=
  match items.head?.bind referenceOf? with
  | none => .ok none
  | some reference => index.resolve reference line

/-- The answer for a pair that names an input but has no value of a known
shape. -/
def unmatched (strictness : Strictness) (input : Input) (line : String) (part : SExpr) :
    Except Error (Option Binding) :=
  match strictness with
  | .strict => .error (.unmatchedValue input.text line (toString part))
  | .permissive => .ok none

/-- The binding in a pair of reference and value.  A pair whose reference names
no input has none. -/
def bindPair (index : InputIndex) (items : List SExpr) (line : String) (strictness : Strictness) :
    Except Error (Option Binding) := do
  match ← index.target items line with
  | none => return none
  | some input =>
    match items with
    | [_, value] =>
      match decode input.kind value with
      | .value v => return some ⟨input.id, input.name, v⟩
      | .malformed reason => throw (.invalidValue input.text line reason)
      | .unmatched part => unmatched strictness input line part
    | _ => unmatched strictness input line (.list items)

/-- The binding in a line `((reference value))`.  A tree of any other shape has
none. -/
def bindLine (index : InputIndex) (tree : SExpr) (line : String) (strictness : Strictness) :
    Except Error (Option Binding) :=
  match tree with
  | .list [.list pair] => index.bindPair pair line strictness
  | _ => .ok none

end InputIndex
end SmtQuery
