import SmtQuery.Command
import SmtQuery.Problem.Gate

/-!
# Programs

The script of a query comes in two parts.  The preamble declares everything and
asserts the query; the postlude, to be sent once the solver has answered, fetches
the model.

Without bound inputs the assignments become definitions, one after another.
With bound inputs they have to stand under the quantifier, so they become nested
`let` bindings: each may use those before it, which parallel bindings of a single
`let` could not.  A free input that depends on bound ones is declared as a
function of them and bound to its value, outside of all assignments.

Named sorts are declared in order of their names, whatever the order in which
the problem mentions them.
-/

namespace SmtQuery

/-- The dialects a program can be written in. -/
inductive Dialect where
  | smtLib2
  deriving DecidableEq, Repr

/-- The name of a dialect. -/
def Dialect.text : Dialect → String
  | .smtLib2 => "SMTLib2"

instance : ToString Dialect := ⟨Dialect.text⟩

/-- A written query. -/
structure Program where
  dialect : Dialect := .smtLib2
  preamble : Script
  postlude : Script

/-- The whole session: preamble, the check itself, postlude. -/
def Program.script (program : Program) : Script :=
  (program.preamble.push .checkSat).append program.postlude.commands

/-- A contradiction in a problem. -/
inductive Fault where
  /-- Two kinds name the sort but disagree on its elements. -/
  | conflictingSort (name : String)
  /-- A table has entries, and an index kind without literals for positions. -/
  | unindexableTable (symbol : String) (index : Kind)
  /-- The output is not a single bit. -/
  | wideOutput (output : Ref)
  deriving DecidableEq

/-- The words for a contradiction. -/
def Fault.text : Fault → String
  | conflictingSort name => s!"sort {name} is declared with conflicting elements"
  | unindexableTable symbol index => s!"{symbol} cannot be indexed by {index}"
  | wideOutput output => s!"output {output} has kind {output.kind}, expected a 1-bit value"

namespace NamedSort

/-- Adds a sort to a list of sorts with increasing names.  A sort that is there
already is not added again, and one that is there with other elements is a
fault. -/
def insert (sort : NamedSort) : List NamedSort → Except Fault (List NamedSort)
  | [] => .ok [sort]
  | other :: rest =>
    if sort.name < other.name then .ok (sort :: other :: rest)
    else if sort.name = other.name then
      if sort = other then .ok (other :: rest) else .error (.conflictingSort sort.name)
    else (insert sort rest).map (other :: ·)

/-- The named sorts among the kinds, in order of their names. -/
def ofKinds (kinds : List Kind) : Except Fault (List NamedSort) :=
  kinds.foldlM (fun sorts kind =>
    match kind with
    | .named sort => sort.insert sorts
    | _ => .ok sorts) []

/-- The declaration of a sort. -/
def declaration (sort : NamedSort) : Command :=
  match sort.elements? with
  | some elements => .declareEnum sort.name elements
  | none => .declareSort sort.name 0

end NamedSort

namespace Table

/-- The literal for a position in the table. -/
def position (table : Table) (i : Nat) : Except Fault Term :=
  match table.index with
  | .bitVec _ width => .ok (.bitVec i width)
  | .int => .ok (.int i)
  | .real => .ok (.real i)
  | _ => .error (.unindexableTable table.symbol table.index)

/-- The assertion that fixes one entry. -/
def entryAssertion (table : Table) (entry : Term × Nat) : Except Fault Command := do
  let position ← table.position entry.2
  return .assert (.eq (.app table.symbol [position]) entry.1)

/-- The declaration of a table, and the assertions that fix its entries. -/
def commands (table : Table) : Except Fault (List Command) := do
  let entries ← table.entries.zipIdx.mapM table.entryAssertion
  return .declareFun table.symbol [table.index.sort] table.element.sort :: entries

end Table

/-- The declaration of an array, and the assertion of its initial value. -/
def ArrayDecl.commands (array : ArrayDecl) : List Command :=
  let sort := SmtSort.array array.index.sort array.element.sort
  .declareFun array.symbol [] sort ::
    match array.initial? with
    | some value => [.assert (.eq (.const array.symbol) (.constArray sort value))]
    | none => []

/-- The declaration of a function. -/
def FunctionDecl.command (function : FunctionDecl) : Command :=
  .declareFun function.name (function.parameters.map Kind.sort) function.result.sort

/-- A remark with the name of a postulate, and its assertion. -/
def Postulate.commands (postulate : Postulate) : List Command :=
  [.comment s!"axiom: {postulate.name}", .assert postulate.term]

namespace Input

/-- The function that a dependent input is declared as. -/
def skolemSymbol (input : Input) : String := input.ref.symbol ++ "_skolem"

/-- The declaration of a free input. -/
def declaration (input : Input) : Command :=
  if input.isSkolem then
    .declareFun input.skolemSymbol (input.dependsOn.map (·.kind.sort)) input.kind.sort
  else .declareFun input.ref.symbol [] input.kind.sort

/-- A dependent input bound to its value at the inputs it depends on. -/
def skolemBinding (input : Input) : String × Term :=
  (input.ref.symbol, .app input.skolemSymbol (input.dependsOn.map Ref.term))

end Input

/-- The declaration of a constant.  An element of a sort without a list of
elements has no literal, so it is only declared. -/
def constantCommand (constant : Ref × Value) : Command :=
  match constant.2 with
  | .element _ _ none => .declareFun constant.1.symbol [] constant.1.kind.sort
  | value => .defineFun constant.1.symbol [] constant.1.kind.sort value.term

namespace Objective

/-- The equation that ties the tracker to the optimised value. -/
def trackerEquation (objective : Objective) : Term :=
  .eq objective.tracker.term objective.value.term

/-- The command that states the goal. -/
def command (objective : Objective) : Command :=
  match objective.direction with
  | .maximize => .maximize objective.tracker.term
  | .minimize => .minimize objective.tracker.term

end Objective

namespace Problem

/-- The theories that the kinds belong to, as the last part of a logic's name;
`none` if no single name covers them. -/
def theory? (kinds : List Kind) : Option String :=
  match kinds.any Kind.isBitVec, kinds.contains .int, kinds.contains .real,
      kinds.any Kind.isFloat with
  | false, false, false, false => some ""
  | true, false, false, false => some "BV"
  | false, true, false, false => some "NIA"
  | false, false, true, false => some "NRA"
  | false, false, false, true => some "FP"
  | true, false, false, true => some "FPBV"
  | _, _, _, _ => none

/-- Whether the program declares sorts or functions. -/
def hasFunctions (p : Problem) (kinds : List Kind) : Bool :=
  !p.functions.isEmpty || kinds.any Kind.isNamed || p.inputs.any Input.isSkolem

/-- The logic that a problem with the given kinds announces. -/
def logic (p : Problem) (kinds : List Kind) : String :=
  match theory? kinds with
  | none => "ALL"
  | some theory =>
    (if p.boundInputs.isEmpty then "QF_" else "")
      ++ (if p.arrays.isEmpty && p.tables.isEmpty then "" else "A")
      ++ (if p.hasFunctions kinds || theory.isEmpty then "UF" else "")
      ++ theory

/-- Comments, options and the logic. -/
def header (p : Problem) (kinds : List Kind) : List Command :=
  (if p.config.emitComments then p.comments.map Command.comment else [])
    ++ [.setOption "produce-models" "true"]
    ++ p.config.options.map (fun option => .setOption option.1 option.2)
    ++ [.setLogic (p.config.logic?.getD (p.logic kinds))]

/-- The statement that the output is true, negated if validity is asked for. -/
def goal (p : Problem) : Except Fault Term :=
  match p.output.kind with
  | .bitVec _ width =>
    if width = 1 then
      let holds := Term.eq p.output.term (.bitVec 1 1)
      match p.mode with
      | .satisfiability => .ok holds
      | .validity => .ok (.not holds)
    else .error (.wideOutput p.output)
  | _ => .error (.wideOutput p.output)

/-- The bound inputs as variables of a quantifier. -/
def boundVariables (p : Problem) : List (String × SmtSort) :=
  p.boundInputs.map fun input => (input.ref.symbol, input.kind.sort)

/-- The dependent inputs, each bound to its value. -/
def skolemBindings (p : Problem) : List (String × Term) :=
  (p.freeInputs.filter Input.isSkolem).map Input.skolemBinding

/-- The formula of a problem without bound inputs, as definitions and
assertions. -/
def openFormula (p : Problem) (goal : Term) : List Command :=
  p.assignments.map (fun a => .defineFun a.target.symbol [] a.target.kind.sort a.term)
    ++ p.constraints.map Command.assert
    ++ p.objectives.map (fun objective => .assert objective.trackerEquation)
    ++ [.assert goal]

/-- The formula of a problem with bound inputs, as one quantified term. -/
def closedFormula (p : Problem) (goal : Term) : Term :=
  let body := Term.conj (p.constraints ++ p.objectives.map Objective.trackerEquation ++ [goal])
  let assigned := p.assignments.foldr (fun a t => .letIn [(a.target.symbol, a.term)] t) body
  let bindings := p.skolemBindings
  let matrix := if bindings.isEmpty then assigned else .letIn bindings assigned
  .quantified .universal p.boundVariables matrix

/-- The formula of a problem. -/
def formula (p : Problem) (goal : Term) : List Command :=
  if p.boundInputs.isEmpty then p.openFormula goal else [.assert (p.closedFormula goal)]

/-- Everything up to the check. -/
def preamble (p : Problem) (kinds : List Kind) : Except Fault (List Command) := do
  let sorts ← NamedSort.ofKinds kinds
  let tables ← p.tables.mapM Table.commands
  let goal ← p.goal
  return p.header kinds
    ++ sorts.map NamedSort.declaration
    ++ p.freeInputs.map Input.declaration
    ++ p.constants.map constantCommand
    ++ tables.flatten
    ++ p.arrays.flatMap ArrayDecl.commands
    ++ p.functions.map FunctionDecl.command
    ++ p.postulates.flatMap Postulate.commands
    ++ p.formula goal
    ++ p.objectives.map Objective.command

/-- The commands that fetch the model: one for each free input with a value of
its own, and one for all objectives. -/
def postlude (p : Problem) : List Command :=
  (p.freeInputs.filter (!·.isSkolem)).map (fun input => .getValue [input.ref.term])
    ++ if p.isOptimization then [.getObjectives] else []

/-- Writes a problem whose kinds are given in some order. -/
def encodeWith (p : Problem) (kinds : List Kind) : Except Error Program :=
  match p.rejection? kinds p.config.capabilities with
  | some rejection => .error (rejection.error p.config.capabilities.name)
  | none =>
    match p.preamble kinds with
    | .error fault => .error (.invalidProblem fault.text)
    | .ok commands => .ok { preamble := ⟨commands⟩, postlude := ⟨p.postlude⟩ }

/-- Writes a problem, if its solver can take it. -/
def encode (p : Problem) : Except Error Program := p.encodeWith p.kinds

end Problem
end SmtQuery
