import Mathlib
import SmtQuery.Proofs.Declaration
import SmtQuery.Proofs.Gate
import SmtQuery.Proofs.Objective

/-!
# Nothing is written that the solver cannot take

The gate looks at the kinds that a problem mentions, and at whether it has bound inputs or
objectives.  A script is made of sorts and commands.  `SmtSort.AllowedBy` and `Command.AllowedBy`
say which of these a solver with the given features can take, and the file goes from the one to the
other: a query that passes the gate uses only what the solver has (`Problem.supports_of_uses`), so
the sort of every kind that it mentions is allowed (`Problem.Passes.sort`), and hence every command
(`Problem.allowedBy_script`).

A quantifier written by the user is not looked at; it can stand inside any term.
-/

namespace SmtQuery

/-! ## What a solver can take -/

variable {caps : Capabilities}

/-- Whether a solver has the features that a sort needs.  Of the floating-point sorts only single
and double precision can be had. -/
def SmtSort.AllowedBy (caps : Capabilities) : SmtSort → Prop
  | bool | bitVec _ => True
  | int => caps.supports .ints
  | real => caps.supports .reals
  | float exponentBits significandBits =>
    (exponentBits = 8 ∧ significandBits = 24 ∧ caps.supports .singleFloats) ∨
      (exponentBits = 11 ∧ significandBits = 53 ∧ caps.supports .doubleFloats)
  | array index element => index.AllowedBy caps ∧ element.AllowedBy caps
  | named _ => caps.supports .namedSorts

/-- Whether a solver can take a command: it has the features for the sorts in the signature of a
function, named sorts if the command declares one, and optimisation if it states or fetches a
goal. -/
def Command.AllowedBy (caps : Capabilities) : Command → Prop
  | declareSort _ _ | declareEnum _ _ => caps.supports .namedSorts
  | declareFun _ parameters result =>
    (∀ sort ∈ parameters, sort.AllowedBy caps) ∧ result.AllowedBy caps
  | defineFun _ parameters result _ =>
    (∀ x ∈ parameters, x.2.AllowedBy caps) ∧ result.AllowedBy caps
  | maximize _ | minimize _ | getObjectives => caps.supports .optimization
  | _ => True

namespace Problem

variable {p : Problem} {kinds : List Kind}

/-! ## What the gate asks for -/

/-- **A query that passes the gate uses only what the solver has.** -/
theorem supports_of_uses (hgate : p.rejection? kinds caps = none) (feature : Feature)
    (huses : p.uses kinds feature = true) : caps.supports feature = true := by
  rw [rejection?] at hgate
  split at hgate
  · exact absurd hgate (by simp)
  · next hnone =>
    have hnot := List.find?_eq_none.1 hnone feature feature.mem_all
    simpa [huses] using hnot

/-- Whether a problem passes the gate of a solver, with the kinds that it mentions. -/
def Passes (p : Problem) (caps : Capabilities) : Prop := p.rejection? p.kinds caps = none

namespace Passes

variable (h : p.Passes caps)

include h

/-- The sort of a kind that the problem mentions. -/
theorem sort {kind : Kind} (hkind : kind ∈ p.mentionedKinds) : kind.sort.AllowedBy caps := by
  have hmem : kind ∈ p.kinds := List.mem_eraseDups.2 hkind
  have hcontains : p.kinds.contains kind = true := List.contains_iff_mem.2 hmem
  cases kind with
  | bitVec signed width => trivial
  | int => exact supports_of_uses h .ints hcontains
  | real => exact supports_of_uses h .reals hcontains
  | float precision =>
    cases precision with
    | single => exact Or.inl ⟨rfl, rfl, supports_of_uses h .singleFloats hcontains⟩
    | double => exact Or.inr ⟨rfl, rfl, supports_of_uses h .doubleFloats hcontains⟩
  | named sort =>
    exact supports_of_uses h .namedSorts (List.any_eq_true.2 ⟨_, hmem, rfl⟩)

/-! ## Commands -/

/-- A sort is declared only if the problem mentions it. -/
theorem sortDeclaration {sorts : List NamedSort} (hsorts : NamedSort.ofKinds p.kinds = .ok sorts)
    {sort : NamedSort} (hsort : sort ∈ sorts) : sort.declaration.AllowedBy caps := by
  have hmentioned : Kind.named sort ∈ p.mentionedKinds :=
    mem_namedSorts_iff.1 ((perm_of_ofKinds hsorts).mem_iff.1 hsort)
  have hsupports : caps.supports .namedSorts = true := h.sort hmentioned
  rw [NamedSort.declaration]
  split <;> exact hsupports

/-- The declaration of an input has the sorts of the input and of those it depends on. -/
theorem inputDeclaration {input : Input} (hinput : input ∈ p.inputs) :
    input.declaration.AllowedBy caps := by
  have hresult := h.sort (kind_mem_of_input hinput)
  rw [Input.declaration]
  split
  · refine ⟨List.forall_mem_map.2 fun ref href => ?_, hresult⟩
    exact h.sort (kind_mem_of_dependsOn hinput href)
  · exact ⟨List.forall_mem_nil _, hresult⟩

theorem constantCommand {constant : Ref × Value} (hconstant : constant ∈ p.constants) :
    (SmtQuery.constantCommand constant).AllowedBy caps := by
  have hresult := h.sort (kind_mem_of_constant hconstant).1
  rw [SmtQuery.constantCommand]
  split
  · exact ⟨List.forall_mem_nil _, hresult⟩
  · exact ⟨List.forall_mem_nil _, hresult⟩

theorem tableDeclaration {table : Table} (htable : table ∈ p.tables) :
    table.declaration.AllowedBy caps :=
  have hkinds := kind_mem_of_table htable
  ⟨List.forall_mem_singleton.2 (h.sort hkinds.1), h.sort hkinds.2⟩

theorem arrayDeclaration {array : ArrayDecl} (harray : array ∈ p.arrays) :
    array.declaration.AllowedBy caps :=
  have hkinds := kind_mem_of_array harray
  ⟨List.forall_mem_nil _, h.sort hkinds.1, h.sort hkinds.2⟩

theorem functionDeclaration {function : FunctionDecl} (hfunction : function ∈ p.functions) :
    function.command.AllowedBy caps := by
  have hkinds := kind_mem_of_function hfunction
  rw [List.forall_mem_append, List.forall_mem_singleton] at hkinds
  exact ⟨List.forall_mem_map.2 fun kind hkind => h.sort (hkinds.1 kind hkind), h.sort hkinds.2⟩

/-- **The commands in front of the formula.** -/
theorem declarations {sorts : List NamedSort} {tables : List (List Command)}
    (hsorts : NamedSort.ofKinds p.kinds = .ok sorts)
    (htables : p.tables.mapM Table.commands = .ok tables) :
    ∀ c ∈ p.declarations sorts tables, c.AllowedBy caps := by
  refine forall_mem_declarations htables (fun _ => trivial) ?_ (fun _ => trivial)
    (fun sort => h.sortDeclaration hsorts)
    (fun input hinput => h.inputDeclaration (List.mem_filter.1 hinput).1)
    (fun constant => h.constantCommand) (fun table => h.tableDeclaration)
    (fun array => h.arrayDeclaration) (fun function => h.functionDeclaration)
  intro c hc
  rcases eq_of_mem_header hc with ⟨text, rfl⟩ | ⟨key, value, rfl⟩ | ⟨logic, rfl⟩ <;> trivial

/-- The definitions in the formula have the sorts of the assigned values. -/
theorem formula {goal : Term} {c : Command} (hc : c ∈ p.formula goal) : c.AllowedBy caps := by
  rcases eq_of_mem_formula hc with ⟨a, ha, rfl⟩ | ⟨term, rfl⟩
  · exact ⟨List.forall_mem_nil _, h.sort (kind_mem_of_assignment ha)⟩
  · trivial

/-- Objectives are there only if the solver can optimise. -/
theorem optimization {objective : Objective} (hobjective : objective ∈ p.objectives) :
    caps.supports .optimization = true := by
  refine supports_of_uses h .optimization ?_
  rw [uses, isOptimization, Bool.not_eq_true', List.isEmpty_eq_false_iff_exists_mem]
  exact ⟨objective, hobjective⟩

theorem goal {objective : Objective} (hobjective : objective ∈ p.objectives) :
    objective.command.AllowedBy caps := by
  have hsupports := h.optimization hobjective
  rw [Objective.command]
  split <;> exact hsupports

/-- The postlude fetches goals only if there are objectives. -/
theorem postlude {c : Command} (hc : c ∈ p.postlude) : c.AllowedBy caps := by
  rw [Problem.postlude, List.mem_append] at hc
  rcases hc with hvalue | hobjectives
  · obtain ⟨input, -, rfl⟩ := List.mem_map.1 hvalue
    trivial
  · split at hobjectives
    · next huses =>
      obtain rfl := List.mem_singleton.1 hobjectives
      exact supports_of_uses h .optimization huses
    · exact absurd hobjectives List.not_mem_nil

/-! ## The formula -/

/-- **The formula is put under a quantifier only if the solver has quantifiers**, and then the
sorts of the variables are allowed. -/
theorem quantified (goal : Term) : p.formula goal = p.openFormula goal ∨
    caps.supports .quantifiers ∧
      (∃ matrix, p.formula goal = [.assert (.quantified .universal p.boundVariables matrix)]) ∧
      ∀ x ∈ p.boundVariables, x.2.AllowedBy caps := by
  rw [Problem.formula]
  split
  · exact Or.inl rfl
  · next hbound =>
    refine Or.inr ⟨supports_of_uses h .quantifiers ?_, ⟨_, rfl⟩, ?_⟩
    · rw [uses, needsQuantifiers_eq, Bool.not_eq_true', Bool.eq_false_iff]
      exact hbound
    · refine List.forall_mem_map.2 fun input hinput => ?_
      exact h.sort (kind_mem_of_input (List.mem_filter.1 hinput).1)

end Passes

/-- **Nothing is written that the solver cannot take.**  A query is written.  Every command of the
session is allowed by the features of its solver: the sorts of all functions that are declared or
defined, the declarations of sorts, and the goals.  And the formula stands in the preamble either
open, or under a quantifier over variables of allowed sorts, and then the solver has quantifiers. -/
theorem allowedBy_script {program : Program} (hencode : p.encode = .ok program) :
    (∀ c ∈ program.script.commands, c.AllowedBy p.config.capabilities) ∧
    ∃ before goal after, p.goal = .ok goal ∧
      program.preamble.commands = before ++ p.formula goal ++ after ∧
      (p.formula goal = p.openFormula goal ∨ p.config.capabilities.supports .quantifiers ∧
        (∃ matrix, p.formula goal = [.assert (.quantified .universal p.boundVariables matrix)]) ∧
        ∀ x ∈ p.boundVariables, x.2.AllowedBy p.config.capabilities) := by
  obtain ⟨hgate, sorts, tables, goal, hsorts, htables, hgoal, rfl⟩ :=
    encode_eq_ok_iff.1 hencode
  have h : p.Passes p.config.capabilities := hgate
  refine ⟨fun c hc => ?_, _, goal, _, hgoal, rfl, h.quantified goal⟩
  simp only [Program.script, Script.push, Script.append, List.mem_append, List.mem_singleton] at hc
  rcases hc with (((hc | hc) | hc) | rfl) | hc
  · exact h.declarations hsorts htables c hc
  · exact h.formula hc
  · obtain ⟨objective, hobjective, rfl⟩ := List.mem_map.1 hc
    exact h.goal hobjective
  · trivial
  · exact h.postlude hc

/-- A query for a solver that knows integers, named sorts and quantifiers and nothing else: with a
bound input, one that depends on it, an array of elements, and an assignment. -/
def colouredQuery : Problem where
  inputs := [{ ref := ⟨⟨0⟩, .int⟩, name := "x", quantifier := .universal },
    { ref := ⟨⟨1⟩, .named ⟨"Color", some ["red", "green"]⟩⟩, name := "c",
      dependsOn := [⟨⟨0⟩, .int⟩] }]
  arrays := [{ id := 0, index := .int, element := .named ⟨"Color", some ["red", "green"]⟩ }]
  assignments := [⟨⟨⟨2⟩, .bitVec false 1⟩,
    .ite (.eq (.select (.const "array_0") (.const "s0")) (.const "s1"))
      (.bitVec 1 1) (.bitVec 0 1)⟩]
  output := ⟨⟨2⟩, .bitVec false 1⟩
  config := { solver := .z3, capabilities := .ofList "Small" [.ints, .namedSorts, .quantifiers] }

/-- The query is written, with commands that the solver can take. -/
theorem allowedBy_script_colouredQuery : ∃ program, colouredQuery.encode = .ok program ∧
    (∀ c ∈ program.script.commands, c.AllowedBy colouredQuery.config.capabilities) ∧
    ∃ before goal after, colouredQuery.goal = .ok goal ∧
      program.preamble.commands = before ++ colouredQuery.formula goal ++ after ∧
      (colouredQuery.formula goal = colouredQuery.openFormula goal ∨
        colouredQuery.config.capabilities.supports .quantifiers ∧
        (∃ matrix, colouredQuery.formula goal =
          [.assert (.quantified .universal colouredQuery.boundVariables matrix)]) ∧
        ∀ x ∈ colouredQuery.boundVariables, x.2.AllowedBy colouredQuery.config.capabilities) :=
  ⟨_, rfl, allowedBy_script rfl⟩

end Problem
end SmtQuery
