import Mathlib
import SmtQuery.Proofs.Encode
import SmtQuery.Proofs.Origin
import SmtQuery.Proofs.Semantics

/-!
# The formula of a query means the query

A query is a sequential program: the bound inputs take any values, the dependent inputs the
values of their functions, and then one assignment after another is evaluated.  In the end the
constraints have to hold, each tracker has to equal what it tracks, and the output has to be
one, or must not be one where validity is asked for.  `Problem.Means` says this without a word
about how the query is written.

Writing takes one of two ways.  Without bound inputs the assignments are definitions in a
row; with bound inputs they are `let` bindings inside each other, under one more `let` for the
dependent inputs and under the quantifier.  `holdsAll_openFormula` and `holds_closedFormula`
show that both ways run the same program, `runAssignments`, the first by induction from the
front and the second by induction along the nesting.  `holds_formula_iff` puts them together.

Symbols of functions for dependent inputs end in a word that no symbol of a value has
(`Input.skolemSymbol_ne`), so the binders above them do not change their meaning.
-/

namespace SmtQuery

/-! ## Symbols -/

/-- The symbol of a value is not the symbol of a function for a dependent input. -/
theorem Input.skolemSymbol_ne (input : Input) (id : NodeId) : id.symbol ≠ input.skolemSymbol := by
  rw [← Origin.symbol_value, ← Origin.symbol_skolem]
  intro h
  exact Origin.noConfusion (Origin.symbol_injective h)

/-- Where the numbers of some inputs differ, so do their symbols. -/
theorem Input.nodup_symbols {inputs : List Input} (hids : (inputs.map Input.id).Nodup) :
    (inputs.map fun input => input.ref.symbol).Nodup := by
  have h := hids.map NodeId.symbol_injective
  rwa [List.map_map] at h

namespace Problem

/-! ## The query as a program -/

section Program

variable (p : Problem) (σ : Semantics)

/-- The inputs that are not bound and depend on others. -/
def skolemInputs : List Input :=
  p.inputs.filter fun input => ¬ p.mode.Binds input.quantifier ∧ input.isSkolem

/-- The environment in which the inputs that the mode binds have the chosen values. -/
def boundEnv (top : Env σ.Value) (choice : NodeId → σ.Value) : Env σ.Value :=
  top.bind ((p.inputs.filter fun input => p.mode.Binds input.quantifier).map fun input =>
    (input.ref.symbol, choice input.id))

/-- The environment in which the dependent inputs have the values of their functions as well. -/
def inputEnv (top : Env σ.Value) (choice : NodeId → σ.Value) : Env σ.Value :=
  (p.boundEnv σ top choice).bind (p.skolemInputs.map fun input =>
    (input.ref.symbol, top input.skolemSymbol (input.dependsOn.map fun ref => choice ref.id)))

/-- The environment after the assignments, each evaluated after those in front of it. -/
def runAssignments (assignments : List Assignment) (env : Env σ.Value) : Env σ.Value :=
  assignments.foldl (fun env a => env.set a.target.symbol (σ.eval env a.term)) env

/-- The assignments as `let` bindings inside each other, around everything that is asserted. -/
def nestedLets (goal : Term) : Term :=
  p.assignments.foldr (fun a t => .letIn [(a.target.symbol, a.term)] t)
    (Term.conj (p.constraints ++ p.objectives.map Objective.trackerEquation ++ [goal]))

/-- What is asked for in the end. -/
def Satisfied (env : Env σ.Value) : Prop :=
  (∀ constraint ∈ p.constraints, σ.Holds (σ.eval env constraint)) ∧
    (∀ objective ∈ p.objectives,
      env objective.tracker.symbol [] = env objective.value.symbol []) ∧
    match p.mode with
    | .satisfiability => env p.output.symbol [] = σ.bit
    | .validity => env p.output.symbol [] ≠ σ.bit

/-- **What a query means** where the top-level names have the given meanings: whatever values
the inputs that the mode binds take in their domains, the program ends in what is asked for. -/
def Means (top : Env σ.Value) : Prop :=
  ∀ choice : NodeId → σ.Value,
    (∀ input ∈ p.inputs, p.mode.Binds input.quantifier →
      choice input.id ∈ σ.domain input.kind.sort) →
      p.Satisfied σ (runAssignments σ p.assignments (p.inputEnv σ top choice))

end Program

variable {p : Problem} {σ : Semantics}

/-! ## The inputs of the program -/

/-- The dependent inputs are those that get their values from functions. -/
theorem skolemInputs_eq (p : Problem) : p.skolemInputs = p.freeInputs.filter Input.isSkolem := by
  rw [freeInputs_eq, List.filter_filter, skolemInputs]
  refine List.filter_congr fun input _ => ?_
  rw [Bool.decide_and, Bool.decide_eq_true, Bool.and_comm]

theorem mem_skolemInputs_iff {input : Input} :
    input ∈ p.skolemInputs ↔ input ∈ p.freeInputs ∧ input.isSkolem = true := by
  rw [skolemInputs_eq, List.mem_filter]

theorem skolemBindings_eq (p : Problem) :
    p.skolemBindings = p.skolemInputs.map Input.skolemBinding := by
  rw [skolemInputs_eq, skolemBindings]

/-- Each bound input has its chosen value, in the order of the binders. -/
theorem boundEnv_eq (top : Env σ.Value) (choice : NodeId → σ.Value) : p.boundEnv σ top choice =
    top.bind (p.boundInputs.map fun input => (input.ref.symbol, choice input.id)) := by
  rw [boundEnv, boundInputs_eq]

/-- What a query means, in terms of the inputs that are written under the quantifier. -/
theorem means_iff {top : Env σ.Value} : p.Means σ top ↔ ∀ choice : NodeId → σ.Value,
    (∀ input ∈ p.boundInputs, choice input.id ∈ σ.domain input.kind.sort) →
      p.Satisfied σ (runAssignments σ p.assignments (p.inputEnv σ top choice)) := by
  simp only [Means, mem_boundInputs_iff, and_imp]

/-! ## What is asked for -/

/-- The goal says that the output is one, or that it is not. -/
theorem holds_goal {goal : Term} (h : p.goal = .ok goal) (env : Env σ.Value) :
    σ.Holds (σ.eval env goal) ↔
      match p.mode with
      | .satisfiability => env p.output.symbol [] = σ.bit
      | .validity => env p.output.symbol [] ≠ σ.bit := by
  have heq : σ.Holds (σ.eval env (.eq p.output.term (.bitVec 1 1))) ↔
      env p.output.symbol [] = σ.bit := by
    rw [σ.holds_eq, σ.eval_bit, Ref.term, σ.eval_const]
  rw [eq_of_goal h]
  cases p.mode with
  | satisfiability => exact heq
  | validity =>
    rw [σ.holds_not]
    exact not_congr heq

theorem holds_trackerEquation (objective : Objective) (env : Env σ.Value) :
    σ.Holds (σ.eval env objective.trackerEquation) ↔
      env objective.tracker.symbol [] = env objective.value.symbol [] := by
  rw [Objective.trackerEquation, σ.holds_eq, Ref.term, Ref.term, σ.eval_const, σ.eval_const]

/-- Constraints, tracker equations and goal together are what is asked for. -/
theorem forall_holds_iff {goal : Term} (h : p.goal = .ok goal) (env : Env σ.Value) :
    (∀ t ∈ p.constraints ++ p.objectives.map Objective.trackerEquation ++ [goal],
      σ.Holds (σ.eval env t)) ↔ p.Satisfied σ env := by
  rw [Satisfied, List.forall_mem_append, List.forall_mem_append, List.forall_mem_singleton,
    holds_goal h, List.forall_mem_map, and_assoc]
  simp only [holds_trackerEquation]

/-! ## Without bound inputs -/

/-- Definitions come first, and then everything is asserted. -/
theorem openFormula_eq (p : Problem) (goal : Term) : p.openFormula goal =
    p.assignments.map (fun a => .defineFun a.target.symbol [] a.target.kind.sort a.term) ++
      (p.constraints ++ p.objectives.map Objective.trackerEquation ++ [goal]).map
        Command.assert := by
  rw [openFormula, List.map_append, List.map_append, List.map_map, List.append_assoc,
    List.append_assoc, List.append_assoc]
  rfl

/-- Definitions in a row run the assignments. -/
theorem holdsAll_assignments (assignments : List Assignment) (env : Env σ.Value)
    (rest : List Command) :
    σ.HoldsAll env (assignments.map (fun a =>
        .defineFun a.target.symbol [] a.target.kind.sort a.term) ++ rest) ↔
      σ.HoldsAll (runAssignments σ assignments env) rest := by
  induction assignments generalizing env with
  | nil => rfl
  | cons a assignments ih =>
    rw [List.map_cons, List.cons_append, σ.holdsAll_defineFun, ih]
    rfl

/-- **The definitions and assertions of a query without bound inputs** hold exactly if the
program ends in what is asked for. -/
theorem holdsAll_openFormula {goal : Term} (h : p.goal = .ok goal) (env : Env σ.Value) :
    σ.HoldsAll env (p.openFormula goal) ↔
      p.Satisfied σ (runAssignments σ p.assignments env) := by
  rw [openFormula_eq, ← List.append_nil (List.map Command.assert _), holdsAll_assignments,
    σ.holdsAll_assert, forall_holds_iff h]
  exact and_iff_left trivial

/-- Without bound inputs nothing depends on them. -/
theorem skolemInputs_eq_nil (hbound : p.boundInputs = [])
    (hdepends : ∀ input ∈ p.freeInputs, ∀ ref ∈ input.dependsOn,
        ∃ bound ∈ p.boundInputs, bound.id = ref.id) : p.skolemInputs = [] := by
  rw [skolemInputs_eq]
  refine List.filter_eq_nil_iff.2 fun input hinput hskolem => ?_
  rw [Input.isSkolem, Bool.not_eq_true', List.isEmpty_eq_false_iff_exists_mem] at hskolem
  obtain ⟨ref, href⟩ := hskolem
  obtain ⟨bound, hmem, -⟩ := hdepends input hinput ref href
  rw [hbound] at hmem
  exact absurd hmem List.not_mem_nil

/-- Without bound inputs the program starts from the top. -/
theorem inputEnv_of_boundInputs (hbound : p.boundInputs = [])
    (hdepends : ∀ input ∈ p.freeInputs, ∀ ref ∈ input.dependsOn,
      ∃ bound ∈ p.boundInputs, bound.id = ref.id) (top : Env σ.Value)
    (choice : NodeId → σ.Value) : p.inputEnv σ top choice = top := by
  rw [inputEnv, boundEnv_eq, skolemInputs_eq_nil hbound hdepends, hbound]
  rfl

/-! ## With bound inputs -/

/-- Nested `let` bindings run the assignments from the outside in. -/
theorem eval_foldr_letIn (assignments : List Assignment) (env : Env σ.Value) (body : Term) :
    σ.eval env (assignments.foldr (fun a t => .letIn [(a.target.symbol, a.term)] t) body) =
      σ.eval (runAssignments σ assignments env) body := by
  induction assignments generalizing env with
  | nil => rfl
  | cons a assignments ih =>
    have hnames : ([(a.target.symbol, a.term)].map Prod.fst).Nodup := List.nodup_singleton _
    rw [List.foldr_cons, σ.eval_letIn _ _ _ hnames, ih]
    rfl

/-- **The nested bindings** hold exactly if the program ends in what is asked for. -/
theorem holds_nestedLets {goal : Term} (h : p.goal = .ok goal) (env : Env σ.Value) :
    σ.Holds (σ.eval env (p.nestedLets goal)) ↔
      p.Satisfied σ (runAssignments σ p.assignments env) := by
  rw [nestedLets, eval_foldr_letIn, σ.holds_conj, forall_holds_iff h]

section Quantified

variable (hids : (p.inputs.map Input.id).Nodup)

include hids

/-- The symbols of the bound inputs differ. -/
theorem nodup_boundInputs : (p.boundInputs.map fun input => input.ref.symbol).Nodup :=
  Input.nodup_symbols (hids.sublist (List.filter_sublist.map _))

/-- The symbols of the dependent inputs differ. -/
theorem nodup_skolemInputs : (p.skolemInputs.map fun input => input.ref.symbol).Nodup :=
  Input.nodup_symbols (hids.sublist (List.filter_sublist.map _))

/-- A reference to a bound input has the chosen value. -/
theorem boundEnv_symbol {ref : Ref} (href : ∃ input ∈ p.boundInputs, input.id = ref.id)
    (top : Env σ.Value) (choice : NodeId → σ.Value) :
    p.boundEnv σ top choice ref.symbol [] = choice ref.id := by
  obtain ⟨input, hinput, hid⟩ := href
  have hsymbol : input.ref.symbol = ref.symbol := congrArg NodeId.symbol hid
  rw [boundEnv_eq]
  refine Env.bind_of_mem top ?_ ?_ []
  · rw [List.map_map]
    exact nodup_boundInputs hids
  · rw [← hsymbol, ← hid]
    exact List.mem_map_of_mem hinput

omit hids in
/-- The functions for dependent inputs keep their meaning under the quantifier. -/
theorem boundEnv_skolemSymbol (input : Input) (top : Env σ.Value) (choice : NodeId → σ.Value) :
    p.boundEnv σ top choice input.skolemSymbol = top input.skolemSymbol := by
  rw [boundEnv_eq]
  refine Env.bind_of_notMem top ?_
  rw [List.map_map, List.mem_map]
  rintro ⟨bound, -, hsymbol⟩
  exact input.skolemSymbol_ne bound.id hsymbol

/-- **A dependent input is bound to the value of its function** at the values of the inputs it
depends on. -/
theorem eval_skolemBinding {input : Input} (hskolem : input.isSkolem)
    (hdepends : ∀ ref ∈ input.dependsOn, ∃ bound ∈ p.boundInputs, bound.id = ref.id)
    (top : Env σ.Value) (choice : NodeId → σ.Value) :
    σ.eval (p.boundEnv σ top choice) input.skolemBinding.2 =
      top input.skolemSymbol (input.dependsOn.map fun ref => choice ref.id) := by
  have hne : input.dependsOn.map Ref.term ≠ [] := by
    intro hnil
    rw [Input.isSkolem, List.map_eq_nil_iff.1 hnil] at hskolem
    exact absurd hskolem (by decide)
  rw [Input.skolemBinding, σ.eval_app _ _ _ hne, boundEnv_skolemSymbol, List.map_map]
  congr 1
  refine List.map_congr_left fun ref href => ?_
  rw [Function.comp_apply, Ref.term, σ.eval_const, boundEnv_symbol hids (hdepends ref href)]

variable (hdepends : ∀ input ∈ p.freeInputs, ∀ ref ∈ input.dependsOn,
  ∃ bound ∈ p.boundInputs, bound.id = ref.id)

include hdepends

/-- The one `let` for all dependent inputs makes the environment of the inputs. -/
theorem bind_skolemBindings (top : Env σ.Value) (choice : NodeId → σ.Value) :
    (p.boundEnv σ top choice).bind (p.skolemBindings.map fun b =>
      (b.1, σ.eval (p.boundEnv σ top choice) b.2)) = p.inputEnv σ top choice := by
  rw [inputEnv, skolemBindings_eq, List.map_map]
  congr 1
  refine List.map_congr_left fun input hinput => ?_
  obtain ⟨hfree, hskolem⟩ := mem_skolemInputs_iff.1 hinput
  rw [Function.comp_apply, eval_skolemBinding hids hskolem (hdepends input hfree)]
  rfl

/-- The matrix of the quantified formula says what is asked for in the end. -/
theorem holds_matrix {goal : Term} (h : p.goal = .ok goal) (top : Env σ.Value)
    (choice : NodeId → σ.Value) :
    σ.Holds (σ.eval (p.boundEnv σ top choice)
      (if p.skolemBindings.isEmpty then p.nestedLets goal
        else .letIn p.skolemBindings (p.nestedLets goal))) ↔
      p.Satisfied σ (runAssignments σ p.assignments (p.inputEnv σ top choice)) := by
  have hnames : (p.skolemBindings.map Prod.fst).Nodup := by
    rw [skolemBindings_eq, List.map_map]
    exact nodup_skolemInputs hids
  rw [← holds_nestedLets h, ← bind_skolemBindings hids hdepends top choice]
  split
  · next hempty =>
    rw [List.isEmpty_iff.1 hempty]
    rfl
  · rw [σ.eval_letIn _ _ _ hnames]

omit hids hdepends in
/-- Values for the binders of the quantifier are values for the bound inputs. -/
theorem bind_boundVariables (top : Env σ.Value) {value : String → σ.Value}
    {choice : NodeId → σ.Value} (hvalue : ∀ id : NodeId, value id.symbol = choice id) :
    top.bind (p.boundVariables.map fun x => (x.1, value x.1)) = p.boundEnv σ top choice := by
  rw [boundEnv_eq, boundVariables, List.map_map]
  congr 1
  refine List.map_congr_left fun input _ => ?_
  rw [Function.comp_apply, ← hvalue]
  rfl

/-- **The quantified formula** means the query. -/
theorem holds_closedFormula {goal : Term} (h : p.goal = .ok goal) (top : Env σ.Value) :
    σ.Holds (σ.eval top (p.closedFormula goal)) ↔ p.Means σ top := by
  have hnames : (p.boundVariables.map Prod.fst).Nodup := by
    rw [boundVariables, List.map_map]
    exact nodup_boundInputs hids
  have hmatrix := holds_matrix hids hdepends h top
  rw [closedFormula, σ.holds_forall _ _ _ hnames, means_iff]
  constructor
  · -- a choice for numbers is a choice for the symbols that stand for them
    intro hall choice hchoice
    let value : String → σ.Value := fun name =>
      ((NodeId.ofSymbol? name).map choice).getD (top name [])
    have hvalue : ∀ id : NodeId, value id.symbol = choice id := by
      intro id
      show ((NodeId.ofSymbol? id.symbol).map choice).getD _ = choice id
      rw [NodeId.ofSymbol?_symbol]
      rfl
    have hdomain : ∀ x ∈ p.boundVariables, value x.1 ∈ σ.domain x.2 := by
      intro x hx
      obtain ⟨input, hinput, rfl⟩ := List.mem_map.1 hx
      have hin := hchoice input hinput
      rwa [← hvalue] at hin
    have hholds := hall value hdomain
    rw [bind_boundVariables top hvalue] at hholds
    exact (hmatrix choice).1 hholds
  · intro hmeans value hvalue
    have hchoice : ∀ input ∈ p.boundInputs, value input.id.symbol ∈ σ.domain input.kind.sort :=
      fun input hinput => hvalue _ (List.mem_map_of_mem hinput)
    rw [bind_boundVariables top (fun id => (rfl : value id.symbol = value id.symbol))]
    exact (hmatrix _).2 (hmeans _ hchoice)

end Quantified

/-! ## Both ways -/

/-- **The formula means the query.**  A query is written; its inputs have different numbers, and
a free input depends on bound inputs only.  Behind the declarations, the formula holds under any
meaning of the top-level names exactly if the query does.  The definitions that are written
without bound inputs and the nested bindings that are written with them say the same in every
environment. -/
theorem holds_formula_iff {program : Program} (hencode : p.encode = .ok program)
    (hids : (p.inputs.map Input.id).Nodup)
    (hdepends : ∀ input ∈ p.inputs, ¬ p.mode.Binds input.quantifier → ∀ ref ∈ input.dependsOn,
      ∃ bound ∈ p.inputs, p.mode.Binds bound.quantifier ∧ bound.id = ref.id)
    (σ : Semantics) (top : Env σ.Value) :
    ∃ sorts tables goal, p.goal = .ok goal ∧
      program.preamble.commands = p.declarations sorts tables ++ p.formula goal
        ++ p.objectives.map Objective.command ∧
      (σ.HoldsAll top (p.formula goal) ↔ p.Means σ top) ∧
      ∀ env, σ.HoldsAll env (p.openFormula goal) ↔ σ.Holds (σ.eval env (p.nestedLets goal)) := by
  obtain ⟨-, sorts, tables, goal, -, -, hgoal, rfl⟩ := encode_eq_ok_iff.1 hencode
  have hdepends : ∀ input ∈ p.freeInputs, ∀ ref ∈ input.dependsOn,
      ∃ bound ∈ p.boundInputs, bound.id = ref.id := by
    intro input hinput ref href
    obtain ⟨hmem, hfree⟩ := mem_freeInputs_iff.1 hinput
    obtain ⟨bound, hbound, hbinds, hid⟩ := hdepends input hmem hfree ref href
    exact ⟨bound, mem_boundInputs_iff.2 ⟨hbound, hbinds⟩, hid⟩
  refine ⟨sorts, tables, goal, hgoal, rfl, ?_, fun env => ?_⟩
  · rw [formula]
    split
    · next hempty =>
      have hbound : p.boundInputs = [] := List.isEmpty_iff.1 hempty
      have henv : ∀ choice, p.inputEnv σ top choice = top :=
        inputEnv_of_boundInputs hbound hdepends top
      rw [holdsAll_openFormula hgoal]
      constructor
      · intro hsatisfied choice _
        rwa [henv]
      · intro hmeans
        have hall := means_iff.1 hmeans fun _ => top "" []
        rw [henv, hbound] at hall
        exact hall fun input hinput => absurd hinput List.not_mem_nil
    · rw [Semantics.HoldsAll, holds_closedFormula hids hdepends hgoal]
      exact and_iff_left trivial
  · rw [holdsAll_openFormula hgoal, holds_nestedLets hgoal]

/-- A query with a choice of every integer `s0`, an integer `s1` that depends on it, and two
assignments of which the second uses the first. -/
def dependentQuery : Problem where
  inputs := [{ ref := ⟨⟨0⟩, .int⟩, name := "x", quantifier := .universal },
    { ref := ⟨⟨1⟩, .int⟩, name := "y", dependsOn := [⟨⟨0⟩, .int⟩] }]
  assignments := [⟨⟨⟨2⟩, .int⟩, .app "+" [.const "s1", .int 1]⟩,
    ⟨⟨⟨3⟩, .bitVec false 1⟩,
      .ite (.app "<" [.const "s0", .const "s2"]) (.bitVec 1 1) (.bitVec 0 1)⟩]
  constraints := [.eq (.const "s0") (.const "s1")]
  output := ⟨⟨3⟩, .bitVec false 1⟩
  config := .ofSolver .z3

/-- The query over the integers, under a meaning of the names by which `s1` is `s0`. -/
theorem holds_formula_iff_dependentQuery :
    let σ := Interpretation.integers.semantics
    let top : Env σ.Value := Interpretation.integerOperators
    ∃ program, dependentQuery.encode = .ok program ∧ ∃ sorts tables goal,
      dependentQuery.goal = .ok goal ∧
      program.preamble.commands = dependentQuery.declarations sorts tables
        ++ dependentQuery.formula goal ++ dependentQuery.objectives.map Objective.command ∧
      (σ.HoldsAll top (dependentQuery.formula goal) ↔ dependentQuery.Means σ top) ∧
      ∀ env, σ.HoldsAll env (dependentQuery.openFormula goal) ↔
        σ.Holds (σ.eval env (dependentQuery.nestedLets goal)) :=
  ⟨_, rfl, holds_formula_iff rfl (by decide) (by decide) _ _⟩

end Problem
end SmtQuery
