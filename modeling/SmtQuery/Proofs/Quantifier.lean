import Mathlib
import SmtQuery.Proofs.Table

/-!
# The quantifiers of a query

The terms of a problem can hold quantifiers of their own, which nothing looks at.  Each of these
terms is written once, and what is written around them holds no quantifier, but for the one over
the bound inputs.  So the quantifiers can be counted: `Problem.quantifierCount_preamble`.
-/

namespace SmtQuery

/-! ## Counting -/

namespace Term

mutual

/-- The number of quantifiers in a term. -/
def quantifierCount : Term → ℕ
  | not t | constArray _ t => t.quantifierCount
  | and ts | or ts | distinct ts | app _ ts => quantifierCountAll ts
  | implies a b | eq a b | select a b => a.quantifierCount + b.quantifierCount
  | ite a b c | store a b c => a.quantifierCount + b.quantifierCount + c.quantifierCount
  | quantified _ _ body => body.quantifierCount + 1
  | letIn bindings body => quantifierCountBindings bindings + body.quantifierCount
  | bool _ | int _ | bitVec _ _ | real _ | special _ _ _ | float _ _ _ _ _ | const _ => 0

/-- The number of quantifiers in several terms. -/
def quantifierCountAll : List Term → ℕ
  | [] => 0
  | t :: rest => t.quantifierCount + quantifierCountAll rest

/-- The number of quantifiers in the terms of `let` bindings. -/
def quantifierCountBindings : List (String × Term) → ℕ
  | [] => 0
  | (_, t) :: rest => t.quantifierCount + quantifierCountBindings rest

end

@[simp] theorem quantifierCountAll_nil : quantifierCountAll [] = 0 := rfl

@[simp] theorem quantifierCountAll_cons (t : Term) (terms : List Term) :
    quantifierCountAll (t :: terms) = t.quantifierCount + quantifierCountAll terms := rfl

@[simp] theorem quantifierCount_const (name : String) : (const name).quantifierCount = 0 := rfl

@[simp] theorem quantifierCount_eq (a b : Term) :
    (eq a b).quantifierCount = a.quantifierCount + b.quantifierCount := rfl

@[simp] theorem quantifierCount_constArray (sort : SmtSort) (t : Term) :
    (constArray sort t).quantifierCount = t.quantifierCount := rfl

@[simp] theorem quantifierCount_app (name : String) (terms : List Term) :
    (app name terms).quantifierCount = quantifierCountAll terms := rfl

@[simp] theorem quantifierCount_letIn (bindings : List (String × Term)) (body : Term) :
    (letIn bindings body).quantifierCount =
      quantifierCountBindings bindings + body.quantifierCount := rfl

@[simp] theorem quantifierCount_quantified (quantifier : Quantifier)
    (binders : List (String × SmtSort)) (body : Term) :
    (quantified quantifier binders body).quantifierCount = body.quantifierCount + 1 := rfl

theorem quantifierCountAll_append (front back : List Term) :
    quantifierCountAll (front ++ back) = quantifierCountAll front + quantifierCountAll back := by
  induction front with
  | nil => simp
  | cons t front ih =>
    rw [List.cons_append, quantifierCountAll_cons, quantifierCountAll_cons, ih, Nat.add_assoc]

theorem quantifierCountAll_eq_zero {terms : List Term} (h : ∀ t ∈ terms, t.quantifierCount = 0) :
    quantifierCountAll terms = 0 := by
  induction terms with
  | nil => rfl
  | cons t terms ih =>
    rw [List.forall_mem_cons] at h
    rw [quantifierCountAll_cons, h.1, ih h.2]

theorem quantifierCountBindings_eq (bindings : List (String × Term)) :
    quantifierCountBindings bindings = quantifierCountAll (bindings.map Prod.snd) := by
  induction bindings with
  | nil => rfl
  | cons b bindings ih =>
    rw [List.map_cons, quantifierCountAll_cons, ← ih]
    rfl

theorem quantifierCount_conj (terms : List Term) :
    (conj terms).quantifierCount = quantifierCountAll terms := by
  rcases terms with _ | ⟨a, _ | ⟨b, rest⟩⟩ <;> rfl

/-- Assigned values stand in bindings inside each other, in front of the body. -/
theorem quantifierCount_foldr_letIn (assignments : List Assignment) (body : Term) :
    (assignments.foldr (fun a t => .letIn [(a.target.symbol, a.term)] t) body).quantifierCount =
      quantifierCountAll (assignments.map Assignment.term) + body.quantifierCount := by
  induction assignments with
  | nil => simp
  | cons a assignments ih =>
    rw [List.foldr_cons, quantifierCount_letIn, quantifierCountBindings_eq, ih]
    simp [Nat.add_assoc]

end Term

open Term (quantifierCountAll quantifierCountAll_append quantifierCountAll_eq_zero)

namespace Command

/-- The terms in a command. -/
def terms : Command → List Term
  | defineFun _ _ _ body => [body]
  | assert t | maximize t | minimize t => [t]
  | getValue ts => ts
  | _ => []

/-- The number of quantifiers in several commands. -/
def quantifierCount (commands : List Command) : ℕ := quantifierCountAll (commands.flatMap terms)

theorem quantifierCount_append (front back : List Command) :
    quantifierCount (front ++ back) = quantifierCount front + quantifierCount back := by
  rw [quantifierCount, List.flatMap_append, quantifierCountAll_append]
  rfl

theorem quantifierCount_eq_zero {commands : List Command}
    (h : ∀ c ∈ commands, ∀ t ∈ c.terms, t.quantifierCount = 0) : quantifierCount commands = 0 := by
  refine quantifierCountAll_eq_zero fun t ht => ?_
  obtain ⟨c, hc, htc⟩ := List.mem_flatMap.1 ht
  exact h c hc t htc

end Command

/-! ## What is written around the terms of a problem -/

open Command (quantifierCount_append quantifierCount_eq_zero)

/-- References and literals hold no quantifiers. -/
@[simp] theorem Ref.quantifierCount_term (ref : Ref) : ref.term.quantifierCount = 0 := rfl

theorem Value.quantifierCount_term (value : Value) : value.term.quantifierCount = 0 := by
  unfold term
  split
  · rfl
  · rfl
  · rfl
  · rw [floatTerm]
    split <;> rfl
  · rfl

theorem Table.quantifierCount_position {table : Table} {i : ℕ} {literal : Term}
    (h : table.position i = .ok literal) : literal.quantifierCount = 0 := by
  rcases position_cases h with ⟨_, _, -, rfl⟩ | ⟨-, rfl⟩ | ⟨-, rfl⟩ <;> rfl

@[simp] theorem Objective.quantifierCount_trackerEquation (objective : Objective) :
    objective.trackerEquation.quantifierCount = 0 := rfl

theorem Input.quantifierCount_skolemBinding (input : Input) :
    input.skolemBinding.2.quantifierCount = 0 :=
  quantifierCountAll_eq_zero (List.forall_mem_map.2 fun ref _ => ref.quantifierCount_term)

theorem quantifierCount_constantCommand (constant : Ref × Value) :
    ∀ t ∈ (constantCommand constant).terms, t.quantifierCount = 0 := by
  rw [constantCommand]
  split
  · exact List.forall_mem_nil _
  · exact List.forall_mem_singleton.2 constant.2.quantifierCount_term

/-! ## Tables, arrays and postulates -/

/-- Each assertion about a table holds one of its entries. -/
theorem Table.quantifierCount_assertions {table : Table} {entries : List (Term × ℕ)}
    {assertions : List Command}
    (h : List.Forall₂ (fun entry c => table.entryAssertion entry = .ok c) entries assertions) :
    Command.quantifierCount assertions = quantifierCountAll (entries.map Prod.fst) := by
  induction h with
  | nil => rfl
  | cons hentry _ ih =>
    obtain ⟨literal, hliteral, rfl⟩ := entryAssertion_eq_ok_iff.1 hentry
    rw [List.map_cons, Term.quantifierCountAll_cons, ← ih]
    simp [Command.quantifierCount, Command.terms, quantifierCount_position hliteral]

theorem Table.quantifierCount_commands {table : Table} {commands : List Command}
    (h : table.commands = .ok commands) :
    Command.quantifierCount commands = quantifierCountAll table.entries := by
  obtain ⟨assertions, rfl, hassertions⟩ := Table.commands_eq_ok_iff.1 h
  rw [← List.zipIdx_map_fst 0 table.entries, ← quantifierCount_assertions hassertions]
  rfl

theorem Table.quantifierCount_flatten {tables : List Table} {commands : List (List Command)}
    (h : tables.mapM Table.commands = .ok commands) :
    Command.quantifierCount commands.flatten =
      quantifierCountAll (tables.flatMap Table.entries) := by
  have hall := Except.mapM_eq_ok_iff.1 h
  clear h
  induction hall with
  | nil => rfl
  | cons htable _ ih =>
    rw [List.flatten_cons, quantifierCount_append, quantifierCount_commands htable, ih,
      List.flatMap_cons, quantifierCountAll_append]

theorem ArrayDecl.quantifierCount_flatMap (arrays : List ArrayDecl) :
    Command.quantifierCount (arrays.flatMap ArrayDecl.commands) =
      quantifierCountAll (arrays.filterMap ArrayDecl.initial?) := by
  induction arrays with
  | nil => rfl
  | cons array arrays ih =>
    rw [List.flatMap_cons, quantifierCount_append, ih, commands]
    cases hinitial : array.initial? with
    | none =>
      rw [List.filterMap_cons_none hinitial, quantifierCount_eq_zero, Nat.zero_add]
      exact List.forall_mem_singleton.2 (List.forall_mem_nil _)
    | some value =>
      rw [List.filterMap_cons_some hinitial]
      simp [Command.quantifierCount, Command.terms]

theorem Postulate.quantifierCount_flatMap (postulates : List Postulate) :
    Command.quantifierCount (postulates.flatMap Postulate.commands) =
      quantifierCountAll (postulates.map Postulate.term) := by
  rw [Command.quantifierCount, List.flatMap_assoc, ← List.flatMap_pure_eq_map]
  rfl

/-! ## The query -/

namespace Problem

variable {p : Problem}

/-- The terms of a problem. -/
def terms (p : Problem) : List Term :=
  p.tables.flatMap Table.entries ++ p.arrays.filterMap ArrayDecl.initial?
    ++ p.postulates.map Postulate.term ++ p.assignments.map Assignment.term ++ p.constraints

/-- In front of the formula, the entries of tables, the initial values of arrays and the postulates
are written. -/
theorem quantifierCount_declarations {sorts : List NamedSort} {tables : List (List Command)}
    (htables : p.tables.mapM Table.commands = .ok tables) :
    Command.quantifierCount (p.declarations sorts tables) =
      quantifierCountAll (p.tables.flatMap Table.entries)
        + quantifierCountAll (p.arrays.filterMap ArrayDecl.initial?)
        + quantifierCountAll (p.postulates.map Postulate.term) := by
  have hheader : Command.quantifierCount (p.header p.kinds) = 0 := by
    refine quantifierCount_eq_zero fun c hc => ?_
    rcases eq_of_mem_header hc with ⟨text, rfl⟩ | ⟨key, value, rfl⟩ | ⟨logic, rfl⟩ <;>
      exact List.forall_mem_nil _
  have hsorts : Command.quantifierCount (sorts.map NamedSort.declaration) = 0 := by
    refine quantifierCount_eq_zero (List.forall_mem_map.2 fun sort _ => ?_)
    rw [NamedSort.declaration]
    split <;> exact List.forall_mem_nil _
  have hinputs : Command.quantifierCount (p.freeInputs.map Input.declaration) = 0 := by
    refine quantifierCount_eq_zero (List.forall_mem_map.2 fun input _ => ?_)
    rw [Input.declaration]
    split <;> exact List.forall_mem_nil _
  have hconstants : Command.quantifierCount (p.constants.map constantCommand) = 0 :=
    quantifierCount_eq_zero (List.forall_mem_map.2 fun constant _ =>
      quantifierCount_constantCommand constant)
  have hfunctions : Command.quantifierCount (p.functions.map FunctionDecl.command) = 0 :=
    quantifierCount_eq_zero (List.forall_mem_map.2 fun _ _ => List.forall_mem_nil _)
  simp only [declarations, quantifierCount_append, hheader, hsorts, hinputs, hconstants,
    hfunctions, Table.quantifierCount_flatten htables, ArrayDecl.quantifierCount_flatMap,
    Postulate.quantifierCount_flatMap, Nat.zero_add, Nat.add_zero]

/-- The goal has no quantifier. -/
theorem quantifierCount_goal {goal : Term} (hgoal : p.goal = .ok goal) :
    goal.quantifierCount = 0 := by
  rw [eq_of_goal hgoal]
  split <;> rfl

/-- An open formula has the quantifiers of the assigned values and the constraints. -/
theorem quantifierCount_openFormula {goal : Term} (hgoal : p.goal = .ok goal) :
    Command.quantifierCount (p.openFormula goal) =
      quantifierCountAll (p.assignments.map Assignment.term)
        + quantifierCountAll p.constraints := by
  have hassignments : Command.quantifierCount (p.assignments.map fun a =>
      .defineFun a.target.symbol [] a.target.kind.sort a.term) =
        quantifierCountAll (p.assignments.map Assignment.term) := by
    rw [Command.quantifierCount, List.flatMap_map, ← List.flatMap_pure_eq_map]
    rfl
  have hconstraints : Command.quantifierCount (p.constraints.map .assert) =
      quantifierCountAll p.constraints := by
    rw [Command.quantifierCount, List.flatMap_map]
    exact congrArg quantifierCountAll (List.flatMap_singleton' _)
  have hobjectives : Command.quantifierCount
      (p.objectives.map fun objective => .assert objective.trackerEquation) = 0 :=
    quantifierCount_eq_zero (List.forall_mem_map.2 fun objective _ =>
      List.forall_mem_singleton.2 objective.quantifierCount_trackerEquation)
  have hgoal : Command.quantifierCount [.assert goal] = 0 :=
    quantifierCount_eq_zero (List.forall_mem_singleton.2
      (List.forall_mem_singleton.2 (quantifierCount_goal hgoal)))
  simp only [openFormula, quantifierCount_append, hassignments, hconstraints, hobjectives, hgoal,
    Nat.add_zero]

/-- A closed formula has one more. -/
theorem quantifierCount_closedFormula {goal : Term} (hgoal : p.goal = .ok goal) :
    (p.closedFormula goal).quantifierCount =
      quantifierCountAll (p.assignments.map Assignment.term)
        + quantifierCountAll p.constraints + 1 := by
  have hobjectives : quantifierCountAll (p.objectives.map Objective.trackerEquation) = 0 :=
    quantifierCountAll_eq_zero (List.forall_mem_map.2 fun objective _ =>
      objective.quantifierCount_trackerEquation)
  have hbindings : Term.quantifierCountBindings p.skolemBindings = 0 := by
    rw [Term.quantifierCountBindings_eq]
    refine quantifierCountAll_eq_zero (List.forall_mem_map.2 ?_)
    exact List.forall_mem_map.2 fun input _ => input.quantifierCount_skolemBinding
  have hbody : (Term.conj (p.constraints ++ p.objectives.map Objective.trackerEquation
      ++ [goal])).quantifierCount = quantifierCountAll p.constraints := by
    rw [Term.quantifierCount_conj, quantifierCountAll_append, quantifierCountAll_append,
      hobjectives, quantifierCountAll_eq_zero
        (List.forall_mem_singleton.2 (quantifierCount_goal hgoal)), Nat.add_zero]
  rw [closedFormula, Term.quantifierCount_quantified]
  congr 1
  split
  · rw [Term.quantifierCount_foldr_letIn, hbody]
  · rw [Term.quantifierCount_letIn, hbindings, Nat.zero_add, Term.quantifierCount_foldr_letIn,
      hbody]

/-- **How many quantifiers are written**: those in the terms of the problem, and one more exactly if
there are bound inputs. -/
theorem quantifierCount_preamble {program : Program} (hencode : p.encode = .ok program) :
    Command.quantifierCount program.preamble.commands =
      quantifierCountAll p.terms + if p.boundInputs.isEmpty then 0 else 1 := by
  obtain ⟨-, sorts, tables, goal, -, htables, hgoal, rfl⟩ := encode_eq_ok_iff.1 hencode
  have hgoals : Command.quantifierCount (p.objectives.map Objective.command) = 0 := by
    refine quantifierCount_eq_zero (List.forall_mem_map.2 fun objective _ => ?_)
    rw [Objective.command]
    split <;> exact List.forall_mem_singleton.2 (Ref.quantifierCount_term _)
  have hformula : Command.quantifierCount (p.formula goal) =
      quantifierCountAll (p.assignments.map Assignment.term) + quantifierCountAll p.constraints
        + if p.boundInputs.isEmpty then 0 else 1 := by
    rw [formula]
    split
    · rw [quantifierCount_openFormula hgoal, Nat.add_zero]
    · rw [Command.quantifierCount, List.flatMap_singleton]
      exact quantifierCount_closedFormula hgoal
  simp only [quantifierCount_append, quantifierCount_declarations htables, hformula, hgoals, terms,
    quantifierCountAll_append]
  omega

end Problem
end SmtQuery
