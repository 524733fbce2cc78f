import Mathlib
import SmtQuery.Proofs.Declaration
import SmtQuery.Proofs.Origin

/-!
# Goals and the symbols they are stated on

A goal is stated on the symbol of its tracker, which the solver has to know.  The gate looks for
trackers that a quantifier binds, but by the quantifier of the input alone: it lets existential
trackers pass.  Where validity is asked for, existential inputs are the bound ones; and an
existential input that depends on bound ones is declared as a function, under another symbol.

`Problem.goal_declared_iff` says which trackers are declared.
-/

namespace SmtQuery

/-- The term whose optimum a command asks for. -/
def Command.goal? : Command → Option Term
  | .maximize term | .minimize term => some term
  | _ => none

theorem Objective.goal?_command (objective : Objective) :
    objective.command.goal? = some objective.tracker.term := by
  rw [Objective.command]
  cases objective.direction <;> rfl

/-! ## Declarations without parameters -/

theorem Input.declaration_eq_iff {input : Input} {name : String} {result : SmtSort} :
    input.declaration = .declareFun name [] result ↔
      ¬ input.isSkolem ∧ input.ref.symbol = name ∧ input.kind.sort = result := by
  rw [Input.declaration]
  split
  · next hskolem =>
    -- a function for a dependent input has a parameter for each input it depends on
    have hne : input.dependsOn ≠ [] := by
      intro hnil
      rw [Input.isSkolem, hnil] at hskolem
      exact absurd hskolem (by decide)
    simp [hskolem, hne]
  · next hskolem => simp [hskolem]

theorem constantCommand_eq_iff {constant : Ref × Value} {name : String} {result : SmtSort} :
    constantCommand constant = .declareFun name [] result ↔
      (∃ sort element, constant.2 = .element sort element none) ∧
        constant.1.symbol = name ∧ constant.1.kind.sort = result := by
  rw [constantCommand]
  split
  · next sort element h => simp [h]
  · next h =>
    constructor
    · intro heq
      exact absurd heq (by simp)
    · rintro ⟨⟨sort, element, helement⟩, -⟩
      exact absurd helement (h sort element)

namespace Problem

variable {p : Problem}

/-- Whether a value is declared at the top without being an input: as an element of a sort
without a list of elements, or because a function without parameters has its symbol. -/
def DeclaresOtherwise (p : Problem) (id : NodeId) : Prop :=
  (∃ constant ∈ p.constants, constant.1.id = id ∧
    ∃ sort element, constant.2 = .element sort element none) ∨
  ∃ function ∈ p.functions, function.parameters = [] ∧ function.name = id.symbol

/-- **When the symbol of a value is declared** in front of the formula: as a free input that
depends on nothing, or otherwise. -/
theorem exists_declareFun_mem_iff {sorts : List NamedSort} {tables : List (List Command)}
    (htables : p.tables.mapM Table.commands = .ok tables) (id : NodeId) :
    (∃ result, .declareFun id.symbol [] result ∈ p.declarations sorts tables) ↔
      (∃ input ∈ p.freeInputs, input.id = id ∧ ¬ input.isSkolem) ∨ p.DeclaresOtherwise id := by
  have hsymbol : ∀ ref : Ref, ref.symbol = id.symbol ↔ ref.id = id :=
    fun ref => NodeId.symbol_injective.eq_iff
  -- tables have a parameter, and arrays have symbols of their own
  have htable : ∀ (table : Table) result, table.declaration ≠ .declareFun id.symbol [] result := by
    intro table result h
    exact absurd h (by simp [Table.declaration])
  have harray : ∀ (array : ArrayDecl) result,
      array.declaration ≠ .declareFun id.symbol [] result := by
    intro array result h
    have hname : array.symbol = id.symbol := (Command.declareFun.inj h).1
    rw [← Origin.symbol_array, ← Origin.symbol_value] at hname
    exact Origin.noConfusion (Origin.symbol_injective hname)
  simp only [declareFun_mem_declarations_iff htables, symbolCommands, List.mem_append,
    List.mem_map, Input.declaration_eq_iff, constantCommand_eq_iff, hsymbol, htable, harray,
    and_false, exists_false, or_false, DeclaresOtherwise, Input.id, FunctionDecl.command,
    Command.declareFun.injEq, List.map_eq_nil_iff]
  constructor
  · rintro ⟨result, (⟨input, hinput, hskolem, hid, -⟩ | ⟨constant, hconstant, hvalue, hid, -⟩) |
      ⟨function, hfunction, hname, hparameters, -⟩⟩
    · exact Or.inl ⟨input, hinput, hid, hskolem⟩
    · exact Or.inr (Or.inl ⟨constant, hconstant, hid, hvalue⟩)
    · exact Or.inr (Or.inr ⟨function, hfunction, hparameters, hname⟩)
  · rintro (⟨input, hinput, hid, hskolem⟩ | ⟨constant, hconstant, hid, hvalue⟩ |
      ⟨function, hfunction, hparameters, hname⟩)
    · exact ⟨_, Or.inl (Or.inl ⟨input, hinput, hskolem, hid, rfl⟩)⟩
    · exact ⟨_, Or.inl (Or.inr ⟨constant, hconstant, hvalue, hid, rfl⟩)⟩
    · exact ⟨_, Or.inr ⟨function, hfunction, hname, hparameters, rfl⟩⟩

/-! ## Goals -/

/-- The gate lets an objective pass only if all inputs with the number of its tracker are
existential. -/
theorem existential_of_rejection?_eq_none {kinds : List Kind} {caps : Capabilities}
    (hgate : p.rejection? kinds caps = none) {objective : Objective}
    (hobjective : objective ∈ p.objectives) {input : Input} (hinput : input ∈ p.inputs)
    (hid : input.id = objective.tracker.id) : input.quantifier = .existential := by
  rw [rejection?] at hgate
  split at hgate
  · exact absurd hgate (by simp)
  · split at hgate
    · next hempty =>
      rw [universalObjectives, List.isEmpty_iff, List.map_eq_nil_iff, List.filter_eq_nil_iff]
        at hempty
      have hnot := hempty objective hobjective
      rw [isUniversal, Bool.not_eq_true, List.any_eq_false] at hnot
      cases hquantifier : input.quantifier with
      | existential => rfl
      | universal =>
        have := hnot input hinput
        simp [hquantifier, hid] at this
    · exact absurd hgate (by simp)

/-- Existential inputs are free exactly where satisfiability is asked for. -/
theorem exists_mem_freeInputs_iff {P : Input → Prop}
    (hexistential : ∀ input ∈ p.inputs, P input → input.quantifier = .existential) :
    (∃ input ∈ p.freeInputs, P input) ↔
      p.mode = .satisfiability ∧ ∃ input ∈ p.inputs, P input := by
  constructor
  · rintro ⟨input, hfree, hinput⟩
    obtain ⟨hmem, hquantifier⟩ := List.mem_filter.1 hfree
    have hfreeQuantifier := of_decide_eq_true hquantifier
    rw [hexistential input hmem hinput] at hfreeQuantifier
    refine ⟨?_, input, hmem, hinput⟩
    cases hmode : p.mode with
    | satisfiability => rfl
    | validity =>
      rw [hmode] at hfreeQuantifier
      exact absurd hfreeQuantifier (by decide)
  · rintro ⟨hmode, input, hmem, hinput⟩
    refine ⟨input, List.mem_filter.2 ⟨hmem, decide_eq_true ?_⟩, hinput⟩
    rw [hexistential input hmem hinput, hmode]
    rfl

/-- The declarations state no goals. -/
theorem goal?_of_mem_declarations {sorts : List NamedSort} {tables : List (List Command)}
    (htables : p.tables.mapM Table.commands = .ok tables) {c : Command}
    (hc : c ∈ p.declarations sorts tables) : c.goal? = none := by
  refine forall_mem_declarations (P := fun c => c.goal? = none) htables (fun _ => rfl) ?_
    (fun _ => rfl) ?_ ?_ ?_ (fun _ _ => rfl) (fun _ _ => rfl) (fun _ _ => rfl) c hc
  · intro c hc
    rcases eq_of_mem_header hc with ⟨text, rfl⟩ | ⟨key, value, rfl⟩ | ⟨logic, rfl⟩ <;> rfl
  · intro sort _
    rw [NamedSort.declaration]
    split <;> rfl
  · intro input _
    rw [Input.declaration]
    split <;> rfl
  · intro constant _
    rw [constantCommand]
    split <;> rfl

/-- The formula consists of definitions and assertions. -/
theorem eq_of_mem_formula {goal : Term} {c : Command} (hc : c ∈ p.formula goal) :
    (∃ a ∈ p.assignments, c = .defineFun a.target.symbol [] a.target.kind.sort a.term) ∨
      ∃ term, c = .assert term := by
  rw [formula] at hc
  split at hc
  · simp only [openFormula, List.mem_append, List.mem_map, List.mem_singleton] at hc
    rcases hc with ((⟨a, ha, rfl⟩ | ⟨term, -, rfl⟩) | ⟨objective, -, rfl⟩) | rfl
    · exact Or.inl ⟨a, ha, rfl⟩
    · exact Or.inr ⟨term, rfl⟩
    · exact Or.inr ⟨_, rfl⟩
    · exact Or.inr ⟨_, rfl⟩
  · exact Or.inr ⟨_, List.mem_singleton.1 hc⟩

/-- A command that stands in a list of two parts, but not in the first, stands in the second. -/
theorem exists_eq_append_of_notMem {front back before after : List Command} {c : Command}
    (h : front ++ back = before ++ c :: after) (hc : c ∉ front) :
    ∃ early, before = front ++ early ∧ back = early ++ c :: after := by
  rcases List.append_eq_append_iff.1 h with ⟨early, hbefore, hback⟩ | ⟨late, hfront, hlate⟩
  · exact ⟨early, hbefore, hback⟩
  · cases late with
    | nil => exact ⟨[], by simpa using hfront.symm, by simpa using hlate.symm⟩
    | cons d late =>
      have hd : d = c := (List.cons.inj hlate).1.symm
      rw [hfront, hd] at hc
      exact absurd (List.mem_append_right _ List.mem_cons_self) hc

/-- **Which goals are declared.**  A query is written.  Every goal in the preamble is that of an
objective and asks for the optimum of its tracker, and all inputs with the number of the tracker
are existential.  The symbol of the tracker is declared as a constant in front of the goal exactly
if satisfiability is asked for and the tracker is an input that depends on no other, or if it is
declared otherwise; so no bound or dependent input that is optimised is declared by itself. -/
theorem goal_declared_iff {program : Program} (hencode : p.encode = .ok program)
    {before after : List Command} {c : Command} {term : Term}
    (hsplit : program.preamble.commands = before ++ c :: after) (hgoal : c.goal? = some term) :
    ∃ objective ∈ p.objectives, c = objective.command ∧ term = objective.tracker.term ∧
      (∀ input ∈ p.inputs, input.id = objective.tracker.id → input.quantifier = .existential) ∧
      ((∃ sort, .declareFun objective.tracker.symbol [] sort ∈ before) ↔
        (p.mode = .satisfiability ∧
          ∃ input ∈ p.inputs, input.id = objective.tracker.id ∧ ¬ input.isSkolem) ∨
        p.DeclaresOtherwise objective.tracker.id) := by
  obtain ⟨hgate, sorts, tables, goal, -, htables, -, rfl⟩ := encode_eq_ok_iff.1 hencode
  have hfront : c ∉ p.declarations sorts tables ++ p.formula goal := by
    intro hc
    rcases List.mem_append.1 hc with hc | hc
    · rw [goal?_of_mem_declarations htables hc] at hgoal
      exact absurd hgoal (by simp)
    · rcases eq_of_mem_formula hc with ⟨a, -, rfl⟩ | ⟨t, rfl⟩ <;>
        exact absurd hgoal (by simp [Command.goal?])
  obtain ⟨early, rfl, hgoals⟩ := exists_eq_append_of_notMem hsplit hfront
  have hmem : c ∈ p.objectives.map Objective.command := by
    rw [hgoals]
    exact List.mem_append_right _ List.mem_cons_self
  obtain ⟨objective, hobjective, rfl⟩ := List.mem_map.1 hmem
  have hexistential : ∀ input ∈ p.inputs, input.id = objective.tracker.id →
      input.quantifier = .existential :=
    fun input hinput => existential_of_rejection?_eq_none hgate hobjective hinput
  refine ⟨objective, hobjective, rfl, ?_, hexistential, ?_⟩
  · rw [objective.goal?_command] at hgoal
    exact (Option.some.inj hgoal).symm
  · -- neither the formula nor another goal declares anything as a constant
    have hformula : ∀ sort, .declareFun objective.tracker.symbol [] sort ∉ p.formula goal := by
      intro sort hsort
      rcases eq_of_mem_formula hsort with ⟨a, -, h⟩ | ⟨t, h⟩ <;> exact absurd h (by simp)
    have hearly : ∀ sort, .declareFun objective.tracker.symbol [] sort ∉ early := by
      intro sort hsort
      have hother : .declareFun objective.tracker.symbol [] sort ∈
          p.objectives.map Objective.command := by
        rw [hgoals]
        exact List.mem_append_left _ hsort
      obtain ⟨other, -, h⟩ := List.mem_map.1 hother
      have := other.goal?_command
      rw [h] at this
      exact absurd this (by simp [Command.goal?])
    simp only [List.mem_append, hformula, hearly, or_false]
    rw [Ref.symbol, exists_declareFun_mem_iff htables,
      exists_mem_freeInputs_iff fun input hinput hid => hexistential input hinput hid.1]

/-- A query for the greatest integer `s0` that is not greater than `5`. -/
def greatestQuery : Problem where
  inputs := [{ ref := ⟨⟨0⟩, .int⟩, name := "x" }, { ref := ⟨⟨1⟩, .int⟩, name := "best" }]
  assignments := [⟨⟨⟨2⟩, .bitVec false 1⟩,
    .ite (.app "<=" [.const "s0", .int 5]) (.bitVec 1 1) (.bitVec 0 1)⟩]
  output := ⟨⟨2⟩, .bitVec false 1⟩
  config := .ofSolver .z3
  objectives := [⟨"best", .maximize, ⟨⟨0⟩, .int⟩, ⟨⟨1⟩, .int⟩⟩]

/-- The goal of the query is declared. -/
theorem goal_declared_iff_greatestQuery :
    ∃ program before after, greatestQuery.encode = .ok program ∧
      program.preamble.commands = before ++ .maximize (.const "s1") :: after ∧
      (Command.maximize (.const "s1")).goal? = some (.const "s1") ∧
      ∃ objective ∈ greatestQuery.objectives, .maximize (.const "s1") = objective.command ∧
        .const "s1" = objective.tracker.term ∧
        (∀ input ∈ greatestQuery.inputs, input.id = objective.tracker.id →
          input.quantifier = .existential) ∧
        ((∃ sort, .declareFun objective.tracker.symbol [] sort ∈ before) ↔
          (greatestQuery.mode = .satisfiability ∧
            ∃ input ∈ greatestQuery.inputs, input.id = objective.tracker.id ∧
              ¬ input.isSkolem) ∨
          greatestQuery.DeclaresOtherwise objective.tracker.id) := by
  have hsplit : ∃ program before after, greatestQuery.encode = .ok program ∧
      program.preamble.commands = before ++ .maximize (.const "s1") :: after :=
    ⟨_, [.setOption "produce-models" "true", .setLogic "ALL", .declareFun "s0" [] .int,
      .declareFun "s1" [] .int, .defineFun "s2" [] (.bitVec 1)
        (.ite (.app "<=" [.const "s0", .int 5]) (.bitVec 1 1) (.bitVec 0 1)),
      .assert (.eq (.const "s1") (.const "s0")), .assert (.eq (.const "s2") (.bitVec 1 1))], [],
      rfl, rfl⟩
  obtain ⟨program, before, after, hencode, hcommands⟩ := hsplit
  exact ⟨program, before, after, hencode, hcommands, rfl, goal_declared_iff hencode hcommands rfl⟩

/-- A query for validity whose tracker `s1` is existential, and so bound by the quantifier. -/
def boundTrackerQuery : Problem where
  mode := .validity
  inputs := [{ ref := ⟨⟨0⟩, .int⟩, name := "x", quantifier := .universal },
    { ref := ⟨⟨1⟩, .int⟩, name := "best" }]
  assignments := [⟨⟨⟨2⟩, .bitVec false 1⟩, .bitVec 1 1⟩]
  output := ⟨⟨2⟩, .bitVec false 1⟩
  config := .ofSolver .z3
  objectives := [⟨"best", .maximize, ⟨⟨1⟩, .int⟩, ⟨⟨1⟩, .int⟩⟩]

/-- A query whose tracker `s1` depends on the bound input `s0`. -/
def dependentTrackerQuery : Problem where
  inputs := [{ ref := ⟨⟨0⟩, .int⟩, name := "x", quantifier := .universal },
    { ref := ⟨⟨1⟩, .int⟩, name := "best", dependsOn := [⟨⟨0⟩, .int⟩] }]
  assignments := [⟨⟨⟨2⟩, .bitVec false 1⟩, .bitVec 1 1⟩]
  output := ⟨⟨2⟩, .bitVec false 1⟩
  config := .ofSolver .z3
  objectives := [⟨"best", .maximize, ⟨⟨1⟩, .int⟩, ⟨⟨1⟩, .int⟩⟩]

/-- Whether a query is written with a goal on an undeclared symbol, although its trackers are
inputs. -/
def HasUndeclaredGoal (p : Problem) : Prop :=
  (∀ objective ∈ p.objectives, ∃ input ∈ p.inputs, input.ref = objective.tracker) ∧
    ∃ program before after objective, p.encode = .ok program ∧ objective ∈ p.objectives ∧
      program.preamble.commands = before ++ objective.command :: after ∧
      ∀ sort, .declareFun objective.tracker.symbol [] sort ∉ before

/-- **A goal can be stated on an undeclared symbol**: that of a bound input, or that of one which
depends on a bound input. -/
theorem hasUndeclaredGoal_boundTrackerQuery :
    boundTrackerQuery.HasUndeclaredGoal ∧ dependentTrackerQuery.HasUndeclaredGoal := by
  constructor
  · refine ⟨by decide, _, [.setOption "produce-models" "true", .setLogic "ALL",
      .declareFun "s0" [] .int, .assert (.quantified .universal [("s1", .int)]
        (.letIn [("s2", .bitVec 1 1)] (.and [.eq (.const "s1") (.const "s1"),
          .not (.eq (.const "s2") (.bitVec 1 1))])))], [], _, rfl, List.mem_cons_self, rfl, ?_⟩
    show ∀ sort, Command.declareFun "s1" [] sort ∉ _
    simp
  · refine ⟨by decide, _, [.setOption "produce-models" "true", .setLogic "ALL",
      .declareFun "s1_skolem" [.int] .int, .assert (.quantified .universal [("s0", .int)]
        (.letIn [("s1", .app "s1_skolem" [.const "s0"])] (.letIn [("s2", .bitVec 1 1)]
          (.and [.eq (.const "s1") (.const "s1"), .eq (.const "s2") (.bitVec 1 1)]))))], [], _,
      rfl, List.mem_cons_self, rfl, ?_⟩
    show ∀ sort, Command.declareFun "s1" [] sort ∉ _
    simp

end Problem
end SmtQuery
