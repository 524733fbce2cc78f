import Mathlib
import SmtQuery.Proofs.Declaration
import SmtQuery.Proofs.Formula
import SmtQuery.Proofs.NamedSort
import SmtQuery.Proofs.Scope

/-!
# What a query introduces

A script introduces sorts with their elements, functions under the names the user chose, and
whatever has a generated symbol: free inputs, constants, tables, arrays, and the assigned values
where they are defined at the top.  The assertions about the contents of tables and arrays
introduce nothing, so the script can be looked at without them: this is its outline, and
`Problem.introduced_outline_eq` lists what it introduces.
-/

namespace SmtQuery

open Command (introduced introduced_append introduced_map introduced_eq_nil InScope)

/-! ## What single declarations introduce and mention -/

/-- The function that stands for a value. -/
def Ref.entity (ref : Ref) : Entity := .function ref.symbol

/-- Values with the same number are the same function. -/
theorem Ref.entity_eq_of_id {a b : Ref} (h : a.id = b.id) : a.entity = b.entity :=
  congrArg (Entity.function ∘ NodeId.symbol) h

/-- What a free input is declared as. -/
def Input.origin (input : Input) : Origin :=
  if input.isSkolem then .skolem input.id else .value input.id

theorem Input.symbol_origin_of_isSkolem {input : Input} (h : input.isSkolem) :
    input.origin.symbol = input.skolemSymbol := by
  rw [Input.origin, if_pos h, Origin.symbol_skolem]

theorem Input.symbol_origin_of_not_isSkolem {input : Input} (h : ¬ input.isSkolem) :
    input.origin.symbol = input.ref.symbol := by
  rw [Input.origin, if_neg h, Origin.symbol_value]
  rfl

theorem Input.introduces_declaration (input : Input) :
    input.declaration.introduces = [.function input.origin.symbol] := by
  rw [Input.declaration]
  split
  · next h =>
    rw [Input.symbol_origin_of_isSkolem h]
    rfl
  · next h =>
    rw [Input.symbol_origin_of_not_isSkolem h]
    rfl

/-- The declaration of an input mentions the sorts of the input and of those it depends on. -/
theorem Input.mem_mentions_declaration {input : Input} {e : Entity}
    (he : e ∈ input.declaration.mentions) :
    e ∈ input.kind.sort.mentions ∨ ∃ ref ∈ input.dependsOn, e ∈ ref.kind.sort.mentions := by
  rw [Input.declaration] at he
  split at he
  · rw [Command.mentions, List.mem_append, List.mem_flatMap] at he
    rcases he with ⟨_, hparameter, he⟩ | he
    · obtain ⟨ref, href, rfl⟩ := List.mem_map.1 hparameter
      exact Or.inr ⟨ref, href, he⟩
    · exact Or.inl he
  · exact Or.inl he

theorem introduces_constantCommand (constant : Ref × Value) :
    (constantCommand constant).introduces = [.function (Origin.value constant.1.id).symbol] := by
  rw [Origin.symbol_value, constantCommand]
  split <;> rfl

/-- A value mentions nothing but the element that it is. -/
theorem Value.eq_of_mem_mentions_term {value : Value} {e : Entity} (he : e ∈ value.term.mentions) :
    ∃ sort name index?, value = .element sort name index? ∧ e = .function name := by
  cases value with
  | int kind n => cases kind <;> exact absurd he (by simp [Value.term, Term.mentions])
  | real q => exact absurd he (by simp [Value.term, Term.mentions])
  | float x =>
    rw [Value.term, Value.floatTerm] at he
    split at he <;> exact absurd he (by simp [Term.mentions])
  | element sort name index? =>
    exact ⟨sort, name, index?, rfl, by simpa [Value.term, Term.mentions] using he⟩

/-- The declaration of a constant mentions its sort, and the element that it is defined as. -/
theorem mem_mentions_constantCommand {constant : Ref × Value} {e : Entity}
    (he : e ∈ (constantCommand constant).mentions) :
    e ∈ constant.1.kind.sort.mentions ∨
      ∃ sort name i, constant.2 = .element sort name (some i) ∧ e = .function name := by
  rw [constantCommand] at he
  split at he
  · exact Or.inl he
  · next hne =>
    rw [Command.mentions, List.mem_append, Entity.mem_unbound_iff] at he
    rcases he with he | ⟨he, -⟩
    · exact Or.inl he
    · obtain ⟨sort, name, index?, hvalue, rfl⟩ := Value.eq_of_mem_mentions_term he
      cases index? with
      | none => exact absurd hvalue (hne sort name)
      | some i => exact Or.inr ⟨sort, name, i, hvalue, rfl⟩

theorem Table.introduces_declaration (table : Table) :
    table.declaration.introduces = [.function (Origin.table table.id).symbol] := by
  rw [Origin.symbol_table]
  rfl

theorem ArrayDecl.introduces_declaration (array : ArrayDecl) :
    array.declaration.introduces = [.function (Origin.array array.id).symbol] := by
  rw [Origin.symbol_array]
  rfl

theorem NamedSort.introduces_declaration (sort : NamedSort) : sort.declaration.introduces =
    .sort sort.name :: (sort.elements?.getD []).map .function := by
  rw [NamedSort.declaration]
  split
  · next elements h =>
    rw [h]
    rfl
  · next h =>
    rw [h]
    rfl

theorem Objective.introduces_command (objective : Objective) :
    objective.command.introduces = [] := by
  rw [Objective.command]
  split <;> rfl

theorem Objective.mentions_command (objective : Objective) :
    objective.command.mentions = [objective.tracker.entity] := by
  rw [Objective.command]
  split <;> rw [Command.mentions, Ref.term, Term.mentions, Ref.entity]

/-- The declared sorts in the sort of a kind. -/
theorem Kind.mem_mentions_sort_iff {kind : Kind} {e : Entity} :
    e ∈ kind.sort.mentions ↔ ∃ sort, kind = .named sort ∧ e = .sort sort.name := by
  cases kind with
  | float p => cases p <;> simp [Kind.sort, SmtSort.float32, SmtSort.float64, SmtSort.mentions]
  | _ => simp [Kind.sort, SmtSort.mentions]

/-- Assertions introduce nothing. -/
theorem Command.introduced_filter (commands : List Command) :
    introduced (commands.filter (!·.isAssert)) = introduced commands := by
  induction commands with
  | nil => rfl
  | cons c commands ih =>
    cases c <;> simp_all [introduced, Command.isAssert, Command.introduces]

namespace Problem

variable {p : Problem}

/-! ## What a query introduces -/

/-- The elements that the sorts of a problem list. -/
def elements (p : Problem) : List String :=
  p.namedSorts.flatMap fun sort => sort.elements?.getD []

/-- The names that the user chose: those of functions and of elements. -/
def chosenNames (p : Problem) : List String :=
  p.functions.map FunctionDecl.name ++ p.elements

/-- What is declared under a generated symbol. -/
def origins (p : Problem) : List Origin :=
  p.freeInputs.map Input.origin ++ p.constants.map (fun constant => .value constant.1.id)
    ++ p.tables.map (fun table => .table table.id) ++ p.arrays.map (fun array => .array array.id)

/-- The assigned values that are defined at the top: all of them without bound inputs. -/
def definedOrigins (p : Problem) : List Origin :=
  if p.boundInputs.isEmpty then p.assignments.map fun a => .value a.target.id else []

theorem introduced_symbolCommands : introduced p.symbolCommands =
    (p.origins.map Origin.symbol ++ p.functions.map FunctionDecl.name).map .function := by
  have hfunctions : ∀ function : FunctionDecl,
      function.command.introduces = [.function function.name] := fun _ => rfl
  rw [symbolCommands, origins, introduced_append, introduced_append, introduced_append,
    introduced_append, introduced_map Input.introduces_declaration,
    introduced_map introduces_constantCommand, introduced_map Table.introduces_declaration,
    introduced_map ArrayDecl.introduces_declaration, introduced_map hfunctions]
  simp [Function.comp_def]

theorem map_symbol_origins : p.origins.map Origin.symbol =
    p.freeInputs.map (fun input => input.origin.symbol)
      ++ p.constants.map (fun constant => constant.1.symbol) ++ p.tables.map Table.symbol
      ++ p.arrays.map ArrayDecl.symbol := by
  simp [origins, Function.comp_def, Origin.symbol_value, Origin.symbol_table,
    Origin.symbol_array, Ref.symbol]

theorem introduced_sorts (sorts : List NamedSort) :
    introduced (sorts.map NamedSort.declaration) = sorts.flatMap fun sort =>
      .sort sort.name :: (sort.elements?.getD []).map .function := by
  rw [introduced, List.flatMap_map]
  simp only [NamedSort.introduces_declaration]

theorem introduced_formula (goal : Term) : introduced (p.formula goal) =
    (p.definedOrigins.map Origin.symbol).map .function := by
  have hdefinitions : ∀ a : Assignment, Command.introduces
      (.defineFun a.target.symbol [] a.target.kind.sort a.term) =
        [.function (Origin.value a.target.id).symbol] := by
    intro a
    rw [Origin.symbol_value]
    rfl
  have hassertions : ∀ terms : List Term, introduced (terms.map Command.assert) = [] := by
    intro terms
    refine introduced_eq_nil fun c hc => ?_
    obtain ⟨term, -, rfl⟩ := List.mem_map.1 hc
    rfl
  rw [formula, definedOrigins]
  split
  · rw [openFormula_eq, introduced_append, introduced_map hdefinitions, hassertions,
      List.append_nil, List.map_map, List.map_map]
    rfl
  · rfl

/-! ## The script without contents -/

/-- Everything in front of the tables and arrays: header, sorts, inputs and constants. -/
def front (p : Problem) (sorts : List NamedSort) : List Command :=
  p.header p.kinds ++ sorts.map NamedSort.declaration ++ p.freeInputs.map Input.declaration
    ++ p.constants.map constantCommand

/-- Everything behind the declarations. -/
def back (p : Problem) (goal : Term) : List Command :=
  p.postulates.flatMap Postulate.commands ++ p.formula goal ++ p.objectives.map Objective.command
    ++ .checkSat :: p.postlude

/-- The script without the assertions about the contents of tables and arrays. -/
def outline (p : Problem) (sorts : List NamedSort) (goal : Term) : List Command :=
  p.header p.kinds ++ sorts.map NamedSort.declaration ++ p.symbolCommands ++ p.back goal

/-- A script in three parts, of which the middle one is about tables and arrays. -/
theorem script_commands_eq {program : Program} (hencode : p.encode = .ok program) :
    ∃ sorts tables goal, NamedSort.ofKinds p.kinds = .ok sorts ∧
      p.tables.mapM Table.commands = .ok tables ∧ p.goal = .ok goal ∧
      program.script.commands = p.front sorts ++ (tables.flatten
        ++ p.arrays.flatMap ArrayDecl.commands) ++ (p.functions.map FunctionDecl.command
        ++ p.back goal) := by
  obtain ⟨-, sorts, tables, goal, hsorts, htables, hgoal, rfl⟩ := encode_eq_ok_iff.1 hencode
  refine ⟨sorts, tables, goal, hsorts, htables, hgoal, ?_⟩
  simp [Program.script, Script.push, Script.append, declarations, front, back]

/-- What remains of the script without the assertions about contents. -/
theorem outline_eq {tables : List (List Command)}
    (htables : p.tables.mapM Table.commands = .ok tables) (sorts : List NamedSort) (goal : Term) :
    p.front sorts ++ (tables.flatten ++ p.arrays.flatMap ArrayDecl.commands).filter (!·.isAssert)
      ++ (p.functions.map FunctionDecl.command ++ p.back goal) = p.outline sorts goal := by
  rw [List.filter_append, Table.filter_flatten_commands htables,
    ArrayDecl.filter_flatMap_commands]
  simp [front, outline, symbolCommands]

/-- The assertions about contents introduce nothing. -/
theorem introduced_outline {tables : List (List Command)}
    (htables : p.tables.mapM Table.commands = .ok tables) (sorts : List NamedSort) (goal : Term) :
    introduced (p.front sorts ++ (tables.flatten ++ p.arrays.flatMap ArrayDecl.commands)
      ++ (p.functions.map FunctionDecl.command ++ p.back goal)) =
      introduced (p.outline sorts goal) := by
  rw [← outline_eq htables, introduced_append, introduced_append, introduced_append (_ ++ _),
    introduced_append (p.front sorts), Command.introduced_filter]

theorem introduced_header (kinds : List Kind) : introduced (p.header kinds) = [] := by
  refine introduced_eq_nil fun c hc => ?_
  rcases eq_of_mem_header hc with ⟨text, rfl⟩ | ⟨key, value, rfl⟩ | ⟨logic, rfl⟩ <;> rfl

theorem introduced_postulates :
    introduced (p.postulates.flatMap Postulate.commands) = [] := by
  refine introduced_eq_nil fun c hc => ?_
  obtain ⟨postulate, -, hc⟩ := List.mem_flatMap.1 hc
  rcases List.mem_pair.1 hc with rfl | rfl <;> rfl

theorem introduced_objectives : introduced (p.objectives.map Objective.command) = [] := by
  refine introduced_eq_nil fun c hc => ?_
  obtain ⟨objective, -, rfl⟩ := List.mem_map.1 hc
  exact objective.introduces_command

/-- Behind the declarations, only the formula introduces anything. -/
theorem introduced_back (goal : Term) : introduced (p.back goal) = introduced (p.formula goal) := by
  have hend : introduced (.checkSat :: p.postlude) = [] := by
    refine introduced_eq_nil fun c hc => ?_
    rcases List.mem_cons.1 hc with rfl | hc
    · rfl
    · rcases eq_of_mem_postlude hc with ⟨input, -, -, rfl⟩ | rfl <;> rfl
  rw [back, introduced_append, introduced_append, introduced_append, introduced_postulates,
    introduced_objectives, hend, List.nil_append, List.append_nil, List.append_nil]

/-- **Everything that a query introduces**: its sorts with their elements, what has a generated
symbol, its functions, and the values defined at the top. -/
theorem introduced_outline_eq (sorts : List NamedSort) (goal : Term) :
    introduced (p.outline sorts goal) =
      (sorts.flatMap fun sort => .sort sort.name :: (sort.elements?.getD []).map .function) ++
      (p.origins.map Origin.symbol ++ p.functions.map FunctionDecl.name
        ++ p.definedOrigins.map Origin.symbol).map .function := by
  rw [outline, introduced_append, introduced_append, introduced_append, introduced_header,
    introduced_sorts, introduced_symbolCommands, introduced_back, introduced_formula,
    List.nil_append, List.append_assoc, ← List.map_append]

end Problem
end SmtQuery
