import Mathlib
import SmtQuery.Proofs.Table

/-!
# What a query declares

The commands in front of the formula are of two kinds: declarations and definitions, which
introduce names, and assertions, which fix the entries of tables, the initial values of arrays
and the postulates.  This file leaves out the assertions.  What remains for a table or an array
is one declaration (`Table.filter_commands`, `ArrayDecl.filter_commands`), and
`Problem.mem_declarations_iff` lists what remains altogether.
-/

namespace SmtQuery

/-- Whether a command is an assertion. -/
def Command.isAssert : Command → Bool
  | .assert _ => true
  | _ => false

/-- The declaration of the constant that stands for an array. -/
def ArrayDecl.declaration (array : ArrayDecl) : Command :=
  .declareFun array.symbol [] (.array array.index.sort array.element.sort)

/-! ## Tables and arrays -/

/-- All that is not asserted of an array is its declaration. -/
theorem ArrayDecl.filter_commands (array : ArrayDecl) :
    array.commands.filter (!·.isAssert) = [array.declaration] := by
  rw [ArrayDecl.commands]
  cases array.initial? <;> rfl

/-- All that is not asserted of a table is its declaration. -/
theorem Table.filter_commands {table : Table} {commands : List Command}
    (h : table.commands = .ok commands) :
    commands.filter (!·.isAssert) = [table.declaration] := by
  obtain ⟨assertions, rfl, hassertions⟩ := Table.commands_eq_ok_iff.1 h
  have hnone : assertions.filter (!·.isAssert) = [] := by
    rw [List.filter_eq_nil_iff]
    intro c hc
    obtain ⟨entry, -, hentry⟩ :=
      Except.exists_of_mem_mapM (Except.mapM_eq_ok_iff.2 hassertions) hc
    obtain ⟨literal, -, rfl⟩ := Table.entryAssertion_eq_ok_iff.1 hentry
    exact Bool.false_ne_true
  rw [List.filter_cons_of_pos (by rfl), hnone]

theorem Table.filter_flatten_commands {tables : List Table} {commands : List (List Command)}
    (h : tables.mapM Table.commands = .ok commands) :
    commands.flatten.filter (!·.isAssert) = tables.map Table.declaration := by
  have hall := Except.mapM_eq_ok_iff.1 h
  clear h
  induction hall with
  | nil => rfl
  | cons hhead _ ih =>
    rw [List.flatten_cons, List.filter_append, Table.filter_commands hhead, ih]
    rfl

theorem ArrayDecl.filter_flatMap_commands (arrays : List ArrayDecl) :
    (arrays.flatMap ArrayDecl.commands).filter (!·.isAssert) =
      arrays.map ArrayDecl.declaration := by
  rw [List.filter_flatMap]
  simp only [ArrayDecl.filter_commands]
  exact List.flatMap_pure_eq_map _ arrays

/-! ## Functions -/

namespace Problem

variable {p : Problem} {sorts : List NamedSort} {tables : List (List Command)}

/-- Everything that a query declares or defines in front of the formula, but for its sorts. -/
def symbolCommands (p : Problem) : List Command :=
  p.freeInputs.map Input.declaration ++ p.constants.map constantCommand
    ++ p.tables.map Table.declaration ++ p.arrays.map ArrayDecl.declaration
    ++ p.functions.map FunctionDecl.command

/-- **What is not asserted** in front of the formula: comments, options and the logic, the
declarations of sorts, and those of everything else. -/
theorem mem_declarations_iff (htables : p.tables.mapM Table.commands = .ok tables) {c : Command}
    (hc : c.isAssert = false) : c ∈ p.declarations sorts tables ↔
      c ∈ p.header p.kinds ∨ c ∈ sorts.map NamedSort.declaration ∨ c ∈ p.symbolCommands ∨
        ∃ postulate ∈ p.postulates, c = .comment s!"axiom: {postulate.name}" := by
  have hfilter : ∀ commands : List Command, c ∈ commands ↔
      c ∈ commands.filter (!·.isAssert) := by
    intro commands
    rw [List.mem_filter, hc]
    exact (and_iff_left (by rfl)).symm
  have htable : c ∈ tables.flatten ↔ c ∈ p.tables.map Table.declaration := by
    rw [hfilter, Table.filter_flatten_commands htables]
  have harray : c ∈ p.arrays.flatMap ArrayDecl.commands ↔
      c ∈ p.arrays.map ArrayDecl.declaration := by
    rw [hfilter, ArrayDecl.filter_flatMap_commands]
  have hpostulate : c ∈ p.postulates.flatMap Postulate.commands ↔
      ∃ postulate ∈ p.postulates, c = .comment s!"axiom: {postulate.name}" := by
    have hne : ∀ term, c ≠ .assert term := by
      rintro term rfl
      exact absurd hc (by simp [Command.isAssert])
    simp [Postulate.commands, hne]
  simp only [declarations, symbolCommands, List.mem_append, htable, harray, hpostulate, or_assoc]

/-- **What holds in front of the formula**: of all assertions, of the header and of comments, and
of the declaration of every sort, input, constant, table, array and function. -/
theorem forall_mem_declarations {P : Command → Prop}
    (htables : p.tables.mapM Table.commands = .ok tables) (hassert : ∀ term, P (.assert term))
    (hheader : ∀ c ∈ p.header p.kinds, P c) (hcomment : ∀ text, P (.comment text))
    (hsort : ∀ sort ∈ sorts, P sort.declaration)
    (hinput : ∀ input ∈ p.freeInputs, P input.declaration)
    (hconstant : ∀ constant ∈ p.constants, P (constantCommand constant))
    (htable : ∀ table ∈ p.tables, P table.declaration)
    (harray : ∀ array ∈ p.arrays, P array.declaration)
    (hfunction : ∀ function ∈ p.functions, P function.command) :
    ∀ c ∈ p.declarations sorts tables, P c := by
  intro c hc
  cases h : c.isAssert with
  | true =>
    cases c with
    | assert term => exact hassert term
    | _ => exact absurd h Bool.false_ne_true
  | false =>
    rcases (mem_declarations_iff htables h).1 hc with hc | hc | hc | ⟨postulate, -, rfl⟩
    · exact hheader c hc
    · exact List.forall_mem_map.2 hsort c hc
    · simp only [symbolCommands, List.mem_append, or_assoc] at hc
      rcases hc with hc | hc | hc | hc | hc
      · exact List.forall_mem_map.2 hinput c hc
      · exact List.forall_mem_map.2 hconstant c hc
      · exact List.forall_mem_map.2 htable c hc
      · exact List.forall_mem_map.2 harray c hc
      · exact List.forall_mem_map.2 hfunction c hc
    · exact hcomment _

/-- **Where functions are declared**: nothing else in front of the formula is the declaration of
a function. -/
theorem declareFun_mem_declarations_iff (htables : p.tables.mapM Table.commands = .ok tables)
    {name : String} {parameters : List SmtSort} {result : SmtSort} :
    .declareFun name parameters result ∈ p.declarations sorts tables ↔
      .declareFun name parameters result ∈ p.symbolCommands := by
  have hheader : .declareFun name parameters result ∉ p.header p.kinds := by
    simp [header]
  have hsorts : .declareFun name parameters result ∉ sorts.map NamedSort.declaration := by
    rw [List.mem_map]
    rintro ⟨sort, -, h⟩
    rw [NamedSort.declaration] at h
    split at h <;> exact absurd h (by simp)
  rw [mem_declarations_iff htables rfl]
  simp [hheader, hsorts]

end Problem
end SmtQuery
