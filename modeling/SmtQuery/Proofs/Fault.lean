import Mathlib
import SmtQuery.Proofs.Enumeration
import SmtQuery.Proofs.Gate
import SmtQuery.Proofs.Table

/-!
# When a query is not written

The solver may lack a feature, and the gate says so before anything is written.  A problem that
passes the gate can still contradict itself, in three ways that come up one behind another while
the preamble is put together: its kinds name a sort in two ways, a table has entries but no literals
for their positions, or the output is not a single bit.  Each of the functions behind these fails in
one case only:

* `exists_ofKinds_eq_ok_iff` (with the order of the kinds) for the sorts;
* `Table.commands_eq_error_iff` for a table, and `mapM_commands_eq_error_iff` for the first such
  table;
* `Problem.goal_eq_error_iff` for the output.

`Problem.HasFault` puts the three in their order: a fault counts only if none of those before it is
there, and `Problem.IsConsistent` says that there is none.  The preamble fails with the faults of a
problem (`Problem.exists_preamble_eq_error_iff`) and with nothing else
(`Problem.exists_preamble_eq_ok_iff`), and behind the gate so does writing the query
(`Problem.encodeWith_iff`, where each fault stands with its message).
-/

namespace SmtQuery

/-! ## Positions of a table -/

/-- Whether a kind has literals for the positions of a table. -/
def Kind.HasPositions : Kind → Prop
  | bitVec _ _ | int | real => True
  | float _ | named _ => False

namespace Table

variable {table : Table} {fault : Fault}

/-- Whether a table can be written: it has no entries, or literals for their positions. -/
def IsIndexable (table : Table) : Prop := table.entries = [] ∨ table.index.HasPositions

theorem position_eq_error_iff {i : ℕ} : table.position i = .error fault ↔
    ¬ table.index.HasPositions ∧ fault = .unindexableTable table.symbol table.index := by
  rw [position]
  cases table.index <;> simp [Kind.HasPositions, eq_comm]

theorem entryAssertion_eq_error_iff {entry : Term × ℕ} :
    table.entryAssertion entry = .error fault ↔
      ¬ table.index.HasPositions ∧ fault = .unindexableTable table.symbol table.index := by
  rw [entryAssertion, Except.bind_pure_eq_error_iff, position_eq_error_iff]

/-- **When a table is not written**: it has an entry, and no literal for the position. -/
theorem commands_eq_error_iff : table.commands = .error fault ↔
    ¬ table.IsIndexable ∧ fault = .unindexableTable table.symbol table.index := by
  rw [commands, Except.bind_pure_eq_error_iff, Except.mapM_eq_error_iff, IsIndexable, not_or]
  constructor
  · rintro ⟨front, entry, back, hsplit, -, hentry⟩
    obtain ⟨hindex, hfault⟩ := entryAssertion_eq_error_iff.1 hentry
    refine ⟨⟨fun hempty => ?_, hindex⟩, hfault⟩
    rw [hempty, List.zipIdx_nil] at hsplit
    exact absurd hsplit (by simp)
  · rintro ⟨⟨hentries, hindex⟩, hfault⟩
    -- the first entry fails already
    obtain ⟨entry, entries, hsplit⟩ := List.exists_cons_of_ne_nil hentries
    refine ⟨[], (entry, 0), entries.zipIdx 1, ?_, List.forall_mem_nil _,
      entryAssertion_eq_error_iff.2 ⟨hindex, hfault⟩⟩
    rw [hsplit, List.zipIdx_cons, List.nil_append]

theorem exists_commands_eq_ok_iff :
    (∃ commands, table.commands = .ok commands) ↔ table.IsIndexable :=
  Except.exists_eq_ok_iff fun _ => commands_eq_error_iff

/-- **The tables are written** if each of them can be, and otherwise the first that cannot is the
fault. -/
theorem mapM_commands_eq_error_iff {tables : List Table} :
    tables.mapM commands = .error fault ↔ ∃ front table back, tables = front ++ table :: back ∧
      (∀ earlier ∈ front, earlier.IsIndexable) ∧ ¬ table.IsIndexable ∧
      fault = .unindexableTable table.symbol table.index := by
  simp only [Except.mapM_eq_error_iff, exists_commands_eq_ok_iff, commands_eq_error_iff]

end Table

namespace Problem

open NamedSort

variable {p : Problem} {kinds : List Kind} {fault : Fault} {e : Error}

/-! ## The output -/

/-- Whether the output is a single bit, signed or not. -/
def HasBitOutput (p : Problem) : Prop := ∃ signed, p.output.kind = .bitVec signed 1

theorem goal_eq_error_iff :
    p.goal = .error fault ↔ ¬ p.HasBitOutput ∧ fault = .wideOutput p.output := by
  rw [goal, HasBitOutput]
  cases hkind : p.output.kind with
  | bitVec signed width =>
    by_cases hwidth : width = 1
    · cases p.mode <;> simp [hwidth]
    · simp [hwidth, eq_comm]
  | _ => simp [eq_comm]

theorem exists_goal_eq_ok_iff : (∃ goal, p.goal = .ok goal) ↔ p.HasBitOutput :=
  Except.exists_eq_ok_iff fun _ => goal_eq_error_iff

/-! ## Faults in their order -/

/-- The fault that is found in a problem: a sort that two kinds name in different ways; only if
there is none, the first table that cannot be written; and only if all of them can be, the output.
Of several sorts each may be the one that is found. -/
inductive HasFault (p : Problem) : Fault → Prop where
  | sort {name : String} (h : Conflicting p.kinds name) : p.HasFault (.conflictingSort name)
  | table {front : List Table} {table : Table} {back : List Table}
    (hsorts : ∀ name, ¬ Conflicting p.kinds name) (htables : p.tables = front ++ table :: back)
    (hfront : ∀ earlier ∈ front, earlier.IsIndexable) (h : ¬ table.IsIndexable) :
    p.HasFault (.unindexableTable table.symbol table.index)
  | output (hsorts : ∀ name, ¬ Conflicting p.kinds name)
    (htables : ∀ table ∈ p.tables, table.IsIndexable) (h : ¬ p.HasBitOutput) :
    p.HasFault (.wideOutput p.output)

/-- The faults of a problem, spelled out. -/
theorem exists_hasFault_iff {P : Fault → Prop} : (∃ fault, p.HasFault fault ∧ P fault) ↔
    (∃ name, Conflicting p.kinds name ∧ P (.conflictingSort name)) ∨
      (∀ name, ¬ Conflicting p.kinds name) ∧
        ((∃ front table back, p.tables = front ++ table :: back ∧
          (∀ earlier ∈ front, earlier.IsIndexable) ∧ ¬ table.IsIndexable ∧
          P (.unindexableTable table.symbol table.index)) ∨
        (∀ table ∈ p.tables, table.IsIndexable) ∧ ¬ p.HasBitOutput ∧ P (.wideOutput p.output)) := by
  constructor
  · rintro ⟨_, ⟨hname⟩ | ⟨hsorts, hsplit, hfront, htable⟩ | ⟨hsorts, htables, hbit⟩, hP⟩
    · exact Or.inl ⟨_, hname, hP⟩
    · exact Or.inr ⟨hsorts, Or.inl ⟨_, _, _, hsplit, hfront, htable, hP⟩⟩
    · exact Or.inr ⟨hsorts, Or.inr ⟨htables, hbit, hP⟩⟩
  · rintro (⟨name, hname, hP⟩ | ⟨hsorts, ⟨front, table, back, hsplit, hfront, htable, hP⟩ |
      ⟨htables, hbit, hP⟩⟩)
    · exact ⟨_, .sort hname, hP⟩
    · exact ⟨_, .table hsorts hsplit hfront htable, hP⟩
    · exact ⟨_, .output hsorts htables hbit, hP⟩

/-- Whether a problem has no fault. -/
structure IsConsistent (p : Problem) : Prop where
  sorts : ∀ name, ¬ Conflicting p.kinds name
  tables : ∀ table ∈ p.tables, table.IsIndexable
  output : p.HasBitOutput

/-- The preamble is put together from the sorts, the tables and the goal, in this order. -/
theorem preamble_eq_error_iff : p.preamble kinds = .error fault ↔ ofKinds kinds = .error fault ∨
    (∀ name, ¬ Conflicting kinds name) ∧ (p.tables.mapM Table.commands = .error fault ∨
      (∀ table ∈ p.tables, table.IsIndexable) ∧ p.goal = .error fault) := by
  rw [preamble, Except.bind_eq_error_iff]
  simp only [Except.bind_eq_error_iff (x := p.tables.mapM _), Except.bind_pure_eq_error_iff,
    ← exists_ofKinds_eq_ok_iff, ← Table.exists_commands_eq_ok_iff, ← Except.exists_mapM_eq_ok_iff,
    exists_and_right]

/-- **Faults that are found**: each in some order of the kinds, and no others in any order. -/
theorem exists_preamble_eq_error_iff :
    (∃ kinds, kinds.Perm p.kinds ∧ p.preamble kinds = .error fault) ↔ p.HasFault fault := by
  simp only [preamble_eq_error_iff]
  constructor
  · rintro ⟨kinds, hkinds, hsorts | ⟨hsorts, hrest⟩⟩
    · obtain ⟨name, hname, rfl⟩ := exists_conflicting_of_ofKinds hsorts
      exact .sort (hname.perm hkinds)
    · have hnone : ∀ name, ¬ Conflicting p.kinds name :=
        fun name hname => hsorts name (hname.perm hkinds.symm)
      rcases hrest with htables | ⟨htables, hgoal⟩
      · obtain ⟨front, table, back, hsplit, hfront, htable, rfl⟩ :=
          Table.mapM_commands_eq_error_iff.1 htables
        exact .table hnone hsplit hfront htable
      · obtain ⟨hbit, rfl⟩ := goal_eq_error_iff.1 hgoal
        exact .output hnone htables hbit
  · rintro (hname | ⟨hsorts, hsplit, hfront, htable⟩ | ⟨hsorts, htables, hbit⟩)
    · obtain ⟨kinds, hkinds, hfault⟩ := exists_perm_ofKinds hname
      exact ⟨kinds, hkinds, Or.inl hfault⟩
    · exact ⟨p.kinds, List.Perm.refl _, Or.inr ⟨hsorts, Or.inl
        (Table.mapM_commands_eq_error_iff.2 ⟨_, _, _, hsplit, hfront, htable, rfl⟩)⟩⟩
    · exact ⟨p.kinds, List.Perm.refl _, Or.inr ⟨hsorts, Or.inr
        ⟨htables, goal_eq_error_iff.2 ⟨hbit, rfl⟩⟩⟩⟩

/-- **The preamble of a consistent problem** is put together from the kinds in any order. -/
theorem exists_preamble_eq_ok_iff (hkinds : kinds.Perm p.kinds) :
    (∃ commands, p.preamble kinds = .ok commands) ↔ p.IsConsistent := by
  have hsorts : (∃ sorts, ofKinds kinds = .ok sorts) ↔ ∀ name, ¬ Conflicting p.kinds name := by
    rw [exists_ofKinds_eq_ok_iff]
    exact forall_congr' fun name =>
      not_congr ⟨fun h => h.perm hkinds, fun h => h.perm hkinds.symm⟩
  have htables : (∃ tables, p.tables.mapM Table.commands = .ok tables) ↔
      ∀ table ∈ p.tables, table.IsIndexable := by
    simp only [Except.exists_mapM_eq_ok_iff, Table.exists_commands_eq_ok_iff]
  constructor
  · rintro ⟨commands, h⟩
    obtain ⟨sorts, hofKinds, h⟩ := Except.bind_eq_ok_iff.1 h
    obtain ⟨tables, hmapM, h⟩ := Except.bind_eq_ok_iff.1 h
    obtain ⟨goal, hgoal, -⟩ := Except.bind_eq_ok_iff.1 h
    exact ⟨hsorts.1 ⟨sorts, hofKinds⟩, htables.1 ⟨tables, hmapM⟩,
      exists_goal_eq_ok_iff.1 ⟨goal, hgoal⟩⟩
  · intro h
    obtain ⟨sorts, hofKinds⟩ := hsorts.2 h.sorts
    obtain ⟨tables, hmapM⟩ := htables.2 h.tables
    obtain ⟨goal, hgoal⟩ := exists_goal_eq_ok_iff.2 h.output
    exact ⟨_, Except.bind_eq_ok_iff.2 ⟨sorts, hofKinds,
      Except.bind_eq_ok_iff.2 ⟨tables, hmapM, Except.bind_eq_ok_iff.2 ⟨goal, hgoal, rfl⟩⟩⟩⟩

/-! ## Writing a problem -/

theorem exists_encodeWith_eq_ok_iff : (∃ program, p.encodeWith kinds = .ok program) ↔
    p.rejection? kinds p.config.capabilities = none ∧
      ∃ commands, p.preamble kinds = .ok commands := by
  rw [encodeWith]
  cases p.rejection? kinds p.config.capabilities with
  | some rejection => simp
  | none => cases p.preamble kinds <;> simp

theorem encodeWith_eq_error_iff (hkinds : kinds.Perm p.kinds) : p.encodeWith kinds = .error e ↔
    p.gate p.config.capabilities = .error e ∨ p.gate p.config.capabilities = .ok () ∧
      ∃ fault, p.preamble kinds = .error fault ∧ e = .invalidProblem fault.text := by
  rw [encodeWith, rejection?_of_perm hkinds, gate]
  cases p.rejection? p.kinds p.config.capabilities with
  | some rejection => simp
  | none => cases p.preamble kinds <;> simp [eq_comm]

/-- **When a query is written, and what is reported if it is not.**  The kinds of a problem are
enumerated in any order, and `encode` takes one of them.  The problem is written exactly if the gate
accepts it for the configured table, no two of its kinds name a sort and disagree on its elements,
every table with entries has a bit-vector, integer or real kind as its index, and the output is a
single bit.  And an error is reported in some order exactly if it is the error of the gate, or, only
if the gate accepts the problem, the message about a fault: it names a conflicting sort, or if there
is none the first table that cannot be written, with the kind of its index, or if all of them can be
the output, with its kind. -/
theorem encodeWith_iff (p : Problem) :
    (∀ kinds, kinds.Perm p.kinds → ((∃ program, p.encodeWith kinds = .ok program) ↔
      p.gate p.config.capabilities = .ok () ∧ p.IsConsistent)) ∧
    ∀ e, (∃ kinds, kinds.Perm p.kinds ∧ p.encodeWith kinds = .error e) ↔
      p.gate p.config.capabilities = .error e ∨ p.gate p.config.capabilities = .ok () ∧
        ((∃ name, Conflicting p.kinds name ∧
          e = .invalidProblem s!"sort {name} is declared with conflicting elements") ∨
        (∀ name, ¬ Conflicting p.kinds name) ∧
          ((∃ front table back, p.tables = front ++ table :: back ∧
            (∀ earlier ∈ front, earlier.IsIndexable) ∧ ¬ table.IsIndexable ∧
            e = .invalidProblem s!"table{table.id} cannot be indexed by {table.index}") ∨
          (∀ table ∈ p.tables, table.IsIndexable) ∧ ¬ p.HasBitOutput ∧
            e = .invalidProblem
              s!"output {p.output} has kind {p.output.kind}, expected a 1-bit value")) := by
  constructor
  · intro kinds hkinds
    rw [exists_encodeWith_eq_ok_iff, exists_preamble_eq_ok_iff hkinds, rejection?_of_perm hkinds,
      gate_eq_ok_iff]
  · intro e
    have hfaults := exists_hasFault_iff (p := p) (P := fun fault => e = .invalidProblem fault.text)
    refine Iff.trans ?_ (or_congr_right (and_congr_right' hfaults))
    constructor
    · rintro ⟨kinds, hkinds, h⟩
      rcases (encodeWith_eq_error_iff hkinds).1 h with hgate | ⟨hgate, fault, hfault, rfl⟩
      · exact Or.inl hgate
      · exact Or.inr ⟨hgate, fault, exists_preamble_eq_error_iff.1 ⟨kinds, hkinds, hfault⟩, rfl⟩
    · rintro (hgate | ⟨hgate, fault, hfault, rfl⟩)
      · exact ⟨p.kinds, .refl _, (encodeWith_eq_error_iff (.refl _)).2 (Or.inl hgate)⟩
      · obtain ⟨kinds, hkinds, hpreamble⟩ := exists_preamble_eq_error_iff.2 hfault
        exact ⟨kinds, hkinds,
          (encodeWith_eq_error_iff hkinds).2 (Or.inr ⟨hgate, fault, hpreamble, rfl⟩)⟩

/-- A query with all three faults. -/
def faultyQuery : Problem where
  inputs := [{ ref := ⟨⟨0⟩, .named ⟨"Color", some ["red"]⟩⟩, name := "c" }]
  tables := [{ id := 0, index := .float .single, element := .int, entries := [.int 7] }]
  output := ⟨⟨1⟩, .named ⟨"Color", some ["blue"]⟩⟩
  config := .ofSolver .z3

/-- Its sort is found first.  With one kind for the sort it is the table, without the table the
output, and with a bit for the output the query is written. -/
theorem encodeWith_iff_faultyQuery :
    let tabledQuery := { faultyQuery with inputs := [] }
    let wideQuery := { tabledQuery with tables := [] }
    let plainQuery := { wideQuery with output := ⟨⟨1⟩, .bitVec false 1⟩ }
    (∃ kinds, kinds.Perm faultyQuery.kinds ∧ faultyQuery.encodeWith kinds =
      .error (.invalidProblem "sort Color is declared with conflicting elements")) ∧
    (∃ kinds, kinds.Perm tabledQuery.kinds ∧ tabledQuery.encodeWith kinds =
      .error (.invalidProblem "table0 cannot be indexed by Float")) ∧
    (∃ kinds, kinds.Perm wideQuery.kinds ∧ wideQuery.encodeWith kinds =
      .error (.invalidProblem "output s1 has kind Color, expected a 1-bit value")) ∧
    plainQuery.kinds.reverse.Perm plainQuery.kinds ∧
    ∃ program, plainQuery.encodeWith plainQuery.kinds.reverse = .ok program := by
  intro tabledQuery wideQuery plainQuery
  have hconflict : Conflicting faultyQuery.kinds "Color" :=
    ⟨⟨"Color", some ["red"]⟩, ⟨"Color", some ["blue"]⟩, by decide, by decide, rfl, rfl, by decide⟩
  have hsorts : ∀ kinds ∈ [tabledQuery.kinds, wideQuery.kinds, plainQuery.kinds], ∀ name,
      ¬ Conflicting kinds name := by
    simp only [List.forall_mem_cons, ← exists_ofKinds_eq_ok_iff]
    exact ⟨⟨_, rfl⟩, ⟨_, rfl⟩, ⟨_, rfl⟩, List.forall_mem_nil _⟩
  simp only [List.forall_mem_cons] at hsorts
  obtain ⟨htabled, hwide, hplain, -⟩ := hsorts
  have hsplit : tabledQuery.tables = [] ++ ⟨0, .float .single, .int, [.int 7]⟩ :: [] := rfl
  have htable : ¬ (Table.mk 0 (.float .single) .int [.int 7]).IsIndexable :=
    not_or.2 ⟨List.cons_ne_nil _ _, id⟩
  have houtput : ¬ wideQuery.HasBitOutput := fun ⟨_, h⟩ => Kind.noConfusion h
  have hmessage : "output s1 has kind Color, expected a 1-bit value" =
      (Fault.wideOutput faultyQuery.output).text := rfl
  refine ⟨?_, ?_, ?_, List.reverse_perm _, ?_⟩
  · exact ((encodeWith_iff faultyQuery).2 _).2 (Or.inr ⟨rfl, Or.inl ⟨_, hconflict, rfl⟩⟩)
  · exact ((encodeWith_iff tabledQuery).2 _).2 (Or.inr ⟨rfl, Or.inr ⟨htabled,
      Or.inl ⟨_, _, _, hsplit, List.forall_mem_nil _, htable, rfl⟩⟩⟩)
  · exact ((encodeWith_iff wideQuery).2 _).2 (Or.inr ⟨rfl, Or.inr ⟨hwide,
      Or.inr ⟨List.forall_mem_nil _, houtput, congrArg _ hmessage⟩⟩⟩)
  · exact ((encodeWith_iff plainQuery).1 _ (List.reverse_perm _)).2
      ⟨rfl, hplain, List.forall_mem_nil _, false, rfl⟩

end Problem
end SmtQuery
