import Mathlib
import SmtQuery.Proofs.Encode
import SmtQuery.Proofs.Syntax

/-!
# Where the entries of a table stand

Entry `i` of a table is asserted to be the value of the table's function at a literal for the
position `i`.  `Table.commands_eq_ok_iff` says what is written for a table, and
`Problem.entries_meet_iff` at which indices the entries stand, once the literals are read.

Integers and reals have a literal for every position.  A bit-vector literal is reduced to its
width, so two positions of a table meet when they agree modulo the number of bit-vectors: a
table with more entries than there are indices is contradictory, and no other is.
-/

namespace SmtQuery

open Numeral

/-! ## Literals for positions -/

theorem Numeral.wrap_natCast (width n : ℕ) : wrap width (n : ℤ) = n % weight 2 width := by
  have h : (wrap width (n : ℤ) : ℤ) = ((n % weight 2 width : ℕ) : ℤ) := by
    rw [wrap_eq_emod, Int.natCast_mod]
  exact Int.ofNat_inj.1 h

/-- Two bit-vector literals of one width are read alike exactly if their residues are equal. -/
theorem Term.bitVecTree_eq_iff {a b : ℤ} {width : UInt32} :
    bitVecTree a width.toNat = bitVecTree b width.toNat ↔
      wrap width.toNat a = wrap width.toNat b := by
  constructor
  · intro h
    rcases Nat.eq_zero_or_pos width.toNat with hzero | hpos
    · -- of width zero there is one residue only
      have hresidue : ∀ n : ℤ, (wrap 0 n : ℤ) = 0 := fun n => by
        rw [wrap_eq_emod]
        exact Int.emod_one n
      rw [hzero]
      exact Int.ofNat_inj.1 ((hresidue a).trans (hresidue b).symm)
    · have hread := reads_bitVecTree a width.toNat
      rw [h] at hread
      have ha := SExpr.eq_of_reads (reads_bitVecForm hpos a) hread
      have hb := SExpr.eq_of_reads (reads_bitVecForm hpos b) (reads_bitVecTree b width.toNat)
      exact Int.ofNat_inj.1 (SExpr.bitVec.inj (ha.trans hb.symm)).1
  · intro h
    rw [bitVecTree, bitVecTree, h]

namespace Table

variable {table : Table}

/-- What the literal for a position is read as. -/
def indexTree (table : Table) (i : ℕ) : SExpr :=
  match table.index with
  | .bitVec _ width => Term.bitVecTree i width.toNat
  | .real => .decimal i
  | _ => .int i

/-- Whether two positions have the same index. -/
def Meet (table : Table) (i j : ℕ) : Prop :=
  i = j ∨ ∃ signed width, table.index = .bitVec signed width ∧
    i % weight 2 width.toNat = j % weight 2 width.toNat

/-- **Which literals stand for positions**: those of bit-vectors, integers and reals. -/
theorem position_cases {i : ℕ} {literal : Term} (h : table.position i = .ok literal) :
    (∃ signed width, table.index = .bitVec signed width ∧ literal = .bitVec i width) ∨
      (table.index = .int ∧ literal = .int i) ∨ (table.index = .real ∧ literal = .real i) := by
  rw [position] at h
  cases hindex : table.index with
  | bitVec signed width =>
    rw [hindex] at h
    exact Or.inl ⟨signed, width, rfl, (Except.ok.inj h).symm⟩
  | int =>
    rw [hindex] at h
    exact Or.inr (Or.inl ⟨rfl, (Except.ok.inj h).symm⟩)
  | real =>
    rw [hindex] at h
    exact Or.inr (Or.inr ⟨rfl, (Except.ok.inj h).symm⟩)
  | float precision =>
    rw [hindex] at h
    exact absurd h (by simp)
  | named sort =>
    rw [hindex] at h
    exact absurd h (by simp)

theorem reads_position {i : ℕ} {literal : Term} (h : table.position i = .ok literal) :
    literal.form.Reads (table.indexTree i) := by
  rw [indexTree]
  rcases position_cases h with ⟨signed, width, hindex, rfl⟩ | ⟨hindex, rfl⟩ | ⟨hindex, rfl⟩
  · rw [hindex]
    exact Term.reads_bitVecTree i width.toNat
  · rw [hindex]
    exact Term.reads_intForm i
  · rw [hindex]
    exact Term.reads_realForm i

/-- **Two positions meet exactly if their literals are read alike.** -/
theorem indexTree_eq_iff {i j : ℕ} : table.indexTree i = table.indexTree j ↔ table.Meet i j := by
  rw [indexTree, indexTree, Meet]
  cases hindex : table.index with
  | bitVec signed width =>
    simp only [Kind.bitVec.injEq]
    rw [Term.bitVecTree_eq_iff, wrap_natCast, wrap_natCast]
    constructor
    · intro h
      exact Or.inr ⟨signed, width, ⟨rfl, rfl⟩, h⟩
    · rintro (rfl | ⟨_, _, ⟨rfl, rfl⟩, h⟩)
      · rfl
      · exact h
  | int => simp
  | real => simp
  | float p => simp
  | named sort => simp

/-- No two positions of a table meet exactly if the table has no more entries than there are
indices. -/
theorem forall_meet_iff {n : ℕ} :
    (∀ i j, i < n → j < n → table.Meet i j → i = j) ↔
      ∀ signed width, table.index = .bitVec signed width → n ≤ weight 2 width.toNat := by
  constructor
  · intro h signed width hindex
    by_contra hlt
    have hpos : 0 < weight 2 width.toNat := Nat.two_pow_pos _
    -- the first index is taken again as soon as all have been used
    have hmeet : table.Meet 0 (weight 2 width.toNat) :=
      Or.inr ⟨signed, width, hindex, by rw [Nat.zero_mod, Nat.mod_self]⟩
    have := h 0 (weight 2 width.toNat) (by omega) (by omega) hmeet
    omega
  · rintro h i j hi hj (rfl | ⟨signed, width, hindex, hmod⟩)
    · rfl
    · have hle := h signed width hindex
      rwa [Nat.mod_eq_of_lt (hi.trans_le hle), Nat.mod_eq_of_lt (hj.trans_le hle)] at hmod

/-! ## The commands for a table -/

/-- The declaration of the function that stands for a table. -/
def declaration (table : Table) : Command :=
  .declareFun table.symbol [table.index.sort] table.element.sort

/-- **What is written for a table**: the declaration of its function, and an assertion for each
entry. -/
theorem commands_eq_ok_iff {commands : List Command} :
    table.commands = .ok commands ↔ ∃ assertions, commands = table.declaration :: assertions ∧
      List.Forall₂ (fun entry c => table.entryAssertion entry = .ok c)
        table.entries.zipIdx assertions := by
  rw [Table.commands, Except.bind_eq_ok_iff]
  constructor
  · rintro ⟨assertions, h, hcommands⟩
    exact ⟨assertions, (Except.ok.inj hcommands).symm, Except.mapM_eq_ok_iff.1 h⟩
  · rintro ⟨assertions, rfl, h⟩
    exact ⟨assertions, Except.mapM_eq_ok_iff.2 h, rfl⟩

theorem entryAssertion_eq_ok_iff {entry : Term × ℕ} {command : Command} :
    table.entryAssertion entry = .ok command ↔ ∃ literal, table.position entry.2 = .ok literal ∧
      command = .assert (.eq (.app table.symbol [literal]) entry.1) := by
  rw [entryAssertion, Except.bind_eq_ok_iff]
  constructor
  · rintro ⟨literal, h, hcommand⟩
    exact ⟨literal, h, (Except.ok.inj hcommand).symm⟩
  · rintro ⟨literal, h, rfl⟩
    exact ⟨literal, h, rfl⟩

/-- Whether assertion `i` fixes entry `i` of the table, at a literal that is read as the given
index. -/
def FixesEntry (table : Table) (assertions : List Command) (i : ℕ) (index : SExpr) : Prop :=
  ∃ entry literal, table.entries[i]? = some entry ∧
    assertions[i]? = some (.assert (.eq (.app table.symbol [literal]) entry)) ∧
    SExpr.read (toString literal) = .ok index

/-- Each assertion fixes the entry in its place, at the literal for its position. -/
theorem fixesEntry_indexTree {assertions : List Command}
    (h : List.Forall₂ (fun entry c => table.entryAssertion entry = .ok c)
      table.entries.zipIdx assertions) {i : ℕ} (hi : i < table.entries.length) :
    table.FixesEntry assertions i (table.indexTree i) := by
  have hentry : i < table.entries.zipIdx.length := by rwa [List.length_zipIdx]
  have hassertion : i < assertions.length := h.length_eq ▸ hentry
  have hstep := h.get hentry hassertion
  rw [List.get_eq_getElem, List.getElem_zipIdx, List.get_eq_getElem, entryAssertion_eq_ok_iff,
    Nat.zero_add] at hstep
  obtain ⟨literal, hliteral, hcommand⟩ := hstep
  refine ⟨table.entries[i], literal, List.getElem?_eq_getElem hi, ?_,
    SExpr.read_toString (reads_position hliteral)⟩
  rw [List.getElem?_eq_getElem hassertion, hcommand]

end Table

namespace Problem

/-- The commands for a table stand together in the declarations. -/
theorem exists_table_commands {p : Problem} (sorts : List NamedSort)
    {tables : List (List Command)} (h : p.tables.mapM Table.commands = .ok tables)
    {table : Table} (htable : table ∈ p.tables) :
    ∃ commands before after, table.commands = .ok commands ∧
      p.declarations sorts tables = before ++ commands ++ after := by
  obtain ⟨commands, hmem, hcommands⟩ := Except.exists_mem_of_mapM h htable
  obtain ⟨before, after, hsplit⟩ := List.append_of_mem hmem
  refine ⟨commands, p.header p.kinds ++ sorts.map NamedSort.declaration
    ++ p.freeInputs.map Input.declaration ++ p.constants.map constantCommand ++ before.flatten,
    after.flatten ++ p.arrays.flatMap ArrayDecl.commands ++ p.functions.map FunctionDecl.command
      ++ p.postulates.flatMap Postulate.commands, hcommands, ?_⟩
  rw [declarations, hsplit, List.flatten_append, List.flatten_cons]
  simp only [List.append_assoc]

/-- **Where the entries of a table meet.**  A query is written.  The assertions for a table stand
behind its declaration, one for each entry and in order, and entry `i` stands at the index that
the literal for `i` is read as.  Two entries have the same index exactly if their positions agree
modulo the number of indices of a bit-vector kind; so all entries stand apart exactly if there
are no more of them than indices. -/
theorem entries_meet_iff {p : Problem} {program : Program} (hencode : p.encode = .ok program)
    {table : Table} (htable : table ∈ p.tables) :
    ∃ before assertions after, program.preamble.commands =
        before ++ (table.declaration :: assertions) ++ after ∧
      assertions.length = table.entries.length ∧
      ∃ index : ℕ → SExpr,
        (∀ i < table.entries.length, table.FixesEntry assertions i (index i)) ∧
        (∀ i j, index i = index j ↔ i = j ∨ ∃ signed width,
          table.index = .bitVec signed width ∧
            i % weight 2 width.toNat = j % weight 2 width.toNat) ∧
        ((∀ i j, i < table.entries.length → j < table.entries.length → index i = index j →
            i = j) ↔
          ∀ signed width, table.index = .bitVec signed width →
            table.entries.length ≤ weight 2 width.toNat) := by
  obtain ⟨-, sorts, tables, goal, -, htables, -, rfl⟩ := encode_eq_ok_iff.1 hencode
  obtain ⟨commands, before, after, hcommands, hsplit⟩ :=
    exists_table_commands sorts htables htable
  obtain ⟨assertions, rfl, hassertions⟩ := Table.commands_eq_ok_iff.1 hcommands
  refine ⟨before, assertions, after ++ p.formula goal ++ p.objectives.map Objective.command, ?_,
    ?_, table.indexTree, fun i hi => Table.fixesEntry_indexTree hassertions hi,
    fun i j => Table.indexTree_eq_iff, ?_⟩
  · rw [hsplit]
    simp only [List.append_assoc]
  · rw [← hassertions.length_eq, List.length_zipIdx]
  · simp only [Table.indexTree_eq_iff]
    exact Table.forall_meet_iff

/-- A table with one-bit indices. -/
def oneBitTable : Table where
  id := 0
  index := .bitVec false 1
  element := .bitVec false 8
  entries := [.bitVec 10 8, .bitVec 20 8, .bitVec 30 8]

/-- A query with a table of three entries but two indices. -/
def crowdedQuery : Problem where
  tables := [oneBitTable]
  assignments := [⟨⟨⟨100⟩, .bitVec false 1⟩, .bitVec 1 1⟩]
  output := ⟨⟨100⟩, .bitVec false 1⟩
  config := .ofSolver .z3

/-- The two-index table is written, and where its entries meet. -/
theorem entries_meet_iff_crowdedQuery :
    ∃ program, crowdedQuery.encode = .ok program ∧ oneBitTable ∈ crowdedQuery.tables ∧
      ∃ before assertions after, program.preamble.commands =
          before ++ (oneBitTable.declaration :: assertions) ++ after ∧
        assertions.length = oneBitTable.entries.length ∧
        ∃ index : ℕ → SExpr,
          (∀ i < oneBitTable.entries.length, oneBitTable.FixesEntry assertions i (index i)) ∧
          (∀ i j, index i = index j ↔ i = j ∨ ∃ signed width,
            oneBitTable.index = .bitVec signed width ∧
              i % weight 2 width.toNat = j % weight 2 width.toNat) ∧
          ((∀ i j, i < oneBitTable.entries.length → j < oneBitTable.entries.length →
              index i = index j → i = j) ↔
            ∀ signed width, oneBitTable.index = .bitVec signed width →
              oneBitTable.entries.length ≤ weight 2 width.toNat) := by
  have hmem : oneBitTable ∈ crowdedQuery.tables := List.mem_singleton_self _
  exact ⟨_, rfl, hmem, entries_meet_iff rfl hmem⟩

/-- **Entries can meet.**  A query with a table of three entries and one-bit indices is written,
and entries `0` and `2` both stand at the index `0`. -/
theorem entries_meet_of_overflow :
    ∃ program before assertions after, crowdedQuery.encode = .ok program ∧
      oneBitTable ∈ crowdedQuery.tables ∧ program.preamble.commands =
        before ++ (oneBitTable.declaration :: assertions) ++ after ∧
      oneBitTable.FixesEntry assertions 0 (.bitVec 0 1) ∧
      oneBitTable.FixesEntry assertions 2 (.bitVec 0 1) := by
  refine ⟨_, [.setOption "produce-models" "true", .setLogic "QF_ABV"],
    [.assert (.eq (.app "table0" [.bitVec 0 1]) (.bitVec 10 8)),
      .assert (.eq (.app "table0" [.bitVec 1 1]) (.bitVec 20 8)),
      .assert (.eq (.app "table0" [.bitVec 2 1]) (.bitVec 30 8))],
    [.defineFun "s100" [] (.bitVec 1) (.bitVec 1 1),
      .assert (.eq (.const "s100") (.bitVec 1 1))], rfl, List.mem_singleton_self _, rfl, ?_, ?_⟩
  · exact ⟨.bitVec 10 8, .bitVec 0 1, rfl, rfl, by cbv⟩
  · exact ⟨.bitVec 30 8, .bitVec 2 1, rfl, rfl, by cbv⟩

end Problem
end SmtQuery
