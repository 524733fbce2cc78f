import Mathlib
import SmtQuery.Proofs.Declared

/-!
# The contents of tables and arrays

The entries of a table and the initial value of an array are terms of the problem, and they are
asserted where the table or array is declared: behind the sorts, the free inputs and the constants,
but in front of the functions and of the values defined at the top.  So a content is in scope
exactly if it mentions none of the latter.

A table and an array are alike as far as names are concerned: each is a `Collection`, one entity
and some terms.  `Collection.IsWritten` says what is written for one, `IsWritten.inScope_iff` when
that is in scope, and `Collection.inScope_flatten_iff` follows several of them along the script.
`Problem.inScope_contents_iff` is the result for a whole query.
-/

namespace SmtQuery

open Command (introduced introduced_append introduced_map introduced_eq_nil InScope)

/-- A table or an array: what it is declared as, and the terms that it holds. -/
structure Collection where
  entity : Entity
  contents : List Term

/-- The function that stands for a table, and its entries. -/
def Table.collection (table : Table) : Collection := ⟨.function table.symbol, table.entries⟩

/-- The constant that stands for an array, and its initial value. -/
def ArrayDecl.collection (array : ArrayDecl) : Collection :=
  ⟨.function array.symbol, array.initial?.toList⟩

namespace Collection

variable {sorts known : Set Entity} {collection : Collection} {commands : List Command}

/-- Whether a command asserts something about a content: it introduces nothing, and besides the
content it mentions only the collection and some sorts. -/
structure Asserts (sorts : Set Entity) (collection : Collection) (term : Term) (c : Command) :
    Prop where
  introduces : c.introduces = []
  mentions : ∀ e ∈ term.mentions, e ∈ c.mentions
  eq_or : ∀ e ∈ c.mentions, e ∈ term.mentions ∨ e ∈ sorts ∨ e = collection.entity

/-- Whether commands are the declaration of the collection and one assertion for each content. -/
def IsWritten (sorts : Set Entity) (collection : Collection) (commands : List Command) : Prop :=
  ∃ declaration assertions, commands = declaration :: assertions ∧
    declaration.introduces = [collection.entity] ∧ (∀ e ∈ declaration.mentions, e ∈ sorts) ∧
    List.Forall₂ (collection.Asserts sorts) collection.contents assertions

/-- A collection introduces its own entity. -/
theorem IsWritten.introduced_eq (h : collection.IsWritten sorts commands) :
    introduced commands = [collection.entity] := by
  obtain ⟨declaration, assertions, rfl, hdeclaration, -, hassertions⟩ := h
  have hnone : introduced assertions = [] := by
    refine introduced_eq_nil fun c hc => ?_
    obtain ⟨i, hi, rfl⟩ := List.mem_iff_getElem.1 hc
    exact (hassertions.get (hassertions.length_eq ▸ hi) hi).introduces
  rw [introduced, List.flatMap_cons, hdeclaration]
  show [collection.entity] ++ introduced assertions = _
  rw [hnone, List.append_nil]

/-- Assertions about contents are in scope exactly if the contents are. -/
theorem inScope_assertions_iff {terms : List Term} {assertions : List Command}
    (h : List.Forall₂ (collection.Asserts sorts) terms assertions) (hsorts : sorts ⊆ known)
    (hentity : collection.entity ∈ known) :
    InScope known assertions ↔ ∀ term ∈ terms, ∀ e ∈ term.mentions, e ∈ known := by
  induction h with
  | nil => simp [InScope]
  | @cons term c terms assertions hc h ih =>
    have hmentions : (∀ e ∈ c.mentions, e ∈ known) ↔ ∀ e ∈ term.mentions, e ∈ known := by
      constructor
      · exact fun hknown e he => hknown e (hc.mentions e he)
      · intro hknown e he
        rcases hc.eq_or e he with he | he | rfl
        · exact hknown e he
        · exact hsorts he
        · exact hentity
    have hsame : known ∪ {e | e ∈ c.introduces} = known := by simp [hc.introduces]
    rw [InScope, hsame, ih, hmentions, List.forall_mem_cons]

/-- **One collection**: it is in scope exactly if its contents mention only what is known and the
collection itself. -/
theorem IsWritten.inScope_iff (h : collection.IsWritten sorts commands) (hsorts : sorts ⊆ known) :
    InScope known commands ↔ ∀ term ∈ collection.contents, ∀ e ∈ term.mentions,
      e ∈ known ∨ e = collection.entity := by
  obtain ⟨declaration, assertions, rfl, hdeclaration, hmentions, hassertions⟩ := h
  have hmem : ∀ e, e ∈ known ∪ {e | e ∈ declaration.introduces} ↔
      e ∈ known ∨ e = collection.entity := by
    intro e
    rw [Set.mem_union, Set.mem_ofPred_eq, hdeclaration, List.mem_singleton]
  rw [InScope, inScope_assertions_iff hassertions (hsorts.trans Set.subset_union_left)
    ((hmem _).2 (Or.inr rfl))]
  simp only [hmem]
  exact and_iff_right fun e he => hsorts (hmentions e he)

/-- **Several collections in a row**: each may mention those up to its own place. -/
theorem inScope_flatten_iff {collections : List Collection} {blocks : List (List Command)}
    (h : List.Forall₂ (IsWritten sorts) collections blocks) (hsorts : sorts ⊆ known) :
    InScope known blocks.flatten ↔ ∀ i, ∀ hi : i < collections.length,
      ∀ term ∈ collections[i].contents, ∀ e ∈ term.mentions,
        e ∈ known ∨ e ∈ (collections.take (i + 1)).map entity := by
  induction h generalizing known with
  | nil => simp [InScope]
  | @cons first block rest blocks hblock h ih =>
    have hmem : ∀ e before, e ∈ known ∪ {e | e ∈ [first.entity]} ∨ e ∈ before ↔
        e ∈ known ∨ e ∈ first.entity :: before := by
      intro e before
      rw [Set.mem_union, Set.mem_ofPred_eq, List.mem_singleton, or_assoc, List.mem_cons]
    -- the first collection is known to the rest, and the positions of the rest move by one
    rw [List.flatten_cons, Command.inScope_append, hblock.inScope_iff hsorts, hblock.introduced_eq,
      ih (hsorts.trans Set.subset_union_left)]
    simp only [hmem]
    constructor
    · rintro ⟨hfirst, hrest⟩ i hi
      cases i with
      | zero =>
        exact fun term hterm e he => (hfirst term hterm e he).imp_right List.mem_singleton.2
      | succ i => exact hrest i (Nat.lt_of_succ_lt_succ hi)
    · intro hall
      constructor
      · exact fun term hterm e he =>
          (hall 0 (Nat.succ_pos _) term hterm e he).imp_right List.mem_singleton.1
      · exact fun i hi => hall (i + 1) (Nat.succ_lt_succ hi)

end Collection

/-! ## Tables and arrays as collections -/

section Written

variable {sorts : Set Entity}

/-- A literal for a position mentions nothing. -/
theorem Table.mentions_position {table : Table} {i : ℕ} {literal : Term}
    (h : table.position i = .ok literal) : literal.mentions = [] := by
  rcases Table.position_cases h with ⟨_, _, -, rfl⟩ | ⟨-, rfl⟩ | ⟨-, rfl⟩ <;> rfl

theorem Table.isWritten {table : Table} {commands : List Command}
    (h : table.commands = .ok commands) (hsorts : ∀ e ∈ table.declaration.mentions, e ∈ sorts) :
    table.collection.IsWritten sorts commands := by
  obtain ⟨assertions, rfl, hassertions⟩ := Table.commands_eq_ok_iff.1 h
  refine ⟨table.declaration, assertions, rfl, rfl, hsorts, ?_⟩
  show List.Forall₂ _ table.entries assertions
  rw [← List.zipIdx_map_fst 0 table.entries, List.forall₂_map_left_iff]
  refine hassertions.imp fun entry c hentry => ?_
  obtain ⟨literal, hliteral, rfl⟩ := Table.entryAssertion_eq_ok_iff.1 hentry
  have hmentions : (Command.assert (.eq (.app table.symbol [literal]) entry.1)).mentions =
      .function table.symbol :: entry.1.mentions := by
    simp [Command.mentions, Term.mentions, Term.mentionsAll, Table.mentions_position hliteral]
  refine ⟨rfl, fun e he => ?_, fun e he => ?_⟩
  · rw [hmentions]
    exact List.mem_cons_of_mem _ he
  · rw [hmentions, List.mem_cons] at he
    exact he.elim (fun he => Or.inr (Or.inr he)) Or.inl

theorem ArrayDecl.isWritten {array : ArrayDecl}
    (hsorts : ∀ e ∈ array.declaration.mentions, e ∈ sorts) :
    array.collection.IsWritten sorts array.commands := by
  rw [ArrayDecl.commands]
  refine ⟨array.declaration, _, rfl, rfl, hsorts, ?_⟩
  show List.Forall₂ _ array.initial?.toList _
  cases array.initial? with
  | none => exact .nil
  | some value =>
    refine .cons ⟨rfl, fun e he => ?_, fun e he => ?_⟩ .nil
    · simp [Command.mentions, Term.mentions, he]
    · simp only [Command.mentions, Term.mentions, List.mem_append, List.mem_singleton] at he
      rcases he with he | he | he
      · exact Or.inr (Or.inr he)
      · exact Or.inr (Or.inl (hsorts e he))
      · exact Or.inl he

end Written

namespace Problem

variable {p : Problem}

/-- The tables and arrays of a problem, in the order in which they are written. -/
def collections (p : Problem) : List Collection :=
  p.tables.map Table.collection ++ p.arrays.map ArrayDecl.collection

/-- What is introduced in front of the tables and arrays: sorts with their elements, free inputs,
and constants. -/
def early (p : Problem) : List Entity :=
  p.sortEntities ++ (p.elements ++ p.freeInputs.map (fun input => input.origin.symbol)
    ++ p.constants.map (fun constant => constant.1.symbol)).map .function

/-- What is introduced behind them: functions, and the values defined at the top. -/
def late (p : Problem) : List Entity :=
  (p.functions.map FunctionDecl.name ++ p.definedOrigins.map Origin.symbol).map .function

/-- The commands for the tables and arrays, one collection after another. -/
theorem isWritten_collections {tables : List (List Command)}
    (htables : p.tables.mapM Table.commands = .ok tables) :
    List.Forall₂ (Collection.IsWritten {e | e ∈ p.sortEntities}) p.collections
      (tables ++ p.arrays.map ArrayDecl.commands) := by
  refine List.rel_append ?_ ?_
  · have hall := (List.forall₂_and_left _ _).2 ⟨fun _ => id, Except.mapM_eq_ok_iff.1 htables⟩
    rw [List.forall₂_map_left_iff]
    exact hall.imp fun table commands h =>
      Table.isWritten h.2 fun e => mem_sortEntities_of_table h.1
  · rw [List.forall₂_map_left_iff, List.forall₂_map_right_iff, List.forall₂_same]
    exact fun array harray => ArrayDecl.isWritten fun e => mem_sortEntities_of_array harray

/-- What is introduced in front of the tables and arrays. -/
theorem mem_introduced_front_iff {sorts : List NamedSort}
    (hsorts : NamedSort.ofKinds p.kinds = .ok sorts) {e : Entity} :
    e ∈ introduced (p.front sorts) ↔ e ∈ p.early := by
  have hmem : e ∈ introduced (sorts.map NamedSort.declaration) ↔
      e ∈ p.sortEntities ∨ e ∈ p.elements.map .function := by
    rw [introduced_sorts, sortEntities, elements,
      ((perm_of_ofKinds hsorts).flatMap_right _).mem_iff,
      ← (List.map_append_flatMap_perm _ _ _).mem_iff, List.mem_append, List.map_flatMap]
  have hconstants : introduced (p.constants.map constantCommand) =
      p.constants.map fun constant => .function constant.1.symbol := by
    refine introduced_map (fun constant => ?_) _
    rw [introduces_constantCommand, Origin.symbol_value]
    rfl
  rw [front, introduced_append, introduced_append, introduced_append, introduced_header,
    introduced_map Input.introduces_declaration, hconstants, List.nil_append, early]
  simp only [List.mem_append, hmem, List.map_append, List.map_map, Function.comp_def, or_assoc]

/-- What is introduced behind them. -/
theorem introduced_behind (goal : Term) : introduced (p.functions.map FunctionDecl.command
    ++ p.postulates.flatMap Postulate.commands ++ p.formula goal
    ++ p.objectives.map Objective.command) = p.late := by
  have hfunctions : introduced (p.functions.map FunctionDecl.command) =
      p.functions.map fun function => .function function.name :=
    introduced_map (fun _ => rfl) _
  rw [introduced_append, introduced_append, introduced_append, hfunctions, introduced_postulates,
    introduced_formula, introduced_objectives, List.append_nil, List.append_nil, late]
  simp only [List.map_append, List.map_map, Function.comp_def]

/-- **When the contents of tables and arrays are in scope.**  A query is written.  Its preamble is
in three parts, of which the middle one declares the tables and arrays and asserts their contents.
Sorts, elements, free inputs and constants are introduced in front of it, functions and the values
defined at the top behind it.  So the middle part mentions only what is built in or introduced by
an earlier command exactly if every content mentions only what is built in, what stands in front,
its own collection and those before it; a content that mentions a function or an assigned value is
out of scope, unless something else has the same name. -/
theorem inScope_contents_iff {program : Program} (hencode : p.encode = .ok program)
    (builtins : Set Entity) :
    ∃ front tables back, p.tables.mapM Table.commands = .ok tables ∧
      program.preamble.commands =
        front ++ (tables.flatten ++ p.arrays.flatMap ArrayDecl.commands) ++ back ∧
      (∀ e, e ∈ introduced front ↔ e ∈ p.early) ∧ introduced back = p.late ∧
      (InScope (builtins ∪ {e | e ∈ introduced front})
          (tables.flatten ++ p.arrays.flatMap ArrayDecl.commands) ↔
        ∀ i, ∀ hi : i < p.collections.length, ∀ term ∈ p.collections[i].contents,
          ∀ e ∈ term.mentions, e ∈ builtins ∨ e ∈ p.early ∨
            e ∈ (p.collections.take (i + 1)).map Collection.entity) := by
  obtain ⟨-, sorts, tables, goal, hsorts, htables, -, rfl⟩ := encode_eq_ok_iff.1 hencode
  refine ⟨p.front sorts, tables, _, htables, ?_, fun e => mem_introduced_front_iff hsorts,
    introduced_behind goal, ?_⟩
  · simp only [declarations, front, List.append_assoc]
  · have hknown : {e | e ∈ p.sortEntities} ⊆ builtins ∪ {e | e ∈ introduced (p.front sorts)} :=
      fun e he => Or.inr ((mem_introduced_front_iff hsorts).2 (List.mem_append_left _ he))
    have hmem : ∀ e, e ∈ builtins ∪ {e | e ∈ introduced (p.front sorts)} ↔
        e ∈ builtins ∨ e ∈ p.early := fun e => or_congr_right (mem_introduced_front_iff hsorts)
    have hcontents := Collection.inScope_flatten_iff (isWritten_collections htables) hknown
    rw [List.flatten_append, ← List.flatMap_def] at hcontents
    simp only [hmem, or_assoc] at hcontents
    exact hcontents

/-- A query whose table holds an input and a constant, and whose array holds an element and the
table's value at the input. -/
def heldQuery : Problem where
  inputs := [{ ref := ⟨⟨0⟩, .bitVec false 8⟩, name := "x" }]
  constants := [(⟨⟨1⟩, .bitVec false 8⟩, .int (.bitVec false 8) 7)]
  tables := [{ id := 0, index := .bitVec false 8, element := .bitVec false 8,
               entries := [.const "s0", .app "bvadd" [.const "s0", .const "s1"]] }]
  arrays := [{ id := 0, index := .int, element := .named ⟨"Color", some ["red", "green"]⟩,
               initial? := some (.const "red") },
    { id := 1, index := .int, element := .bitVec false 8,
      initial? := some (.app "table0" [.const "s0"]) }]
  functions := [⟨"f", [], .bitVec false 8⟩]
  assignments := [⟨⟨⟨100⟩, .bitVec false 1⟩, .bitVec 1 1⟩]
  output := ⟨⟨100⟩, .bitVec false 1⟩
  config := .ofSolver .z3

/-- The query is written, and its contents are in scope. -/
theorem inScope_contents_heldQuery : ∃ program, heldQuery.encode = .ok program ∧
    ∃ front tables back, heldQuery.tables.mapM Table.commands = .ok tables ∧
      program.preamble.commands =
        front ++ (tables.flatten ++ heldQuery.arrays.flatMap ArrayDecl.commands) ++ back ∧
      InScope ({.function "bvadd"} ∪ {e | e ∈ introduced front})
        (tables.flatten ++ heldQuery.arrays.flatMap ArrayDecl.commands) := by
  obtain ⟨front, tables, back, htables, hcommands, -, -, hscope⟩ :=
    inScope_contents_iff (p := heldQuery) rfl {.function "bvadd"}
  refine ⟨_, rfl, front, tables, back, htables, hcommands, hscope.2 ?_⟩
  decide

/-- A query whose table holds a function and whose array holds an assigned value. -/
def lateQuery : Problem where
  tables := [{ id := 0, index := .bitVec false 8, element := .bitVec false 8,
               entries := [.const "f"] }]
  arrays := [{ id := 0, index := .bitVec false 8, element := .bitVec false 1,
               initial? := some (.const "s100") }]
  functions := [⟨"f", [], .bitVec false 8⟩]
  assignments := [⟨⟨⟨100⟩, .bitVec false 1⟩, .bitVec 1 1⟩]
  output := ⟨⟨100⟩, .bitVec false 1⟩
  config := .ofSolver .z3

/-- **Contents can mention what comes behind them.**  A query is written whose contents mention
only its own function and its own assigned value, and both are introduced behind the assertions
that mention them. -/
theorem contents_mention_late_lateQuery : ∃ program, lateQuery.encode = .ok program ∧
    (∀ collection ∈ lateQuery.collections, ∀ term ∈ collection.contents, ∀ e ∈ term.mentions,
      e ∈ lateQuery.late) ∧
    ∀ e ∈ lateQuery.late, ∃ before c after, program.preamble.commands = before ++ c :: after ∧
      c.isAssert ∧ e ∈ c.mentions ∧ e ∉ introduced before ∧ e ∈ introduced after := by
  refine ⟨_, rfl, by decide, ?_⟩
  have hlate : lateQuery.late = [.function "f", .function "s100"] := by decide
  intro e he
  rw [hlate] at he
  rcases List.mem_pair.1 he with rfl | rfl
  · refine ⟨[.setOption "produce-models" "true", .setLogic "QF_AUFBV",
      .declareFun "table0" [.bitVec 8] (.bitVec 8)],
      .assert (.eq (.app "table0" [.bitVec 0 8]) (.const "f")), _, rfl, rfl, ?_, ?_, ?_⟩ <;> decide
  · refine ⟨[.setOption "produce-models" "true", .setLogic "QF_AUFBV",
      .declareFun "table0" [.bitVec 8] (.bitVec 8),
      .assert (.eq (.app "table0" [.bitVec 0 8]) (.const "f")),
      .declareFun "array_0" [] (.array (.bitVec 8) (.bitVec 1))],
      .assert (.eq (.const "array_0")
        (.constArray (.array (.bitVec 8) (.bitVec 1)) (.const "s100"))),
      _, rfl, rfl, ?_, ?_, ?_⟩ <;> decide

end Problem
end SmtQuery
