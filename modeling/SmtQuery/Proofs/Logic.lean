import Mathlib
import SmtQuery.Proofs.Capability
import SmtQuery.Proofs.Quantifier

/-!
# What the announced logic covers

A query announces the logic that it is written in, and if the configuration names none, the name is
put together from what the kinds and the lists of the problem hold.  The output of a query that is
written is a single bit, so the name is either `ALL` or that of a logic of bit-vectors, perhaps with
floating-point numbers, and certainly without integers and reals (`Problem.logic_eq`).

On the other side stands what the preamble declares.  Every sort in the signature of a function is
that of a kind the problem mentions, or an array of two such (`Problem.Writes.hasSort`).  So the
parts of the name can be read off the declarations, and whether there are quantifiers off their
number: `Problem.covers_logic`.

The letters `UF` stand for sorts and functions without a definition.  A lookup table is declared as
a function as well, but it is announced by the `A` of the arrays (`Problem.logic_of_declareFun`).
-/

namespace SmtQuery

/-! ## Names of logics -/

namespace Logic

/-- Whether the name announces formulas without quantifiers. -/
def IsQuantifierFree (logic : String) : Prop := "QF_".toList <+: logic.toList

/-- Whether the name announces arrays: by an `A` in front, or behind the prefix for formulas
without quantifiers. -/
def HasArrays (logic : String) : Prop :=
  "A".toList <+: logic.toList ∨ "QF_A".toList <+: logic.toList

/-- Whether the name announces sorts and functions without a definition. -/
def HasFunctions (logic : String) : Prop := "UF".toList <:+: logic.toList

/-- Whether the name announces floating-point numbers. -/
def HasFloats (logic : String) : Prop := "FP".toList <:+: logic.toList

/-- Whether the name announces bit-vectors, as its last part. -/
def HasBitVecs (logic : String) : Prop := "BV".toList <:+ logic.toList

/-- The name of a logic of bit-vectors with the given parts. -/
def ofParts (quantifierFree arrays functions floats : Bool) : String :=
  (if quantifierFree then "QF_" else "") ++ (if arrays then "A" else "")
    ++ (if functions then "UF" else "") ++ (if floats then "FPBV" else "BV")

/-- **The parts can be read off the name.** -/
theorem ofParts_spec (quantifierFree arrays functions floats : Bool) :
    let logic := ofParts quantifierFree arrays functions floats
    (IsQuantifierFree logic ↔ quantifierFree = true) ∧ (HasArrays logic ↔ arrays = true) ∧
      (HasFunctions logic ↔ functions = true) ∧ (HasFloats logic ↔ floats = true) ∧
      HasBitVecs logic := by
  simp only [IsQuantifierFree, HasArrays, HasFunctions, HasFloats, HasBitVecs, ofParts]
  revert quantifierFree arrays functions floats
  decide +kernel

end Logic

/-! ## What is covered -/

/-- Whether a logic of bit-vectors covers a sort. -/
def SmtSort.CoveredBy (logic : String) : SmtSort → Prop
  | bool | bitVec _ => True
  | int | real => False
  | float _ _ => Logic.HasFloats logic
  | array index element =>
    Logic.HasArrays logic ∧ index.CoveredBy logic ∧ element.CoveredBy logic
  | named _ => Logic.HasFunctions logic

namespace Command

/-- The sorts in the signature of a function that is declared or defined. -/
def signature : Command → List SmtSort
  | declareFun _ parameters result => parameters ++ [result]
  | defineFun _ parameters result _ => parameters.map Prod.snd ++ [result]
  | _ => []

/-- Whether a command declares a sort. -/
def IsSortDeclaration : Command → Prop
  | declareSort _ _ | declareEnum _ _ => True
  | _ => False

/-- Whether a logic of bit-vectors covers what a command declares. -/
def CoveredBy (logic : String) (c : Command) : Prop :=
  (c.IsSortDeclaration → Logic.HasFunctions logic) ∧ ∀ sort ∈ c.signature, sort.CoveredBy logic

end Command

/-- Whether a program announces the logic, and no other. -/
def Program.Announces (program : Program) (logic : String) : Prop :=
  ∀ other, .setLogic other ∈ program.preamble.commands ↔ other = logic

namespace Problem

variable {p : Problem} {kinds : List Kind} {program : Program}

/-! ## What a preamble consists of -/

/-- What the commands of a preamble are written for. -/
inductive Writes (p : Problem) : Command → Prop where
  | comment (text : String) : p.Writes (.comment text)
  | option (key value : String) : p.Writes (.setOption key value)
  | logic : p.Writes (.setLogic (p.config.logic?.getD (p.logic p.kinds)))
  | sort {sort : NamedSort} (h : .named sort ∈ p.mentionedKinds) : p.Writes sort.declaration
  | input {input : Input} (h : input ∈ p.freeInputs) : p.Writes input.declaration
  | constant {constant : Ref × Value} (h : constant ∈ p.constants) :
    p.Writes (constantCommand constant)
  | table {table : Table} (h : table ∈ p.tables) : p.Writes table.declaration
  | array {array : ArrayDecl} (h : array ∈ p.arrays) : p.Writes array.declaration
  | function {function : FunctionDecl} (h : function ∈ p.functions) : p.Writes function.command
  | assignment {a : Assignment} (h : a ∈ p.assignments) :
    p.Writes (.defineFun a.target.symbol [] a.target.kind.sort a.term)
  | assertion (term : Term) : p.Writes (.assert term)
  | goal {objective : Objective} (h : objective ∈ p.objectives) : p.Writes objective.command

theorem writes_of_mem_header {c : Command} (hc : c ∈ p.header p.kinds) : p.Writes c := by
  simp only [header, List.mem_append, List.mem_singleton, List.mem_map] at hc
  rcases hc with ((hcomment | rfl) | ⟨option, -, rfl⟩) | rfl
  · split at hcomment
    · obtain ⟨text, -, rfl⟩ := List.mem_map.1 hcomment
      exact .comment text
    · exact absurd hcomment List.not_mem_nil
  · exact .option _ _
  · exact .option _ _
  · exact .logic

/-- **What a command of the preamble is.** -/
theorem writes_of_mem_preamble (hencode : p.encode = .ok program) {c : Command}
    (hc : c ∈ program.preamble.commands) : p.Writes c := by
  obtain ⟨-, sorts, tables, goal, hsorts, htables, -, rfl⟩ := encode_eq_ok_iff.1 hencode
  rcases List.mem_append.1 hc with hc | hgoal
  · rcases List.mem_append.1 hc with hdeclaration | hformula
    · refine forall_mem_declarations htables .assertion (fun _ => writes_of_mem_header) .comment
        (fun sort hsort => ?_) (fun _ => .input) (fun _ => .constant) (fun _ => .table)
        (fun _ => .array) (fun _ => .function) c hdeclaration
      exact .sort (mem_namedSorts_iff.1 ((perm_of_ofKinds hsorts).mem_iff.1 hsort))
    · rcases eq_of_mem_formula hformula with ⟨a, ha, rfl⟩ | ⟨term, rfl⟩
      · exact .assignment ha
      · exact .assertion term
  · obtain ⟨objective, hobjective, rfl⟩ := List.mem_map.1 hgoal
    exact .goal hobjective

/-! ## The announced name -/

/-- Whether the parts of a logic's name tell what a problem without integers and reals holds. -/
structure Describes (p : Problem) (logic : String) : Prop where
  ints : .int ∉ p.kinds
  reals : .real ∉ p.kinds
  quantifierFree : Logic.IsQuantifierFree logic ↔ p.boundInputs = []
  arrays : Logic.HasArrays logic ↔ p.arrays ≠ [] ∨ p.tables ≠ []
  functions : Logic.HasFunctions logic ↔ p.hasFunctions p.kinds = true
  floats : Logic.HasFloats logic ↔ p.kinds.any Kind.isFloat = true
  bitVecs : Logic.HasBitVecs logic

/-- **The name of the logic** of a problem with bit-vectors is `ALL`, or it describes the
problem. -/
theorem logic_eq_or_describes (hbits : p.kinds.any Kind.isBitVec = true) :
    p.logic p.kinds = "ALL" ∨ p.Describes (p.logic p.kinds) := by
  cases hint : p.kinds.contains .int with
  | true =>
    left
    rw [logic, theory?, hbits, hint]
  | false =>
    cases hreal : p.kinds.contains .real with
    | true =>
      left
      rw [logic, theory?, hbits, hint, hreal]
    | false =>
      right
      have hname : p.logic p.kinds =
          Logic.ofParts p.boundInputs.isEmpty (!(p.arrays.isEmpty && p.tables.isEmpty))
            (p.hasFunctions p.kinds) (p.kinds.any Kind.isFloat) := by
        rw [logic, theory?, hbits, hint, hreal, Logic.ofParts]
        cases p.kinds.any Kind.isFloat <;> cases p.arrays.isEmpty && p.tables.isEmpty <;> simp
      obtain ⟨hquantifierFree, harrays, hfunctions, hfloats, hbitVecs⟩ :=
        Logic.ofParts_spec p.boundInputs.isEmpty (!(p.arrays.isEmpty && p.tables.isEmpty))
          (p.hasFunctions p.kinds) (p.kinds.any Kind.isFloat)
      rw [hname]
      exact {
        ints := by simpa using hint
        reals := by simpa using hreal
        quantifierFree := hquantifierFree.trans List.isEmpty_iff
        arrays := harrays.trans (by simp)
        functions := hfunctions
        floats := hfloats
        bitVecs := hbitVecs }

/-- The output of a query that is written is a bit-vector. -/
theorem isBitVec_of_goal {goal : Term} (hgoal : p.goal = .ok goal) :
    p.kinds.any Kind.isBitVec = true := by
  have hmem : p.output.kind ∈ p.kinds := by
    rw [kinds, List.mem_eraseDups]
    simp [mentionedKinds]
  refine List.any_eq_true.2 ⟨_, hmem, ?_⟩
  unfold Problem.goal at hgoal
  split at hgoal
  · next hkind => rw [hkind]; rfl
  · exact absurd hgoal (by simp)

/-- **The logic is announced**, and no other. -/
theorem announces_logic (hencode : p.encode = .ok program) :
    program.Announces (p.config.logic?.getD (p.logic p.kinds)) := by
  intro other
  constructor
  · intro hmem
    have hwrites := writes_of_mem_preamble hencode hmem
    generalize hc : Command.setLogic other = c at hwrites
    cases hwrites with
    | logic => exact Command.setLogic.inj hc
    | sort => rw [NamedSort.declaration] at hc; split at hc <;> exact absurd hc (by simp)
    | input => rw [Input.declaration] at hc; split at hc <;> exact absurd hc (by simp)
    | constant => rw [constantCommand] at hc; split at hc <;> exact absurd hc (by simp)
    | goal => rw [Objective.command] at hc; split at hc <;> exact absurd hc (by simp)
    | comment | option | table | array | function | assignment | assertion =>
      exact Command.noConfusion hc
  · rintro rfl
    obtain ⟨-, sorts, tables, goal, -, -, -, rfl⟩ := encode_eq_ok_iff.1 hencode
    have hheader : .setLogic (p.config.logic?.getD (p.logic p.kinds)) ∈ p.header p.kinds := by
      simp [header]
    simp only [declarations, List.mem_append, hheader, true_or]

/-! ## The sorts of what is declared -/

/-- Whether a sort is that of a kind the problem mentions, or of one of its arrays. -/
def HasSort (p : Problem) (sort : SmtSort) : Prop :=
  (∃ kind ∈ p.mentionedKinds, kind.sort = sort) ∨
    ∃ array ∈ p.arrays, .array array.index.sort array.element.sort = sort

theorem hasSort_of_kind {kind : Kind} (h : kind ∈ p.mentionedKinds) : p.HasSort kind.sort :=
  Or.inl ⟨kind, h, rfl⟩

/-- **Where the sorts in a signature come from.** -/
theorem Writes.hasSort {c : Command} (h : p.Writes c) : ∀ sort ∈ c.signature, p.HasSort sort := by
  cases h with
  | comment | option | logic | assertion => exact List.forall_mem_nil _
  | sort => rw [NamedSort.declaration]; split <;> exact List.forall_mem_nil _
  | goal => rw [Objective.command]; split <;> exact List.forall_mem_nil _
  | @input input hinput =>
    have hmem := (List.mem_filter.1 hinput).1
    have hresult := hasSort_of_kind (kind_mem_of_input hmem)
    rw [Input.declaration]
    split
    · refine List.forall_mem_append.2 ⟨List.forall_mem_map.2 fun ref href => ?_,
        List.forall_mem_singleton.2 hresult⟩
      exact hasSort_of_kind (kind_mem_of_dependsOn hmem href)
    · exact List.forall_mem_singleton.2 hresult
  | @constant constant hconstant =>
    have hresult := hasSort_of_kind (kind_mem_of_constant hconstant).1
    rw [constantCommand]
    split <;> exact List.forall_mem_singleton.2 hresult
  | table htable =>
    have hkinds := kind_mem_of_table htable
    exact List.forall_mem_cons.2 ⟨hasSort_of_kind hkinds.1,
      List.forall_mem_singleton.2 (hasSort_of_kind hkinds.2)⟩
  | array harray => exact List.forall_mem_singleton.2 (Or.inr ⟨_, harray, rfl⟩)
  | function hfunction =>
    have hkinds := kind_mem_of_function hfunction
    rw [List.forall_mem_append, List.forall_mem_singleton] at hkinds
    exact List.forall_mem_append.2
      ⟨List.forall_mem_map.2 fun kind hmem => hasSort_of_kind (hkinds.1 kind hmem),
        List.forall_mem_singleton.2 (hasSort_of_kind hkinds.2)⟩
  | assignment ha => exact List.forall_mem_singleton.2 (hasSort_of_kind (kind_mem_of_assignment ha))

/-! ## Sorts and quantifiers -/

namespace Describes

variable {logic : String} (h : p.Describes logic)

include h

/-- The sort of a kind is covered if the problem mentions the kind. -/
theorem kind {kind : Kind} (hkind : kind ∈ p.mentionedKinds) : kind.sort.CoveredBy logic := by
  have hmem : kind ∈ p.kinds := List.mem_eraseDups.2 hkind
  cases kind with
  | bitVec signed width => trivial
  | int => exact h.ints hmem
  | real => exact h.reals hmem
  | float precision =>
    have hfloats : Logic.HasFloats logic := h.floats.2 (List.any_eq_true.2 ⟨_, hmem, rfl⟩)
    cases precision <;> exact hfloats
  | named sort =>
    refine h.functions.2 ?_
    have hnamed : p.kinds.any Kind.isNamed = true := List.any_eq_true.2 ⟨_, hmem, rfl⟩
    rw [hasFunctions, hnamed, Bool.or_true, Bool.true_or]

theorem sort {sort : SmtSort} (hsort : p.HasSort sort) : sort.CoveredBy logic := by
  rcases hsort with ⟨kind, hkind, rfl⟩ | ⟨array, harray, rfl⟩
  · exact h.kind hkind
  · have hkinds := kind_mem_of_array harray
    exact ⟨h.arrays.2 (Or.inl (List.ne_nil_of_mem harray)), h.kind hkinds.1, h.kind hkinds.2⟩

/-- **What a preamble declares is covered.** -/
theorem command {c : Command} (hc : p.Writes c) : c.CoveredBy logic := by
  refine ⟨fun hdeclaration => ?_, fun sort hsort => h.sort (hc.hasSort sort hsort)⟩
  cases hc with
  | sort hsort => exact h.kind hsort
  | input => rw [Input.declaration] at hdeclaration; split at hdeclaration <;> cases hdeclaration
  | constant => rw [constantCommand] at hdeclaration; split at hdeclaration <;> cases hdeclaration
  | goal => rw [Objective.command] at hdeclaration; split at hdeclaration <;> cases hdeclaration
  | comment | option | logic | table | array | function | assignment | assertion =>
    cases hdeclaration

/-- **A quantifier is written around the terms of a problem** exactly if the logic has
quantifiers. -/
theorem quantifiers (hencode : p.encode = .ok program) :
    (Logic.IsQuantifierFree logic ∧ Command.quantifierCount program.preamble.commands =
        Term.quantifierCountAll p.terms) ∨
      (¬ Logic.IsQuantifierFree logic ∧ Command.quantifierCount program.preamble.commands =
          Term.quantifierCountAll p.terms + 1 ∧
        ∃ matrix, .assert (.quantified .universal p.boundVariables matrix) ∈
          program.preamble.commands) := by
  have hcount := quantifierCount_preamble hencode
  rw [h.quantifierFree, ← List.isEmpty_iff]
  cases hbound : p.boundInputs.isEmpty with
  | true => exact Or.inl ⟨rfl, by rw [hcount, hbound]; rfl⟩
  | false =>
    obtain ⟨-, sorts, tables, goal, -, -, -, rfl⟩ := encode_eq_ok_iff.1 hencode
    have hmatrix : ∃ matrix, p.formula goal =
        [.assert (.quantified .universal p.boundVariables matrix)] := by
      rw [Problem.formula, hbound]
      exact ⟨_, rfl⟩
    obtain ⟨matrix, hformula⟩ := hmatrix
    refine Or.inr ⟨Bool.false_ne_true, by rw [hcount, hbound]; rfl, matrix, ?_⟩
    rw [hformula]
    exact List.mem_append_left _ (List.mem_append_right _ (List.mem_singleton_self _))

end Describes

/-- **The derived logic covers what is written.**  A query is written, and the configuration names
no logic.  The program announces one logic.  It is `ALL`, or a logic of bit-vectors of which the
following holds.

* It is announced to be free of quantifiers exactly if the preamble has no other quantifiers than
  the terms of the problem; and if it is not, there is one more, over the bound inputs.
* It covers every command of the preamble: where a sort is declared it has functions, and in the
  signature of a function that is declared or defined, at any depth, integers and reals do not
  occur, and arrays, floating-point numbers and named sorts only if it has those.
* It covers the variables of the quantifier and the values of the constants in the same way. -/
theorem covers_logic (hencode : p.encode = .ok program) (hlogic : p.config.logic? = none) :
    ∃ logic, program.Announces logic ∧ (logic = "ALL" ∨ Logic.HasBitVecs logic ∧
      ((Logic.IsQuantifierFree logic ∧ Command.quantifierCount program.preamble.commands =
          Term.quantifierCountAll p.terms) ∨
        (¬ Logic.IsQuantifierFree logic ∧ Command.quantifierCount program.preamble.commands =
            Term.quantifierCountAll p.terms + 1 ∧
          ∃ matrix, .assert (.quantified .universal p.boundVariables matrix) ∈
            program.preamble.commands)) ∧
      (∀ c ∈ program.preamble.commands, c.CoveredBy logic) ∧
      (∀ x ∈ p.boundVariables, x.2.CoveredBy logic) ∧
      ∀ constant ∈ p.constants, constant.2.kind.sort.CoveredBy logic) := by
  have hannounces := announces_logic hencode
  rw [hlogic, Option.getD_none] at hannounces
  obtain ⟨-, sorts, tables, goal, -, -, hgoal, -⟩ := encode_eq_ok_iff.1 hencode
  refine ⟨_, hannounces, ?_⟩
  rcases logic_eq_or_describes (isBitVec_of_goal hgoal) with hall | h
  · exact Or.inl hall
  · refine Or.inr ⟨h.bitVecs, h.quantifiers hencode,
      fun c hc => h.command (writes_of_mem_preamble hencode hc), ?_,
      fun constant hconstant => h.kind (kind_mem_of_constant hconstant).2⟩
    refine List.forall_mem_map.2 fun input hinput => ?_
    exact h.kind (kind_mem_of_input (List.mem_filter.1 hinput).1)

/-- A query with a bound input, a named sort, an array of floating-point numbers and a constant. -/
def paintedQuery : Problem where
  inputs := [{ ref := ⟨⟨0⟩, .bitVec false 8⟩, name := "x", quantifier := .universal },
    { ref := ⟨⟨1⟩, .named ⟨"Color", some ["red", "green"]⟩⟩, name := "c" }]
  constants := [(⟨⟨2⟩, .float .single⟩, .float ⟨.single, 0x3f800000⟩)]
  arrays := [{ id := 0, index := .bitVec false 8, element := .float .single }]
  assignments := [⟨⟨⟨3⟩, .bitVec false 1⟩,
    .ite (.eq (.select (.const "array_0") (.const "s0")) (.const "s2"))
      (.bitVec 1 1) (.bitVec 0 1)⟩]
  output := ⟨⟨3⟩, .bitVec false 1⟩
  config := .ofSolver .z3

/-- Its logic has quantifiers, arrays, sorts, floating-point numbers and bit-vectors. -/
theorem covers_logic_paintedQuery : paintedQuery.logic paintedQuery.kinds = "AUFFPBV" ∧
    ∃ program, paintedQuery.encode = .ok program ∧ paintedQuery.config.logic? = none ∧
    ∃ logic, program.Announces logic ∧ (logic = "ALL" ∨ Logic.HasBitVecs logic ∧
      ((Logic.IsQuantifierFree logic ∧ Command.quantifierCount program.preamble.commands =
          Term.quantifierCountAll paintedQuery.terms) ∨
        (¬ Logic.IsQuantifierFree logic ∧ Command.quantifierCount program.preamble.commands =
            Term.quantifierCountAll paintedQuery.terms + 1 ∧
          ∃ matrix, .assert (.quantified .universal paintedQuery.boundVariables matrix) ∈
            program.preamble.commands)) ∧
      (∀ c ∈ program.preamble.commands, c.CoveredBy logic) ∧
      (∀ x ∈ paintedQuery.boundVariables, x.2.CoveredBy logic) ∧
      ∀ constant ∈ paintedQuery.constants, constant.2.kind.sort.CoveredBy logic) :=
  ⟨by decide +kernel, _, rfl, rfl, covers_logic rfl rfl⟩

/-! ## Functions -/

/-- Whether a command declares a dependent input or a function without a definition. -/
def DeclaresFunction (p : Problem) (c : Command) : Prop :=
  (∃ input ∈ p.freeInputs, input.isSkolem ∧ c = input.declaration) ∨
    ∃ function ∈ p.functions, c = function.command

/-- Whether a command declares a lookup table. -/
def DeclaresTable (p : Problem) (c : Command) : Prop := ∃ table ∈ p.tables, c = table.declaration

/-- **What is declared with parameters**: dependent inputs, functions, and tables. -/
theorem Writes.declareFun_cases {name : String} {parameters : List SmtSort} {result : SmtSort}
    (h : p.Writes (.declareFun name parameters result)) (hparameters : parameters ≠ []) :
    p.DeclaresFunction (.declareFun name parameters result) ∨
      p.DeclaresTable (.declareFun name parameters result) := by
  generalize hc : Command.declareFun name parameters result = c at h
  cases h with
  | @input input hinput =>
    refine Or.inl (Or.inl ⟨input, hinput, ?_, rfl⟩)
    rw [Input.declaration] at hc
    split at hc
    · assumption
    · exact absurd (Command.declareFun.inj hc).2.1 hparameters
  | table htable => exact Or.inr ⟨_, htable, rfl⟩
  | function hfunction => exact Or.inl (Or.inr ⟨_, hfunction, rfl⟩)
  | array => exact absurd (Command.declareFun.inj hc).2.1 hparameters
  | constant =>
    rw [constantCommand] at hc
    split at hc
    · exact absurd (Command.declareFun.inj hc).2.1 hparameters
    · exact Command.noConfusion hc
  | sort => rw [NamedSort.declaration] at hc; split at hc <;> exact absurd hc (by simp)
  | goal => rw [Objective.command] at hc; split at hc <;> exact absurd hc (by simp)
  | comment | option | logic | assignment | assertion => exact Command.noConfusion hc

/-- A logic that describes a problem has functions if the problem declares any. -/
theorem Describes.function {logic : String} (h : p.Describes logic) {c : Command}
    (hc : p.DeclaresFunction c) : Logic.HasFunctions logic := by
  rw [h.functions, hasFunctions]
  rcases hc with ⟨input, hinput, hskolem, -⟩ | ⟨function, hfunction, -⟩
  · have hany : p.inputs.any Input.isSkolem = true :=
      List.any_eq_true.2 ⟨input, (List.mem_filter.1 hinput).1, hskolem⟩
    rw [hany, Bool.or_true]
  · have hne : p.functions.isEmpty = false :=
      List.isEmpty_eq_false_iff_exists_mem.2 ⟨function, hfunction⟩
    rw [hne, Bool.not_false, Bool.true_or, Bool.true_or]

/-- **The derived logic has what is declared with parameters.**  A query is written, and the
configuration names no logic.  Whatever the preamble declares with parameters is a dependent input
or a function, and then the logic is `ALL` or has functions; or it is a lookup table, and then the
logic is `ALL` or has arrays. -/
theorem logic_of_declareFun (hencode : p.encode = .ok program) (hlogic : p.config.logic? = none)
    {name : String} {parameters : List SmtSort} {result : SmtSort}
    (hmem : .declareFun name parameters result ∈ program.preamble.commands)
    (hparameters : parameters ≠ []) :
    ∃ logic, program.Announces logic ∧
      (p.DeclaresFunction (.declareFun name parameters result) ∨
        p.DeclaresTable (.declareFun name parameters result)) ∧
      (p.DeclaresFunction (.declareFun name parameters result) →
        logic = "ALL" ∨ Logic.HasFunctions logic) ∧
      (p.DeclaresTable (.declareFun name parameters result) →
        logic = "ALL" ∨ Logic.HasArrays logic) := by
  have hannounces := announces_logic hencode
  rw [hlogic, Option.getD_none] at hannounces
  have hcases := (writes_of_mem_preamble hencode hmem).declareFun_cases hparameters
  obtain ⟨-, sorts, tables, goal, -, -, hgoal, -⟩ := encode_eq_ok_iff.1 hencode
  refine ⟨_, hannounces, hcases, ?_⟩
  rcases logic_eq_or_describes (isBitVec_of_goal hgoal) with hall | h
  · exact ⟨fun _ => Or.inl hall, fun _ => Or.inl hall⟩
  · refine ⟨fun hfunction => Or.inr (h.function hfunction), ?_⟩
    rintro ⟨table, htable, -⟩
    exact Or.inr (h.arrays.2 (Or.inr (List.ne_nil_of_mem htable)))

/-- A query with a lookup table of bytes. -/
def lookupQuery : Problem where
  tables := [
    { id := 0, index := .bitVec false 2, element := .bitVec false 8, entries := [.bitVec 10 8] }]
  assignments := [⟨⟨⟨100⟩, .bitVec false 1⟩, .bitVec 1 1⟩]
  output := ⟨⟨100⟩, .bitVec false 1⟩
  config := .ofSolver .z3

/-- What the query is written as. -/
def lookupProgram : Program where
  preamble := ⟨[.setOption "produce-models" "true", .setLogic "QF_ABV",
    .declareFun "table0" [.bitVec 2] (.bitVec 8),
    .assert (.eq (.app "table0" [.bitVec 0 2]) (.bitVec 10 8)),
    .defineFun "s100" [] (.bitVec 1) (.bitVec 1 1),
    .assert (.eq (.const "s100") (.bitVec 1 1))]⟩
  postlude := ⟨[]⟩

/-- The query declares a function for its table, and announces arrays. -/
theorem logic_of_declareFun_lookupQuery : lookupQuery.encode = .ok lookupProgram ∧
    lookupQuery.config.logic? = none ∧
    .declareFun "table0" [.bitVec 2] (.bitVec 8) ∈ lookupProgram.preamble.commands ∧
    ([.bitVec 2] : List SmtSort) ≠ [] ∧
    ∃ logic, lookupProgram.Announces logic ∧
      (lookupQuery.DeclaresFunction (.declareFun "table0" [.bitVec 2] (.bitVec 8)) ∨
        lookupQuery.DeclaresTable (.declareFun "table0" [.bitVec 2] (.bitVec 8))) ∧
      (lookupQuery.DeclaresFunction (.declareFun "table0" [.bitVec 2] (.bitVec 8)) →
        logic = "ALL" ∨ Logic.HasFunctions logic) ∧
      (lookupQuery.DeclaresTable (.declareFun "table0" [.bitVec 2] (.bitVec 8)) →
        logic = "ALL" ∨ Logic.HasArrays logic) := by
  have hencode : lookupQuery.encode = .ok lookupProgram := rfl
  have hmem : .declareFun "table0" [.bitVec 2] (.bitVec 8) ∈ lookupProgram.preamble.commands := by
    simp [lookupProgram]
  have hparameters : ([.bitVec 2] : List SmtSort) ≠ [] := List.cons_ne_nil _ _
  exact ⟨hencode, rfl, hmem, hparameters, logic_of_declareFun hencode rfl hmem hparameters⟩

/-- The query announces no functions: a declaration with parameters does not imply that the logic
is `ALL` or has functions. -/
theorem not_hasFunctions_lookupQuery : ¬ ∀ (p : Problem) (program : Program),
    p.encode = .ok program → p.config.logic? = none →
    (∃ name parameters result, parameters ≠ [] ∧
      .declareFun name parameters result ∈ program.preamble.commands) →
    ∀ logic, .setLogic logic ∈ program.preamble.commands →
      logic = "ALL" ∨ Logic.HasFunctions logic := by
  intro h
  have hmem : .declareFun "table0" [.bitVec 2] (.bitVec 8) ∈ lookupProgram.preamble.commands := by
    simp [lookupProgram]
  have hlogic := h lookupQuery lookupProgram rfl rfl
    ⟨_, _, _, List.cons_ne_nil _ _, hmem⟩ "QF_ABV" (by simp [lookupProgram])
  rw [Logic.HasFunctions] at hlogic
  revert hlogic
  decide

end Problem
end SmtQuery
