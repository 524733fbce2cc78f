import Mathlib
import SmtQuery.Problem.Program
import SmtQuery.Proofs.Except

/-!
# What a written query consists of

Writing a query can fail for three reasons: the solver lacks a feature, the kinds name a
sort in two ways or a table has no literals for its positions, or the output is not one
bit.  `Problem.encode_eq_ok_iff` says that it succeeds otherwise, and what is written
then: declarations, the formula, the goals of an optimisation, and apart from these the
commands that fetch the model.

Which inputs a quantifier binds is a matter of the mode (`Mode.Binds`).  The gate and the
writer ask for it in different ways, and `Problem.needsQuantifiers_eq` and
`Problem.mem_boundInputs_iff` say that both mean the same.
-/

namespace SmtQuery

/-! ## Bound inputs -/

/-- Whether an input with the quantifier is bound: a universal one where satisfiability is asked
for, an existential one where validity is. -/
def Mode.Binds (mode : Mode) (quantifier : Quantifier) : Prop :=
  (mode = .satisfiability ∧ quantifier = .universal) ∨
    (mode = .validity ∧ quantifier = .existential)

instance (mode : Mode) (quantifier : Quantifier) : Decidable (mode.Binds quantifier) :=
  inferInstanceAs (Decidable (_ ∨ _))

theorem Mode.binds_iff {mode : Mode} {quantifier : Quantifier} :
    mode.Binds quantifier ↔ quantifier ≠ mode.freeQuantifier := by
  cases mode <;> cases quantifier <;> decide

namespace Problem

theorem boundInputs_eq (p : Problem) :
    p.boundInputs = p.inputs.filter fun input => p.mode.Binds input.quantifier := by
  simp only [boundInputs, Mode.binds_iff]

theorem freeInputs_eq (p : Problem) :
    p.freeInputs = p.inputs.filter fun input => ¬ p.mode.Binds input.quantifier := by
  simp only [freeInputs, Mode.binds_iff, not_not]

/-- **The inputs that are bound** are those with a quantifier that the mode binds. -/
theorem mem_boundInputs_iff {p : Problem} {input : Input} :
    input ∈ p.boundInputs ↔ input ∈ p.inputs ∧ p.mode.Binds input.quantifier := by
  rw [boundInputs_eq, List.mem_filter, decide_eq_true_eq]

theorem mem_freeInputs_iff {p : Problem} {input : Input} :
    input ∈ p.freeInputs ↔ input ∈ p.inputs ∧ ¬ p.mode.Binds input.quantifier := by
  rw [freeInputs_eq, List.mem_filter, decide_eq_true_eq]

/-- The gate looks for inputs of one quantifier, which is the one that the mode binds. -/
theorem needsQuantifiers_eq_any (p : Problem) :
    p.needsQuantifiers = p.inputs.any fun input => p.mode.Binds input.quantifier := by
  rw [needsQuantifiers]
  cases p.mode <;> simp [Mode.Binds]

/-- **Quantifiers are needed** if there is something to bind. -/
theorem needsQuantifiers_eq (p : Problem) : p.needsQuantifiers = !p.boundInputs.isEmpty := by
  rw [Bool.eq_iff_iff, needsQuantifiers_eq_any, List.any_eq_true, Bool.not_eq_true',
    List.isEmpty_eq_false_iff_exists_mem]
  simp only [mem_boundInputs_iff, decide_eq_true_eq]

/-! ## What is written -/

/-- Everything in front of the formula: the header, the sorts, and what stands under each
name.  The sorts and the commands for the tables are those that were found without fault. -/
def declarations (p : Problem) (sorts : List NamedSort) (tables : List (List Command)) :
    List Command :=
  p.header p.kinds
    ++ sorts.map NamedSort.declaration
    ++ p.freeInputs.map Input.declaration
    ++ p.constants.map constantCommand
    ++ tables.flatten
    ++ p.arrays.flatMap ArrayDecl.commands
    ++ p.functions.map FunctionDecl.command
    ++ p.postulates.flatMap Postulate.commands

theorem preamble_eq_ok_iff {p : Problem} {commands : List Command} :
    p.preamble p.kinds = .ok commands ↔ ∃ sorts tables goal,
      NamedSort.ofKinds p.kinds = .ok sorts ∧ p.tables.mapM Table.commands = .ok tables ∧
      p.goal = .ok goal ∧ commands = p.declarations sorts tables ++ p.formula goal
        ++ p.objectives.map Objective.command := by
  rw [preamble, Except.bind_eq_ok_iff]
  constructor
  · rintro ⟨sorts, hsorts, h⟩
    obtain ⟨tables, htables, h⟩ := Except.bind_eq_ok_iff.1 h
    obtain ⟨goal, hgoal, h⟩ := Except.bind_eq_ok_iff.1 h
    exact ⟨sorts, tables, goal, hsorts, htables, hgoal, (Except.ok.inj h).symm⟩
  · rintro ⟨sorts, tables, goal, hsorts, htables, hgoal, rfl⟩
    refine ⟨sorts, hsorts, ?_⟩
    rw [htables, hgoal]
    rfl

/-- **When a query is written, and what is written.** -/
theorem encode_eq_ok_iff {p : Problem} {program : Program} :
    p.encode = .ok program ↔ p.rejection? p.kinds p.config.capabilities = none ∧
      ∃ sorts tables goal, NamedSort.ofKinds p.kinds = .ok sorts ∧
        p.tables.mapM Table.commands = .ok tables ∧ p.goal = .ok goal ∧
        program = { preamble := ⟨p.declarations sorts tables ++ p.formula goal
            ++ p.objectives.map Objective.command⟩, postlude := ⟨p.postlude⟩ } := by
  rw [encode, encodeWith]
  cases hgate : p.rejection? p.kinds p.config.capabilities with
  | some rejection => exact ⟨fun h => absurd h (by simp), fun h => absurd h.1 (by simp)⟩
  | none =>
    cases hpreamble : p.preamble p.kinds with
    | error fault =>
      refine ⟨fun h => absurd h (by simp), ?_⟩
      rintro ⟨-, sorts, tables, goal, hsorts, htables, hgoal, -⟩
      rw [preamble_eq_ok_iff.2 ⟨sorts, tables, goal, hsorts, htables, hgoal, rfl⟩] at hpreamble
      exact absurd hpreamble (by simp)
    | ok commands =>
      obtain ⟨sorts, tables, goal, hsorts, htables, hgoal, rfl⟩ := preamble_eq_ok_iff.1 hpreamble
      constructor
      · intro h
        exact ⟨rfl, sorts, tables, goal, hsorts, htables, hgoal, (Except.ok.inj h).symm⟩
      · rintro ⟨-, sorts', tables', goal', hsorts', htables', hgoal', rfl⟩
        rw [hsorts] at hsorts'
        rw [htables] at htables'
        rw [hgoal] at hgoal'
        rw [Except.ok.inj hsorts', Except.ok.inj htables', Except.ok.inj hgoal']

/-- The goal says that the output is one, or that it is not. -/
theorem eq_of_goal {p : Problem} {goal : Term} (h : p.goal = .ok goal) :
    goal = match p.mode with
      | .satisfiability => .eq p.output.term (.bitVec 1 1)
      | .validity => .not (.eq p.output.term (.bitVec 1 1)) := by
  unfold Problem.goal at h
  split at h
  · split at h
    · cases hmode : p.mode <;> rw [hmode] at h <;> exact (Except.ok.inj h).symm
    · exact absurd h (by simp)
  · exact absurd h (by simp)

/-! ## The ends of a script -/

/-- The header consists of comments, options and the logic. -/
theorem eq_of_mem_header {p : Problem} {kinds : List Kind} {c : Command}
    (hc : c ∈ p.header kinds) : (∃ text, c = .comment text) ∨
      (∃ key value, c = .setOption key value) ∨ ∃ logic, c = .setLogic logic := by
  simp only [header, List.mem_append, List.mem_singleton, List.mem_map] at hc
  rcases hc with ((hcomment | rfl) | ⟨option, -, rfl⟩) | rfl
  · split at hcomment
    · obtain ⟨text, -, rfl⟩ := List.mem_map.1 hcomment
      exact Or.inl ⟨text, rfl⟩
    · exact absurd hcomment List.not_mem_nil
  · exact Or.inr (Or.inl ⟨_, _, rfl⟩)
  · exact Or.inr (Or.inl ⟨_, _, rfl⟩)
  · exact Or.inr (Or.inr ⟨_, rfl⟩)

/-- The postlude fetches the values of the free inputs that depend on nothing, and the
objectives. -/
theorem eq_of_mem_postlude {p : Problem} {c : Command} (hc : c ∈ p.postlude) :
    (∃ input ∈ p.freeInputs, ¬ input.isSkolem ∧ c = .getValue [input.ref.term]) ∨
      c = .getObjectives := by
  rw [postlude, List.mem_append, List.mem_map] at hc
  rcases hc with ⟨input, hinput, rfl⟩ | hobjectives
  · obtain ⟨hfree, hskolem⟩ := List.mem_filter.1 hinput
    exact Or.inl ⟨input, hfree, by simpa using hskolem, rfl⟩
  · split at hobjectives
    · exact Or.inr (List.mem_singleton.1 hobjectives)
    · exact absurd hobjectives List.not_mem_nil

end Problem
end SmtQuery
