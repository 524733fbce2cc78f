import Mathlib
import SmtQuery.Proofs.Encode
import SmtQuery.Proofs.NamedSort

/-!
# What the gate decides

The gate collects the kinds of a problem from all of its lists, and asks seven questions about the
kinds, the inputs and the goals.  Here the same is said of the problem itself: `Problem.HasKind`
lists the places where a kind can occur, `Problem.Needs` says what brings up each feature, and
`Problem.IsOverUniversal` which goals cannot be optimised.

* `Problem.mem_kinds_iff`: the collected kinds are those that occur.
* `Feature.map_all`: the questions are asked in the order of `Feature.checks`, where they are
  written down with the words for each feature.
* `Problem.uses_iff`: the questions of the gate are about the features that the problem needs.
* `Problem.rejection?_eq_missing_iff` and `Problem.rejection?_eq_objectives_iff`: a single feature
  is reported, the first one that is missing; goals are reported together, and only if no feature
  is missing.

So the gate lets a problem pass exactly if its solver has all that the problem needs and no goal is
about a universally quantified input (`Problem.gate_eq_iff`).
-/

namespace SmtQuery

/-! ## The order of the questions -/

namespace Feature

/-- **What the gate asks for**, in its order, and in which words it reports what is missing. -/
def checks : List (Feature × String) :=
  [(.ints, "unbounded integers"),
    (.reals, "algebraic reals"),
    (.singleFloats, "single-precision floating-point numbers"),
    (.doubleFloats, "double-precision floating-point numbers"),
    (.quantifiers, "quantifiers"),
    (.namedSorts, "uninterpreted sorts"),
    (.optimization, "optimization routines")]

/-- The list of the gate and its words are the ones that are written down. -/
theorem map_all : all.map (fun feature => (feature, feature.text)) = checks := rfl

/-- No feature is left out. -/
theorem mem_all (feature : Feature) : feature ∈ all := by
  cases feature <;> decide

theorem mem_checks_iff {feature : Feature} {text : String} :
    (feature, text) ∈ checks ↔ text = feature.text := by
  rw [← map_all, List.mem_map]
  constructor
  · rintro ⟨other, -, heq⟩
    obtain ⟨rfl, rfl⟩ := Prod.mk.inj heq
    rfl
  · rintro rfl
    exact ⟨feature, mem_all feature, rfl⟩

/-- What comes before a feature on the list comes before it in the gate. -/
theorem exists_checks_eq_append_iff {feature : Feature} {text : String} {P : Feature → Prop} :
    (∃ front back, checks = front ++ (feature, text) :: back ∧ ∀ earlier ∈ front, P earlier.1) ↔
      text = feature.text ∧
        ∃ front back, all = front ++ feature :: back ∧ ∀ earlier ∈ front, P earlier := by
  constructor
  · rintro ⟨front, back, hsplit, hfront⟩
    refine ⟨mem_checks_iff.1 (hsplit ▸ List.mem_append_right _ List.mem_cons_self),
      front.map Prod.fst, back.map Prod.fst, ?_, List.forall_mem_map.2 hfront⟩
    calc all = checks.map Prod.fst := rfl
      _ = front.map Prod.fst ++ feature :: back.map Prod.fst := by
        rw [hsplit, List.map_append, List.map_cons]
  · rintro ⟨rfl, front, back, hsplit, hfront⟩
    refine ⟨front.map fun feature => (feature, feature.text),
      back.map fun feature => (feature, feature.text), ?_, List.forall_mem_map.2 hfront⟩
    rw [← map_all, hsplit, List.map_append, List.map_cons]

end Feature

namespace Problem

variable {p : Problem} {caps : Capabilities}

/-! ## Kinds -/

/-- Whether a kind occurs in a problem: as that of the output, of an input or one it depends on, of
a constant or its value, of an index or an element, in the signature of a function, as that of an
assigned value or of an operand of a goal, or because it was noted. -/
inductive HasKind (p : Problem) : Kind → Prop where
  | output : p.HasKind p.output.kind
  | noted {kind : Kind} (h : kind ∈ p.notedKinds) : p.HasKind kind
  | input {input : Input} (h : input ∈ p.inputs) : p.HasKind input.ref.kind
  | dependsOn {input : Input} {ref : Ref} (h : input ∈ p.inputs) (href : ref ∈ input.dependsOn) :
    p.HasKind ref.kind
  | constant {ref : Ref} {value : Value} (h : (ref, value) ∈ p.constants) : p.HasKind ref.kind
  | constantValue {ref : Ref} {value : Value} (h : (ref, value) ∈ p.constants) :
    p.HasKind value.kind
  | tableIndex {table : Table} (h : table ∈ p.tables) : p.HasKind table.index
  | tableElement {table : Table} (h : table ∈ p.tables) : p.HasKind table.element
  | arrayIndex {array : ArrayDecl} (h : array ∈ p.arrays) : p.HasKind array.index
  | arrayElement {array : ArrayDecl} (h : array ∈ p.arrays) : p.HasKind array.element
  | parameter {function : FunctionDecl} {kind : Kind} (h : function ∈ p.functions)
    (hkind : kind ∈ function.parameters) : p.HasKind kind
  | result {function : FunctionDecl} (h : function ∈ p.functions) : p.HasKind function.result
  | assignment {a : Assignment} (h : a ∈ p.assignments) : p.HasKind a.target.kind
  | objectiveValue {objective : Objective} (h : objective ∈ p.objectives) :
    p.HasKind objective.value.kind
  | objectiveTracker {objective : Objective} (h : objective ∈ p.objectives) :
    p.HasKind objective.tracker.kind

/-- A kind that is collected occurs somewhere. -/
theorem hasKind_of_mem {kind : Kind} (h : kind ∈ p.mentionedKinds) : p.HasKind kind := by
  simp only [mentionedKinds, List.mem_append, List.mem_flatMap, List.mem_map, List.mem_cons,
    List.not_mem_nil, or_false] at h
  rcases h with (((((((hnoted | rfl) | ⟨input, hinput, rfl | ⟨ref, href, rfl⟩⟩) |
    ⟨constant, hconstant, rfl | rfl⟩) | ⟨table, htable, rfl | rfl⟩) |
    ⟨array, harray, rfl | rfl⟩) | ⟨function, hfunction, hparameter | rfl⟩) |
    ⟨a, ha, rfl⟩) | ⟨objective, hobjective, rfl | rfl⟩
  · exact .noted hnoted
  · exact .output
  · exact .input hinput
  · exact .dependsOn hinput href
  · exact .constant hconstant
  · exact .constantValue hconstant
  · exact .tableIndex htable
  · exact .tableElement htable
  · exact .arrayIndex harray
  · exact .arrayElement harray
  · exact .parameter hfunction hparameter
  · exact .result hfunction
  · exact .assignment ha
  · exact .objectiveValue hobjective
  · exact .objectiveTracker hobjective

theorem kind_mem_of_objective {objective : Objective} (h : objective ∈ p.objectives) :
    objective.value.kind ∈ p.mentionedKinds ∧ objective.tracker.kind ∈ p.mentionedKinds := by
  have hmem : ∀ kind ∈ [objective.value.kind, objective.tracker.kind],
      kind ∈ p.objectives.flatMap fun objective => [objective.value.kind, objective.tracker.kind] :=
    fun kind hkind => List.mem_flatMap.2 ⟨objective, h, hkind⟩
  rw [List.forall_mem_cons, List.forall_mem_singleton] at hmem
  simp only [mentionedKinds, List.mem_append, hmem, or_true, and_self]

/-- **The kinds that are collected** are those that occur in the problem. -/
theorem mem_kinds_iff {kind : Kind} : kind ∈ p.kinds ↔ p.HasKind kind := by
  rw [kinds, List.mem_eraseDups]
  refine ⟨hasKind_of_mem, fun h => ?_⟩
  cases h with
  | output => simp [mentionedKinds]
  | noted h => simp only [mentionedKinds, List.mem_append, h, true_or]
  | input h => exact kind_mem_of_input h
  | dependsOn h href => exact kind_mem_of_dependsOn h href
  | constant h => exact (kind_mem_of_constant h).1
  | constantValue h => exact (kind_mem_of_constant h).2
  | tableIndex h => exact (kind_mem_of_table h).1
  | tableElement h => exact (kind_mem_of_table h).2
  | arrayIndex h => exact (kind_mem_of_array h).1
  | arrayElement h => exact (kind_mem_of_array h).2
  | parameter h hkind => exact kind_mem_of_function h _ (List.mem_append_left _ hkind)
  | result h =>
    exact kind_mem_of_function h _ (List.mem_append_right _ List.mem_cons_self)
  | assignment h => exact kind_mem_of_assignment h
  | objectiveValue h => exact (kind_mem_of_objective h).1
  | objectiveTracker h => exact (kind_mem_of_objective h).2

/-! ## Features -/

/-- What a problem needs: the features for the kinds that occur in it, quantifiers for an input that
its mode binds, and optimisation for a goal. -/
inductive Needs (p : Problem) : Feature → Prop where
  | ints (h : p.HasKind .int) : p.Needs .ints
  | reals (h : p.HasKind .real) : p.Needs .reals
  | singleFloats (h : p.HasKind (.float .single)) : p.Needs .singleFloats
  | doubleFloats (h : p.HasKind (.float .double)) : p.Needs .doubleFloats
  | universal {input : Input} (hmode : p.mode = .satisfiability) (h : input ∈ p.inputs)
    (hquantifier : input.quantifier = .universal) : p.Needs .quantifiers
  | existential {input : Input} (hmode : p.mode = .validity) (h : input ∈ p.inputs)
    (hquantifier : input.quantifier = .existential) : p.Needs .quantifiers
  | namedSorts {sort : NamedSort} (h : p.HasKind (.named sort)) : p.Needs .namedSorts
  | optimization {objective : Objective} (h : objective ∈ p.objectives) : p.Needs .optimization

/-- A kind is looked for among those that occur. -/
theorem contains_kinds_iff {kind : Kind} : p.kinds.contains kind = true ↔ p.HasKind kind := by
  rw [List.contains_iff_mem, mem_kinds_iff]

/-- **The questions of the gate** are about the features that the problem needs. -/
theorem uses_iff {feature : Feature} : p.uses p.kinds feature = true ↔ p.Needs feature := by
  cases feature with
  | ints => exact contains_kinds_iff.trans ⟨.ints, fun | .ints h => h⟩
  | reals => exact contains_kinds_iff.trans ⟨.reals, fun | .reals h => h⟩
  | singleFloats => exact contains_kinds_iff.trans ⟨.singleFloats, fun | .singleFloats h => h⟩
  | doubleFloats => exact contains_kinds_iff.trans ⟨.doubleFloats, fun | .doubleFloats h => h⟩
  | quantifiers =>
    rw [uses, needsQuantifiers_eq_any, List.any_eq_true]
    simp only [decide_eq_true_eq]
    constructor
    · rintro ⟨input, hinput, ⟨hmode, hquantifier⟩ | ⟨hmode, hquantifier⟩⟩
      · exact .universal hmode hinput hquantifier
      · exact .existential hmode hinput hquantifier
    · intro h
      cases h with
      | universal hmode hinput hquantifier => exact ⟨_, hinput, Or.inl ⟨hmode, hquantifier⟩⟩
      | existential hmode hinput hquantifier => exact ⟨_, hinput, Or.inr ⟨hmode, hquantifier⟩⟩
  | namedSorts =>
    rw [uses, List.any_eq_true]
    constructor
    · rintro ⟨kind, hkind, hnamed⟩
      cases kind with
      | named sort => exact .namedSorts (mem_kinds_iff.1 hkind)
      | _ => exact absurd hnamed Bool.false_ne_true
    · intro h
      cases h with
      | namedSorts h => exact ⟨_, mem_kinds_iff.2 h, rfl⟩
  | optimization =>
    rw [uses, isOptimization, Bool.not_eq_true', List.isEmpty_eq_false_iff_exists_mem]
    exact ⟨fun ⟨_, h⟩ => .optimization h, fun | .optimization h => ⟨_, h⟩⟩

/-- Whether a solver has everything that a problem needs. -/
def SupportedBy (p : Problem) (caps : Capabilities) : Prop :=
  ∀ feature, p.Needs feature → caps.supports feature = true

/-- Whether a feature, with its words, is the first one on the list of checks that a problem needs
and a solver lacks. -/
def FirstMissing (p : Problem) (caps : Capabilities) (feature : Feature) (text : String) : Prop :=
  p.Needs feature ∧ caps.supports feature = false ∧ ∃ front back,
    Feature.checks = front ++ (feature, text) :: back ∧
      ∀ earlier ∈ front, p.Needs earlier.1 → caps.supports earlier.1 = true

/-- A check fails if the feature is needed and missing. -/
theorem check_iff {feature : Feature} :
    (p.uses p.kinds feature && !caps.supports feature) = true ↔
      p.Needs feature ∧ caps.supports feature = false := by
  rw [Bool.and_eq_true, uses_iff, Bool.not_eq_true']

/-- The search for a missing feature ends at the first one. -/
theorem firstMissing_iff {feature : Feature} {text : String} :
    p.FirstMissing caps feature text ↔ text = feature.text ∧
      (Feature.all.find? fun feature => p.uses p.kinds feature && !caps.supports feature) =
        some feature := by
  have hfront : ∀ earlier, (!(p.uses p.kinds earlier && !caps.supports earlier)) = true ↔
      (p.Needs earlier → caps.supports earlier = true) := by
    intro earlier
    rw [Bool.not_eq_true', Bool.eq_false_iff, Ne, check_iff, not_and, Bool.not_eq_false]
  rw [FirstMissing, Feature.exists_checks_eq_append_iff
    (P := fun earlier => p.Needs earlier → caps.supports earlier = true),
    List.find?_eq_some_iff_append, check_iff]
  simp only [hfront]
  tauto

/-- The search finds nothing if all that is needed is there. -/
theorem find?_eq_none_iff_supportedBy :
    (Feature.all.find? fun feature => p.uses p.kinds feature && !caps.supports feature) = none ↔
      p.SupportedBy caps := by
  rw [List.find?_eq_none, SupportedBy]
  refine forall_congr' fun feature => ?_
  rw [check_iff, not_and, Bool.not_eq_false]
  exact ⟨fun h => h feature.mem_all, fun h _ => h⟩

/-! ## Goals -/

/-- Whether a goal is about a universally quantified input: one that has the number of the value
that is optimised, or that of the tracker. -/
def IsOverUniversal (p : Problem) (objective : Objective) : Prop :=
  ∃ input ∈ p.inputs, input.quantifier = .universal ∧
    (input.ref.id = objective.value.id ∨ input.ref.id = objective.tracker.id)

instance (p : Problem) (objective : Objective) : Decidable (p.IsOverUniversal objective) :=
  inferInstanceAs (Decidable (∃ input ∈ p.inputs, _))

theorem isUniversal_eq (objective : Objective) :
    p.isUniversal objective = decide (p.IsOverUniversal objective) := by
  rw [Bool.eq_iff_iff, decide_eq_true_eq, isUniversal, List.any_eq_true]
  simp only [Bool.and_eq_true, Bool.or_eq_true, decide_eq_true_eq]
  rfl

/-- **The goals that are reported**: each that is about such an input, in their order. -/
theorem universalObjectives_eq : p.universalObjectives =
    (p.objectives.filter fun objective => p.IsOverUniversal objective).map Objective.name := by
  rw [universalObjectives, funext isUniversal_eq]

theorem isEmpty_universalObjectives_iff : p.universalObjectives.isEmpty = true ↔
    ∀ objective ∈ p.objectives, ¬ p.IsOverUniversal objective := by
  rw [universalObjectives_eq, List.isEmpty_iff, List.map_eq_nil_iff, List.filter_eq_nil_iff]
  simp only [decide_eq_true_eq]

/-! ## The decision -/

/-- A feature is reported if it is the first that is missing. -/
theorem rejection?_eq_missing_iff {feature : Feature} :
    p.rejection? p.kinds caps = some (.missing feature) ↔
      p.FirstMissing caps feature feature.text := by
  rw [firstMissing_iff, rejection?, and_iff_right rfl]
  split
  · next found hfound => rw [hfound, Option.some.injEq, Option.some.injEq, Rejection.missing.injEq]
  · next hnone =>
    rw [hnone]
    split <;> simp

/-- Goals are reported if no feature is missing, and then all that cannot be optimised. -/
theorem rejection?_eq_objectives_iff {names : List String} :
    p.rejection? p.kinds caps = some (.universalObjectives names) ↔
      p.SupportedBy caps ∧ (∃ objective ∈ p.objectives, p.IsOverUniversal objective) ∧
      names = (p.objectives.filter fun objective => p.IsOverUniversal objective).map
        Objective.name := by
  rw [← find?_eq_none_iff_supportedBy, ← universalObjectives_eq, rejection?]
  split
  · next found hfound => simp [hfound]
  · next hnone =>
    have hexists : (∃ objective ∈ p.objectives, p.IsOverUniversal objective) ↔
        ¬ p.universalObjectives.isEmpty = true := by
      rw [isEmpty_universalObjectives_iff]
      push Not
      rfl
    rw [hexists]
    split
    · next hempty => simp [hempty]
    · next hempty => simp [hnone, hempty, eq_comm]

/-- Nothing is reported if no feature is missing and every goal can be optimised. -/
theorem rejection?_eq_none_iff : p.rejection? p.kinds caps = none ↔
    p.SupportedBy caps ∧ ∀ objective ∈ p.objectives, ¬ p.IsOverUniversal objective := by
  rw [← find?_eq_none_iff_supportedBy, ← isEmpty_universalObjectives_iff, rejection?]
  split
  · next found hfound => simp [hfound]
  · next hnone => split <;> simp_all

/-- The gate lets a problem pass that there is nothing against. -/
theorem gate_eq_ok_iff : p.gate caps = .ok () ↔ p.rejection? p.kinds caps = none := by
  rw [gate]
  cases p.rejection? p.kinds caps <;> simp

/-- An error of the gate is a reason for rejection. -/
theorem gate_eq_error_iff {e : Error} : p.gate caps = .error e ↔
    ∃ rejection, p.rejection? p.kinds caps = some rejection ∧ e = rejection.error caps.name := by
  rw [gate]
  cases p.rejection? p.kinds caps with
  | none => simp
  | some rejection =>
    constructor
    · intro h
      exact ⟨rejection, rfl, (Except.error.inj h).symm⟩
    · rintro ⟨rejection', hrejection, rfl⟩
      rw [Option.some.inj hrejection]

/-- **What the gate decides.**  A problem passes exactly if its solver has all that the problem
needs and no goal is about a universally quantified input.  Otherwise there is one error, under the
name of the solver's table: in the words for it, the first feature on the list of checks that is
needed and missing, or, only if none is, the goals that are about such an input, with the name of
each in their order. -/
theorem gate_eq_iff (p : Problem) (caps : Capabilities) :
    (p.gate caps = .ok () ↔
      p.SupportedBy caps ∧ ∀ objective ∈ p.objectives, ¬ p.IsOverUniversal objective) ∧
    ∀ e, p.gate caps = .error e ↔
      (∃ feature text, p.FirstMissing caps feature text ∧
        e = .unsupportedFeature caps.name text) ∨
      (p.SupportedBy caps ∧ (∃ objective ∈ p.objectives, p.IsOverUniversal objective) ∧
        e = .unsupportedOptimization caps.name
          ((p.objectives.filter fun objective => p.IsOverUniversal objective).map
            Objective.name)) := by
  refine ⟨gate_eq_ok_iff.trans rejection?_eq_none_iff, fun e => ?_⟩
  rw [gate_eq_error_iff]
  constructor
  · rintro ⟨feature | names, hrejection, rfl⟩
    · exact Or.inl ⟨feature, _, rejection?_eq_missing_iff.1 hrejection, rfl⟩
    · obtain ⟨hsupported, hexists, rfl⟩ := rejection?_eq_objectives_iff.1 hrejection
      exact Or.inr ⟨hsupported, hexists, rfl⟩
  · rintro (⟨feature, text, hmissing, rfl⟩ | ⟨hsupported, hexists, rfl⟩)
    · obtain rfl := (firstMissing_iff.1 hmissing).1
      exact ⟨.missing feature, rejection?_eq_missing_iff.2 hmissing, rfl⟩
    · exact ⟨_, rejection?_eq_objectives_iff.2 ⟨hsupported, hexists, rfl⟩, rfl⟩

/-- A query that needs every feature, and has two goals of which the second is about a universally
quantified input. -/
def demandingQuery : Problem where
  inputs := [{ ref := ⟨⟨0⟩, .int⟩, name := "x", quantifier := .universal }]
  output := ⟨⟨9⟩, .bitVec false 1⟩
  config := .ofSolver .z3
  objectives := [⟨"first", .minimize, ⟨⟨1⟩, .int⟩, ⟨⟨1⟩, .int⟩⟩,
    ⟨"second", .maximize, ⟨⟨0⟩, .int⟩, ⟨⟨0⟩, .int⟩⟩]
  notedKinds := [.real, .float .single, .float .double, .named ⟨"Color", none⟩]

/-- It is rejected for each feature in turn, as the solver gets one more of them, and then for the
second goal.  Without that goal it passes. -/
theorem gate_eq_iff_demandingQuery :
    let bare (features : List Feature) : Capabilities := .ofList "bare" features
    demandingQuery.gate (bare []) = .error (.unsupportedFeature "bare" "unbounded integers") ∧
    demandingQuery.gate (bare [.ints]) = .error (.unsupportedFeature "bare" "algebraic reals") ∧
    demandingQuery.gate (bare [.ints, .reals]) =
      .error (.unsupportedFeature "bare" "single-precision floating-point numbers") ∧
    demandingQuery.gate (bare [.ints, .reals, .singleFloats]) =
      .error (.unsupportedFeature "bare" "double-precision floating-point numbers") ∧
    demandingQuery.gate (bare [.ints, .reals, .singleFloats, .doubleFloats]) =
      .error (.unsupportedFeature "bare" "quantifiers") ∧
    demandingQuery.gate (bare [.ints, .reals, .singleFloats, .doubleFloats, .quantifiers]) =
      .error (.unsupportedFeature "bare" "uninterpreted sorts") ∧
    demandingQuery.gate Solver.cvc5.capabilities =
      .error (.unsupportedFeature "CVC5" "optimization routines") ∧
    demandingQuery.gate Solver.z3.capabilities =
      .error (.unsupportedOptimization "Z3" ["second"]) ∧
    { demandingQuery with objectives := demandingQuery.objectives.take 1 }.gate
      Solver.z3.capabilities = .ok () := by
  intro bare
  have hneeds : ∀ feature, demandingQuery.Needs feature := by
    intro feature
    rw [← uses_iff]
    cases feature <;> decide
  -- a solver that has all features in front of a place on the list, and not the one there
  have hmissing : ∀ (n : Fin 7) (caps : Capabilities),
      (∀ earlier ∈ Feature.checks.take n, caps.supports earlier.1 = true) →
      caps.supports (Feature.checks.get n).1 = false →
      demandingQuery.gate caps =
        .error (.unsupportedFeature caps.name (Feature.checks.get n).2) := by
    intro n caps hfront hfeature
    refine ((gate_eq_iff demandingQuery caps).2 _).2 (Or.inl ⟨_, _, ⟨hneeds _, hfeature,
      Feature.checks.take n, Feature.checks.drop (n + 1), ?_, fun _ h _ => hfront _ h⟩, rfl⟩)
    exact (List.take_append_drop n _).symm.trans (congrArg _ (List.drop_eq_getElem_cons n.isLt))
  have hall : ∀ feature, Solver.z3.capabilities.supports feature = true := by
    intro feature
    cases feature <;> decide
  refine ⟨hmissing 0 _ (by decide) rfl, hmissing 1 _ (by decide) rfl, hmissing 2 _ (by decide) rfl,
    hmissing 3 _ (by decide) rfl, hmissing 4 _ (by decide) rfl, hmissing 5 _ (by decide) rfl,
    hmissing 6 _ (by decide) rfl, ?_, ?_⟩
  · exact ((gate_eq_iff _ _).2 _).2 (Or.inr ⟨fun feature _ => hall feature, by decide, rfl⟩)
  · exact (gate_eq_iff _ _).1.2 ⟨fun feature _ => hall feature, by decide⟩

end Problem
end SmtQuery
