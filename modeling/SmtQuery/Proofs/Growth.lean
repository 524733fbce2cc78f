import Mathlib
import SmtQuery.Problem.Addition
import SmtQuery.Proofs.Gate

/-!
# Problems only grow

Whatever is added to a problem goes to the end of one of its lists.  `Problem.Extends` says so of
all lists at once; one addition keeps it (`Problem.extends_add`), and so do several
(`Problem.extends_addAll`).

The gate makes eight checks in a fixed order and reports the first that fails.  Each of them looks
for something that the problem has and the solver cannot take.  What is there stays there, so a
check that fails keeps failing: the report can only move to an earlier check, and the one check
that lists its reasons can only list more of them (`Problem.gate_addAll`).
-/

namespace SmtQuery

/-- A search with fewer objections finds something that stands no later. -/
theorem List.find?_mono {α : Type} [DecidableEq α] {f g : α → Bool} {xs : List α} {a : α}
    (hfg : ∀ x, f x = true → g x = true) (h : xs.find? f = some a) :
    ∃ b, xs.find? g = some b ∧ xs.idxOf b ≤ xs.idxOf a := by
  induction xs with
  | nil => exact absurd h (by simp)
  | cons x xs ih =>
    cases hg : g x with
    | true => exact ⟨x, List.find?_cons_of_pos hg, by simp⟩
    | false =>
      have hf : f x = false := by
        rw [Bool.eq_false_iff]
        intro hf
        rw [hfg x hf] at hg
        exact absurd hg (by simp)
      rw [List.find?_cons_of_neg (by simp [hf])] at h
      obtain ⟨b, hb, hle⟩ := ih h
      -- neither of the two is the first item, so both stand one place further back
      have hxa : x ≠ a := by
        rintro rfl
        rw [List.find?_some h] at hf
        exact absurd hf (by simp)
      have hxb : x ≠ b := by
        rintro rfl
        rw [List.find?_some hb] at hg
        exact absurd hg (by simp)
      refine ⟨b, by rw [List.find?_cons_of_neg (by simp [hg]), hb], ?_⟩
      rw [List.idxOf_cons_ne _ hxa, List.idxOf_cons_ne _ hxb]
      exact Nat.succ_le_succ hle

/-! ## The checks of the gate -/

/-- The position of the check of the gate that reports an error: the features in the order of their
list, and behind them the check for universal objectives. -/
def Error.gateRank : Error → ℕ
  | unsupportedFeature _ text => (Feature.checks.map Prod.snd).idxOf text
  | _ => Feature.checks.length

theorem Rejection.gateRank_missing (solver : String) (feature : Feature) :
    ((missing feature).error solver).gateRank = Feature.all.idxOf feature := by
  -- no two features have the same words
  have htext : (Feature.checks.map Prod.snd).idxOf feature.text = Feature.all.idxOf feature := by
    rw [← Feature.map_all, List.map_map]
    cases feature <;> decide
  exact htext

/-- When a reason for rejection takes precedence over another, or is the same one with more to
report: features come in their order and before the objectives. -/
inductive Rejection.Outdoes : Rejection → Rejection → Prop where
  | missing {feature other : Feature} (h : Feature.all.idxOf feature ≤ Feature.all.idxOf other) :
    Outdoes (.missing feature) (.missing other)
  | beforeObjectives (feature : Feature) (names : List String) :
    Outdoes (.missing feature) (.universalObjectives names)
  | objectives {names other : List String} (h : other.Sublist names) :
    Outdoes (.universalObjectives names) (.universalObjectives other)

theorem Rejection.Outdoes.gateRank_le {rejection other : Rejection} (h : rejection.Outdoes other)
    (solver : String) : (rejection.error solver).gateRank ≤ (other.error solver).gateRank := by
  cases h with
  | missing hle =>
    rw [gateRank_missing, gateRank_missing]
    exact hle
  | beforeObjectives feature names =>
    rw [gateRank_missing]
    exact List.idxOf_le_length
  | objectives _ => exact Nat.le_refl _

theorem Rejection.Outdoes.names {rejection other : Rejection} (h : rejection.Outdoes other)
    {solver solver₁ solver₂ : String} {names₁ names₂ : List String}
    (hother : other.error solver = .unsupportedOptimization solver₁ names₁)
    (hrejection : rejection.error solver = .unsupportedOptimization solver₂ names₂) :
    names₁.Sublist names₂ := by
  cases h with
  | missing _ => exact absurd hother (by simp [Rejection.error])
  | beforeObjectives feature names => exact absurd hrejection (by simp [Rejection.error])
  | objectives hnames =>
    rw [← (Error.unsupportedOptimization.inj hother).2,
      ← (Error.unsupportedOptimization.inj hrejection).2]
    exact hnames

namespace Problem

variable {p q r : Problem} {caps : Capabilities}

/-! ## Growth -/

/-- Whether a problem is another one with more behind each of its lists, for the same output and
with the same configuration. -/
structure Extends (p q : Problem) : Prop where
  mode : p.mode = q.mode
  output : p.output = q.output
  config : p.config = q.config
  comments : p.comments <+: q.comments
  inputs : p.inputs <+: q.inputs
  constants : p.constants <+: q.constants
  tables : p.tables <+: q.tables
  arrays : p.arrays <+: q.arrays
  functions : p.functions <+: q.functions
  postulates : p.postulates <+: q.postulates
  assignments : p.assignments <+: q.assignments
  constraints : p.constraints <+: q.constraints
  objectives : p.objectives <+: q.objectives
  notedKinds : p.notedKinds <+: q.notedKinds

theorem Extends.refl (p : Problem) : p.Extends p := by
  constructor <;> rfl

theorem Extends.trans (h : p.Extends q) (h' : q.Extends r) : p.Extends r where
  mode := h.mode.trans h'.mode
  output := h.output.trans h'.output
  config := h.config.trans h'.config
  comments := h.comments.trans h'.comments
  inputs := h.inputs.trans h'.inputs
  constants := h.constants.trans h'.constants
  tables := h.tables.trans h'.tables
  arrays := h.arrays.trans h'.arrays
  functions := h.functions.trans h'.functions
  postulates := h.postulates.trans h'.postulates
  assignments := h.assignments.trans h'.assignments
  constraints := h.constraints.trans h'.constraints
  objectives := h.objectives.trans h'.objectives
  notedKinds := h.notedKinds.trans h'.notedKinds

/-- **One addition** goes to the end of one list. -/
theorem extends_add (p : Problem) (addition : Addition) : p.Extends (p.add addition) := by
  cases addition <;> constructor <;>
    first | rfl | exact List.prefix_append _ _

/-- **Several additions**, by induction along them. -/
theorem extends_addAll (p : Problem) (additions : List Addition) :
    p.Extends (p.addAll additions) := by
  induction additions generalizing p with
  | nil => exact .refl p
  | cons addition additions ih => exact (p.extends_add addition).trans (ih _)

/-! ## What the gate looks at -/

namespace Extends

variable (h : p.Extends q)

include h

/-- The kinds stay in their order, with more between them. -/
theorem mentionedKinds : p.mentionedKinds.Sublist q.mentionedKinds := by
  rw [Problem.mentionedKinds, Problem.mentionedKinds, h.output]
  exact ((((((((h.notedKinds.sublist.append (List.Sublist.refl _)).append
    (h.inputs.sublist.flatMap _)).append (h.constants.sublist.flatMap _)).append
    (h.tables.sublist.flatMap _)).append (h.arrays.sublist.flatMap _)).append
    (h.functions.sublist.flatMap _)).append (h.assignments.sublist.map _)).append
    (h.objectives.sublist.flatMap _))

/-- **The kinds only become more.** -/
theorem kinds : p.kinds ⊆ q.kinds := by
  intro kind hkind
  exact List.mem_eraseDups.2 (h.mentionedKinds.subset (List.mem_eraseDups.1 hkind))

theorem needsQuantifiers (hneeds : p.needsQuantifiers = true) : q.needsQuantifiers = true := by
  rw [needsQuantifiers_eq_any, List.any_eq_true] at hneeds ⊢
  obtain ⟨input, hinput, hbinds⟩ := hneeds
  exact ⟨input, h.inputs.subset hinput, h.mode ▸ hbinds⟩

/-- **A feature in use stays in use.** -/
theorem uses {feature : Feature} (hused : p.uses p.kinds feature = true) :
    q.uses q.kinds feature = true := by
  have hcontains : ∀ kind : Kind, p.kinds.contains kind = true → q.kinds.contains kind = true :=
    fun kind hkind => List.contains_iff_mem.2 (h.kinds (List.contains_iff_mem.1 hkind))
  cases feature with
  | ints => exact hcontains _ hused
  | reals => exact hcontains _ hused
  | singleFloats => exact hcontains _ hused
  | doubleFloats => exact hcontains _ hused
  | quantifiers => exact h.needsQuantifiers hused
  | namedSorts =>
    obtain ⟨kind, hkind, hnamed⟩ := List.any_eq_true.1 hused
    exact List.any_eq_true.2 ⟨kind, h.kinds hkind, hnamed⟩
  | optimization =>
    rw [Problem.uses, isOptimization, Bool.not_eq_true',
      List.isEmpty_eq_false_iff_exists_mem] at hused ⊢
    obtain ⟨objective, hobjective⟩ := hused
    exact ⟨objective, h.objectives.subset hobjective⟩

/-- An objective that involves a universally quantified input still does. -/
theorem isUniversal {objective : Objective} (huniversal : p.isUniversal objective = true) :
    q.isUniversal objective = true := by
  obtain ⟨input, hinput, hid⟩ := List.any_eq_true.1 huniversal
  exact List.any_eq_true.2 ⟨input, h.inputs.subset hinput, hid⟩

/-- **The objectives that are reported stay reported**, in the same order. -/
theorem universalObjectives : p.universalObjectives.Sublist q.universalObjectives :=
  ((List.monotone_filter_right _ fun _ => h.isUniversal).trans
    (h.objectives.sublist.filter _)).map _

/-- **What there is against a problem stays**, or something before it comes up. -/
theorem rejection {other : Rejection} (hother : p.rejection? p.kinds caps = some other) :
    ∃ rejection, q.rejection? q.kinds caps = some rejection ∧ rejection.Outdoes other := by
  have hmissing : ∀ feature, (p.uses p.kinds feature && !caps.supports feature) = true →
      (q.uses q.kinds feature && !caps.supports feature) = true := by
    intro feature hfeature
    rw [Bool.and_eq_true] at hfeature ⊢
    exact ⟨h.uses hfeature.1, hfeature.2⟩
  rw [rejection?] at hother
  split at hother
  · next feature hfound =>
    -- a feature is missing: the search for missing features ends there or before
    obtain rfl := Option.some.inj hother
    obtain ⟨earlier, hearlier, hle⟩ := List.find?_mono hmissing hfound
    exact ⟨.missing earlier, by rw [rejection?, hearlier], .missing hle⟩
  · split at hother
    · exact absurd hother (by simp)
    · next hobjectives =>
      obtain rfl := Option.some.inj hother
      have hnonempty : ¬ q.universalObjectives.isEmpty = true := by
        rw [List.isEmpty_iff] at hobjectives ⊢
        intro hempty
        exact hobjectives (List.eq_nil_of_sublist_nil (hempty ▸ h.universalObjectives))
      cases hfound : Feature.all.find? fun feature =>
          q.uses q.kinds feature && !caps.supports feature with
      | some feature =>
        exact ⟨.missing feature, by rw [rejection?, hfound], .beforeObjectives feature _⟩
      | none =>
        exact ⟨.universalObjectives q.universalObjectives,
          by rw [rejection?, hfound, if_neg hnonempty], .objectives h.universalObjectives⟩

/-- **A rejected problem stays rejected**, by the same check or an earlier one. -/
theorem gate {e : Error} (herror : p.gate caps = .error e) :
    ∃ e', q.gate caps = .error e' ∧ e'.gateRank ≤ e.gateRank ∧
      ∀ solver solver' names names', e = .unsupportedOptimization solver names →
        e' = .unsupportedOptimization solver' names' → names.Sublist names' := by
  obtain ⟨other, hother, rfl⟩ := gate_eq_error_iff.1 herror
  obtain ⟨rejection, hrejection, houtdoes⟩ := h.rejection hother
  exact ⟨rejection.error caps.name, gate_eq_error_iff.2 ⟨rejection, hrejection, rfl⟩,
    houtdoes.gateRank_le caps.name, fun _ _ _ _ => houtdoes.names⟩

end Extends

/-- **Rejection is permanent.**  Whatever is added to a problem, one thing after another: the kinds
that it mentions only become more, and if the gate of a solver rejects it, then the gate rejects it
afterwards as well.  The check that is reported then is the same or an earlier one, and if both
times it is the one for objectives over universally quantified inputs, then the names of the first
report stand in the second, in the same order. -/
theorem gate_addAll (p : Problem) (caps : Capabilities) (additions : List Addition) :
    p.kinds ⊆ (p.addAll additions).kinds ∧
    ∀ e, p.gate caps = .error e → ∃ e', (p.addAll additions).gate caps = .error e' ∧
      e'.gateRank ≤ e.gateRank ∧
      ∀ solver solver' names names', e = .unsupportedOptimization solver names →
        e' = .unsupportedOptimization solver' names' → names.Sublist names' := by
  have h := p.extends_addAll additions
  exact ⟨h.kinds, fun _ => h.gate⟩

/-- A query with two goals, of which only the second is about a universally quantified input. -/
def pledgedQuery : Problem where
  inputs := [{ ref := ⟨⟨0⟩, .int⟩, name := "x", quantifier := .universal }]
  output := ⟨⟨9⟩, .bitVec false 1⟩
  config := .ofSolver .z3
  objectives := [⟨"first", .minimize, ⟨⟨1⟩, .int⟩, ⟨⟨1⟩, .int⟩⟩,
    ⟨"second", .maximize, ⟨⟨0⟩, .int⟩, ⟨⟨0⟩, .int⟩⟩]

/-- It is rejected for the second goal; with another universal input it is rejected for both. -/
theorem gate_addAll_pledgedQuery :
    let caps := Solver.z3.capabilities
    let additions : List Addition :=
      [.kind .real, .input { ref := ⟨⟨1⟩, .int⟩, name := "y", quantifier := .universal }]
    pledgedQuery.gate caps = .error (.unsupportedOptimization "Z3" ["second"]) ∧
      (pledgedQuery.addAll additions).gate caps =
        .error (.unsupportedOptimization "Z3" ["first", "second"]) ∧
      ∃ e', (pledgedQuery.addAll additions).gate caps = .error e' ∧
        e'.gateRank ≤ (Error.unsupportedOptimization "Z3" ["second"]).gateRank ∧
        ∀ solver solver' names names',
          Error.unsupportedOptimization "Z3" ["second"] = .unsupportedOptimization solver names →
          e' = .unsupportedOptimization solver' names' → names.Sublist names' := by
  intro caps additions
  have hrejected : pledgedQuery.gate caps =
      .error (.unsupportedOptimization "Z3" ["second"]) := rfl
  exact ⟨hrejected, rfl, (gate_addAll pledgedQuery caps additions).2 _ hrejected⟩

end Problem
end SmtQuery
