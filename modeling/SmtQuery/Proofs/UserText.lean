import Mathlib
import SmtQuery.Proofs.Comment
import SmtQuery.Proofs.Enumeration

/-!
# User text does not change the program

A problem carries text that is there for people: its comments, whether they are written, and the
names of inputs, postulates and objectives.  `withoutUserText` blanks all of it, so two problems
differ in such text only if they are the same without it.

Each part of a script is compared with the part that is written without user text.  Most of them are
the same; comments stand only in the header and in front of postulates.  So the scripts agree in the
commands that are not comments (`encode_of_withoutUserText`), and as comments have no tokens, their
texts are cut into the same tokens (`encodeWith_of_withoutUserText`).
-/

namespace SmtQuery

/-- An input with a blank name. -/
def Input.withoutName (input : Input) : Input := { input with name := "" }

/-- A postulate with a blank name. -/
def Postulate.withoutName (postulate : Postulate) : Postulate := { postulate with name := "" }

/-- An objective with a blank name. -/
def Objective.withoutName (objective : Objective) : Objective := { objective with name := "" }

/-- What does not look at names picks the same inputs without them. -/
theorem Input.filter_map_withoutName {f : Input → Bool}
    (hf : ∀ input : Input, f input.withoutName = f input) (inputs : List Input) :
    (inputs.map Input.withoutName).filter f = (inputs.filter f).map Input.withoutName :=
  List.filter_map.trans (congrArg _ (List.filter_congr fun input _ => hf input))

namespace Problem

open Command

/-- The problem with blank names, and without comments. -/
def withoutUserText (p : Problem) : Problem :=
  { p with
    comments := []
    inputs := p.inputs.map Input.withoutName
    postulates := p.postulates.map Postulate.withoutName
    objectives := p.objectives.map Objective.withoutName
    config := { p.config with emitComments := false } }

variable {p q : Problem} {kinds kinds' : List Kind}

/-! ## What is the same without user text -/

theorem freeInputs_withoutUserText :
    p.withoutUserText.freeInputs = p.freeInputs.map Input.withoutName :=
  Input.filter_map_withoutName (fun _ => rfl) p.inputs

theorem boundInputs_withoutUserText :
    p.withoutUserText.boundInputs = p.boundInputs.map Input.withoutName :=
  Input.filter_map_withoutName (fun _ => rfl) p.inputs

theorem isEmpty_boundInputs_withoutUserText :
    p.withoutUserText.boundInputs.isEmpty = p.boundInputs.isEmpty := by
  rw [boundInputs_withoutUserText, List.isEmpty_map]

theorem kinds_withoutUserText : p.withoutUserText.kinds = p.kinds := by
  simp only [Problem.kinds, mentionedKinds, withoutUserText, List.flatMap_map]
  rfl

theorem isOptimization_withoutUserText : p.withoutUserText.isOptimization = p.isOptimization := by
  simp only [isOptimization, withoutUserText, List.isEmpty_map]

/-- The names of universal objectives are reported, but do not matter for whether there are any. -/
theorem isEmpty_universalObjectives_withoutUserText :
    p.withoutUserText.universalObjectives.isEmpty = p.universalObjectives.isEmpty := by
  have hfilter : p.withoutUserText.objectives.filter p.withoutUserText.isUniversal =
      (p.objectives.filter p.isUniversal).map Objective.withoutName :=
    List.filter_map.trans (congrArg _ (List.filter_congr fun objective _ => List.any_map))
  rw [universalObjectives, universalObjectives, hfilter, List.isEmpty_map, List.isEmpty_map,
    List.isEmpty_map]

/-- The gate lets both pass or none. -/
theorem rejection?_withoutUserText (caps : Capabilities) :
    p.withoutUserText.rejection? kinds caps = none ↔ p.rejection? kinds caps = none := by
  have huses : ∀ feature, p.withoutUserText.uses kinds feature = p.uses kinds feature := by
    intro feature
    cases feature with
    | quantifiers =>
      rw [uses, uses, needsQuantifiers_eq, needsQuantifiers_eq,
        isEmpty_boundInputs_withoutUserText]
    | optimization => exact isOptimization_withoutUserText
    | _ => rfl
  simp only [rejection?, huses, isEmpty_universalObjectives_withoutUserText]
  split
  · simp
  · split <;> simp

theorem logic_withoutUserText : p.withoutUserText.logic kinds = p.logic kinds := by
  have hskolem : p.withoutUserText.inputs.any Input.isSkolem = p.inputs.any Input.isSkolem :=
    List.any_map
  rw [logic, logic, isEmpty_boundInputs_withoutUserText, hasFunctions, hasFunctions, hskolem]
  rfl

theorem openFormula_withoutUserText (goal : Term) :
    p.withoutUserText.openFormula goal = p.openFormula goal := by
  have htrackers : p.withoutUserText.objectives.map (fun o => Command.assert o.trackerEquation) =
      p.objectives.map fun o => Command.assert o.trackerEquation := List.map_map
  rw [openFormula, openFormula, htrackers]
  rfl

theorem closedFormula_withoutUserText (goal : Term) :
    p.withoutUserText.closedFormula goal = p.closedFormula goal := by
  have htrackers : p.withoutUserText.objectives.map Objective.trackerEquation =
      p.objectives.map Objective.trackerEquation := List.map_map
  have hvariables : p.withoutUserText.boundVariables = p.boundVariables := by
    rw [boundVariables, boundInputs_withoutUserText, List.map_map]
    rfl
  have hbindings : p.withoutUserText.skolemBindings = p.skolemBindings := by
    rw [skolemBindings, freeInputs_withoutUserText, Input.filter_map_withoutName fun _ => rfl,
      List.map_map]
    rfl
  rw [closedFormula, closedFormula, htrackers, hvariables, hbindings]
  rfl

theorem formula_withoutUserText (goal : Term) :
    p.withoutUserText.formula goal = p.formula goal := by
  rw [formula, formula, isEmpty_boundInputs_withoutUserText, openFormula_withoutUserText,
    closedFormula_withoutUserText]

theorem postlude_withoutUserText : p.withoutUserText.postlude = p.postlude := by
  rw [postlude, postlude, isOptimization_withoutUserText, freeInputs_withoutUserText,
    Input.filter_map_withoutName fun _ => rfl, List.map_map]
  rfl

/-! ## What is the same apart from comments -/

/-- The header starts with the comments, if they are written. -/
theorem dropComments_header_withoutUserText :
    dropComments (p.withoutUserText.header kinds) = dropComments (p.header kinds) := by
  have hcomments : dropComments (if p.config.emitComments then p.comments.map Command.comment
      else []) = [] := by
    split
    · exact List.filter_eq_nil_iff.2 (List.forall_mem_map.2 fun text _ => by simp [isComment])
    · rfl
  simp only [header, logic_withoutUserText, dropComments_append, hcomments]
  rfl

/-- A postulate comes with its name in a comment. -/
theorem dropComments_postulates_withoutUserText :
    dropComments (p.withoutUserText.postulates.flatMap Postulate.commands) =
      dropComments (p.postulates.flatMap Postulate.commands) := by
  rw [dropComments, dropComments, List.filter_flatMap, List.filter_flatMap]
  exact List.flatMap_map ..

/-- **The commands in front of the formula** are the same, apart from comments. -/
theorem dropComments_declarations_withoutUserText (sorts : List NamedSort)
    (tables : List (List Command)) :
    dropComments (p.withoutUserText.declarations sorts tables) =
      dropComments (p.declarations sorts tables) := by
  have hinputs : p.withoutUserText.freeInputs.map Input.declaration =
      p.freeInputs.map Input.declaration := by
    rw [freeInputs_withoutUserText, List.map_map]
    rfl
  simp only [declarations, kinds_withoutUserText, dropComments_append, hinputs,
    dropComments_header_withoutUserText, dropComments_postulates_withoutUserText]
  rfl

/-! ## Two runs -/

/-- What is the same without user text is the same for both problems. -/
theorem eq_of_withoutUserText {α : Type} {f : Problem → α}
    (hf : ∀ p : Problem, f p.withoutUserText = f p)
    (hsame : p.withoutUserText = q.withoutUserText) : f p = f q := by
  rw [← hf p, hsame, hf q]

/-- **Two problems that differ in user text** are written in the same way, apart from comments. -/
theorem encode_of_withoutUserText (hsame : p.withoutUserText = q.withoutUserText) {a : Program}
    (h : p.encode = .ok a) :
    ∃ b, q.encode = .ok b ∧ a.preamble.proper = b.preamble.proper ∧ a.postlude = b.postlude := by
  obtain ⟨hgate, sorts, tables, goal, hsorts, htables, hgoal, rfl⟩ := encode_eq_ok_iff.1 h
  have hkinds : p.kinds = q.kinds := eq_of_withoutUserText (fun _ => kinds_withoutUserText) hsame
  have hrejection : (p.rejection? p.kinds p.config.capabilities = none) =
      (q.rejection? q.kinds q.config.capabilities = none) :=
    eq_of_withoutUserText (f := fun p => p.rejection? p.kinds p.config.capabilities = none)
      (fun p => propext (by rw [kinds_withoutUserText]; exact rejection?_withoutUserText _)) hsame
  rw [hrejection] at hgate
  rw [hkinds] at hsorts
  rw [eq_of_withoutUserText (f := Problem.tables) (fun _ => rfl) hsame] at htables
  rw [eq_of_withoutUserText (f := Problem.goal) (fun _ => rfl) hsame] at hgoal
  refine ⟨_, encode_eq_ok_iff.2 ⟨hgate, sorts, tables, goal, hsorts, htables, hgoal, rfl⟩, ?_,
    congrArg Script.mk (eq_of_withoutUserText (fun _ => postlude_withoutUserText) hsame)⟩
  have hdeclarations : dropComments (p.declarations sorts tables) =
      dropComments (q.declarations sorts tables) :=
    eq_of_withoutUserText (f := fun p => dropComments (p.declarations sorts tables))
      (fun _ => dropComments_declarations_withoutUserText sorts tables) hsame
  have hformula : p.formula goal = q.formula goal :=
    eq_of_withoutUserText (f := fun p => p.formula goal)
      (fun _ => formula_withoutUserText goal) hsame
  have hobjectives : p.objectives.map Objective.command = q.objectives.map Objective.command :=
    eq_of_withoutUserText (f := fun p => p.objectives.map Objective.command)
      (fun _ => List.map_map) hsame
  simp only [Script.proper, dropComments_append, hdeclarations, hformula, hobjectives]

/-- **User text does not change the program.**  Two problems are the same but for their comments,
whether these are written, and the names of inputs, postulates and objectives.  The kinds of each
are enumerated in any order, and the one is written.  Then so is the other, and the two sessions
have the same commands apart from comments.  If each of these commands can be cut into tokens by
itself, then the text of either session is cut into the tokens of these commands, one after
another. -/
theorem encodeWith_of_withoutUserText (hsame : p.withoutUserText = q.withoutUserText)
    (hkinds : kinds.Perm p.kinds) (hkinds' : kinds'.Perm q.kinds) {a : Program}
    (h : p.encodeWith kinds = .ok a) :
    ∃ b, q.encodeWith kinds' = .ok b ∧ a.script.proper = b.script.proper ∧
      ((∀ c ∈ a.script.proper, ∃ tokens, Token.Lexes c.text tokens) →
        ∃ parts, List.Forall₂ (fun c tokens => Token.Lexes c.text tokens) a.script.proper parts ∧
          Token.Lexes a.script.text parts.flatten ∧ Token.Lexes b.script.text parts.flatten) := by
  rw [encodeWith_eq_encode hkinds (Or.inl h)] at h
  obtain ⟨b, hb, hpreamble, hpostlude⟩ := encode_of_withoutUserText hsame h
  have hproper : a.script.proper = b.script.proper := by
    simp only [Script.proper, Program.script, Script.push, Script.append,
      dropComments_append] at hpreamble ⊢
    rw [hpreamble, hpostlude]
  refine ⟨b, (encodeWith_eq_encode hkinds' (Or.inr hb)).trans hb, hproper, fun hcut => ?_⟩
  obtain ⟨parts, hparts⟩ := Script.exists_parts hcut
  exact ⟨parts, hparts, Script.lexes_text hparts, Script.lexes_text (hproper ▸ hparts)⟩

/-- A query with a comment, and with one name for an input and a postulate. -/
def remarkedQuery (comment name : String) : Problem where
  comments := [comment]
  inputs := [{ ref := ⟨⟨0⟩, .int⟩, name }]
  postulates := [⟨name, .eq (.const "s0") (.int 1)⟩]
  output := ⟨⟨1⟩, .bitVec false 1⟩
  config := .ofSolver .z3

/-- The theorem at a comment and a name that would assert something if they stood on lines of their
own. -/
theorem encodeWith_of_withoutUserText_remarkedQuery : ∃ a b,
    (remarkedQuery "plain" "x").encode = .ok a ∧
    (remarkedQuery ")\n(assert false)\r\n\"" "|\n(assert false)").encode = .ok b ∧
    a.script.proper = b.script.proper ∧
    ∃ parts, List.Forall₂ (fun c tokens => Token.Lexes c.text tokens) a.script.proper parts ∧
      Token.Lexes a.script.text parts.flatten ∧ Token.Lexes b.script.text parts.flatten := by
  obtain ⟨a, ha⟩ : ∃ a, (remarkedQuery "plain" "x").encode = .ok a := ⟨_, rfl⟩
  obtain ⟨b, hb, hproper, hlexes⟩ := encodeWith_of_withoutUserText
    (p := remarkedQuery "plain" "x")
    (q := remarkedQuery ")\n(assert false)\r\n\"" "|\n(assert false)")
    rfl (List.Perm.refl _) (List.Perm.refl _) ha
  have hall : ((remarkedQuery "plain" "x").encode.map fun a =>
      a.script.proper.all fun c => (Token.tokenize c.text).isOk) = .ok true := by cbv
  rw [ha] at hall
  refine ⟨a, b, ha, hb, hproper, hlexes fun c hc => ?_⟩
  have hok := List.all_eq_true.1 (Except.ok.inj hall) c hc
  cases hcut : Token.tokenize c.text with
  | ok located => exact ⟨_, located, hcut, rfl⟩
  | error e =>
    rw [hcut] at hok
    exact absurd hok Bool.false_ne_true

end Problem
end SmtQuery
