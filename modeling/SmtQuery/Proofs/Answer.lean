import Mathlib
import SmtQuery.Reply.Answer
import SmtQuery.Reply.Outcome
import SmtQuery.Proofs.Constant
import SmtQuery.Proofs.Encode
import SmtQuery.Proofs.Reference
import SmtQuery.Proofs.Tree

/-!
# A query is written, answered and decoded

A solver that knows a value for every input it is asked about, and an optimum for every
goal, answers the commands of the postlude one by one.  What is decoded from these answers
are the same values under the names of the inputs, and the same optima under the names of
the trackers, in the same order: `Problem.ofReply_answers`.

The path of one value is `Value.reads_term`, `Value.decode_tree` and
`InputIndex.resolve_symbol`; here it is put together for a line
(`InputIndex.modelOfLine_answer`), then for the line of all optima
(`InputIndex.modelOfLine_objectives`), and then for the reply by induction on its lines.
-/

namespace SmtQuery

/-! ## Optima -/

namespace Optimum

/-- Whether an optimum is one that a goal of its kind can have. -/
def IsProper : Optimum → Prop
  | regular value => value.IsProper
  | infinity _ kind => kind = .int ∨ kind = .real
  | epsilon _ kind => kind = .real

/-- The optimum that an optimum comes back as. -/
def canonical : Optimum → Optimum
  | regular value => regular value.canonical
  | optimum => optimum

/-- The form of an optimum in a reply. -/
def form : Optimum → Form
  | regular value => value.term.form
  | infinity false _ => Form.word "oo"
  | infinity true _ => .group [Form.word "*", Term.intForm (-1), Form.word "oo"]
  | epsilon false _ => Form.word "epsilon"
  | epsilon true _ =>
    .group [Form.word "*", .group [Form.word "to_real", Term.intForm (-1)], Form.word "epsilon"]

/-- What the form of an optimum is read as. -/
def tree : Optimum → SExpr
  | regular value => value.tree
  | infinity false _ => .symbol "oo"
  | infinity true _ => .list [.symbol "*", .int (-1), .symbol "oo"]
  | epsilon false _ => .symbol "epsilon"
  | epsilon true _ => .list [.symbol "*", .list [.symbol "to_real", .int (-1)], .symbol "epsilon"]

/-- The form of an optimum is read as its tree. -/
theorem reads_form {optimum : Optimum} (h : optimum.IsProper) :
    optimum.form.Reads optimum.tree := by
  have hminusOne : (Term.intForm (-1)).Reads (.int (-1)) := Term.reads_intForm (-1)
  have htimes : (Form.word "*").Reads (.symbol "*") := Form.reads_word (by decide)
  cases optimum with
  | regular value => exact Value.reads_term h
  | infinity negative kind =>
    have hword : (Form.word "oo").Reads (.symbol "oo") := Form.reads_word (by decide)
    cases negative with
    | false => exact hword
    | true =>
      exact Form.reads_group (Form.readsAll_cons htimes
        (Form.readsAll_cons hminusOne (Form.readsAll_cons hword Form.readsAll_nil)))
  | epsilon negative kind =>
    have hword : (Form.word "epsilon").Reads (.symbol "epsilon") := Form.reads_word (by decide)
    have hreal : (Form.word "to_real").Reads (.symbol "to_real") := Form.reads_word (by decide)
    cases negative with
    | false => exact hword
    | true =>
      have hconversion := Form.reads_group (Form.readsAll_cons hreal
        (Form.readsAll_cons hminusOne Form.readsAll_nil))
      exact Form.reads_group (Form.readsAll_cons htimes
        (Form.readsAll_cons hconversion (Form.readsAll_cons hword Form.readsAll_nil)))

/-- A tree that is infinite or infinitesimal has no value, and is recognised as what it is. -/
theorem unbounded?_tree {optimum : Optimum} (h : optimum.IsProper)
    (hregular : optimum.regular? = none) :
    decode optimum.kind optimum.tree = .unmatched optimum.tree ∧
      unbounded? optimum.kind optimum.tree = some optimum := by
  cases optimum with
  | regular value => exact absurd hregular (by simp [regular?])
  | infinity negative kind =>
    rcases h with rfl | rfl
    · cases negative with
      | false => exact ⟨decode_of_pass rfl, rfl⟩
      | true => exact ⟨decode_of_pass rfl, rfl⟩
    · cases negative with
      | false => exact ⟨decode_of_pass rfl, rfl⟩
      | true => exact ⟨decode_of_pass rfl, rfl⟩
  | epsilon negative kind =>
    subst h
    cases negative with
    | false => exact ⟨decode_of_pass rfl, rfl⟩
    | true => exact ⟨decode_of_pass rfl, rfl⟩

end Optimum

/-! ## One pair -/

/-- The symbol of a number starts with a letter, so it is written bare and is no operator. -/
theorem NodeId.head?_symbol (id : NodeId) : id.symbol.toList.head? = some 's' := by
  rw [NodeId.symbol, String.toList_ofList]
  rfl

theorem NodeId.reads_form (id : NodeId) : (Symbol.form id.symbol).Reads (.symbol id.symbol) := by
  refine Symbol.reads_form ?_ (Symbol.not_isNegative_of_head? ?_)
  · rw [NodeId.symbol, String.toList_ofList, List.mem_cons, not_or]
    refine ⟨by decide, fun hbar => ?_⟩
    exact absurd (Numeral.isDigit_of_mem_toDigits (by omega) (by omega) hbar)
      (by decide : ¬ Numeral.isDigit 10 '|' = true)
  · rw [id.head?_symbol]
    decide

/-- A pair of a reference and anything is no number. -/
theorem SExpr.fold_pair {reference : SExpr} {id : NodeId}
    (h : (referenceOf? reference).bind NodeId.ofSymbol? = some id) (tree : SExpr) :
    fold [reference, tree] = list [reference, tree] := by
  rw [fold_eq_list_iff]
  refine ⟨rfl, ?_⟩
  cases reference with
  | symbol name =>
    have hminus : name ≠ "-" := by
      rintro rfl
      have hnone : NodeId.ofSymbol? "-" = none := by decide
      exact absurd (hnone.symm.trans h) (by simp)
    cases tree with
    | int n => exact if_neg hminus
    | decimal q => exact if_neg hminus
    | symbol _ | string _ | bitVec _ _ | float _ | list _ => rfl
  | list items =>
    -- the head of a conversion is no reference
    have hpattern : pattern? items tree = none := by
      unfold pattern?
      split
      · next underscore conversion e s =>
        have hunderscore : underscore ≠ "_" := by
          rintro rfl
          have hnone : NodeId.ofSymbol? "_" = none := by decide
          exact absurd (hnone.symm.trans h) (by simp)
        simp [hunderscore]
      · rfl
    cases tree <;> exact hpattern
  | string _ | int _ | bitVec _ _ | decimal _ | float _ => exact absurd h (by simp [referenceOf?])

theorem Form.reads_pair {id : NodeId} {form : Form} {tree : SExpr} (h : form.Reads tree) :
    (group [Symbol.form id.symbol, form]).Reads (.list [.symbol id.symbol, tree]) := by
  have hpair := reads_group (readsAll_cons id.reads_form (readsAll_cons h readsAll_nil))
  have hid : (referenceOf? (.symbol id.symbol)).bind NodeId.ofSymbol? = some id :=
    NodeId.ofSymbol?_symbol id
  rwa [SExpr.fold_pair hid] at hpair

namespace InputIndex

variable {inputs : List Input} (hids : (inputs.map Input.id).Nodup) {input : Input}
  (hinput : input ∈ inputs) (line : String) {tree : SExpr}

include hids hinput

theorem target_pair :
    (ofList inputs).target [.symbol input.id.symbol, tree] line = .ok (some input) :=
  resolve_symbol hids hinput line

/-- A pair whose value decodes is a binding of the input. -/
theorem bindPair_of_value {value : Value} (h : decode input.kind tree = .value value)
    (strictness : Strictness) :
    (ofList inputs).bindPair [.symbol input.id.symbol, tree] line strictness =
      .ok (some ⟨input.id, input.name, value⟩) := by
  rw [bindPair, target_pair hids hinput line]
  simp only [bind, Except.bind, h]
  rfl

/-- A pair whose value does not decode is passed over where other shapes are tried. -/
theorem bindPair_of_unmatched {part : SExpr} (h : decode input.kind tree = .unmatched part) :
    (ofList inputs).bindPair [.symbol input.id.symbol, tree] line .permissive = .ok none := by
  rw [bindPair, target_pair hids hinput line]
  simp only [bind, Except.bind, h]
  rfl

/-- **One item of a report** is the optimum under the name of the tracker. -/
theorem bindObjective_tree {optimum : Optimum} (hkind : optimum.kind = input.kind)
    (h : optimum.IsProper) (reply : SExpr) :
    (ofList inputs).bindObjective reply line (.list [.symbol input.id.symbol, optimum.tree]) =
      .ok ⟨input.name, optimum.canonical⟩ := by
  cases hregular : optimum.regular? with
  | some value =>
    cases optimum with
    | regular value =>
      have hvalue : decode input.kind value.tree = .value value.canonical :=
        hkind ▸ Value.decode_tree h
      rw [bindObjective]
      simp only [Optimum.tree, bindPair_of_value hids hinput line hvalue .permissive, bind,
        Except.bind]
      rfl
    | infinity negative kind => exact absurd hregular (by simp [Optimum.regular?])
    | epsilon negative kind => exact absurd hregular (by simp [Optimum.regular?])
  | none =>
    obtain ⟨hunmatched, hunbounded⟩ := Optimum.unbounded?_tree h hregular
    rw [hkind] at hunmatched hunbounded
    have hcanonical : optimum.canonical = optimum := by
      cases optimum with
      | regular value => exact absurd hregular (by simp [Optimum.regular?])
      | infinity negative kind => rfl
      | epsilon negative kind => rfl
    rw [bindObjective, unboundedPair]
    simp only [bindPair_of_unmatched hids hinput line hunmatched, target_pair hids hinput line,
      bind, Except.bind, hunbounded, hcanonical]
    rfl

end InputIndex

/-! ## What a solver answers -/

/-- The answers to the commands of a postlude.  A request for the value of a term is
answered by the term and the next of the values, and the request for the objectives by the
given items. -/
def Command.answers (items : List Form) : List Command → List Value → List Form
  | .getValue [term] :: commands, value :: values =>
    .group [.group [term.form, value.term.form]] :: answers items commands values
  | .getObjectives :: commands, values =>
    .group (Form.word "objectives" :: items) :: answers items commands values
  | _, _ => []

namespace Problem

variable (p : Problem)

/-- The inputs that the postlude asks for, in its order. -/
def queriedInputs : List Input := p.freeInputs.filter (!·.isSkolem)

/-- The input that has the number of an objective's tracker, if there is one. -/
def trackerInput? (objective : Objective) : Option Input :=
  p.inputs.find? fun input => input.id = objective.tracker.id

/-- The inputs that the objectives are tracked by. -/
def trackerInputs : List Input := p.objectives.filterMap p.trackerInput?

/-- The items by which optima are reported, each under the symbol of its tracker. -/
def optimumItems (optima : List Optimum) : List Form :=
  List.zipWith (fun objective optimum => .group [objective.tracker.term.form, optimum.form])
    p.objectives optima

/-- The lines with which a solver answers the postlude of a written query. -/
def replyLines (program : Program) (values : List Value) (optima : List Optimum) : List String :=
  (Command.answers (p.optimumItems optima) program.postlude.commands values).map toString

/-- The model in which the inputs have the given values and the goals the given optima. -/
def modelOf (values : List Value) (optima : List Optimum) : Model where
  bindings := List.zipWith (fun input value => ⟨input.id, input.name, value.canonical⟩)
    p.queriedInputs values
  objectives := List.zipWith (fun input optimum => ⟨input.name, optimum.canonical⟩)
    p.trackerInputs optima

end Problem

/-! ## Lines -/

/-- A line that starts with a parenthesis is not blank. -/
theorem Form.isBlankLine_group (items : List Form) :
    Text.isBlankLine (toString (group items)).toList = false := by
  show Text.isBlankLine (String.ofList (group items).text).toList = false
  rw [String.toList_ofList, Form.text]
  rfl

/-- A report of objectives is no number. -/
theorem SExpr.fold_objectives (items : List SExpr) :
    fold (symbol "objectives" :: items) = list (symbol "objectives" :: items) := by
  rw [fold_eq_list_iff]
  refine ⟨rfl, ?_⟩
  rcases items with _ | ⟨a, _ | ⟨b, _ | ⟨c, _ | ⟨d, rest⟩⟩⟩⟩
  · rfl
  · cases a <;> rfl
  · rw [number?, if_neg (by decide), if_neg (by decide)]
  · rw [number?, if_neg (by decide), if_neg (by decide)]
  · simp [number?]

namespace InputIndex

variable {inputs : List Input} (hids : (inputs.map Input.id).Nodup)

/-- What is decoded from a line that is read as a tree. -/
theorem modelOfLine_of_read (index : InputIndex) {line : String} {tree : SExpr}
    (hblank : Text.isBlankLine line.toList = false) (hread : SExpr.read line = .ok tree) :
    index.modelOfLine line =
      if tree.isObjectives then
        (index.bindObjectives tree line).map fun objectives => { objectives }
      else
        (index.bindLine tree line .strict).map fun binding => { bindings := binding.toList } := by
  rw [modelOfLine, if_neg (Bool.eq_false_iff.1 hblank), hread]

/-- A line that was written is read as its tree. -/
theorem modelOfLine_group (index : InputIndex) {items : List Form} {tree : SExpr}
    (h : (Form.group items).Reads tree) :
    index.modelOfLine (toString (Form.group items)) =
      if tree.isObjectives then
        (index.bindObjectives tree (toString (Form.group items))).map
          fun objectives => { objectives }
      else
        (index.bindLine tree (toString (Form.group items)) .strict).map
          fun binding => { bindings := binding.toList } :=
  modelOfLine_of_read index (Form.isBlankLine_group items) (SExpr.read_toString h)

include hids

/-- A line with one pair, whose value decodes, is a binding of the input. -/
theorem modelOfLine_of_pair {input : Input} (hinput : input ∈ inputs) {line : String}
    {tree : SExpr} {value : Value} (hblank : Text.isBlankLine line.toList = false)
    (hread : SExpr.read line = .ok (.list [.list [.symbol input.id.symbol, tree]]))
    (hvalue : decode input.kind tree = .value value) :
    (ofList inputs).modelOfLine line = .ok { bindings := [⟨input.id, input.name, value⟩] } := by
  have hreport : (SExpr.list [.list [.symbol input.id.symbol, tree]]).isObjectives = false := rfl
  rw [modelOfLine_of_read _ hblank hread, if_neg (Bool.eq_false_iff.1 hreport), bindLine,
    bindPair_of_value hids hinput _ hvalue]
  rfl

/-- **The answer for one input** is the binding of the input. -/
theorem modelOfLine_answer {input : Input} (hinput : input ∈ inputs) {value : Value}
    (hkind : value.kind = input.kind) (h : value.IsProper) :
    (ofList inputs).modelOfLine (toString (value.answer input.ref)) =
      .ok { bindings := [⟨input.id, input.name, value.canonical⟩] } := by
  have hpair : (Form.group [input.ref.term.form, value.term.form]).Reads
      (.list [.symbol input.id.symbol, value.tree]) := Form.reads_pair (Value.reads_term h)
  have hline : (Form.group [.group [input.ref.term.form, value.term.form]]).Reads
      (.list [.list [.symbol input.id.symbol, value.tree]]) :=
    Form.reads_group (Form.readsAll_cons hpair Form.readsAll_nil)
  have hvalue : decode input.kind value.tree = .value value.canonical :=
    hkind ▸ Value.decode_tree h
  rw [Value.answer]
  exact modelOfLine_of_pair hids hinput (Form.isBlankLine_group _) (SExpr.read_toString hline)
    hvalue

/-- **The report of the objectives** is the optima under the names of the trackers. -/
theorem modelOfLine_objectives {trackers : List Input} {optima : List Optimum}
    (h : List.Forall₂ (fun input optimum => input ∈ inputs ∧ optimum.kind = input.kind ∧
      optimum.IsProper) trackers optima) :
    (ofList inputs).modelOfLine (toString (Form.group (Form.word "objectives" ::
      List.zipWith (fun input optimum => .group [Symbol.form input.id.symbol, optimum.form])
        trackers optima))) =
      .ok ⟨[], List.zipWith (fun input optimum => ⟨input.name, optimum.canonical⟩)
        trackers optima⟩ := by
  have hitems : Form.ReadsAll
      (List.zipWith (fun input optimum => .group [Symbol.form input.id.symbol, optimum.form])
        trackers optima)
      (List.zipWith (fun input optimum => .list [.symbol input.id.symbol, optimum.tree])
        trackers optima) := by
    induction h with
    | nil => exact Form.readsAll_nil
    | cons hhead _ ih =>
      exact Form.readsAll_cons (Form.reads_pair (Optimum.reads_form hhead.2.2)) ih
  have hbind : ∀ reply line,
      (List.zipWith (fun input optimum => .list [.symbol input.id.symbol, optimum.tree])
        trackers optima).mapM ((ofList inputs).bindObjective reply line) =
      .ok (List.zipWith (fun input optimum => ⟨input.name, optimum.canonical⟩)
        trackers optima) := by
    intro reply line
    clear hitems
    induction h with
    | nil => rfl
    | cons hhead _ ih =>
      rw [List.zipWith_cons_cons, List.mapM_cons,
        bindObjective_tree hids hhead.1 line hhead.2.1 hhead.2.2, ih]
      rfl
  have hhead : (Form.word "objectives").Reads (.symbol "objectives") :=
    Form.reads_word (by decide)
  have hline := Form.reads_group (Form.readsAll_cons hhead hitems)
  rw [SExpr.fold_objectives] at hline
  have hreport : ∀ items, (SExpr.list (.symbol "objectives" :: items)).isObjectives = true :=
    fun _ => rfl
  have hword : (SExpr.symbol "objectives").isSymbol "objectives" = true := rfl
  rw [modelOfLine_group _ hline, if_pos (hreport _), bindObjectives, if_pos hword, hbind]
  rfl

end InputIndex

/-! ## Replies -/

namespace InputIndex

variable {index : InputIndex}

/-- Decoding goes on behind a model as it starts, and adds to the model. -/
theorem foldlM_modelOfLine (lines : List String) (start : Model) :
    lines.foldlM (fun model line => (index.modelOfLine line).map model.append) start =
      (index.modelOfLines lines).map start.append := by
  induction lines generalizing start with
  | nil =>
    show Except.ok start = .ok (start.append .empty)
    rw [Model.append, Model.empty, List.append_nil, List.append_nil]
  | cons line lines ih =>
    rw [modelOfLines, List.foldlM_cons, List.foldlM_cons]
    cases index.modelOfLine line with
    | error e => rfl
    | ok first =>
      show List.foldlM _ (start.append first) lines =
        Except.map start.append (List.foldlM _ (Model.empty.append first) lines)
      rw [ih, ih]
      cases index.modelOfLines lines with
      | error e => rfl
      | ok rest =>
        show Except.ok ((start.append first).append rest) =
          .ok (start.append ((Model.empty.append first).append rest))
        simp only [Model.append, Model.empty, List.nil_append, List.append_assoc]

/-- The values on the first line stand in front of those on the others. -/
theorem modelOfLines_cons {line : String} {lines : List String} {first rest : Model}
    (hfirst : index.modelOfLine line = .ok first) (hrest : index.modelOfLines lines = .ok rest) :
    index.modelOfLines (line :: lines) = .ok (first.append rest) := by
  rw [modelOfLines, List.foldlM_cons, hfirst]
  show List.foldlM _ (Model.empty.append first) lines = _
  rw [foldlM_modelOfLine, hrest]
  rfl

/-- **The answers for all inputs** are the bindings of these inputs, in front of what the
other answers are. -/
theorem modelOfLines_answers {inputs : List Input} (hids : (inputs.map Input.id).Nodup)
    {queried : List Input} {values : List Value}
    (h : List.Forall₂ (fun input value => input ∈ inputs ∧ value.kind = input.kind ∧
      value.IsProper) queried values)
    {items : List Form} {commands : List Command} {model : Model}
    (hrest : (ofList inputs).modelOfLines
      ((Command.answers items commands []).map toString) = .ok model) :
    (ofList inputs).modelOfLines ((Command.answers items
        (queried.map (fun input => .getValue [input.ref.term]) ++ commands) values).map toString) =
      .ok ⟨List.zipWith (fun input value => ⟨input.id, input.name, value.canonical⟩) queried values
        ++ model.bindings, model.objectives⟩ := by
  induction h with
  | nil => exact hrest
  | cons hhead _ ih =>
    exact modelOfLines_cons (modelOfLine_answer hids hhead.1 hhead.2.1 hhead.2.2) ih

end InputIndex

namespace Problem

variable {p : Problem}

/-- Each objective has its tracker among the inputs, so there are as many trackers, with the
same numbers. -/
theorem optimumItems_eq (htrackers : ∀ objective ∈ p.objectives,
      ∃ input ∈ p.inputs, input.id = objective.tracker.id) (optima : List Optimum) :
    p.optimumItems optima =
      List.zipWith (fun input optimum => .group [Symbol.form input.id.symbol, optimum.form])
        p.trackerInputs optima := by
  rw [optimumItems, trackerInputs]
  generalize p.objectives = objectives at htrackers ⊢
  induction objectives generalizing optima with
  | nil => rfl
  | cons objective objectives ih =>
    obtain ⟨input, hinput, hid⟩ := htrackers objective List.mem_cons_self
    obtain ⟨found, hfound⟩ : ∃ found, p.trackerInput? objective = some found := by
      rw [← Option.isSome_iff_exists, trackerInput?, List.find?_isSome]
      exact ⟨input, hinput, decide_eq_true hid⟩
    have hsame := List.find?_some hfound
    rw [decide_eq_true_eq] at hsame
    rw [List.filterMap_cons_some hfound]
    cases optima with
    | nil => rfl
    | cons optimum optima =>
      rw [List.zipWith_cons_cons, List.zipWith_cons_cons, hsame,
        ih _ fun o ho => htrackers o (List.mem_cons_of_mem _ ho)]
      rfl

theorem mem_of_mem_trackerInputs {input : Input} (h : input ∈ p.trackerInputs) :
    input ∈ p.inputs := by
  rw [trackerInputs, List.mem_filterMap] at h
  obtain ⟨objective, -, hfound⟩ := h
  exact List.mem_of_find?_eq_some hfound

theorem mem_of_mem_queriedInputs {input : Input} (h : input ∈ p.queriedInputs) :
    input ∈ p.inputs :=
  List.mem_of_mem_filter (List.mem_of_mem_filter h)

/-- The lines behind those of the inputs: the report of the optima, if there are any. -/
theorem modelOfLines_report (hids : (p.inputs.map Input.id).Nodup)
    (htrackers : ∀ objective ∈ p.objectives, ∃ input ∈ p.inputs, input.id = objective.tracker.id)
    {optima : List Optimum}
    (hoptima : List.Forall₂ (fun input optimum => optimum.kind = input.kind ∧ optimum.IsProper)
      p.trackerInputs optima) :
    (InputIndex.ofList p.inputs).modelOfLines ((Command.answers (p.optimumItems optima)
        (if p.isOptimization then [.getObjectives] else []) []).map toString) =
      .ok ⟨[], List.zipWith (fun input optimum => ⟨input.name, optimum.canonical⟩)
        p.trackerInputs optima⟩ := by
  have htracked := (List.forall₂_and_left _ _).2
    ⟨fun _ h => mem_of_mem_trackerInputs h, hoptima⟩
  rw [optimumItems_eq htrackers]
  split
  · have hnil : (InputIndex.ofList p.inputs).modelOfLines [] = .ok .empty := rfl
    have h := InputIndex.modelOfLines_cons
      (InputIndex.modelOfLine_objectives hids htracked) hnil
    rwa [Model.append, Model.empty, List.append_nil, List.append_nil] at h
  · next hopt =>
    have hobjectives : p.objectives = [] := by
      rw [isOptimization, Bool.not_eq_true', Bool.not_eq_false, List.isEmpty_iff] at hopt
      exact hopt
    rw [trackerInputs, hobjectives]
    rfl

/-- **What is decoded is what was answered.**  A query is written; its inputs have different
numbers and each objective has its tracker among them.  A solver answers the postlude with a
proper value of its kind for every input, and a proper optimum of its kind for every tracker.
Behind either verdict the answers are decoded to the same values and optima, in the same
order; only NaNs are all taken for the same one. -/
theorem ofReply_answers {program : Program} {values : List Value} {optima : List Optimum}
    (hencode : p.encode = .ok program) (hids : (p.inputs.map Input.id).Nodup)
    (htrackers : ∀ objective ∈ p.objectives, ∃ input ∈ p.inputs, input.id = objective.tracker.id)
    (hvalues : List.Forall₂ (fun input value => value.kind = input.kind ∧ value.IsProper)
      p.queriedInputs values)
    (hoptima : List.Forall₂ (fun input optimum => optimum.kind = input.kind ∧ optimum.IsProper)
      p.trackerInputs optima) :
    Outcome.ofReply p.inputs ("sat" :: p.replyLines program values optima) =
        .ok (.sat (p.modelOf values optima)) ∧
      Outcome.ofReply p.inputs ("unknown" :: p.replyLines program values optima) =
        .ok (.unknown (p.modelOf values optima)) := by
  obtain ⟨-, sorts, tables, goal, -, -, -, rfl⟩ := encode_eq_ok_iff.1 hencode
  have hlines : (InputIndex.ofList p.inputs).modelOfLines
      ((Command.answers (p.optimumItems optima) p.postlude values).map toString) =
        .ok (p.modelOf values optima) := by
    have hqueried := (List.forall₂_and_left _ _).2
      ⟨fun _ h => mem_of_mem_queriedInputs h, hvalues⟩
    have h := InputIndex.modelOfLines_answers hids hqueried
      (modelOfLines_report hids htrackers hoptima)
    rwa [List.append_nil] at h
  have hsat : String.ofList (Text.trim "sat".toList) = "sat" := by decide
  have hunknown : String.ofList (Text.trim "unknown".toList) = "unknown" := by decide
  constructor
  · rw [Outcome.ofReply, hsat]
    show Except.map Outcome.sat (InputIndex.modelOfLines _ _) = _
    rw [replyLines, hlines]
    rfl
  · rw [Outcome.ofReply, hunknown]
    show Except.map Outcome.unknown (InputIndex.modelOfLines _ _) = _
    rw [replyLines, hlines]
    rfl

/-- A query for a signed byte, an integer that is minimised, an element of a sort with a list
of elements, and a floating-point number. -/
def mixedQuery : Problem where
  inputs := [
    { ref := ⟨⟨0⟩, .bitVec true 8⟩, name := "byte" },
    { ref := ⟨⟨1⟩, .int⟩, name := "cost" },
    { ref := ⟨⟨2⟩, .named { name := "Color", elements? := some ["Red", "Green"] }⟩,
      name := "color" },
    { ref := ⟨⟨3⟩, .float .single⟩, name := "ratio" }]
  output := ⟨⟨9⟩, .bitVec false 1⟩
  config := .ofSolver .z3
  objectives := [⟨"cheapest", .minimize, ⟨⟨8⟩, .int⟩, ⟨⟨1⟩, .int⟩⟩]

/-- A negative byte, a negative integer, an element, a negative zero, and a goal without a
lower bound. -/
theorem ofReply_answers_mixedQuery :
    let values := [Value.int (.bitVec true 8) (-1), .int .int (-12345),
      .element { name := "Color", elements? := some ["Red", "Green"] } "Green" (some 1),
      .float ⟨.single, 0x80000000⟩]
    ∃ program, mixedQuery.encode = .ok program ∧
      Outcome.ofReply mixedQuery.inputs
          ("sat" :: mixedQuery.replyLines program values [.infinity true .int]) =
        .ok (.sat (mixedQuery.modelOf values [.infinity true .int])) := by
  have hgreen : (Value.element { name := "Color", elements? := some ["Red", "Green"] } "Green"
      (some 1)).IsProper := by
    refine ⟨rfl, ?_, by decide, Symbol.not_isNegative_of_head? (by decide)⟩
    intro elements helements
    rw [← Option.some.inj helements]
    decide
  have hvalues : List.Forall₂ (fun input value => value.kind = input.kind ∧ value.IsProper)
      mixedQuery.queriedInputs [Value.int (.bitVec true 8) (-1), .int .int (-12345),
        .element { name := "Color", elements? := some ["Red", "Green"] } "Green" (some 1),
        .float ⟨.single, 0x80000000⟩] :=
    .cons ⟨rfl, rfl, by decide, by decide⟩ (.cons ⟨rfl, rfl, by decide, rfl⟩
      (.cons ⟨rfl, hgreen⟩ (.cons ⟨rfl, trivial⟩ .nil)))
  have hoptima : List.Forall₂ (fun input optimum => optimum.kind = input.kind ∧
      optimum.IsProper) mixedQuery.trackerInputs [Optimum.infinity true .int] :=
    .cons ⟨rfl, Or.inl rfl⟩ .nil
  exact ⟨_, rfl, (ofReply_answers rfl (by decide) (by decide) hvalues hoptima).1⟩

/-- A query for one floating-point number. -/
def floatQuery : Problem where
  inputs := [{ ref := ⟨⟨0⟩, .float .single⟩, name := "ratio" }]
  output := ⟨⟨9⟩, .bitVec false 1⟩
  config := .ofSolver .z3

/-- A NaN with a payload comes back without it. -/
theorem ofReply_ne_of_payload :
    ∃ program, floatQuery.encode = .ok program ∧
      Outcome.ofReply floatQuery.inputs
          ("sat" :: floatQuery.replyLines program [.float ⟨.single, 0x7fc00001⟩] []) =
        .ok (.sat ⟨[⟨⟨0⟩, "ratio", .float ⟨.single, 0x7fc00000⟩⟩], []⟩) ∧
      Value.float ⟨.single, 0x7fc00000⟩ ≠ .float ⟨.single, 0x7fc00001⟩ := by
  have hids : (floatQuery.inputs.map Input.id).Nodup := by decide
  have hpayload : (Value.float ⟨.single, 0x7fc00001⟩).IsProper := trivial
  have hline := InputIndex.modelOfLine_answer hids List.mem_cons_self rfl hpayload
  have hend : (InputIndex.ofList floatQuery.inputs).modelOfLines [] = .ok .empty := rfl
  refine ⟨_, rfl, ?_, by decide⟩
  have hlines := InputIndex.modelOfLines_cons hline hend
  rw [Value.answer] at hlines
  show Except.map Outcome.sat (InputIndex.modelOfLines _ [_]) = _
  rw [hlines]
  rfl

end Problem
end SmtQuery
