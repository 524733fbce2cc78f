import Mathlib
import SmtQuery.Proofs.Grammar
import SmtQuery.Proofs.Typing

/-!
# A reply is decoded line by line

Behind the verdict every line of a reply is decoded by itself, and the models of the lines are put
one behind another: `InputIndex.modelOfLines_eq` says so in one equation.  What else there is to
know about the lines of a reply follows from it:

* a reply is decoded if every line is, and otherwise the first line that is not gives the error;
* a line without values can stand anywhere (`InputIndex.modelOfLine_of_isIdle`);
* a report of objectives can be cut in two (`InputIndex.modelOfLines_of_split`), because a line is
  quoted in messages only, and so what is decoded does not depend on its text;
* the order of the lines is that of the values and nothing else, so where no name has two values it
  does not matter (`Model.get?_of_perm` and `Model.objective?_of_perm`).

`Outcome.Linewise` has all of this about replies with one verdict, and
`Outcome.linewise_ofReply` is the result.
-/

namespace SmtQuery

/-! ## Models one behind another -/

/-- Where keys are unique, a search by key does not depend on the order. -/
theorem List.find?_of_perm {α κ : Type} [DecidableEq κ] (key : α → κ) {xs ys : List α}
    (h : xs.Perm ys) (hkeys : (xs.map key).Nodup) (k : κ) :
    (ys.find? fun x => key x = k) = xs.find? fun x => key x = k := by
  induction h with
  | nil => rfl
  | cons x _ ih =>
    rw [List.map_cons, List.nodup_cons] at hkeys
    rw [List.find?_cons, List.find?_cons, ih hkeys.2]
  | swap x y xs =>
    have hne : key y ≠ key x := by
      intro heq
      simp [heq] at hkeys
    simp only [List.find?_cons]
    by_cases hx : key x = k
    · have hy : key y ≠ k := fun hy => hne (hy.trans hx.symm)
      simp [hx, hy]
    · simp [hx]
  | trans hxy _ ih ih' => rw [ih' ((hxy.map key).nodup_iff.1 hkeys), ih hkeys]

namespace Model

/-- The values of several models, one behind another. -/
def concat (models : List Model) : Model :=
  ⟨models.flatMap Model.bindings, models.flatMap Model.objectives⟩

theorem concat_cons (model : Model) (models : List Model) :
    concat (model :: models) = model.append (concat models) := by
  simp only [concat, append, List.flatMap_cons]

variable {model other : Model}

/-- Where no input has two values, their order does not matter. -/
theorem get?_of_perm (h : model.bindings.Perm other.bindings)
    (hnames : (model.bindings.map Binding.name).Nodup) (name : String) :
    other.get? name = model.get? name := by
  rw [get?, get?, List.find?_of_perm Binding.name h hnames]

/-- Where no objective has two values, their order does not matter. -/
theorem objective?_of_perm (h : model.objectives.Perm other.objectives)
    (hnames : (model.objectives.map OptimumBinding.name).Nodup) (name : String) :
    other.objective? name = model.objective? name := by
  rw [objective?, objective?, List.find?_of_perm OptimumBinding.name h hnames]

end Model

/-! ## Lines that hold a list -/

namespace SExpr

/-- A bare word is no list. -/
theorem classify_ne_list (word : List Char) (items : List SExpr) :
    Atom.classify word ≠ list items := by
  unfold Atom.classify
  split
  · next hliteral =>
    obtain ⟨n, width, rfl, -⟩ := Atom.eq_of_bitVec? hliteral
    exact fun h => SExpr.noConfusion h
  · split
    · exact fun h => SExpr.noConfusion h
    · split <;> exact fun h => SExpr.noConfusion h

/-- A list is spelled with a parenthesis. -/
theorem lparen_mem_of_derives {tokens : List Token} {items : List SExpr}
    (h : Derives tokens (list items)) : Token.lparen ∈ tokens := by
  obtain ⟨d, rfl, hd⟩ := h
  cases d with
  | group ds => exact List.mem_cons_self
  | atom token tree htree =>
    obtain rfl : tree = list items := hd
    cases token with
    | lparen => exact List.mem_singleton_self _
    | rparen => exact absurd htree (by simp [Token.tree?])
    | bare word => exact absurd (Option.some.inj htree) (classify_ne_list word items)
    | quoted name => exact absurd (Option.some.inj htree) (by simp)
    | string text => exact absurd (Option.some.inj htree) (by simp)

/-- **A line that is read as a list is not blank.** -/
theorem isBlankLine_of_read_list {line : String} {items : List SExpr}
    (h : read line = .ok (list items)) : Text.isBlankLine line.toList = false := by
  obtain ⟨located, hlocated, htokens⟩ := Except.bind_eq_ok_iff.1 h
  have hmem := lparen_mem_of_derives (ofTokens_eq_ok_iff.1 htokens)
  obtain ⟨⟨start, _⟩, hstart, rfl⟩ := List.mem_map.1 hmem
  obtain ⟨front, back, htext, -⟩ := (Token.tokensFrom_eq_ok_iff.1 hlocated).offset hstart
  rw [Text.isBlankLine, List.all_eq_false, htext]
  exact ⟨'(', by simp [Token.spelling], by decide⟩

end SExpr

/-- Whether the first part of a pair refers to none of the inputs. -/
def SExpr.NamesNone (inputs : List Input) (reference : SExpr) : Prop :=
  ∀ input ∈ inputs, (referenceOf? reference).bind NodeId.ofSymbol? ≠ some input.id

/-- Whether a line has no values to give: it is blank, or it is read as one pair of a reference and
a value, and the reference names no input. -/
def Outcome.IsIdle (inputs : List Input) (line : String) : Prop :=
  Text.isBlankLine line.toList = true ∨ ∃ reference value : SExpr,
    SExpr.read line = .ok (.list [.fold [reference, value]]) ∧ reference.NamesNone inputs

namespace InputIndex

variable {index : InputIndex} {line : String}

/-! ## What does not depend on the text of a line

A line is quoted in messages.  So as long as there is no error, another line in its place would
lead to the same. -/

theorem resolve_eq_ok {reference : String} {input? : Option Input}
    (h : index.resolve reference line = .ok input?) (line' : String) :
    index.resolve reference line' = .ok input? := by
  rw [resolve] at h ⊢
  generalize NodeId.ofSymbol? reference = id? at h ⊢
  cases id? with
  | none => exact h
  | some id =>
    dsimp only at h ⊢
    generalize index.get id = entry at h ⊢
    rcases entry with _ | ⟨input, _ | ⟨second, rest⟩⟩
    · exact h
    · exact h
    · exact absurd h (by simp)

theorem target_eq_ok {items : List SExpr} {input? : Option Input}
    (h : index.target items line = .ok input?) (line' : String) :
    index.target items line' = .ok input? := by
  rw [target] at h ⊢
  generalize items.head?.bind referenceOf? = reference? at h ⊢
  cases reference? with
  | none => exact h
  | some reference => exact resolve_eq_ok h line'

theorem bindPair_eq_ok {items : List SExpr} {strictness : Strictness} {b? : Option Binding}
    (h : index.bindPair items line strictness = .ok b?) (line' : String) :
    index.bindPair items line' strictness = .ok b? := by
  have hunmatched : ∀ {input : Input} {part : SExpr},
      unmatched strictness input line part = .ok b? →
        unmatched strictness input line' part = .ok b? := by
    intro input part hok
    cases strictness with
    | strict => exact absurd hok (by simp [unmatched])
    | permissive => exact hok
  obtain ⟨input?, htarget, h⟩ := Except.bind_eq_ok_iff.1 h
  refine Except.bind_eq_ok_iff.2 ⟨input?, target_eq_ok htarget line', ?_⟩
  cases input? with
  | none => exact h
  | some input =>
    rcases items with _ | ⟨reference, _ | ⟨value, _ | ⟨third, rest⟩⟩⟩
    · exact hunmatched h
    · exact hunmatched h
    · dsimp only at h ⊢
      generalize decode input.kind value = decoded at h ⊢
      cases decoded with
      | value v => exact h
      | malformed reason => exact absurd h (by simp)
      | unmatched part => exact hunmatched h
    · exact hunmatched h

theorem unboundedPair_eq_ok {items : List SExpr} {b? : Option OptimumBinding}
    (h : index.unboundedPair items line = .ok b?) (line' : String) :
    index.unboundedPair items line' = .ok b? := by
  obtain ⟨input?, htarget, h⟩ := Except.bind_eq_ok_iff.1 h
  exact Except.bind_eq_ok_iff.2 ⟨input?, target_eq_ok htarget line', h⟩

/-- **One item of a report** is decoded to the same in any other report. -/
theorem bindObjective_eq_ok {reply item : SExpr} {b : OptimumBinding}
    (h : index.bindObjective reply line item = .ok b) (reply' : SExpr) (line' : String) :
    index.bindObjective reply' line' item = .ok b := by
  cases item with
  | list pair =>
    obtain ⟨regular?, hregular, h⟩ := Except.bind_eq_ok_iff.1 h
    refine Except.bind_eq_ok_iff.2 ⟨regular?, bindPair_eq_ok hregular line', ?_⟩
    cases regular? with
    | some binding => exact h
    | none =>
      obtain ⟨unbounded?, hunbounded, h⟩ := Except.bind_eq_ok_iff.1 h
      refine Except.bind_eq_ok_iff.2 ⟨unbounded?, unboundedPair_eq_ok hunbounded line', ?_⟩
      cases unbounded? with
      | some binding => exact h
      | none => exact absurd h (by simp)
  | _ => exact absurd h (by simp [bindObjective])

/-! ## One line -/

theorem modelOfLine_of_isBlankLine (h : Text.isBlankLine line.toList = true) :
    index.modelOfLine line = .ok .empty := by
  rw [modelOfLine, if_pos h]

/-- **A report of objectives** is decoded item by item. -/
theorem modelOfLine_of_report {items : List SExpr}
    (hread : SExpr.read line = .ok (.list (.symbol "objectives" :: items))) :
    index.modelOfLine line =
      (items.mapM (index.bindObjective (.list (.symbol "objectives" :: items)) line)).map
        fun objectives => { objectives } := by
  have hreport : (SExpr.list (.symbol "objectives" :: items)).isObjectives = true := rfl
  have hword : (SExpr.symbol "objectives").isSymbol "objectives" = true := rfl
  rw [modelOfLine_of_read _ (SExpr.isBlankLine_of_read_list hread) hread, if_pos hreport,
    bindObjectives, if_pos hword]

/-- A reference that names no input has no target. -/
theorem target_of_namesNone {inputs : List Input} {reference : SExpr}
    (h : reference.NamesNone inputs) (items : List SExpr) (line : String) :
    (ofList inputs).target (reference :: items) line = .ok none := by
  rw [target, List.head?_cons, Option.bind_some]
  cases hreference : referenceOf? reference with
  | none => rfl
  | some name =>
    dsimp only
    rw [resolve]
    cases hid : NodeId.ofSymbol? name with
    | none => rfl
    | some id =>
      have hnone : (inputs.filter fun input => input.id = id) = [] := by
        rw [List.filter_eq_nil_iff]
        intro input hinput heq
        refine h input hinput ?_
        rw [hreference, Option.bind_some, hid, of_decide_eq_true heq]
      simp only [get_ofList, hnone]

/-- **A line without values** adds none. -/
theorem modelOfLine_of_isIdle {inputs : List Input} (h : Outcome.IsIdle inputs line) :
    (ofList inputs).modelOfLine line = .ok .empty := by
  rcases h with hblank | ⟨reference, value, hread, hnone⟩
  · exact modelOfLine_of_isBlankLine hblank
  · rw [modelOfLine_of_read _ (SExpr.isBlankLine_of_read_list hread) hread]
    -- the pair may be the spelling of a number, as in `((- 5))`
    rcases SExpr.fold_eq [reference, value] with hnumber | ⟨-, hlist⟩
    · rcases SExpr.number?_cases hnumber with ⟨n, hn⟩ | ⟨q, hq⟩ | ⟨x, hx⟩ | ⟨n, w, hw, -⟩
      · rw [hn]; rfl
      · rw [hq]; rfl
      · rw [hx]; rfl
      · rw [hw]; rfl
    · have hpair : (SExpr.list [.list [reference, value]]).isObjectives = false := rfl
      rw [hlist, if_neg (Bool.eq_false_iff.1 hpair), bindLine, bindPair,
        target_of_namesNone hnone]
      rfl

/-! ## Several lines -/

/-- **Lines are decoded one by one**, and their models put one behind another. -/
theorem modelOfLines_eq (index : InputIndex) (lines : List String) :
    index.modelOfLines lines = (lines.mapM index.modelOfLine).map Model.concat := by
  induction lines with
  | nil => rfl
  | cons line lines ih =>
    rw [List.mapM_cons]
    cases hline : index.modelOfLine line with
    | error e =>
      rw [modelOfLines, List.foldlM_cons, hline]
      rfl
    | ok first =>
      rw [modelOfLines, List.foldlM_cons, hline]
      show List.foldlM _ (Model.empty.append first) lines = _
      rw [foldlM_modelOfLine, ih]
      cases lines.mapM index.modelOfLine with
      | error e => rfl
      | ok rest =>
        show Except.ok (first.append (Model.concat rest)) = .ok (Model.concat (first :: rest))
        rw [Model.concat_cons]

/-- A reply is decoded if every line is. -/
theorem exists_modelOfLines_iff {lines : List String} :
    (∃ model, index.modelOfLines lines = .ok model) ↔
      ∀ line ∈ lines, ∃ model, index.modelOfLine line = .ok model := by
  rw [← Except.exists_mapM_eq_ok_iff, modelOfLines_eq]
  simp only [Except.map_eq_ok_iff]
  exact ⟨fun ⟨_, models, hmodels, _⟩ => ⟨models, hmodels⟩,
    fun ⟨models, hmodels⟩ => ⟨_, models, hmodels, rfl⟩⟩

/-- **Where decoding fails**: at the first line that is not decoded. -/
theorem modelOfLines_eq_error_iff {lines : List String} {e : Error} :
    index.modelOfLines lines = .error e ↔ ∃ front line back, lines = front ++ line :: back ∧
      (∀ earlier ∈ front, ∃ model, index.modelOfLine earlier = .ok model) ∧
      index.modelOfLine line = .error e := by
  rw [modelOfLines_eq, Except.map_eq_error_iff, Except.mapM_eq_error_iff]

/-- **Lines in another order** give their values in another order. -/
theorem exists_modelOfLines_of_perm {lines lines' : List String} {model : Model}
    (hlines : lines.Perm lines') (h : index.modelOfLines lines = .ok model) :
    ∃ model', index.modelOfLines lines' = .ok model' ∧
      model.bindings.Perm model'.bindings ∧ model.objectives.Perm model'.objectives := by
  rw [modelOfLines_eq] at h
  obtain ⟨models, hmodels, rfl⟩ := Except.map_eq_ok_iff.1 h
  obtain ⟨models', hmodels', hperm⟩ := Except.exists_mapM_of_perm hlines hmodels
  refine ⟨Model.concat models', ?_, hperm.flatMap_right _, hperm.flatMap_right _⟩
  rw [modelOfLines_eq, hmodels']
  rfl

theorem modelOfLines_singleton (index : InputIndex) (line : String) :
    index.modelOfLines [line] = index.modelOfLine line := by
  cases hline : index.modelOfLine line with
  | error e =>
    rw [modelOfLines, List.foldlM_cons, hline]
    rfl
  | ok model =>
    have hend : index.modelOfLines [] = .ok .empty := rfl
    rw [modelOfLines_cons hline hend]
    simp only [Model.append, Model.empty, List.append_nil]

theorem modelOfLines_append (index : InputIndex) (front back : List String) :
    index.modelOfLines (front ++ back) =
      index.modelOfLines front >>= fun model => (index.modelOfLines back).map model.append := by
  rw [modelOfLines, List.foldlM_append]
  refine congrArg (index.modelOfLines front >>= ·) (funext fun model => ?_)
  exact foldlM_modelOfLine back model

/-- Lines can be replaced by others that lead to the same. -/
theorem modelOfLines_congr {lines lines' : List String}
    (h : index.modelOfLines lines = index.modelOfLines lines') (front back : List String) :
    index.modelOfLines (front ++ (lines ++ back)) =
      index.modelOfLines (front ++ (lines' ++ back)) := by
  simp only [modelOfLines_append, h]

/-- **A report can be cut in two.** -/
theorem modelOfLines_of_split {line₁ line₂ : String} {xs ys : List SExpr} {model : Model}
    (hread : SExpr.read line = .ok (.list (.symbol "objectives" :: (xs ++ ys))))
    (hread₁ : SExpr.read line₁ = .ok (.list (.symbol "objectives" :: xs)))
    (hread₂ : SExpr.read line₂ = .ok (.list (.symbol "objectives" :: ys)))
    (h : index.modelOfLine line = .ok model) : index.modelOfLines [line₁, line₂] = .ok model := by
  rw [modelOfLine_of_report hread] at h
  obtain ⟨objectives, hobjectives, rfl⟩ := Except.map_eq_ok_iff.1 h
  obtain ⟨as, bs, has, hbs, rfl⟩ := Except.mapM_append_eq_ok_iff.1 hobjectives
  have hline : ∀ {items : List SExpr} {os : List OptimumBinding} {part : String},
      SExpr.read part = .ok (.list (.symbol "objectives" :: items)) →
      items.mapM (index.bindObjective (.list (.symbol "objectives" :: (xs ++ ys))) line) =
        .ok os → index.modelOfLine part = .ok ⟨[], os⟩ := by
    intro items os part hpart hos
    rw [modelOfLine_of_report hpart, Except.mapM_eq_ok_iff.2
      ((Except.mapM_eq_ok_iff.1 hos).imp fun _ _ hitem => bindObjective_eq_ok hitem _ part)]
    rfl
  rw [modelOfLines_cons (hline hread₁ has)
    ((index.modelOfLines_singleton line₂).trans (hline hread₂ hbs))]
  rfl

end InputIndex

/-! ## Replies -/

namespace Outcome

/-- What it means that the lines of a reply behind a verdict are decoded one by one.  The outcome
of such a reply is made of a model. -/
structure Linewise (inputs : List Input) (verdict : String) (outcome : Model → Outcome) : Prop where
  /-- A reply that is decoded comes with a model. -/
  exists_model : ∀ {lines result}, ofReply inputs (verdict :: lines) = .ok result →
    ∃ model, result = outcome model
  /-- A reply is decoded exactly if every line that is not blank is decoded by itself. -/
  isDecoded_iff : ∀ lines, (∃ result, ofReply inputs (verdict :: lines) = .ok result) ↔
    ∀ line ∈ lines, Text.isBlankLine line.toList = false →
      ∃ result, ofReply inputs [verdict, line] = .ok result
  /-- The model of a reply consists of the models of its lines, in their order. -/
  concat : ∀ {lines models}, List.Forall₂
      (fun line model => ofReply inputs [verdict, line] = .ok (outcome model)) lines models →
    ofReply inputs (verdict :: lines) =
      .ok (outcome ⟨models.flatMap Model.bindings, models.flatMap Model.objectives⟩)
  /-- The error of a reply is that of the first line that is not decoded by itself. -/
  isError_iff : ∀ lines e, ofReply inputs (verdict :: lines) = .error e ↔
    ∃ front line back, lines = front ++ line :: back ∧
      (∀ earlier ∈ front, ∃ result, ofReply inputs [verdict, earlier] = .ok result) ∧
      ofReply inputs [verdict, line] = .error e
  /-- Blank lines, and pairs whose reference names no input, can stand anywhere. -/
  skip : ∀ {line} (front back : List String), Outcome.IsIdle inputs line →
    ofReply inputs (verdict :: (front ++ line :: back)) =
      ofReply inputs (verdict :: (front ++ back))
  /-- A report of objectives that is accepted can be given in two lines. -/
  split : ∀ {line line₁ line₂ xs ys result} (front back : List String),
    SExpr.read line = .ok (.list (.symbol "objectives" :: (xs ++ ys))) →
    SExpr.read line₁ = .ok (.list (.symbol "objectives" :: xs)) →
    SExpr.read line₂ = .ok (.list (.symbol "objectives" :: ys)) →
    ofReply inputs [verdict, line] = .ok result →
    ofReply inputs (verdict :: (front ++ line :: back)) =
      ofReply inputs (verdict :: (front ++ line₁ :: line₂ :: back))
  /-- Lines in another order give the same values in another order.  If no input or no objective
  has two values, then all names are looked up to the same. -/
  perm : ∀ {lines lines' model}, lines.Perm lines' →
    ofReply inputs (verdict :: lines) = .ok (outcome model) →
    ∃ model', ofReply inputs (verdict :: lines') = .ok (outcome model') ∧
      model.bindings.Perm model'.bindings ∧ model.objectives.Perm model'.objectives ∧
      ((model.bindings.map Binding.name).Nodup → ∀ name, model'.get? name = model.get? name) ∧
      ((model.objectives.map OptimumBinding.name).Nodup →
        ∀ name, model'.objective? name = model.objective? name)

variable {inputs : List Input} {verdict : String} {outcome : Model → Outcome}
  {lines : List String} {line : String}

/-- Behind the verdict that a query is satisfiable stands its model.  The verdict may have blanks
around it. -/
theorem ofReply_sat (hverdict : String.ofList (Text.trim verdict.toList) = "sat")
    (lines : List String) : ofReply inputs (verdict :: lines) =
      ((InputIndex.ofList inputs).modelOfLines lines).map .sat := by
  rw [ofReply, hverdict]
  rfl

/-- Behind the verdict that the solver gave up stands the model that it has. -/
theorem ofReply_unknown (hverdict : String.ofList (Text.trim verdict.toList) = "unknown")
    (lines : List String) : ofReply inputs (verdict :: lines) =
      ((InputIndex.ofList inputs).modelOfLines lines).map .unknown := by
  rw [ofReply, hverdict]
  rfl

section

/-! What a reply is, if its outcome is made of the model of its lines. -/

variable (hreply : ∀ lines, ofReply inputs (verdict :: lines) =
  ((InputIndex.ofList inputs).modelOfLines lines).map outcome)

include hreply

theorem exists_eq_of_ofReply {result : Outcome}
    (h : ofReply inputs (verdict :: lines) = .ok result) :
    ∃ model, (InputIndex.ofList inputs).modelOfLines lines = .ok model ∧
      result = outcome model := by
  rw [hreply] at h
  obtain ⟨model, hmodel, rfl⟩ := Except.map_eq_ok_iff.1 h
  exact ⟨model, hmodel, rfl⟩

theorem exists_ofReply_iff : (∃ result, ofReply inputs (verdict :: lines) = .ok result) ↔
    ∃ model, (InputIndex.ofList inputs).modelOfLines lines = .ok model := by
  constructor
  · rintro ⟨result, h⟩
    obtain ⟨model, hmodel, -⟩ := exists_eq_of_ofReply hreply h
    exact ⟨model, hmodel⟩
  · rintro ⟨model, hmodel⟩
    exact ⟨outcome model, by rw [hreply, hmodel]; rfl⟩

theorem exists_ofReply_line_iff : (∃ result, ofReply inputs [verdict, line] = .ok result) ↔
    ∃ model, (InputIndex.ofList inputs).modelOfLine line = .ok model := by
  rw [exists_ofReply_iff hreply, InputIndex.modelOfLines_singleton]

theorem ofReply_line_eq_error_iff {e : Error} : ofReply inputs [verdict, line] = .error e ↔
    (InputIndex.ofList inputs).modelOfLine line = .error e := by
  rw [hreply, Except.map_eq_error_iff, InputIndex.modelOfLines_singleton]

theorem ofReply_eq_ok_iff (hinjective : Function.Injective outcome) {model : Model} :
    ofReply inputs (verdict :: lines) = .ok (outcome model) ↔
      (InputIndex.ofList inputs).modelOfLines lines = .ok model := by
  rw [hreply, Except.map_eq_ok_iff]
  exact ⟨fun ⟨m, hm, heq⟩ => hinjective heq ▸ hm, fun hm => ⟨model, hm, rfl⟩⟩

theorem ofReply_line_eq_ok_iff (hinjective : Function.Injective outcome) {model : Model} :
    ofReply inputs [verdict, line] = .ok (outcome model) ↔
      (InputIndex.ofList inputs).modelOfLine line = .ok model := by
  rw [ofReply_eq_ok_iff hreply hinjective, InputIndex.modelOfLines_singleton]

theorem ofReply_congr {lines' : List String}
    (h : (InputIndex.ofList inputs).modelOfLines lines =
      (InputIndex.ofList inputs).modelOfLines lines') (front back : List String) :
    ofReply inputs (verdict :: (front ++ (lines ++ back))) =
      ofReply inputs (verdict :: (front ++ (lines' ++ back))) := by
  rw [hreply, hreply, InputIndex.modelOfLines_congr h]

/-- A line that adds nothing to the model can stand anywhere. -/
theorem ofReply_of_modelOfLine_eq_empty
    (h : (InputIndex.ofList inputs).modelOfLine line = .ok .empty) (front back : List String) :
    ofReply inputs (verdict :: (front ++ line :: back)) =
      ofReply inputs (verdict :: (front ++ back)) := by
  have hempty : (InputIndex.ofList inputs).modelOfLines [line] =
      (InputIndex.ofList inputs).modelOfLines [] := by
    rw [InputIndex.modelOfLines_singleton, h]
    rfl
  exact ofReply_congr hreply hempty front back

/-- Such replies are decoded line by line. -/
theorem linewise_of_modelOfLines (hinjective : Function.Injective outcome) :
    Linewise inputs verdict outcome where
  exists_model h := by
    obtain ⟨model, -, heq⟩ := exists_eq_of_ofReply hreply h
    exact ⟨model, heq⟩
  isDecoded_iff lines := by
    simp only [exists_ofReply_line_iff hreply]
    rw [exists_ofReply_iff hreply, InputIndex.exists_modelOfLines_iff]
    refine forall₂_congr fun line _ => ⟨fun h _ => h, fun h => ?_⟩
    cases hblank : Text.isBlankLine line.toList with
    | false => exact h hblank
    | true => exact ⟨_, InputIndex.modelOfLine_of_isBlankLine hblank⟩
  concat {lines models} h := by
    have hlines : lines.mapM (InputIndex.ofList inputs).modelOfLine = .ok models :=
      Except.mapM_eq_ok_iff.2 (h.imp fun _ _ => (ofReply_line_eq_ok_iff hreply hinjective).1)
    rw [ofReply_eq_ok_iff hreply hinjective, InputIndex.modelOfLines_eq, hlines]
    rfl
  isError_iff lines e := by
    simp only [exists_ofReply_line_iff hreply, ofReply_line_eq_error_iff hreply]
    rw [hreply, Except.map_eq_error_iff, InputIndex.modelOfLines_eq_error_iff]
  skip front back hidle :=
    ofReply_of_modelOfLine_eq_empty hreply (InputIndex.modelOfLine_of_isIdle hidle) front back
  split {line line₁ line₂ xs ys result} front back hread hread₁ hread₂ hresult := by
    obtain ⟨model, hmodel, -⟩ := exists_eq_of_ofReply hreply hresult
    rw [InputIndex.modelOfLines_singleton] at hmodel
    have hparts : (InputIndex.ofList inputs).modelOfLines [line] =
        (InputIndex.ofList inputs).modelOfLines [line₁, line₂] := by
      rw [InputIndex.modelOfLines_singleton, hmodel,
        InputIndex.modelOfLines_of_split hread hread₁ hread₂ hmodel]
    exact ofReply_congr hreply hparts front back
  perm {lines lines' model} hlines hresult := by
    have hmodel := (ofReply_eq_ok_iff hreply hinjective).1 hresult
    obtain ⟨model', hmodel', hbindings, hobjectives⟩ :=
      InputIndex.exists_modelOfLines_of_perm hlines hmodel
    exact ⟨model', (ofReply_eq_ok_iff hreply hinjective).2 hmodel', hbindings, hobjectives,
      Model.get?_of_perm hbindings, Model.objective?_of_perm hobjectives⟩

end

/-- **Replies are decoded line by line**: behind the verdict that a query is satisfiable, and
behind the verdict that the solver gave up.  The verdict may have blanks around it. -/
theorem linewise_ofReply (inputs : List Input) (verdict : String) :
    (String.ofList (Text.trim verdict.toList) = "sat" → Linewise inputs verdict .sat) ∧
      (String.ofList (Text.trim verdict.toList) = "unknown" →
        Linewise inputs verdict .unknown) := by
  constructor
  · intro hverdict
    exact linewise_of_modelOfLines (ofReply_sat hverdict) fun _ _ => Outcome.sat.inj
  · intro hverdict
    exact linewise_of_modelOfLines (ofReply_unknown hverdict) fun _ _ => Outcome.unknown.inj

/-- A byte and a cost are decoded in either order, and a value for the unknown reference `s9` makes
no difference; and the optima of two goals can be reported in one line or in two. -/
theorem linewise_ofReply_mixed :
    let inputs := [byteInput, costInput, bestInput]
    let model : Model :=
      ⟨[⟨⟨0⟩, "byte", .int (.bitVec true 8) (-1)⟩, ⟨⟨1⟩, "cost", .real (5 / 2)⟩], []⟩
    Linewise inputs " sat " .sat ∧
      ofReply inputs [" sat ", "((s0 #xff))", "((s9 1))", "((s1 2.5))"] = .ok (.sat model) ∧
      (∃ other, ofReply inputs [" sat ", "((s1 2.5))", "((s0 #xff))"] = .ok (.sat other) ∧
        ∀ name, other.get? name = model.get? name) ∧
      ofReply inputs [" sat ", "(objectives (s2 oo) (s2 epsilon))"] =
        ofReply inputs [" sat ", "(objectives (s2 oo))", "(objectives (s2 epsilon))"] := by
  intro inputs model
  have hids : (inputs.map Input.id).Nodup := by decide
  have hverdict : String.ofList (Text.trim " sat ".toList) = "sat" := by decide
  have h : Linewise inputs " sat " .sat := (linewise_ofReply inputs " sat ").1 hverdict
  have hsingle : ∀ {line single}, (InputIndex.ofList inputs).modelOfLine line = .ok single →
      ofReply inputs [" sat ", line] = .ok (.sat single) :=
    (ofReply_line_eq_ok_iff (ofReply_sat hverdict) fun _ _ => Outcome.sat.inj).2
  have hbyte : SExpr.read "((s0 #xff))" =
      .ok (.list [.list [.symbol byteInput.id.symbol, .bitVec 255 8]]) := by decide +kernel
  have hcost : SExpr.read "((s1 2.5))" =
      .ok (.list [.list [.symbol costInput.id.symbol, .decimal (5 / 2)]]) := by decide +kernel
  have hboth : ofReply inputs [" sat ", "((s0 #xff))", "((s1 2.5))"] = .ok (.sat model) :=
    h.concat (.cons
      (hsingle (InputIndex.modelOfLine_of_pair hids (by decide) (by decide) hbyte
        (decode_of_claim rfl)))
      (.cons (hsingle (InputIndex.modelOfLine_of_pair hids (by decide) (by decide) hcost
        (decode_of_claim rfl))) .nil))
  have hnone : (SExpr.symbol "s9").NamesNone inputs := by
    rw [SExpr.NamesNone]
    decide
  have hidle : IsIdle inputs "((s9 1))" :=
    Or.inr ⟨.symbol "s9", .int 1, by decide +kernel, hnone⟩
  have hnames : (model.bindings.map Binding.name).Nodup := by decide
  refine ⟨h, (h.skip ["((s0 #xff))"] ["((s1 2.5))"] hidle).trans hboth, ?_, ?_⟩
  · obtain ⟨other, hother, -, -, hget, -⟩ := h.perm (List.Perm.swap _ _ []) hboth
    exact ⟨other, hother, hget hnames⟩
  · have hinfinite : (Optimum.infinity false .real).IsProper := Or.inr rfl
    have hepsilon : (Optimum.epsilon false .real).IsProper := rfl
    have hread : SExpr.read "(objectives (s2 oo) (s2 epsilon))" = .ok (.list
        (.symbol "objectives" ::
          ([.list [.symbol bestInput.id.symbol, (Optimum.infinity false .real).tree]] ++
            [.list [.symbol bestInput.id.symbol, (Optimum.epsilon false .real).tree]]))) := by
      decide +kernel
    have hline : (InputIndex.ofList inputs).modelOfLine _ = _ :=
      InputIndex.modelOfLine_of_report hread
    rw [List.singleton_append, List.mapM_cons, List.mapM_cons,
      InputIndex.bindObjective_tree hids (by decide) _ rfl hinfinite,
      InputIndex.bindObjective_tree hids (by decide) _ rfl hepsilon] at hline
    exact h.split [] [] hread (by decide +kernel) (by decide +kernel) (hsingle hline)

end Outcome
end SmtQuery
