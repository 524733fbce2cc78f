import Mathlib
import SmtQuery.Proofs.Answer
import SmtQuery.Proofs.Decoding

/-!
# What a model can contain

A reply is any text whatever.  If it is decoded to a model, every binding in the model comes from
a pair of a reference and a value on some line, the reference names exactly one input, and the
value is one of the kind of this input, or a real from a decimal; an optimum may also be infinite
or infinitesimal where the kind of the input allows it.

The path goes from a pair (`InputIndex.comesFrom_of_bindPair` and
`InputIndex.comesFrom_of_bindObjective`) to a line (`InputIndex.explainedBy_of_modelOfLine`), and
from there to the reply by induction on its lines (`Outcome.explainedBy_of_ofReply`).
-/

namespace SmtQuery

/-! ## Where a binding comes from -/

/-- Whether a symbol or the head of a list refers to the input, and to no other. -/
def Input.IsNamedBy (inputs : List Input) (input : Input) (reference : SExpr) : Prop :=
  (referenceOf? reference).bind NodeId.ofSymbol? = some input.id ∧
    (inputs.filter fun other => other.id = input.id) = [input]

/-- How an optimum is decoded: as a value is, or as infinite for an integer or a real, or as
infinitesimal for a real. -/
def Optimum.DecodedFrom (optimum : Optimum) (kind : Kind) (tree : SExpr) : Prop :=
  match optimum with
  | regular value => value.DecodedFrom kind tree
  | infinity _ k => k = kind ∧ (kind = .int ∨ kind = .real)
  | epsilon _ k => k = kind ∧ kind = .real

/-- Whether a binding comes from a pair. -/
def Binding.ComesFrom (inputs : List Input) (b : Binding) (pair : List SExpr) : Prop :=
  ∃ (reference tree : SExpr) (input : Input), pair = [reference, tree] ∧
    input.IsNamedBy inputs reference ∧ input.id = b.id ∧ input.name = b.name ∧
      b.value.DecodedFrom input.kind tree

/-- Whether the binding of an optimum comes from a pair. -/
def OptimumBinding.ComesFrom (inputs : List Input) (b : OptimumBinding) (pair : List SExpr) :
    Prop :=
  ∃ (reference tree : SExpr) (input : Input), pair = [reference, tree] ∧
    input.IsNamedBy inputs reference ∧ input.name = b.name ∧ b.value.DecodedFrom input.kind tree

/-- Whether everything in a model comes from the given lines: a binding from a line of one pair,
and an optimum from a pair in a report of objectives. -/
structure Model.ExplainedBy (inputs : List Input) (lines : List String) (model : Model) : Prop where
  bindings : ∀ b ∈ model.bindings, ∃ line ∈ lines, ∃ pair,
    SExpr.read line = .ok (.list [.list pair]) ∧ b.ComesFrom inputs pair
  objectives : ∀ b ∈ model.objectives, ∃ line ∈ lines, ∃ items pair,
    SExpr.read line = .ok (.list (.symbol "objectives" :: items)) ∧ .list pair ∈ items ∧
      b.ComesFrom inputs pair

theorem Model.ExplainedBy.empty {inputs : List Input} {lines : List String} :
    Model.empty.ExplainedBy inputs lines :=
  ⟨fun _ hb => absurd hb List.not_mem_nil, fun _ hb => absurd hb List.not_mem_nil⟩

theorem Model.ExplainedBy.append {inputs : List Input} {lines : List String} {model other : Model}
    (h : model.ExplainedBy inputs lines) (hother : other.ExplainedBy inputs lines) :
    (model.append other).ExplainedBy inputs lines :=
  ⟨List.forall_mem_append.2 ⟨h.bindings, hother.bindings⟩,
    List.forall_mem_append.2 ⟨h.objectives, hother.objectives⟩⟩

namespace InputIndex

variable {inputs : List Input} {line : String}

/-! ## Pairs -/

/-- A reference that names an input names no other. -/
theorem eq_of_resolve {reference : String} {input : Input}
    (h : (ofList inputs).resolve reference line = .ok (some input)) :
    NodeId.ofSymbol? reference = some input.id ∧
      (inputs.filter fun other => other.id = input.id) = [input] := by
  rw [resolve] at h
  split at h
  · exact absurd h (by simp)
  · next id hid =>
    rw [get_ofList] at h
    split at h
    · exact absurd h (by simp)
    · next only honly =>
      obtain rfl := Option.some.inj (Except.ok.inj h)
      have hmem : only ∈ inputs.filter fun other => other.id = id := by
        rw [honly]
        exact List.mem_singleton_self only
      obtain rfl := of_decide_eq_true (List.mem_filter.1 hmem).2
      exact ⟨hid, honly⟩
    · exact absurd h (by simp)

theorem isNamedBy_of_target {items : List SExpr} {input : Input}
    (h : (ofList inputs).target items line = .ok (some input)) :
    ∃ reference, items.head? = some reference ∧ input.IsNamedBy inputs reference := by
  rw [target] at h
  split at h
  · exact absurd h (by simp)
  · next symbol hsymbol =>
    obtain ⟨reference, hhead, href⟩ := Option.bind_eq_some_iff.1 hsymbol
    obtain ⟨hid, honly⟩ := eq_of_resolve h
    refine ⟨reference, hhead, ?_, honly⟩
    rw [href, Option.bind_some, hid]

theorem unmatched_ne_some {strictness : Strictness} {input : Input} {part : SExpr} {b : Binding} :
    unmatched strictness input line part ≠ .ok (some b) := by
  cases strictness <;> simp [unmatched]

/-- **The binding in a pair.** -/
theorem comesFrom_of_bindPair {items : List SExpr} {strictness : Strictness} {b : Binding}
    (h : (ofList inputs).bindPair items line strictness = .ok (some b)) :
    b.ComesFrom inputs items := by
  rw [bindPair, Except.bind_eq_ok_iff] at h
  obtain ⟨target?, htarget, h⟩ := h
  cases target? with
  | none => exact absurd (Except.ok.inj h) (by simp)
  | some input =>
    obtain ⟨reference, hhead, hnamed⟩ := isNamedBy_of_target htarget
    dsimp only at h
    split at h
    · next first tree =>
      obtain rfl := Option.some.inj hhead
      split at h
      · next value hvalue =>
        obtain rfl := Option.some.inj (Except.ok.inj h)
        exact ⟨first, tree, input, rfl, hnamed, rfl, rfl, Value.decodedFrom_of_decodeWith hvalue⟩
      · exact absurd h (by simp)
      · exact absurd h unmatched_ne_some
    · exact absurd h unmatched_ne_some

/-- A pair that names an input is about this input. -/
theorem target_of_isNamedBy {input : Input} {reference : SExpr}
    (hnamed : input.IsNamedBy inputs reference) (items : List SExpr) :
    (ofList inputs).target (reference :: items) line = .ok (some input) := by
  obtain ⟨hid, honly⟩ := hnamed
  obtain ⟨symbol, hsymbol, hid⟩ := Option.bind_eq_some_iff.1 hid
  rw [target, List.head?_cons, Option.bind_some, hsymbol]
  show (ofList inputs).resolve symbol line = .ok (some input)
  rw [resolve, hid]
  simp only [get_ofList, honly]

/-- A pair that names an input binds it if its value decodes. -/
theorem bindPair_eq_some_iff {input : Input} {reference tree : SExpr} {strictness : Strictness}
    (hnamed : input.IsNamedBy inputs reference) {b : Binding} :
    (ofList inputs).bindPair [reference, tree] line strictness = .ok (some b) ↔
      ∃ value, decode input.kind tree = .value value ∧ b = ⟨input.id, input.name, value⟩ := by
  rw [bindPair, target_of_isNamedBy hnamed]
  simp only [bind, Except.bind]
  cases decode input.kind tree with
  | value value => simp [pure, Except.pure, eq_comm]
  | malformed reason => simp [throw, throwThe, MonadExceptOf.throw]
  | unmatched part => simp [unmatched_ne_some]

/-- An unbounded optimum is one that the kind allows. -/
theorem decodedFrom_of_unbounded? {kind : Kind} {tree : SExpr} {optimum : Optimum}
    (h : unbounded? kind tree = some optimum) : optimum.DecodedFrom kind tree := by
  rw [unbounded?] at h
  split at h
  · next hkind =>
    obtain rfl := Option.some.inj h
    exact ⟨rfl, hkind.1⟩
  · split at h
    · next hkind =>
      obtain rfl := Option.some.inj h
      exact ⟨rfl, hkind.1⟩
    · split at h
      · next hkind =>
        obtain rfl := Option.some.inj h
        exact ⟨rfl, hkind.1⟩
      · split at h
        · next hkind =>
          obtain rfl := Option.some.inj h
          exact ⟨rfl, hkind.1⟩
        · exact absurd h (by simp)

theorem comesFrom_of_unboundedPair {items : List SExpr} {b : OptimumBinding}
    (h : (ofList inputs).unboundedPair items line = .ok (some b)) : b.ComesFrom inputs items := by
  rw [unboundedPair, Except.bind_eq_ok_iff] at h
  obtain ⟨target?, htarget, h⟩ := h
  split at h
  · next input first tree =>
    obtain ⟨reference, hhead, hnamed⟩ := isNamedBy_of_target htarget
    obtain rfl := Option.some.inj hhead
    obtain ⟨optimum, hoptimum, rfl⟩ := Option.map_eq_some_iff.1 (Except.ok.inj h)
    exact ⟨first, tree, input, rfl, hnamed, rfl, decodedFrom_of_unbounded? hoptimum⟩
  · exact absurd (Except.ok.inj h) (by simp)

/-- **The binding in an item of a report.** -/
theorem comesFrom_of_bindObjective {reply item : SExpr} {b : OptimumBinding}
    (h : (ofList inputs).bindObjective reply line item = .ok b) :
    ∃ pair, item = .list pair ∧ b.ComesFrom inputs pair := by
  cases item with
  | list pair =>
    refine ⟨pair, rfl, ?_⟩
    rw [bindObjective, Except.bind_eq_ok_iff] at h
    obtain ⟨regular?, hregular, h⟩ := h
    cases regular? with
    | some binding =>
      obtain rfl := Except.ok.inj h
      obtain ⟨reference, tree, input, hpair, hnamed, -, hname, hvalue⟩ :=
        comesFrom_of_bindPair hregular
      exact ⟨reference, tree, input, hpair, hnamed, hname, hvalue⟩
    | none =>
      obtain ⟨unbounded?, hunbounded, h⟩ := Except.bind_eq_ok_iff.1 h
      cases unbounded? with
      | some binding =>
        obtain rfl := Except.ok.inj h
        exact comesFrom_of_unboundedPair hunbounded
      | none => exact absurd h (by simp)
  | _ => exact absurd h (by simp [bindObjective])

/-! ## Lines -/

/-- A report of objectives has a binding for each of its items. -/
theorem exists_of_bindObjectives {index : InputIndex} {reply : SExpr} {bs : List OptimumBinding}
    (h : index.bindObjectives reply line = .ok bs) :
    ∃ items, reply = .list (.symbol "objectives" :: items) ∧
      items.mapM (index.bindObjective reply line) = .ok bs := by
  unfold bindObjectives at h
  split at h
  · next head items =>
    split at h
    · next hhead => exact ⟨items, by rw [SExpr.eq_symbol_of_isSymbol hhead], h⟩
    · exact absurd h (by simp)
  · exact absurd h (by simp)

/-- The binding on a line is that of its pair. -/
theorem exists_of_bindLine {index : InputIndex} {tree : SExpr} {strictness : Strictness}
    {b : Binding} (h : index.bindLine tree line strictness = .ok (some b)) :
    ∃ pair, tree = .list [.list pair] ∧ index.bindPair pair line strictness = .ok (some b) := by
  unfold bindLine at h
  split at h
  · next pair => exact ⟨pair, rfl, h⟩
  · exact absurd (Except.ok.inj h) (by simp)

/-- **The model on a line.** -/
theorem explainedBy_of_modelOfLine {lines : List String} {model : Model} (hline : line ∈ lines)
    (h : (ofList inputs).modelOfLine line = .ok model) : model.ExplainedBy inputs lines := by
  rw [modelOfLine] at h
  split at h
  · obtain rfl := Except.ok.inj h
    exact .empty
  · split at h
    · exact absurd h (by simp)
    · next tree hread =>
      split at h
      · obtain ⟨bs, hbs, rfl⟩ := Except.map_eq_ok_iff.1 h
        obtain ⟨items, rfl, hitems⟩ := exists_of_bindObjectives hbs
        refine ⟨fun b hb => absurd hb List.not_mem_nil, fun b hb => ?_⟩
        obtain ⟨item, hitem, hb⟩ := Except.exists_of_mem_mapM hitems hb
        obtain ⟨pair, rfl, hpair⟩ := comesFrom_of_bindObjective hb
        exact ⟨line, hline, items, pair, hread, hitem, hpair⟩
      · obtain ⟨b?, hb, rfl⟩ := Except.map_eq_ok_iff.1 h
        refine ⟨fun b hmem => ?_, fun b hb => absurd hb List.not_mem_nil⟩
        obtain rfl := Option.mem_toList.1 hmem
        obtain ⟨pair, rfl, hpair⟩ := exists_of_bindLine hb
        exact ⟨line, hline, pair, hread, comesFrom_of_bindPair hpair⟩

/-- **The model on several lines**, by induction along the lines. -/
theorem explainedBy_of_modelOfLines {lines : List String} {model : Model}
    (h : (ofList inputs).modelOfLines lines = .ok model) : model.ExplainedBy inputs lines := by
  -- the invariant is about all lines from the start: those that come later take nothing away
  refine Except.foldlM_induction (P := Model.ExplainedBy inputs lines) .empty ?_ h
  intro line hline start next hstart hstep
  obtain ⟨more, hmore, rfl⟩ := Except.map_eq_ok_iff.1 hstep
  exact hstart.append (explainedBy_of_modelOfLine hline hmore)

end InputIndex

/-! ## Replies -/

/-- **Decoded values are well typed.**  A reply is decoded to an outcome with a model.  Every
binding of the model comes from a line behind the verdict that is read as one pair: its reference
has the number of exactly one input, which gives the binding its number and its name, and the value
is one of the kind of this input (an integer in its range, a listed element at its first position,
an element without a position if the sort lists none), or a real that stands in the pair as a
decimal.  The same holds of every optimum and a pair in a report of objectives; besides it may be
infinite for an integer or a real, and infinitesimal for a real, tagged with the kind of the
input. -/
theorem Outcome.explainedBy_of_ofReply {inputs : List Input} {lines : List String}
    {outcome : Outcome} {model : Model} (hreply : Outcome.ofReply inputs lines = .ok outcome)
    (hmodel : outcome.model? = some model) : model.ExplainedBy inputs lines.tail := by
  cases lines with
  | nil =>
    obtain rfl := Except.ok.inj hreply
    exact absurd hmodel (by simp [model?])
  | cons verdict lines =>
    rw [ofReply] at hreply
    split at hreply
    · obtain rfl := Except.ok.inj hreply
      exact absurd hmodel (by simp [model?])
    · obtain ⟨decoded, hlines, rfl⟩ := Except.map_eq_ok_iff.1 hreply
      obtain rfl := Option.some.inj hmodel
      exact InputIndex.explainedBy_of_modelOfLines hlines
    · obtain ⟨decoded, hlines, rfl⟩ := Except.map_eq_ok_iff.1 hreply
      obtain rfl := Option.some.inj hmodel
      exact InputIndex.explainedBy_of_modelOfLines hlines
    · obtain rfl := Except.ok.inj hreply
      exact absurd hmodel (by simp [model?])
    · obtain rfl := Except.ok.inj hreply
      exact absurd hmodel (by simp [model?])

/-- A signed byte. -/
def byteInput : Input := { ref := ⟨⟨0⟩, .bitVec true 8⟩, name := "byte" }

/-- An unbounded integer. -/
def costInput : Input := { ref := ⟨⟨1⟩, .int⟩, name := "cost" }

/-- A real that tracks a goal. -/
def bestInput : Input := { ref := ⟨⟨2⟩, .real⟩, name := "best" }

/-- A negative byte, a decimal for an integer, and a goal without an upper bound: the model that
is decoded is explained by its three lines. -/
theorem Outcome.explainedBy_of_ofReply_mixed :
    let inputs := [byteInput, costInput, bestInput]
    let lines := ["sat", "((s0 #xff))", "((s1 2.5))", "(objectives (s2 oo))"]
    let model : Model := ⟨[⟨⟨0⟩, "byte", .int (.bitVec true 8) (-1)⟩, ⟨⟨1⟩, "cost", .real (5 / 2)⟩],
      [⟨"best", .infinity false .real⟩]⟩
    Outcome.ofReply inputs lines = .ok (.sat model) ∧
      (Outcome.sat model).model? = some model ∧ model.ExplainedBy inputs lines.tail := by
  intro inputs lines model
  have hids : (inputs.map Input.id).Nodup := by decide
  have hbyte : SExpr.read "((s0 #xff))" =
      .ok (.list [.list [.symbol byteInput.id.symbol, .bitVec 255 8]]) := by decide +kernel
  have hcost : SExpr.read "((s1 2.5))" =
      .ok (.list [.list [.symbol costInput.id.symbol, .decimal (5 / 2)]]) := by decide +kernel
  have hbest : (InputIndex.ofList inputs).modelOfLine "(objectives (s2 oo))" =
      .ok { objectives := [⟨"best", .infinity false .real⟩] } := by
    have hread : SExpr.read "(objectives (s2 oo))" = .ok (.list [.symbol "objectives",
        .list [.symbol bestInput.id.symbol, (Optimum.infinity false .real).tree]]) := by
      decide +kernel
    have hmem : bestInput ∈ inputs := by decide
    have hproper : (Optimum.infinity false .real).IsProper := Or.inr rfl
    rw [InputIndex.modelOfLine_of_read _ (by decide) hread, if_pos (by rfl),
      InputIndex.bindObjectives, if_pos (by rfl), List.mapM_cons,
      InputIndex.bindObjective_tree hids hmem _ rfl hproper]
    rfl
  have hend : (InputIndex.ofList inputs).modelOfLines [] = .ok .empty := rfl
  have hverdict : String.ofList (Text.trim "sat".toList) = "sat" := by decide
  have hreply : Outcome.ofReply inputs lines = .ok (.sat model) := by
    rw [Outcome.ofReply, hverdict]
    show Except.map Outcome.sat (InputIndex.modelOfLines _ _) = _
    rw [InputIndex.modelOfLines_cons
      (InputIndex.modelOfLine_of_pair hids (by decide) (by decide) hbyte (decode_of_claim rfl))
      (InputIndex.modelOfLines_cons
        (InputIndex.modelOfLine_of_pair hids (by decide) (by decide) hcost (decode_of_claim rfl))
        (InputIndex.modelOfLines_cons hbest hend))]
    rfl
  exact ⟨hreply, rfl, Outcome.explainedBy_of_ofReply hreply rfl⟩

end SmtQuery
