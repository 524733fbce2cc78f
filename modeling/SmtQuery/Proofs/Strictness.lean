import Mathlib
import SmtQuery.Proofs.Lines

/-!
# Strict and permissive decoding

A model line has to hold a value, so a pair on it is decoded strictly.  An item of a report may hold
an infinity instead of a value, so it is tried permissively first.  The mode is looked at in one
place, where no rule knows the value or there is not exactly one, and by then the input is known.

* `InputIndex.pairCase`: **what can become of a pair**, in both modes at once.
* `InputIndex.modesAgree`: **how the modes compare** on a pair, and what this means for a report of
  objectives: its items have ordinary values just where model lines would have them.

## What permissive decoding does not forgive

It gives no binding where strict decoding has an error for an unknown value.  A reference that names
several inputs and an element that its sort does not list are errors in both modes, and so an item
with one of these ends the report and is not tried as an infinity.
-/

namespace SmtQuery
namespace InputIndex

variable {index : InputIndex} {items : List SExpr} {line : String}

/-! ## What becomes of a pair -/

/-- What can become of a pair.  All but the last case are the same in both modes. -/
inductive PairCase (index : InputIndex) (items : List SExpr) (line : String) : Prop
  /-- The pair has no reference, or one that names no input. -/
  | unnamed (htarget : index.target items line = .ok none)
      (h : ∀ strictness, index.bindPair items line strictness = .ok none)
  /-- The reference names several inputs. -/
  | ambiguous {reference : String} {candidates : List String}
      (htarget : index.target items line =
        .error (.ambiguousReference reference line candidates))
      (h : ∀ strictness, index.bindPair items line strictness =
        .error (.ambiguousReference reference line candidates))
  /-- A rule claims the value. -/
  | bound {input : Input} {b : Binding} (htarget : index.target items line = .ok (some input))
      (h : ∀ strictness, index.bindPair items line strictness = .ok (some b))
  /-- The value is an element that its sort does not list. -/
  | invalid {input : Input} {reason : String}
      (htarget : index.target items line = .ok (some input))
      (h : ∀ strictness, index.bindPair items line strictness =
        .error (.invalidValue input.text line reason))
  /-- No rule claims the value, or there is not one value. -/
  | unclaimed {input : Input} {part : SExpr}
      (htarget : index.target items line = .ok (some input))
      (h : ∀ strictness, index.bindPair items line strictness =
        unmatched strictness input line part)

/-- A reference is refused for one reason only. -/
theorem exists_of_target_eq_error {e : Error} (h : index.target items line = .error e) :
    ∃ reference candidates, e = .ambiguousReference reference line candidates := by
  rw [target] at h
  split at h
  · exact absurd h (by simp)
  · next reference _ =>
    rw [resolve] at h
    split at h
    · exact absurd h (by simp)
    · split at h
      · exact absurd h (by simp)
      · exact absurd h (by simp)
      · exact ⟨_, _, (Except.error.inj h).symm⟩

/-- A pair with a value is what the value is decoded to. -/
theorem bindPair_of_decode {reference value : SExpr} {input : Input}
    (htarget : index.target [reference, value] line = .ok (some input)) (strictness : Strictness) :
    index.bindPair [reference, value] line strictness =
      match decode input.kind value with
      | .value v => .ok (some ⟨input.id, input.name, v⟩)
      | .malformed reason => .error (.invalidValue input.text line reason)
      | .unmatched part => unmatched strictness input line part := by
  rw [bindPair, htarget]
  rfl

/-- A reference alone, or with more than one value, is reported as a whole. -/
theorem bindPair_of_length_ne {input : Input}
    (htarget : index.target items line = .ok (some input)) (h : items.length ≠ 2)
    (strictness : Strictness) :
    index.bindPair items line strictness = unmatched strictness input line (.list items) := by
  rw [bindPair, htarget]
  rcases items with _ | ⟨reference, _ | ⟨value, _ | ⟨third, rest⟩⟩⟩
  · rfl
  · rfl
  · exact absurd rfl h
  · rfl

/-- **What becomes of a pair.** -/
theorem pairCase (index : InputIndex) (items : List SExpr) (line : String) :
    PairCase index items line := by
  cases htarget : index.target items line with
  | error e =>
    obtain ⟨reference, candidates, rfl⟩ := exists_of_target_eq_error htarget
    refine .ambiguous htarget fun strictness => ?_
    rw [bindPair, htarget]
    rfl
  | ok input? =>
    cases input? with
    | none =>
      refine .unnamed htarget fun strictness => ?_
      rw [bindPair, htarget]
      rfl
    | some input =>
      rcases items with _ | ⟨reference, _ | ⟨value, _ | ⟨third, rest⟩⟩⟩
      · exact absurd htarget (by simp [target])
      · exact .unclaimed htarget (bindPair_of_length_ne htarget (by simp))
      · have hvalue := bindPair_of_decode htarget
        cases hdecode : decode input.kind value with
        | value v =>
          simp only [hdecode] at hvalue
          exact .bound htarget hvalue
        | malformed reason =>
          simp only [hdecode] at hvalue
          exact .invalid htarget hvalue
        | unmatched part =>
          simp only [hdecode] at hvalue
          exact .unclaimed htarget hvalue
      · exact .unclaimed htarget (bindPair_of_length_ne htarget (by simp))

/-! ## The modes compared -/

/-- How the two modes compare on a pair. -/
structure ModesAgree (index : InputIndex) (items : List SExpr) (line : String) : Prop where
  /-- Both modes give the same bindings. -/
  binding : ∀ b, index.bindPair items line .strict = .ok (some b) ↔
    index.bindPair items line .permissive = .ok (some b)
  /-- An unknown value is an error in one mode and no binding in the other. -/
  unknown : (∃ name text part, index.bindPair items line .strict =
      .error (.unmatchedValue name text part)) ↔
    (∃ input, index.target items line = .ok (some input)) ∧
      index.bindPair items line .permissive = .ok none
  /-- There is no other difference. -/
  otherwise : (∀ name text part, index.bindPair items line .strict ≠
      .error (.unmatchedValue name text part)) →
    index.bindPair items line .strict = index.bindPair items line .permissive
  /-- Without a reference, and with one that names no input, there is no binding. -/
  unnamed : index.target items line = .ok none →
    ∀ strictness, index.bindPair items line strictness = .ok none
  /-- A reference that names several inputs is an error. -/
  ambiguous : ∀ e, index.target items line = .error e →
    ∀ strictness, index.bindPair items line strictness = .error e
  /-- An element that its sort does not list is an error in both modes. -/
  invalid : ∀ name text reason,
    index.bindPair items line .strict = .error (.invalidValue name text reason) ↔
      index.bindPair items line .permissive = .error (.invalidValue name text reason)

theorem ModesAgree.of_pairCase (h : PairCase index items line) : ModesAgree index items line := by
  cases h with
  | unnamed htarget h =>
    constructor <;> simp [htarget, h]
  | ambiguous htarget h =>
    constructor <;> simp [htarget, h]
  | bound htarget h =>
    constructor <;> simp [htarget, h]
  | invalid htarget h =>
    constructor <;> simp [htarget, h]
  | unclaimed htarget h =>
    constructor <;> simp [htarget, h, unmatched]

/-! ## Ordinary values in a report -/

/-- A line of one pair has the binding of the pair. -/
theorem bindLine_singleton {item : SExpr} {strictness : Strictness} {b : Binding} :
    index.bindLine (.list [item]) line strictness = .ok (some b) ↔
      ∃ pair, item = .list pair ∧ index.bindPair pair line strictness = .ok (some b) := by
  constructor
  · intro h
    obtain ⟨pair, heq, hpair⟩ := exists_of_bindLine h
    exact ⟨pair, (List.cons.inj (SExpr.list.inj heq)).1, hpair⟩
  · rintro ⟨pair, rfl, hpair⟩
    exact hpair

/-- Infinities and infinitesimals are no ordinary values. -/
theorem ne_regular_of_unboundedPair {b : OptimumBinding} {value : Value}
    (h : index.unboundedPair items line = .ok (some b)) : b.value ≠ .regular value := by
  obtain ⟨input?, -, h⟩ := Except.bind_eq_ok_iff.1 h
  split at h
  · obtain ⟨optimum, hoptimum, rfl⟩ := Option.map_eq_some_iff.1 (Except.ok.inj h)
    rw [unbounded?] at hoptimum
    split_ifs at hoptimum <;> simp [← Option.some.inj hoptimum]
  · exact absurd (Except.ok.inj h) (by simp)

/-- **An item has an ordinary value** where its pair has a binding without strictness. -/
theorem bindObjective_eq_regular_iff {reply item : SExpr} {name : String} {value : Value} :
    index.bindObjective reply line item = .ok ⟨name, .regular value⟩ ↔
      ∃ pair id, item = .list pair ∧
        index.bindPair pair line .permissive = .ok (some ⟨id, name, value⟩) := by
  constructor
  · intro h
    cases item with
    | list pair =>
      obtain ⟨b?, hpair, h⟩ := Except.bind_eq_ok_iff.1 h
      cases b? with
      | some b =>
        obtain ⟨rfl, hvalue⟩ := OptimumBinding.mk.inj (Except.ok.inj h)
        obtain rfl := Optimum.regular.inj hvalue
        exact ⟨pair, b.id, rfl, hpair⟩
      | none =>
        -- what is tried next gives no ordinary values
        obtain ⟨b?, hunbounded, h⟩ := Except.bind_eq_ok_iff.1 h
        cases b? with
        | some b =>
          obtain rfl := Except.ok.inj h
          exact absurd rfl (ne_regular_of_unboundedPair hunbounded)
        | none => exact absurd h (by simp)
    | _ => exact absurd h (by simp [bindObjective])
  · rintro ⟨pair, id, rfl, hpair⟩
    exact Except.bind_eq_ok_iff.2 ⟨_, hpair, rfl⟩

/-- **Ordinary values of a report** are what its items have on model lines, whatever the texts of
the lines. -/
theorem bindObjective_eq_regular_iff_bindLine (index : InputIndex) (reply item : SExpr)
    (line line' : String) {name : String} {value : Value} :
    index.bindObjective reply line item = .ok ⟨name, .regular value⟩ ↔
      ∃ id, index.bindLine (.list [item]) line' .strict = .ok (some ⟨id, name, value⟩) := by
  rw [bindObjective_eq_regular_iff]
  simp only [bindLine_singleton]
  have hmodes (pair : List SExpr) (b : Binding) :
      index.bindPair pair line .permissive = .ok (some b) ↔
        index.bindPair pair line' .strict = .ok (some b) := by
    rw [← (ModesAgree.of_pairCase (pairCase index pair line)).binding]
    exact ⟨fun h => bindPair_eq_ok h line', fun h => bindPair_eq_ok h line⟩
  constructor
  · rintro ⟨pair, id, rfl, hpair⟩
    exact ⟨id, pair, rfl, (hmodes pair _).1 hpair⟩
  · rintro ⟨id, pair, rfl, hpair⟩
    exact ⟨pair, id, rfl, (hmodes pair _).2 hpair⟩

/-- **Strict and permissive decoding.**  For every index, every pair of items and every line, both
modes give the same bindings; the strict one has an error for an unknown value exactly if the
reference names one input and the permissive one gives no binding; and everything else is the same
in both: no binding without a reference that names an input, and the same errors for a reference
that names several and for an element that its sort does not list.  So an item of a report has an
ordinary value, and this one, exactly if the item on a model line has it; and in a report that is
decoded this is what tells the ordinary values from the others. -/
theorem modesAgree (index : InputIndex) (line : String) :
    (∀ items, ModesAgree index items line) ∧
    (∀ reply item name value line', index.bindObjective reply line item =
        .ok ⟨name, .regular value⟩ ↔
      ∃ id, index.bindLine (.list [item]) line' .strict = .ok (some ⟨id, name, value⟩)) ∧
    ∀ items bs line', index.bindObjectives (.list (.symbol "objectives" :: items)) line = .ok bs →
      List.Forall₂ (fun item b => ∀ value, b.value = .regular value ↔
        ∃ id, index.bindLine (.list [item]) line' .strict = .ok (some ⟨id, b.name, value⟩))
        items bs := by
  refine ⟨fun items => .of_pairCase (pairCase index items line),
    fun reply item name value line' => bindObjective_eq_regular_iff_bindLine ..,
    fun items bs line' h => ?_⟩
  refine (Except.mapM_eq_ok_iff.1 h).imp fun item b hitem value => ?_
  rw [← bindObjective_eq_regular_iff_bindLine index (.list (.symbol "objectives" :: items)) item
    line line', hitem]
  constructor
  · intro hvalue
    rw [← hvalue]
  · intro heq
    rw [Except.ok.inj heq]

/-- The theorem at a report of a negative byte and an unbounded cost: a model line with the first
item has its value, and one with the second has none. -/
theorem modesAgree_report :
    let index := ofList [byteInput, costInput]
    let byte : SExpr := .list [.symbol "s0", .bitVec 255 8]
    let cost : SExpr := .list [.symbol "s1", .symbol "oo"]
    index.bindObjectives (.list [.symbol "objectives", byte, cost]) "" =
        .ok [⟨"byte", .regular (.int (.bitVec true 8) (-1))⟩, ⟨"cost", .infinity false .int⟩] ∧
      (∃ id, index.bindLine (.list [byte]) "" .strict =
        .ok (some ⟨id, "byte", .int (.bitVec true 8) (-1)⟩)) ∧
      ∀ id value, index.bindLine (.list [cost]) "" .strict ≠ .ok (some ⟨id, "cost", value⟩) := by
  intro index byte cost
  have hids : ([byteInput, costInput].map Input.id).Nodup := by decide
  have hinputs : byteInput ∈ [byteInput, costInput] ∧ costInput ∈ [byteInput, costInput] := by
    decide
  have hproper : (Optimum.regular (.int (.bitVec true 8) (-1))).IsProper :=
    ⟨rfl, by decide, by decide⟩
  have hunbounded : (Optimum.infinity false .int).IsProper := Or.inl rfl
  have hbyte : index.bindObjective (.list [.symbol "objectives", byte, cost]) "" byte =
      .ok ⟨"byte", .regular (.int (.bitVec true 8) (-1))⟩ :=
    bindObjective_tree hids hinputs.1 "" rfl hproper _
  have hcost : index.bindObjective (.list [.symbol "objectives", byte, cost]) "" cost =
      .ok ⟨"cost", .infinity false .int⟩ :=
    bindObjective_tree hids hinputs.2 "" rfl hunbounded _
  have hreport := Except.mapM_eq_ok_iff.2 (.cons hbyte (.cons hcost .nil))
  obtain ⟨-, -, hvalues⟩ := modesAgree index ""
  have hall := hvalues [byte, cost] _ "" hreport
  obtain ⟨hfirst, hall⟩ := List.forall₂_cons.1 hall
  obtain ⟨hsecond, -⟩ := List.forall₂_cons.1 hall
  refine ⟨hreport, (hfirst _).1 rfl, fun id value hbound => ?_⟩
  exact absurd ((hsecond value).2 ⟨id, hbound⟩) (by simp)

end InputIndex
end SmtQuery
