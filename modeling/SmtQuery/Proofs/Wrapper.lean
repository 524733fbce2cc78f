import Mathlib
import SmtQuery.Proofs.Constant
import SmtQuery.Proofs.Typing

/-!
# Values in wrappers

One solver prints an element with its sort, as in `(as Q!val!0 Q)`, and another prints a constant
as a constant function, as in `(LAMBDA ((x Int)) 7)`.  Neither says anything about the value, and
the two may be stacked.  The decoder takes one ascription off, tries the rules, and where they point
at the last operand of a constant function it starts again there.

* `decodeWithin_eq`: **the rounds end.**  Each of them goes at least one list deeper into the value,
  so there is one more of them at most than lists stand inside each other.
* `decode_wrap`: what a value in wrappers is decoded to.
* `InputIndex.bindPair_wrap`: **wrappers make no difference** to what a pair binds, and none to the
  error where it binds nothing.

## Why ascriptions have to stand apart

Only one ascription is taken off in a round.  Under a second one directly inside it the rules never
look, and `decode_ascription_ascription` says that such a value is never decoded, whatever it is.
-/

namespace SmtQuery

/-! ## The depth of a tree -/

namespace SExpr

mutual

/-- How many lists stand inside each other. -/
def depth : SExpr → ℕ
  | list items => depthAll items + 1
  | symbol _ | string _ | int _ | bitVec _ _ | decimal _ | float _ => 0

/-- The depth of the deepest of several trees. -/
def depthAll : List SExpr → ℕ
  | [] => 0
  | tree :: rest => max (depth tree) (depthAll rest)

end

theorem depth_le_depthAll {tree : SExpr} {items : List SExpr} (h : tree ∈ items) :
    tree.depth ≤ depthAll items := by
  induction items with
  | nil => exact absurd h List.not_mem_nil
  | cons first rest ih =>
    rw [depthAll]
    rcases List.mem_cons.1 h with rfl | h
    · exact le_max_left _ _
    · exact (ih h).trans (le_max_right _ _)

theorem depth_lt_of_mem {tree : SExpr} {items : List SExpr} (h : tree ∈ items) :
    tree.depth < (list items).depth := by
  rw [depth]
  exact Nat.lt_succ_of_le (depth_le_depthAll h)

/-- Whether the tree is a value with its sort. -/
def IsAscription (tree : SExpr) : Prop := ∃ value sort, tree = list [symbol "as", value, sort]

/-- Taking an ascription off leaves the value in it, and any other tree as it is. -/
theorem stripAscription_cases (tree : SExpr) :
    (∃ value sort, tree = list [symbol "as", value, sort] ∧ tree.stripAscription = value) ∨
      ¬ tree.IsAscription ∧ tree.stripAscription = tree := by
  by_cases h : tree.IsAscription
  · obtain ⟨value, sort, rfl⟩ := h
    exact Or.inl ⟨value, sort, rfl, rfl⟩
  · refine Or.inr ⟨h, ?_⟩
    unfold stripAscription
    split
    · next head value sort =>
      rw [if_neg]
      intro has
      exact h ⟨value, sort, by rw [eq_symbol_of_isSymbol has]⟩
    · rfl

theorem stripAscription_of_not {tree : SExpr} (h : ¬ tree.IsAscription) :
    tree.stripAscription = tree :=
  (stripAscription_cases tree).elim (fun ⟨value, sort, htree, _⟩ => absurd ⟨value, sort, htree⟩ h)
    And.right

theorem depth_stripAscription_le (tree : SExpr) : tree.stripAscription.depth ≤ tree.depth := by
  rcases stripAscription_cases tree with ⟨value, sort, rfl, hvalue⟩ | ⟨-, htree⟩
  · rw [hvalue]
    exact (depth_lt_of_mem (by simp)).le
  · rw [htree]

end SExpr

/-! ## Rounds of the rules -/

/-- How one round of the rules ends. -/
inductive Round where
  | decided (result : Decoded)
  /-- There is a part of the value to go on with. -/
  | left (part : SExpr)

/-- One round of the rules over what is left of a value.  The part that a rule points at is taken
out of its ascription. -/
def Round.of (kind : Kind) (current : SExpr) : Round :=
  match Rule.first Rule.all kind current with
  | .pass => .decided (.unmatched current)
  | .claim value => .decided (.value value)
  | .malformed reason => .decided (.malformed reason)
  | .inside part _ => .left part.stripAscription

/-- The rules, round after round, on what is left of a value.  There is no result if so many rounds
do not decide it. -/
def decodeWithin (kind : Kind) : ℕ → SExpr → Option Decoded
  | 0, _ => none
  | rounds + 1, current =>
    match Round.of kind current with
    | .decided result => some result
    | .left part => decodeWithin kind rounds part

namespace Round

variable {kind : Kind} {tree : SExpr}

/-- **What a round does**: it ends with the result for the value, or goes on with a part that lies
deeper and has the same result. -/
theorem of_cases (kind : Kind) (tree : SExpr) :
    of kind tree.stripAscription = decided (decode kind tree) ∨
      ∃ part, of kind tree.stripAscription = left part.stripAscription ∧
        part.depth < tree.depth ∧ decode kind tree = decode kind part := by
  rw [of, decode, decodeWith]
  have hfits := Rule.fits_first Rule.all kind tree.stripAscription
  generalize Rule.first Rule.all kind tree.stripAscription = verdict at hfits ⊢
  cases verdict with
  | pass => exact Or.inl rfl
  | claim value => exact Or.inl rfl
  | malformed reason => exact Or.inl rfl
  | inside part smaller =>
    obtain ⟨operands, hlist⟩ := hfits
    have hdeeper : part.depth < tree.stripAscription.depth := by
      rw [hlist]
      exact SExpr.depth_lt_of_mem (by simp)
    exact Or.inr ⟨part, rfl, hdeeper.trans_le (SExpr.depth_stripAscription_le tree), rfl⟩

end Round

/-- **The rounds end**, with the result for the value: as many are enough as lists stand inside each
other, and one more. -/
theorem decodeWithin_eq {kind : Kind} {tree : SExpr} {rounds : ℕ} (h : tree.depth < rounds) :
    decodeWithin kind rounds tree.stripAscription = some (decode kind tree) := by
  induction rounds generalizing tree with
  | zero => exact absurd h (Nat.not_lt_zero _)
  | succ rounds ih =>
    rw [decodeWithin]
    rcases Round.of_cases kind tree with hdecided | ⟨part, hleft, hdeeper, hsame⟩
    · rw [hdecided]
    · rw [hleft, hsame]
      exact ih (by omega)

/-! ## Wrappers -/

/-- What can stand around a value. -/
inductive Wrapper where
  | ascription (sort : SExpr)
  /-- A constant function with these operands in front of the value. -/
  | constantFunction (operands : List SExpr)

namespace Wrapper

/-- The wrapper around a tree. -/
def around : Wrapper → SExpr → SExpr
  | ascription sort, tree => .list [.symbol "as", tree, sort]
  | constantFunction operands, tree => .list (.symbol "LAMBDA" :: (operands ++ [tree]))

/-- A value in a stack of wrappers, the outermost first. -/
def wrap (wrappers : List Wrapper) (value : SExpr) : SExpr := wrappers.foldr around value

/-- Whether no ascription stands directly around another one, be it a wrapper or the value. -/
def Apart : List Wrapper → SExpr → Prop
  | [], _ => True
  | ascription _ :: inner, value => ¬ (wrap inner value).IsAscription ∧ Apart inner value
  | constantFunction _ :: inner, value => Apart inner value

end Wrapper

/-- What remains when the ascriptions are gone decides the result. -/
theorem decode_congr {kind : Kind} {a b : SExpr} (h : a.stripAscription = b.stripAscription) :
    decode kind a = decode kind b := by
  -- as many rounds as are enough for both
  have ha : decodeWithin kind (max a.depth b.depth + 1) a.stripAscription = some (decode kind a) :=
    decodeWithin_eq (by omega)
  have hb : decodeWithin kind (max a.depth b.depth + 1) b.stripAscription = some (decode kind b) :=
    decodeWithin_eq (by omega)
  rw [h] at ha
  exact Option.some.inj (ha.symm.trans hb)

/-- An ascription makes no difference. -/
theorem decode_ascription {kind : Kind} {tree : SExpr} (sort : SExpr) (h : ¬ tree.IsAscription) :
    decode kind ((Wrapper.ascription sort).around tree) = decode kind tree := by
  refine decode_congr ?_
  rw [SExpr.stripAscription_of_not h]
  rfl

/-- A constant function makes no difference. -/
theorem decode_constantFunction {kind : Kind} {tree : SExpr} (operands : List SExpr) :
    decode kind ((Wrapper.constantFunction operands).around tree) = decode kind tree := by
  have hlist : ¬ ((Wrapper.constantFunction operands).around tree).IsAscription := by
    rintro ⟨value, sort, heq⟩
    exact absurd (List.cons.inj (SExpr.list.inj heq)).1 (by decide)
  have htree : ((Wrapper.constantFunction operands).around tree).stripAscription =
      .list (.symbol "LAMBDA" :: (operands ++ [tree])) := SExpr.stripAscription_of_not hlist
  obtain ⟨smaller, hfirst⟩ := Rule.exists_first_constantFunction kind htree
  rw [decode, decodeWith, hfirst]
  rfl

/-- **What a value in wrappers is decoded to**, by induction on the wrappers. -/
theorem decode_wrap {kind : Kind} {wrappers : List Wrapper} {value : SExpr}
    (h : Wrapper.Apart wrappers value) :
    decode kind (Wrapper.wrap wrappers value) = decode kind value := by
  induction wrappers with
  | nil => rfl
  | cons wrapper inner ih =>
    cases wrapper with
    | ascription sort => exact (decode_ascription sort h.1).trans (ih h.2)
    | constantFunction operands => exact (decode_constantFunction operands).trans (ih h)

/-- **An ascription directly in another one is not taken off.**  No rule knows it, so it is the part
that the decoder reports. -/
theorem decode_ascription_ascription (kind : Kind) (value inner outer : SExpr) :
    decode kind (Wrapper.wrap [.ascription outer, .ascription inner] value) =
      .unmatched (Wrapper.wrap [.ascription inner] value) := by
  refine decode_of_pass ?_
  show Rule.first Rule.all kind (.list [.symbol "as", value, inner]) = .pass
  rw [Rule.first_list]
  rfl

namespace InputIndex

/-- **Wrappers make no difference.**  A value stands in ascriptions and constant functions, stacked
in any order but with no ascription directly around another one.  Then a pair with it is the same as
a pair with the value alone: it gives the same binding, or none as well, or the same error, which
names the same part of the value.  And for any value the rounds of the rules end: if the lists in it
stand at most `n` inside each other, then `n + 1` rounds decide it. -/
theorem bindPair_wrap {wrappers : List Wrapper} {value : SExpr}
    (h : Wrapper.Apart wrappers value) :
    (∀ kind, decode kind (Wrapper.wrap wrappers value) = decode kind value) ∧
    (∀ (index : InputIndex) (reference : SExpr) (line : String) (strictness : Strictness),
      index.bindPair [reference, Wrapper.wrap wrappers value] line strictness =
        index.bindPair [reference, value] line strictness) ∧
    ∀ (kind : Kind) (tree : SExpr) (rounds : ℕ), tree.depth < rounds →
      decodeWithin kind rounds tree.stripAscription = some (decode kind tree) := by
  refine ⟨fun kind => decode_wrap h, ?_, fun kind tree rounds => decodeWithin_eq⟩
  intro index reference line strictness
  rw [bindPair, bindPair]
  -- both pairs name the same input, since they have the same first item
  show index.target [reference, value] line >>= _ = index.target [reference, value] line >>= _
  simp only [decode_wrap h]

/-- The theorem at a value that no rule knows, under a constant function of an ascription of a
constant function without further operands: the error names the value and nothing around it. -/
theorem bindPair_wrap_unmatched :
    let wrappers := [Wrapper.constantFunction [.list [], .int 1], .ascription (.symbol "Int"),
      .constantFunction []]
    let value := SExpr.list [.symbol "bvadd", .symbol "x", .int 2]
    Wrapper.Apart wrappers value ∧
      Wrapper.wrap wrappers value = .list [.symbol "LAMBDA", .list [], .int 1,
        .list [.symbol "as", .list [.symbol "LAMBDA", value], .symbol "Int"]] ∧
      (ofList [byteInput]).bindPair [.symbol "s0", Wrapper.wrap wrappers value] "" .strict =
        .error (.unmatchedValue "s0 (byte)" "" "(bvadd x 2)") := by
  intro wrappers value
  have hapart : Wrapper.Apart wrappers value := by
    refine ⟨?_, trivial⟩
    rintro ⟨inner, sort, heq⟩
    exact absurd (List.cons.inj (SExpr.list.inj heq)).1 (by decide)
  refine ⟨hapart, rfl, ?_⟩
  rw [(bindPair_wrap hapart).2.1]
  have hnamed : byteInput.IsNamedBy [byteInput] (.symbol "s0") := ⟨by decide, by decide⟩
  have hunmatched : decode byteInput.kind value = .unmatched value := decode_of_pass rfl
  rw [bindPair, target_of_isNamedBy hnamed]
  simp only [bind, Except.bind, hunmatched]
  decide +kernel

end InputIndex
end SmtQuery
