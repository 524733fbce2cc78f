import Mathlib
import SmtQuery.Reply.Binding
import SmtQuery.Proofs.RoundTrip

/-!
# Which trees lines are read into

What is done with a reply looks for fixed shapes in the tree of a line: a minus sign in front of an
infinity, a conversion in front of a number, a decimal where a number is expected.  Each of them
relies on numbers being leaves, at every depth, and on names being free of bars.  The reader keeps
to this as it works (`ReadState.allReadable_run`), and here it is said of places in the tree that
it returns.

* `at?`: the node at a place, and `everywhere_iff_at?`: a property holds everywhere in a tree
  exactly if it holds at all places.
* `exists_reads`: every tree that is readable everywhere is what some form is read as.
* `exists_read_eq_iff`: **which trees are read.**  At no place is there a list that spells a number
  or a symbol with a bar in its name, and bit-vectors fit their width; and every tree of this sort
  is read from some line.

## Why the printer does not give the line

A tree that is readable everywhere need not be read from its own text, since the printer has no
place for the sign of some negative bit-vectors (`KeepsWidth`).  In binary digits the sign
always has a place, so there is a line for each of these trees all the same.
-/

namespace SmtQuery
namespace SExpr

open Numeral

/-! ## Places in a tree -/

/-- The node that is found by going down a path of positions among the items of a list, if the tree
goes on that far. -/
def at? (tree : SExpr) : List ℕ → Option SExpr
  | [] => some tree
  | i :: path => tree.children[i]?.bind fun child => child.at? path

theorem at?_cons_eq_some_iff {tree node : SExpr} {i : ℕ} {path : List ℕ} :
    tree.at? (i :: path) = some node ↔
      ∃ child, tree.children[i]? = some child ∧ child.at? path = some node :=
  Option.bind_eq_some_iff

/-- The trees directly below a tree are smaller. -/
theorem sizeOf_lt_of_mem_children {child tree : SExpr} (h : child ∈ tree.children) :
    sizeOf child < sizeOf tree := by
  cases tree with
  | list items => exact sizeOf_lt_of_mem h
  | _ => exact absurd h List.not_mem_nil

variable {P : SExpr → Prop}

theorem Everywhere.of_at? {tree : SExpr} (h : Everywhere P tree) {path : List ℕ} {node : SExpr}
    (hnode : tree.at? path = some node) : P node := by
  induction path generalizing tree with
  | nil =>
    obtain rfl := Option.some.inj hnode
    exact h.here
  | cons i path ih =>
    obtain ⟨child, hchild, hnode⟩ := at?_cons_eq_some_iff.1 hnode
    cases h with
    | intro _ deeper => exact ih (deeper child (List.mem_of_getElem? hchild)) hnode

theorem everywhere_of_at? {tree : SExpr}
    (h : ∀ path node, tree.at? path = some node → P node) : Everywhere P tree := by
  refine .intro (h [] tree rfl) fun child hchild => everywhere_of_at? fun path node hnode => ?_
  obtain ⟨i, hi⟩ := List.mem_iff_getElem?.1 hchild
  exact h (i :: path) node (at?_cons_eq_some_iff.2 ⟨child, hi, hnode⟩)
termination_by sizeOf tree
decreasing_by exact sizeOf_lt_of_mem_children hchild

/-- A property holds everywhere in a tree exactly if it holds at all places. -/
theorem everywhere_iff_at? {tree : SExpr} :
    Everywhere P tree ↔ ∀ path node, tree.at? path = some node → P node :=
  ⟨fun h _ _ hnode => h.of_at? hnode, everywhere_of_at?⟩

/-! ## A form for each tree -/

/-- A leaf that keeps its width has the form that is printed for it. -/
theorem exists_reads_leaf {leaf : SExpr} (hleaf : leaf.children = []) (here : leaf.Readable)
    (hkeeps : leaf.KeepsWidth) : ∃ form : Form, form.Reads leaf := by
  obtain ⟨tree, hreads, hsame⟩ := reads_form (everywhere_leaf hleaf here)
  obtain rfl := hsame.2 (everywhere_leaf hleaf hkeeps)
  exact ⟨_, hreads⟩

theorem exists_readsAll {items : List SExpr} (h : ∀ t ∈ items, ∃ form : Form, form.Reads t) :
    ∃ forms, Form.ReadsAll forms items := by
  induction items with
  | nil => exact ⟨[], Form.readsAll_nil⟩
  | cons tree rest ih =>
    obtain ⟨form, hform⟩ := h tree List.mem_cons_self
    obtain ⟨forms, hforms⟩ := ih fun t ht => h t (List.mem_cons_of_mem _ ht)
    exact ⟨form :: forms, Form.readsAll_cons hform hforms⟩

/-- **Every tree that is readable everywhere is read from some form.** -/
theorem exists_reads {tree : SExpr} (h : tree.Everywhere Readable) :
    ∃ form : Form, form.Reads tree := by
  induction h with
  | @intro tree here deeper ih =>
    cases tree with
    | bitVec n width =>
      have hlex := isLexeme_of_readable here
      exact ⟨.lexeme _, by rwa [Form.Reads]⟩
    | list items =>
      have hfold : fold items = list items := here
      obtain ⟨forms, hforms⟩ : ∃ forms, Form.ReadsAll forms items := exists_readsAll ih
      exact ⟨.group forms, hfold ▸ Form.reads_group hforms⟩
    | _ => exact exists_reads_leaf rfl here trivial

/-! ## Trees and lines -/

/-- The trees that are read are those that are readable everywhere. -/
theorem exists_read_iff_everywhere {tree : SExpr} :
    (∃ line, read line = .ok tree) ↔ tree.Everywhere Readable := by
  constructor
  · rintro ⟨line, h⟩
    exact everywhere_of_readChars h
  · intro h
    obtain ⟨form, hform⟩ := exists_reads h
    exact ⟨toString form, read_toString hform⟩

theorem readable_bitVec_iff {n : ℤ} {width : UInt32} : (bitVec n width).Readable ↔
    0 < width.toNat ∧ n < 2 ^ width.toNat ∧ -2 ^ (width.toNat - 1) < n := by
  rw [Readable, weight_eq, weight_eq]
  push_cast
  rfl

/-- **Which trees are read.**  A tree is read from some line exactly if it is so at every place in
it, however deep: a list is left alone by folding, a symbol has no bar in its name, and a bit-vector
has a width and a value that fits it, where the sign of a negative value takes the place of a
digit. -/
theorem exists_read_eq_iff (tree : SExpr) :
    (∃ line, read line = .ok tree) ↔
      (∀ path items, tree.at? path = some (list items) → fold items = list items) ∧
      (∀ path name, tree.at? path = some (symbol name) → '|' ∉ name.toList) ∧
      ∀ path n width, tree.at? path = some (bitVec n width) →
        0 < width.toNat ∧ n < 2 ^ width.toNat ∧ -2 ^ (width.toNat - 1) < n := by
  rw [exists_read_iff_everywhere, everywhere_iff_at?]
  constructor
  · intro h
    exact ⟨fun path items hat => h path _ hat, fun path name hat => h path _ hat,
      fun path n width hat => readable_bitVec_iff.1 (h path _ hat)⟩
  · rintro ⟨hlist, hsymbol, hbits⟩ path node hat
    cases node with
    | list items => exact hlist path items hat
    | symbol name => exact hsymbol path name hat
    | bitVec n width => exact readable_bitVec_iff.2 (hbits path n width hat)
    | _ => trivial

/-- Lists that are no numbers, and a name that is none because of its bars, on a line; a negated
number and a name with a bar in it, inside of lists, on no line. -/
theorem exists_read_eq_iff_nested :
    read "(f (- (- x)) |- 5|)" = .ok
        (list [symbol "f", list [symbol "-", list [symbol "-", symbol "x"]], symbol "- 5"]) ∧
      fold [symbol "-", symbol "x"] = list [symbol "-", symbol "x"] ∧ '|' ∉ "- 5".toList ∧
      (¬ ∃ line, read line = .ok (list [symbol "f", list [symbol "-", int 5]])) ∧
      ¬ ∃ line, read line = .ok (list [list [symbol "a|b"]]) := by
  have hread : read "(f (- (- x)) |- 5|)" = .ok
      (list [symbol "f", list [symbol "-", list [symbol "-", symbol "x"]], symbol "- 5"]) := by
    cbv
  obtain ⟨hlist, hsymbol, -⟩ := (exists_read_eq_iff _).1 ⟨_, hread⟩
  refine ⟨hread, hlist [1, 1] _ rfl, hsymbol [2] _ rfl, fun h => ?_, fun h => ?_⟩
  · have hfold := ((exists_read_eq_iff _).1 h).1 [1] _ rfl
    exact absurd hfold (by decide)
  · have hbar := ((exists_read_eq_iff _).1 h).2.1 [0, 0] _ rfl
    exact absurd hbar (by decide)

end SExpr
end SmtQuery
