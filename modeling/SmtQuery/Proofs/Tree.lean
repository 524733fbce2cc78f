import Mathlib
import SmtQuery.SExpr.Reader
import SmtQuery.Proofs.Except
import SmtQuery.Proofs.Literal

/-!
# The trees that lines are read into

Not every tree comes from a line.  A symbol that was read has no bar in it, a
bit-vector fits its width, and a list that spells a number has been folded away.
`everywhere_of_readChars` says that this holds at every node of a tree that was read,
and it is proved the way the reader works: the lexer makes well-formed tokens, one
step keeps the property of all trees on the stack, and so a run keeps it.

## Negative bit-vectors

The digits of a literal may have a minus sign in front, so `Readable` does not ask
for a value that is not negative.  It does record that the sign took the place of
a digit, which is what the printer of such values depends on.
-/

namespace SmtQuery

open Numeral

namespace SExpr

/-! ## Nodes -/

/-- The trees directly below a tree. -/
def children (tree : SExpr) : List SExpr := tree.items?.getD []

/-- Whether a property holds at every node of a tree. -/
inductive Everywhere (P : SExpr → Prop) : SExpr → Prop
  | intro {tree : SExpr} (here : P tree) (deeper : ∀ t ∈ tree.children, Everywhere P t) :
      Everywhere P tree

variable {P Q : SExpr → Prop}

theorem Everywhere.here {tree : SExpr} (h : Everywhere P tree) : P tree := by
  cases h with
  | intro here _ => exact here

theorem Everywhere.of_mem {tree : SExpr} {items : List SExpr} (h : Everywhere P (list items))
    (ht : tree ∈ items) : Everywhere P tree := by
  cases h with
  | intro _ deeper => exact deeper tree ht

theorem everywhere_list {items : List SExpr} (here : P (list items))
    (h : ∀ t ∈ items, Everywhere P t) : Everywhere P (list items) :=
  .intro here h

theorem everywhere_leaf {tree : SExpr} (hleaf : tree.children = []) (here : P tree) :
    Everywhere P tree := by
  refine .intro here fun t ht => ?_
  rw [hleaf] at ht
  exact absurd ht List.not_mem_nil

theorem Everywhere.mono (hPQ : ∀ tree, P tree → Q tree) {tree : SExpr} (h : Everywhere P tree) :
    Everywhere Q tree := by
  induction h with
  | intro here _ ih => exact .intro (hPQ _ here) ih

/-- Whether a node can stand in a tree that was read. -/
def Readable : SExpr → Prop
  | symbol name => '|' ∉ name.toList
  | bitVec n width => 0 < width.toNat ∧ n < weight 2 width.toNat ∧
      -(weight 2 (width.toNat - 1) : ℤ) < n
  | list items => fold items = list items
  | string _ | int _ | decimal _ | float _ => True

/-! ## Folding -/

/-- **What a list of items can fold into.**  A number is a leaf; a bit-vector among
them has a value that fits its width. -/
theorem number?_cases {items : List SExpr} {leaf : SExpr} (h : number? items = some leaf) :
    (∃ n, leaf = int n) ∨ (∃ q, leaf = decimal q) ∨ (∃ x, leaf = float x) ∨
      ∃ n w : ℕ, leaf = bitVec n (UInt32.ofNat w) ∧ 0 < w ∧ w < UInt32.size ∧
        n < weight 2 w := by
  have hsize : ∀ {tree : SExpr} {w : ℕ}, size? tree = some w → w < UInt32.size := by
    intro tree w hw
    unfold size? at hw
    split at hw
    · split at hw
      · next hn => rw [← Option.some.inj hw]; exact hn.2
      · exact absurd hw (by simp)
    · exact absurd hw (by simp)
  unfold number? at h
  split at h
  · -- `(- n)` for an integer
    split at h
    · exact Or.inl ⟨_, (Option.some.inj h).symm⟩
    · exact absurd h (by simp)
  · -- `(- q)` for a decimal
    split at h
    · exact Or.inr (Or.inl ⟨_, (Option.some.inj h).symm⟩)
    · exact absurd h (by simp)
  · -- `((_ to_fp eb sb) b)`
    unfold pattern? at h
    split at h
    · obtain ⟨e, -, h⟩ := Option.bind_eq_some_iff.1 h
      obtain ⟨s, -, h⟩ := Option.bind_eq_some_iff.1 h
      obtain ⟨p, -, h⟩ := Option.bind_eq_some_iff.1 h
      split at h
      · obtain ⟨n, -, rfl⟩ := Option.map_eq_some_iff.1 h
        exact Or.inr (Or.inr (Or.inl ⟨_, rfl⟩))
      · exact absurd h (by simp)
    · exact absurd h (by simp)
  · split at h
    · -- `(/ a b)`
      obtain ⟨a, -, h⟩ := Option.bind_eq_some_iff.1 h
      obtain ⟨b, -, h⟩ := Option.bind_eq_some_iff.1 h
      split at h
      · exact absurd h (by simp)
      · exact Or.inr (Or.inl ⟨_, (Option.some.inj h).symm⟩)
    · split at h
      · -- `(_ bvN w)`
        obtain ⟨w, hw, h⟩ := Option.bind_eq_some_iff.1 h
        split at h
        · split at h
          · obtain ⟨n, -, h⟩ := Option.bind_eq_some_iff.1 h
            split at h
            · next hfits =>
              rw [Bool.and_eq_true, decide_eq_true_eq, fitsWidth_iff] at hfits
              exact Or.inr (Or.inr (Or.inr
                ⟨n, w, (Option.some.inj h).symm, hfits.1, hsize hw, hfits.2⟩))
            · exact absurd h (by simp)
          · exact absurd h (by simp)
        · exact absurd h (by simp)
      · exact absurd h (by simp)
  · split at h
    · -- `(_ +oo eb sb)` and its kin
      obtain ⟨e, -, h⟩ := Option.bind_eq_some_iff.1 h
      obtain ⟨s, -, h⟩ := Option.bind_eq_some_iff.1 h
      obtain ⟨p, -, h⟩ := Option.bind_eq_some_iff.1 h
      split at h
      · obtain ⟨special, -, rfl⟩ := Option.map_eq_some_iff.1 h
        exact Or.inr (Or.inr (Or.inl ⟨_, rfl⟩))
      · exact absurd h (by simp)
    · split at h
      · -- `(fp s e m)`
        obtain ⟨e, -, h⟩ := Option.bind_eq_some_iff.1 h
        obtain ⟨m, -, h⟩ := Option.bind_eq_some_iff.1 h
        obtain ⟨p, -, h⟩ := Option.bind_eq_some_iff.1 h
        obtain ⟨s', -, h⟩ := Option.bind_eq_some_iff.1 h
        obtain ⟨e', -, h⟩ := Option.bind_eq_some_iff.1 h
        obtain ⟨m', -, h⟩ := Option.bind_eq_some_iff.1 h
        exact Or.inr (Or.inr (Or.inl ⟨_, (Option.some.inj h).symm⟩))
      · exact absurd h (by simp)
  · exact absurd h (by simp)

/-- A number is a leaf, and a node that can be read. -/
theorem readable_of_number? {items : List SExpr} {leaf : SExpr}
    (h : number? items = some leaf) : leaf.children = [] ∧ leaf.Readable := by
  rcases number?_cases h with ⟨n, rfl⟩ | ⟨q, rfl⟩ | ⟨x, rfl⟩ | ⟨n, w, rfl, hw, hsize, hn⟩
  · exact ⟨rfl, trivial⟩
  · exact ⟨rfl, trivial⟩
  · exact ⟨rfl, trivial⟩
  · have hpos : 0 < weight 2 (w - 1) := Nat.two_pow_pos _
    refine ⟨rfl, ?_⟩
    rw [Readable, UInt32.toNat_ofNat_of_lt' hsize]
    omega

/-- Folding either finds a leaf or leaves the list as it is. -/
theorem fold_eq (items : List SExpr) :
    number? items = some (fold items) ∨ number? items = none ∧ fold items = list items := by
  rw [fold]
  cases number? items with
  | some leaf => exact Or.inl rfl
  | none => exact Or.inr ⟨rfl, rfl⟩

theorem fold_eq_list_iff {items items' : List SExpr} :
    fold items = list items' ↔ items = items' ∧ number? items = none := by
  constructor
  · intro h
    rcases fold_eq items with hleaf | ⟨hnone, hlist⟩
    · rw [h] at hleaf
      rcases number?_cases hleaf with ⟨_, hl⟩ | ⟨_, hl⟩ | ⟨_, hl⟩ | ⟨_, _, hl, -⟩ <;>
        exact absurd hl (by simp)
    · rw [hlist] at h
      exact ⟨list.inj h, hnone⟩
  · rintro ⟨rfl, hnone⟩
    rw [fold, hnone]
    rfl

/-- **Folding keeps what has been read readable.** -/
theorem everywhere_fold {items : List SExpr} (h : ∀ t ∈ items, Everywhere Readable t) :
    Everywhere Readable (fold items) := by
  rcases fold_eq items with hleaf | ⟨hnone, hlist⟩
  · obtain ⟨hbelow, hread⟩ := readable_of_number? hleaf
    exact everywhere_leaf hbelow hread
  · rw [hlist]
    exact everywhere_list (fold_eq_list_iff.2 ⟨rfl, hnone⟩) h

end SExpr

/-! ## Tokens -/

namespace Token

theorem wellFormed_of_readQuoted? {text name rest : List Char}
    (h : readQuoted? text = some (name, rest)) : '|' ∉ name := by
  unfold readQuoted? at h
  split at h
  · obtain ⟨rfl, -⟩ := Prod.mk.inj (Option.some.inj h)
    intro hmem
    have hbar := List.mem_takeWhile_imp hmem
    exact of_decide_eq_true hbar rfl
  · exact absurd h (by simp)

/-- What the lexer finds at a character that is no separator is well formed. -/
theorem wellFormed_of_scan {position : ℕ} {c : Char} {text : List Char} {token : Token}
    {rest : { r : List Char // r.length ≤ text.length }} (hspace : isSpace c = false)
    (hc : c ≠ ';') (h : scan position c text = .ok (token, rest)) : token.WellFormed := by
  unfold scan at h
  split at h
  · rw [← (Prod.mk.inj (Except.ok.inj h)).1]
    trivial
  split at h
  · rw [← (Prod.mk.inj (Except.ok.inj h)).1]
    trivial
  split at h
  · split at h
    · next hquoted =>
      rw [← (Prod.mk.inj (Except.ok.inj h)).1]
      exact wellFormed_of_readQuoted? hquoted
    · exact absurd h (by simp)
  split at h
  · split at h
    · rw [← (Prod.mk.inj (Except.ok.inj h)).1]
      trivial
    · exact absurd h (by simp)
  · next hl hr hbar hquote =>
    rw [← (Prod.mk.inj (Except.ok.inj h)).1]
    refine ⟨List.cons_ne_nil _ _, isDelimiter_cons ?_ ?_⟩
    · simp only [isDelimiter, hspace, hl, hr, hbar, hquote, hc, decide_false, Bool.or_self]
    · intro d hd
      have hnot := List.mem_takeWhile_imp hd
      rwa [Bool.not_eq_true'] at hnot

/-- **The lexer makes well-formed tokens only.** -/
theorem wellFormed_of_tokensFrom {position : ℕ} {text : List Char} {tokens : List (ℕ × Token)}
    (h : tokensFrom position text = .ok tokens) : ∀ t ∈ tokens, t.2.WellFormed := by
  fun_induction tokensFrom position text generalizing tokens with
  | case1 => rw [← Except.ok.inj h]; exact fun t ht => absurd ht List.not_mem_nil
  | case2 position c rest hspace ih => exact ih h
  | case3 position rest hspace ih => exact ih h
  | case4 => exact absurd h (by simp)
  | case5 => exact absurd h (by simp)
  | case6 position c rest hspace hc token after hle hscan tokens' htokens ih =>
    rw [← Except.ok.inj h]
    intro t ht
    rcases List.mem_cons.1 ht with rfl | ht
    · exact wellFormed_of_scan (Bool.eq_false_iff.2 hspace) hc hscan
    · exact ih htokens t ht

end Token

/-! ## The reader -/

namespace Atom

/-- A word of which no character is a delimiter stands for a readable leaf. -/
theorem readable_classify {word : List Char} (h : ∀ c ∈ word, Token.isDelimiter c = false) :
    (classify word).children = [] ∧ (classify word).Readable := by
  unfold classify
  split
  · next hlit =>
    obtain ⟨n, width, rfl, hpos, hlt, hgt⟩ := eq_of_bitVec? hlit
    exact ⟨rfl, hpos, hlt, hgt⟩
  · split
    · exact ⟨rfl, trivial⟩
    · split
      · exact ⟨rfl, trivial⟩
      · refine ⟨rfl, ?_⟩
        rw [SExpr.Readable, String.toList_ofList]
        intro hbar
        exact absurd (h '|' hbar) (by decide)

end Atom

theorem Token.everywhere_tree? {token : Token} {tree : SExpr} (htoken : token.WellFormed)
    (h : token.tree? = some tree) : tree.Everywhere SExpr.Readable := by
  cases token with
  | lparen => exact absurd h (by simp [Token.tree?])
  | rparen => exact absurd h (by simp [Token.tree?])
  | bare word =>
    obtain ⟨hbelow, hread⟩ := Atom.readable_classify htoken.2
    rw [← Option.some.inj h]
    exact SExpr.everywhere_leaf hbelow hread
  | quoted name =>
    rw [← Option.some.inj h]
    refine SExpr.everywhere_leaf rfl ?_
    rw [SExpr.Readable, String.toList_ofList]
    exact htoken
  | string text =>
    rw [← Option.some.inj h]
    exact SExpr.everywhere_leaf rfl trivial

namespace ReadState

/-- Whether every tree that a state holds is readable at every node. -/
def AllReadable : ReadState → Prop
  | pending openLists => ∀ items ∈ openLists, ∀ t ∈ items, SExpr.Everywhere SExpr.Readable t
  | done tree => tree.Everywhere SExpr.Readable

theorem allReadable_place {tree : SExpr} (htree : tree.Everywhere SExpr.Readable)
    {openLists : List (List SExpr)} (h : (pending openLists).AllReadable) :
    (place tree openLists).AllReadable := by
  cases openLists with
  | nil => exact htree
  | cons items outer =>
    intro items' hitems t ht
    rcases List.mem_cons.1 hitems with rfl | hitems
    · rcases List.mem_cons.1 ht with rfl | ht
      · exact htree
      · exact h items List.mem_cons_self t ht
    · exact h items' (List.mem_cons_of_mem _ hitems) t ht

/-- **One step keeps every tree readable.** -/
theorem allReadable_step {state next : ReadState} {position : ℕ} {token : Token}
    (htoken : token.WellFormed) (h : state.AllReadable)
    (hstep : state.step (position, token) = .ok next) : next.AllReadable := by
  obtain ⟨openLists, rfl, hcase⟩ := step_cases hstep
  rcases hcase with ⟨tree, htree, rfl⟩ | ⟨rfl, rfl⟩ | ⟨items, outer, rfl, rfl, rfl⟩
  · exact allReadable_place (Token.everywhere_tree? htoken htree) h
  · intro items hitems t ht
    rcases List.mem_cons.1 hitems with rfl | hitems
    · exact absurd ht List.not_mem_nil
    · exact h items hitems t ht
  · refine allReadable_place (SExpr.everywhere_fold fun t ht => ?_) fun items' hitems =>
      h items' (List.mem_cons_of_mem _ hitems)
    exact h items List.mem_cons_self t (List.mem_reverse.1 ht)

/-- **A run keeps every tree readable.** -/
theorem allReadable_run {tokens : List (ℕ × Token)} {state final : ReadState}
    (htokens : ∀ t ∈ tokens, t.2.WellFormed) (h : state.AllReadable)
    (hrun : tokens.foldlM step state = .ok final) : final.AllReadable :=
  Except.foldlM_induction h
    (fun token hmem _ _ hstate hstep => allReadable_step (htokens token hmem) hstate hstep) hrun

end ReadState

namespace SExpr

/-- **A tree that was read is readable at every node.** -/
theorem everywhere_of_readChars {line : List Char} {tree : SExpr}
    (h : readChars line = .ok tree) : tree.Everywhere Readable := by
  obtain ⟨tokens, htokens, h⟩ := Except.bind_eq_ok_iff.1 h
  obtain ⟨final, hrun, h⟩ := Except.bind_eq_ok_iff.1 h
  have hstart : ReadState.start.AllReadable := fun items hitems => absurd hitems List.not_mem_nil
  have hfinal := ReadState.allReadable_run (Token.wellFormed_of_tokensFrom htokens) hstart hrun
  cases final with
  | done t =>
    rw [← Except.ok.inj h]
    exact hfinal
  | pending openLists => cases openLists <;> exact absurd h (by simp [ReadState.finish])

end SExpr
end SmtQuery
