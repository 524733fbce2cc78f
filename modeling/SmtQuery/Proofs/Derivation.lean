import Mathlib
import SmtQuery.Proofs.Grammar
import SmtQuery.Proofs.Spelling

/-!
# Spellings as tokens

A spelling of a tree is a sequence of tokens, and how these are laid out on a line is a matter of
its own.  `ReadAs tokens tree` says that the layout does not matter: there is a line with these
tokens, and whatever line has them, with any separators and comments between them, is read as the
tree.

`Writes tokens tree` is what makes this so, and it can be found one list at a time, without a look
at any text: the words of a list are written, and the list is written around them.

* `Writes.readAs`: **what is written is read**, in every layout.
* `writes_of_spells`, `writes_word`: a word that is a number, and one that is a symbol.
* `writes_group`: a list, once its items are written.
-/

namespace SmtQuery

open Numeral

/-- A fixed word of the language. -/
def Token.word (text : String) : Token := .bare text.toList

/-- A list of items between parentheses. -/
def Token.group (items : List (List Token)) : List Token :=
  .lparen :: (items.flatten ++ [.rparen])

/-- Whether the tokens spell the tree: they derive it, and a line can have them. -/
structure Writes (tokens : List Token) (tree : SExpr) : Prop where
  wellFormed : ∀ token ∈ tokens, token.WellFormed
  derives : Derives tokens tree

/-- Whether the tokens are read as the tree, however they are laid out. -/
structure ReadAs (tokens : List Token) (tree : SExpr) : Prop where
  /-- There is a line with these tokens. -/
  exists_line : ∃ line : String, Token.Lexes line.toList tokens
  read_eq : ∀ line : String, Token.Lexes line.toList tokens → SExpr.read line = .ok tree

variable {tokens : List Token} {tree : SExpr} {trees : List SExpr}

/-! ## Words -/

theorem writes_bare {word : List Char} (hword : (Token.bare word).WellFormed)
    (h : Atom.classify word = tree) : Writes [.bare word] tree where
  wellFormed := fun _ hmem => List.mem_singleton.1 hmem ▸ hword
  derives := ⟨.atom (.bare word) tree (congrArg some h), rfl, rfl⟩

/-- A number in the strict grammar is one word. -/
theorem Token.wellFormed_of_spells {word : List Char} (h : Atom.Spells Atom.IsStrict word tree) :
    (bare word).WellFormed := by
  cases h with
  | hex h =>
    exact ⟨List.cons_ne_nil _ _, isDelimiter_cons rfl (isDelimiter_cons rfl
      (isDelimiter_of_isNumeral (by omega) h.1))⟩
  | binary h =>
    exact ⟨List.cons_ne_nil _ _, isDelimiter_cons rfl (isDelimiter_cons rfl
      (isDelimiter_of_isNumeral (by omega) h.1))⟩
  | int h => exact ⟨(isNumeral_iff.1 h).1, isDelimiter_of_isNumeral (by omega) h⟩
  | negativeInt h =>
    exact ⟨List.cons_ne_nil _ _, isDelimiter_cons rfl (isDelimiter_of_isNumeral (by omega) h)⟩
  | decimal hwhole hfrac =>
    exact ⟨List.append_ne_nil_of_right_ne_nil _ (List.cons_ne_nil _ _),
      isDelimiter_point hwhole hfrac⟩
  | negativeDecimal hwhole hfrac =>
    exact ⟨List.cons_ne_nil _ _, isDelimiter_cons rfl (isDelimiter_point hwhole hfrac)⟩

/-- A number in the strict grammar. -/
theorem writes_of_spells {word : List Char} (h : Atom.Spells Atom.IsStrict word tree) :
    Writes [.bare word] tree :=
  writes_bare (Token.wellFormed_of_spells h)
    (Atom.classify_of_spells (Atom.spells_lenient_of_strict h))

/-- A word that can stand without bars is the symbol that it is. -/
theorem writes_word {text : String} (h : SExpr.needsBars text.toList = false) :
    Writes [.word text] (.symbol text) := by
  obtain ⟨hne, hdelim, hclassify⟩ := Atom.of_needsBars h
  rw [String.ofList_toList] at hclassify
  exact writes_bare ⟨hne, hdelim⟩ hclassify

/-! ## Lists -/

/-- What stands between the parentheses of a list. -/
theorem exists_parseTrees_of_writes {items : List (List Token)}
    (h : List.Forall₂ Writes items trees) : (∀ token ∈ items.flatten, token.WellFormed) ∧
      ∃ ds : List ParseTree, ParseTree.tokensAll ds = items.flatten ∧
        ParseTree.sexprs ds = trees := by
  induction h with
  | nil => exact ⟨fun _ hmem => absurd hmem List.not_mem_nil, [], rfl, rfl⟩
  | cons hfirst _ ih =>
    obtain ⟨hformed, ds, htokens, rfl⟩ := ih
    obtain ⟨d, rfl, rfl⟩ := hfirst.derives
    rw [List.flatten_cons]
    refine ⟨List.forall_mem_append.2 ⟨hfirst.wellFormed, hformed⟩, d :: ds, ?_, rfl⟩
    rw [ParseTree.tokensAll, htokens]

/-- A list is folded once its items are complete. -/
theorem writes_group {items : List (List Token)} (h : List.Forall₂ Writes items trees) :
    Writes (Token.group items) (.fold trees) := by
  obtain ⟨hformed, ds, htokens, rfl⟩ := exists_parseTrees_of_writes h
  refine ⟨?_, .group ds, ?_, rfl⟩
  · rw [Token.group, List.forall_mem_cons, List.forall_mem_append, List.forall_mem_singleton]
    exact ⟨trivial, hformed, trivial⟩
  · rw [ParseTree.tokens, htokens, Token.group]

/-! ## Lines -/

namespace Token

/-- The tokens with a blank behind each of them. -/
def spaced (tokens : List Token) : List Char := tokens.flatMap fun token => token.spelling ++ [' ']

theorem exists_laidOut_spaced (h : ∀ token ∈ tokens, token.WellFormed) (position : ℕ) :
    ∃ located, LaidOut position (spaced tokens) located ∧ located.map Prod.snd = tokens := by
  induction tokens generalizing position with
  | nil => exact ⟨[], .nil, rfl⟩
  | cons token tokens ih =>
    obtain ⟨located, hlaid, rfl⟩ := ih (fun t ht => h t (List.mem_cons_of_mem token ht))
      (position + byteLength token.spelling + 1)
    have htext : spaced (token :: located.map Prod.snd) =
        token.spelling ++ ' ' :: spaced (located.map Prod.snd) := by
      simp only [spaced, List.flatMap_cons, List.append_assoc, List.singleton_append]
    have hblank : SExpr.Closes (' ' :: spaced (located.map Prod.snd)) :=
      fun c hc => Or.inl (Option.some.inj hc).symm
    have htoken := h token List.mem_cons_self
    rw [htext]
    exact ⟨(position, token) :: located,
      .token htoken (hblank.endsBefore token) (.space rfl hlaid), rfl⟩

/-- Well-formed tokens can be laid out on a line. -/
theorem exists_lexes (h : ∀ token ∈ tokens, token.WellFormed) :
    ∃ line : String, Lexes line.toList tokens := by
  obtain ⟨located, hlaid, hmap⟩ := exists_laidOut_spaced h 0
  refine ⟨String.ofList (spaced tokens), located, ?_, hmap⟩
  rw [String.toList_ofList]
  exact tokensFrom_eq_ok_iff.2 hlaid

end Token

/-- A line is read as the tree that its tokens derive. -/
theorem Derives.read_eq {line : String} (h : Derives tokens tree)
    (hline : Token.Lexes line.toList tokens) : SExpr.read line = .ok tree := by
  obtain ⟨located, hlocated, rfl⟩ := hline
  rw [SExpr.read, SExpr.readChars, hlocated]
  exact SExpr.ofTokens_eq_ok_iff.2 h

/-- **What is written is read**, however it is laid out. -/
theorem Writes.readAs (h : Writes tokens tree) : ReadAs tokens tree where
  exists_line := Token.exists_lexes h.wellFormed
  read_eq := fun _ hline => h.derives.read_eq hline

end SmtQuery
