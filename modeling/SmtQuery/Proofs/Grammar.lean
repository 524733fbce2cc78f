import Mathlib
import SmtQuery.Proofs.Layout

/-!
# The grammar of expressions

An expression is an atom, or a list of expressions between parentheses.  A `ParseTree` is a
derivation in this grammar, with the tokens that it derives and the s-expression that they spell, in
which every list is folded once its items are.  The reader works with a stack of open lists instead,
and `ofTokens_eq_ok_iff` says that it reads just what parse trees spell.

## What the stack stands for

While a line is read, the tokens taken so far are those of a parse tree with some parentheses still
open: for each open list an opening parenthesis and the items complete so far.
`ReadState.Holds state taken` says so, `holds_step` that a step keeps it and `holds_run` that a run
does.  With it, the state in which the reader stops tells what the tokens were, and so which of the
four failures it is:

* no token at all, or a closing parenthesis in front;
* a token behind a complete expression (`ofTokens_trailing`);
* lists still open, as many as opening parentheses are left over (`ofTokens_unbalanced`).
-/

namespace SmtQuery

/-- A derivation of an expression: a token that is an expression by itself, or a list. -/
inductive ParseTree where
  | atom (token : Token) (tree : SExpr) (h : token.tree? = some tree)
  | group (items : List ParseTree)

namespace ParseTree

mutual

/-- The tokens that are derived. -/
def tokens : ParseTree → List Token
  | atom token _ _ => [token]
  | group items => .lparen :: (tokensAll items ++ [.rparen])

/-- The tokens of several parse trees, one after another. -/
def tokensAll : List ParseTree → List Token
  | [] => []
  | d :: rest => tokens d ++ tokensAll rest

end

mutual

/-- The s-expression that the tokens spell. -/
def sexpr : ParseTree → SExpr
  | atom _ tree _ => tree
  | group items => .fold (sexprs items)

/-- The s-expressions of several parse trees. -/
def sexprs : List ParseTree → List SExpr
  | [] => []
  | d :: rest => sexpr d :: sexprs rest

end

theorem tokensAll_append (ds es : List ParseTree) :
    tokensAll (ds ++ es) = tokensAll ds ++ tokensAll es := by
  induction ds with
  | nil => rfl
  | cons d ds ih => rw [List.cons_append, tokensAll, tokensAll, ih, List.append_assoc]

theorem sexprs_append (ds es : List ParseTree) : sexprs (ds ++ es) = sexprs ds ++ sexprs es := by
  induction ds with
  | nil => rfl
  | cons d ds ih => rw [List.cons_append, sexprs, sexprs, ih, List.cons_append]

mutual

/-- Every parenthesis of a parse tree is closed. -/
theorem count_tokens : ∀ d : ParseTree, d.tokens.count .lparen = d.tokens.count .rparen
  | atom token tree h => by
    cases token with
    | lparen => exact absurd h (by simp [Token.tree?])
    | rparen => exact absurd h (by simp [Token.tree?])
    | bare word => rw [tokens]; rfl
    | quoted name => rw [tokens]; rfl
    | string text => rw [tokens]; rfl
  | group items => by
    have hitems := count_tokensAll items
    simp only [tokens, List.count_cons, List.count_append, List.count_nil]
    simp
    omega

theorem count_tokensAll : ∀ ds : List ParseTree,
    (tokensAll ds).count .lparen = (tokensAll ds).count .rparen
  | [] => rfl
  | d :: ds => by
    rw [tokensAll, List.count_append, List.count_append, count_tokens d, count_tokensAll ds]

end

end ParseTree

/-- Whether the tokens derive from the grammar of expressions, and spell the given tree. -/
def Derives (tokens : List Token) (tree : SExpr) : Prop :=
  ∃ d : ParseTree, d.tokens = tokens ∧ d.sexpr = tree

/-! ## From a parse tree to a run -/

namespace ReadState

open ParseTree

mutual

/-- The tokens of a parse tree take its s-expression to the innermost open list. -/
theorem foldlM_tokens : ∀ (d : ParseTree) {located : List (ℕ × Token)},
    located.map Prod.snd = d.tokens → ∀ openLists : List (List SExpr),
      located.foldlM step (.pending openLists) = .ok (place d.sexpr openLists)
  | .atom token tree htree, located, h, openLists => by
    rw [tokens] at h
    obtain ⟨⟨position, _⟩, rfl, rfl⟩ := List.map_eq_singleton_iff.1 h
    rw [List.foldlM_cons, step_tree htree]
    rfl
  | .group items, located, h, openLists => by
    rw [tokens] at h
    obtain ⟨⟨position, _⟩, inner, rfl, rfl, hinner⟩ := List.map_eq_cons_iff.1 h
    obtain ⟨middle, last, rfl, hmiddle, hlast⟩ := List.map_eq_append_iff.1 hinner
    obtain ⟨⟨stop, _⟩, rfl, rfl⟩ := List.map_eq_singleton_iff.1 hlast
    have hrun := foldlM_tokensAll items hmiddle [] openLists
    show (middle ++ [(stop, Token.rparen)]).foldlM step (.pending ([] :: openLists)) = _
    rw [List.foldlM_append, hrun, List.append_nil]
    show Except.ok (place (.fold (sexprs items).reverse.reverse) openLists) = _
    rw [List.reverse_reverse, sexpr]

theorem foldlM_tokensAll : ∀ (ds : List ParseTree) {located : List (ℕ × Token)},
    located.map Prod.snd = tokensAll ds → ∀ (items : List SExpr) (outer : List (List SExpr)),
      located.foldlM step (.pending (items :: outer)) =
        .ok (.pending (((sexprs ds).reverse ++ items) :: outer))
  | [], located, h, items, outer => by
    rw [tokensAll, List.map_eq_nil_iff] at h
    subst h
    rfl
  | d :: ds, located, h, items, outer => by
    rw [tokensAll] at h
    obtain ⟨front, back, rfl, hfront, hback⟩ := List.map_eq_append_iff.1 h
    rw [List.foldlM_append, foldlM_tokens d hfront, sexprs, List.reverse_cons, List.append_assoc]
    exact foldlM_tokensAll ds hback (d.sexpr :: items) outer

end

/-! ## From a run to a parse tree -/

/-- The tokens of lists that are open, innermost first, with their items so far. -/
def openTokens : List (List ParseTree) → List Token
  | [] => []
  | items :: outer => openTokens outer ++ .lparen :: tokensAll items

/-- Whether the state is the one after the given tokens: what it holds is spelled by parse trees,
and these derive the tokens. -/
def Holds : ReadState → List Token → Prop
  | pending openLists, taken => ∃ ds : List (List ParseTree), openTokens ds = taken ∧
      openLists = ds.map fun items => (sexprs items).reverse
  | done tree, taken => Derives taken tree

variable {state next : ReadState} {taken : List Token}

/-- A complete expression goes to the innermost open list. -/
theorem holds_place {openLists : List (List SExpr)} (h : (pending openLists).Holds taken)
    {more : List Token} {tree : SExpr} (hmore : Derives more tree) :
    (place tree openLists).Holds (taken ++ more) := by
  obtain ⟨ds, rfl, rfl⟩ := h
  obtain ⟨d, rfl, rfl⟩ := hmore
  cases ds with
  | nil => exact ⟨d, rfl, rfl⟩
  | cons items outer =>
    refine ⟨(items ++ [d]) :: outer, ?_, ?_⟩
    · rw [openTokens, openTokens, tokensAll_append, tokensAll, tokensAll, List.append_nil,
        List.append_assoc, List.cons_append]
    · show (d.sexpr :: (sexprs items).reverse) :: _ = (sexprs (items ++ [d])).reverse :: _
      rw [sexprs_append, List.reverse_append]
      rfl

/-- **A step keeps to the grammar.** -/
theorem holds_step (h : state.Holds taken) {position : ℕ} {token : Token}
    (hstep : state.step (position, token) = .ok next) : next.Holds (taken ++ [token]) := by
  obtain ⟨openLists, rfl, hcase⟩ := step_cases hstep
  rcases hcase with ⟨tree, htree, rfl⟩ | ⟨rfl, rfl⟩ | ⟨items, outer, rfl, rfl, rfl⟩
  · exact holds_place h ⟨.atom token tree htree, rfl, rfl⟩
  · obtain ⟨ds, rfl, rfl⟩ := h
    exact ⟨[] :: ds, rfl, rfl⟩
  · obtain ⟨ds, rfl, hitems⟩ := h
    obtain ⟨inner, around, rfl, rfl, rfl⟩ := List.map_eq_cons_iff.1 hitems.symm
    -- the list that is closed is an expression behind those around it
    have hclosed : Derives (.lparen :: (tokensAll inner ++ [.rparen])) (.fold (sexprs inner)) :=
      ⟨.group inner, rfl, rfl⟩
    have hplaced : (place (.fold (sexprs inner))
        (around.map fun items => (sexprs items).reverse)).Holds _ :=
      holds_place ⟨around, rfl, rfl⟩ hclosed
    rw [openTokens, List.append_assoc, List.reverse_reverse]
    exact hplaced

/-- **A run keeps to the grammar.** -/
theorem holds_run {located : List (ℕ × Token)} (h : state.Holds taken)
    (hrun : located.foldlM step state = .ok next) :
    next.Holds (taken ++ located.map Prod.snd) := by
  induction located generalizing state taken with
  | nil =>
    rw [← Except.ok.inj hrun, List.map_nil, List.append_nil]
    exact h
  | cons x located ih =>
    rw [List.foldlM_cons] at hrun
    obtain ⟨after, hafter, hrest⟩ := Except.bind_eq_ok_iff.1 hrun
    have hall := ih (holds_step h hafter) hrest
    rwa [List.append_assoc, List.singleton_append] at hall

theorem holds_start : start.Holds [] := ⟨[], rfl, rfl⟩

/-- The open lists are the parentheses that are not closed. -/
theorem count_openTokens (ds : List (List ParseTree)) :
    (openTokens ds).count .lparen = (openTokens ds).count .rparen + ds.length := by
  induction ds with
  | nil => rfl
  | cons items outer ih =>
    have hitems := count_tokensAll items
    simp only [openTokens, List.count_append, List.count_cons, List.length_cons]
    simp
    omega

end ReadState

/-! ## What a line is read as -/

namespace SExpr

open ReadState

variable {tokens : List (ℕ × Token)}

/-- **What is read**: what parse trees spell. -/
theorem ofTokens_eq_ok_iff {tree : SExpr} :
    ofTokens tokens = .ok tree ↔ Derives (tokens.map Prod.snd) tree := by
  constructor
  · intro h
    obtain ⟨final, hrun, h⟩ := Except.bind_eq_ok_iff.1 h
    have hfinal := holds_run holds_start hrun
    cases final with
    | done t =>
      rw [← Except.ok.inj h]
      exact hfinal
    | pending openLists => cases openLists <;> exact absurd h (by simp [finish])
  · rintro ⟨d, hd, rfl⟩
    rw [ofTokens, start, foldlM_tokens d hd.symm []]
    rfl

/-- A closing parenthesis in front closes nothing. -/
theorem ofTokens_rparen (position : ℕ) (rest : List (ℕ × Token)) :
    ofTokens ((position, .rparen) :: rest) = .error (.unexpectedClose position) := rfl

/-- A token behind a complete expression is one too many. -/
theorem ofTokens_trailing {front back : List (ℕ × Token)} {tree : SExpr}
    (h : Derives (front.map Prod.snd) tree) (position : ℕ) (token : Token) :
    ofTokens (front ++ (position, token) :: back) = .error (.trailingInput position) := by
  obtain ⟨d, hd, rfl⟩ := h
  rw [ofTokens, start, List.foldlM_append, foldlM_tokens d hd.symm []]
  rfl

/-- **Parentheses left open.**  Tokens that do not start with an expression, nor with a closing
parenthesis, have more opening parentheses than closing ones. -/
theorem ofTokens_unbalanced (hne : tokens ≠ [])
    (hrparen : ∀ position rest, tokens ≠ (position, .rparen) :: rest)
    (hnone : ∀ front back tree, tokens = front ++ back → ¬ Derives (front.map Prod.snd) tree) :
    (tokens.map Prod.snd).count .rparen < (tokens.map Prod.snd).count .lparen ∧
      ofTokens tokens = .error (.unbalanced ((tokens.map Prod.snd).count .lparen -
        (tokens.map Prod.snd).count .rparen)) := by
  cases hrun : tokens.foldlM step start with
  | error e =>
    -- a step fails only behind an expression, or at a closing parenthesis with no list open
    obtain ⟨front, ⟨position, token⟩, back, state, rfl, hfront, hstep⟩ :=
      Except.exists_of_foldlM_eq_error hrun
    have hholds := holds_run holds_start hfront
    rw [List.nil_append] at hholds
    rcases step_error_cases hstep with ⟨tree, rfl⟩ | ⟨rfl, rfl⟩
    · exact absurd hholds (hnone front _ tree rfl)
    · -- with no list open nothing was taken, so the parenthesis is the first token
      obtain ⟨ds, htaken, hds⟩ := hholds
      obtain rfl := List.map_eq_nil_iff.1 hds.symm
      obtain rfl := List.map_eq_nil_iff.1 htaken.symm
      exact absurd rfl (hrparen position back)
  | ok final =>
    have hholds := holds_run holds_start hrun
    rw [List.nil_append] at hholds
    cases final with
    | done tree => exact absurd hholds (hnone tokens [] tree (List.append_nil _).symm)
    | pending openLists =>
      obtain ⟨ds, htaken, rfl⟩ := hholds
      have hcount := count_openTokens ds
      rw [htaken] at hcount
      cases ds with
      | nil => exact absurd (List.map_eq_nil_iff.1 htaken.symm) hne
      | cons items outer =>
        rw [List.length_cons] at hcount
        refine ⟨by omega, ?_⟩
        rw [ofTokens, hrun, hcount, Nat.add_sub_cancel_left]
        exact congrArg (fun n => Except.error (ReadError.unbalanced (n + 1))) (List.length_map _)

end SExpr

/-- Whether the line is refused for the reason, at the byte offset if there is one. -/
def Refused (line reason : String) (position? : Option ℕ) : Prop :=
  ∃ e, SExpr.read line = .error e ∧ e.reason = reason ∧ e.position? = position?

namespace SExpr

/-- **Reading a line is parsing its tokens.**  A line can be cut into tokens.  It is read as a tree
exactly if the tokens derive from the grammar of expressions, with that tree.  Otherwise it is
refused: as empty if there are no tokens, for a closing parenthesis if they start with one, for the
first token behind an expression if they start with an expression (they do so in one way at most),
and else for as many parentheses as are opened and not closed.  The offset of a token is the number
of bytes in front of its spelling. -/
theorem read_of_tokenize {line : String} {tokens : List (ℕ × Token)}
    (h : Token.tokenize line.toList = .ok tokens) :
    (∀ tree, read line = .ok tree ↔ Derives (tokens.map Prod.snd) tree) ∧
    (tokens = [] → Refused line "empty input" none) ∧
    (∀ position rest, tokens = (position, .rparen) :: rest →
      Refused line "unexpected ')'" (some position)) ∧
    (∀ front position token back tree, tokens = front ++ (position, token) :: back →
      Derives (front.map Prod.snd) tree →
      Refused line "unexpected trailing input" (some position)) ∧
    (tokens ≠ [] → (∀ position rest, tokens ≠ (position, .rparen) :: rest) →
      (∀ front back tree, tokens = front ++ back → ¬ Derives (front.map Prod.snd) tree) →
      ∃ unclosed, (tokens.map Prod.snd).count .lparen =
          (tokens.map Prod.snd).count .rparen + unclosed ∧
        Refused line s!"unbalanced parentheses: {unclosed} unclosed" none) ∧
    ∀ position token, (position, token) ∈ tokens → ∃ front back,
      line.toList = front ++ (token.spelling ++ back) ∧ position = Token.byteLength front := by
  have hread : read line = ofTokens tokens := by
    rw [read, readChars, h]
    rfl
  refine ⟨fun tree => ?_, ?_, ?_, ?_, ?_, ?_⟩
  · rw [hread]
    exact ofTokens_eq_ok_iff
  · rintro rfl
    exact ⟨.empty, hread, rfl, rfl⟩
  · rintro position rest rfl
    exact ⟨_, hread.trans (ofTokens_rparen position rest), rfl, rfl⟩
  · rintro front position token back tree rfl hfront
    exact ⟨_, hread.trans (ofTokens_trailing hfront position token), rfl, rfl⟩
  · intro hne hrparen hnone
    obtain ⟨hlt, hunbalanced⟩ := ofTokens_unbalanced hne hrparen hnone
    exact ⟨_, (Nat.add_sub_of_le hlt.le).symm, _, hread.trans hunbalanced, rfl, rfl⟩
  · intro position token hmem
    obtain ⟨front, back, hline, hposition⟩ := (Token.tokensFrom_eq_ok_iff.1 h).offset hmem
    exact ⟨front, back, hline, by omega⟩

/-- The theorem at an expression with a number to fold, at the same with a comment and a word
behind it, and at one that is not finished. -/
theorem read_of_tokenize_mixed :
    (∃ tokens, Token.tokenize "(é (- 5))".toList = .ok tokens ∧
      read "(é (- 5))" = .ok (.list [.symbol "é", .int (-5)])) ∧
    (∃ tokens, Token.tokenize "(é (- 5)) ;c\n b".toList = .ok tokens ∧
      Refused "(é (- 5)) ;c\n b" "unexpected trailing input" (some 15)) ∧
    ∃ tokens, Token.tokenize "((b".toList = .ok tokens ∧
      Refused "((b" "unbalanced parentheses: 2 unclosed" none := by
  have hderives : Derives
      [.lparen, .bare ['é'], .lparen, .bare ['-'], .bare ['5'], .rparen, .rparen]
      (.list [.symbol "é", .int (-5)]) :=
    ⟨.group [.atom (.bare ['é']) _ rfl,
      .group [.atom (.bare ['-']) _ rfl, .atom (.bare ['5']) _ rfl]], rfl, by decide⟩
  have hcomplete : Token.tokenize "(é (- 5))".toList = .ok [(0, .lparen), (1, .bare ['é']),
      (4, .lparen), (5, .bare ['-']), (7, .bare ['5']), (8, .rparen), (9, .rparen)] := by cbv
  have htrailing : Token.tokenize "(é (- 5)) ;c\n b".toList = .ok [(0, .lparen), (1, .bare ['é']),
      (4, .lparen), (5, .bare ['-']), (7, .bare ['5']), (8, .rparen), (9, .rparen),
      (15, .bare ['b'])] := by cbv
  have hopen : Token.tokenize "((b".toList =
      .ok [(0, .lparen), (1, .lparen), (2, .bare ['b'])] := by cbv
  refine ⟨⟨_, hcomplete, ((read_of_tokenize hcomplete).1 _).2 hderives⟩, ⟨_, htrailing, ?_⟩,
    _, hopen, ?_⟩
  · exact (read_of_tokenize htrailing).2.2.2.1 [(0, .lparen), (1, .bare ['é']), (4, .lparen),
      (5, .bare ['-']), (7, .bare ['5']), (8, .rparen), (9, .rparen)] 15 (.bare ['b']) [] _ rfl
      hderives
  · have hnone : ∀ front back tree,
        [(0, Token.lparen), (1, .lparen), (2, .bare ['b'])] = front ++ back →
          ¬ Derives (front.map Prod.snd) tree := by
      rintro front back tree heq ⟨d, hd, -⟩
      -- an expression has a token in front, and as many parentheses of either sort
      have hcount := ParseTree.count_tokens d
      rw [hd] at hcount
      cases front with
      | nil => cases d <;> exact absurd hd (by simp [ParseTree.tokens])
      | cons x front =>
        have hclosed : ((x :: front).map Prod.snd).count .rparen ≤
            [Token.lparen, .lparen, .bare ['b']].count .rparen := by
          have hsub := ((List.sublist_append_left (x :: front) back).map Prod.snd)
          rw [← heq] at hsub
          exact hsub.count_le _
        rw [← hcount, List.map_cons, (List.cons_eq_cons.1 heq).1.symm] at hclosed
        exact absurd hclosed (by simp)
    obtain ⟨unclosed, hcount, hrefused⟩ := (read_of_tokenize hopen).2.2.2.2.1 (by decide)
      (fun position rest heq => absurd heq (by simp)) hnone
    obtain rfl : unclosed = 2 := by
      have hopened : [Token.lparen, .lparen, .bare ['b']].count .lparen = 2 := by decide
      have hclosed : [Token.lparen, .lparen, .bare ['b']].count .rparen = 0 := by decide
      simp only [List.map_cons, List.map_nil, hopened, hclosed] at hcount
      omega
    exact hrefused

end SExpr
end SmtQuery
