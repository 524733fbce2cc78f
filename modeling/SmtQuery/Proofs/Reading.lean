import Mathlib
import SmtQuery.Form
import SmtQuery.SExpr.Reader
import SmtQuery.Proofs.Token

/-!
# What a written form is read as

Everything the library writes is a `Form`, and everything it reads is an `SExpr`.
`Form.Reads form tree` says that the form is read as the tree, by recursion on the
form: a lexeme has to be the spelling of one token, and a sequence is read as the
fold of what its items are read as.  `readChars_text` is the one theorem that goes
through the lexer and the reader's stack; with it, what becomes of a written term,
sort, command or tree is a question about forms alone.

## Why the text behind a form appears

The reader works on a stack of open lists, so the statement that can be proved by
induction is about a form in the middle of a line: reading goes on behind it with
its tree placed on the stack.  The text behind has to end the form's last lexeme,
and inside a form it always does, because what follows an item is a blank or a
closing parenthesis (`Closes`).
-/

namespace SmtQuery

/-! ## Tokens as trees -/

/-- The tree that a token is by itself; parentheses are none. -/
def Token.tree? : Token → Option SExpr
  | lparen | rparen => none
  | bare word => some (Atom.classify word)
  | quoted name => some (.symbol (String.ofList name))
  | string text => some (.string (String.ofList text))

namespace ReadState

/-- A token that is a tree by itself goes to the innermost open list. -/
theorem step_tree {token : Token} {tree : SExpr} (h : token.tree? = some tree) (position : ℕ)
    (openLists : List (List SExpr)) :
    step (.pending openLists) (position, token) = .ok (place tree openLists) := by
  cases token with
  | lparen => exact absurd h (by simp [Token.tree?])
  | rparen => exact absurd h (by simp [Token.tree?])
  | bare word => rw [← Option.some.inj h]; rfl
  | quoted name => rw [← Option.some.inj h]; rfl
  | string text => rw [← Option.some.inj h]; rfl

variable {state next : ReadState} {position : ℕ} {token : Token}

/-- **What a step can do**: a tree goes to the innermost open list, a list is opened, or the
innermost one is closed and goes, folded, to the one around it. -/
theorem step_cases (h : state.step (position, token) = .ok next) :
    ∃ openLists, state = .pending openLists ∧
      ((∃ tree, token.tree? = some tree ∧ next = place tree openLists) ∨
        (token = .lparen ∧ next = .pending ([] :: openLists)) ∨
        ∃ items outer, token = .rparen ∧ openLists = items :: outer ∧
          next = place (SExpr.fold items.reverse) outer) := by
  cases state with
  | done tree => exact absurd h (by simp [step])
  | pending openLists =>
    refine ⟨openLists, rfl, ?_⟩
    cases token with
    | lparen => exact Or.inr (Or.inl ⟨rfl, (Except.ok.inj h).symm⟩)
    | rparen =>
      cases openLists with
      | nil => exact absurd h (by simp [step])
      | cons items outer =>
        exact Or.inr (Or.inr ⟨items, outer, rfl, rfl, (Except.ok.inj h).symm⟩)
    | bare word => exact Or.inl ⟨_, rfl, (Except.ok.inj h).symm⟩
    | quoted name => exact Or.inl ⟨_, rfl, (Except.ok.inj h).symm⟩
    | string text => exact Or.inl ⟨_, rfl, (Except.ok.inj h).symm⟩

/-- **Where a step fails**: behind a complete expression, or at a parenthesis that closes
nothing. -/
theorem step_error_cases {e : ReadError} (h : state.step (position, token) = .error e) :
    (∃ tree, state = .done tree) ∨ state = .pending [] ∧ token = .rparen := by
  cases state with
  | done tree => exact Or.inl ⟨tree, rfl⟩
  | pending openLists =>
    cases token with
    | rparen =>
      cases openLists with
      | nil => exact Or.inr ⟨rfl, rfl⟩
      | cons items outer => exact absurd h (by simp [step])
    | _ => exact absurd h (by simp [step])

end ReadState

namespace Form

/-- Whether the text is the spelling of a single token that is read as the tree. -/
def IsLexeme (text : List Char) (tree : SExpr) : Prop :=
  ∃ token : Token, token.WellFormed ∧ token.spelling = text ∧ token.tree? = some tree

mutual

/-- Whether the form is read as the tree. -/
def Reads : Form → SExpr → Prop
  | lexeme text, tree => IsLexeme text tree
  | group items, tree => ∃ trees, ReadsAll items trees ∧ tree = SExpr.fold trees
  | call operator operands, tree =>
    ∃ head trees, IsLexeme operator head ∧ ReadsAll operands trees ∧
      tree = SExpr.fold (head :: trees)

/-- Whether the forms are read as the trees, one by one. -/
def ReadsAll : List Form → List SExpr → Prop
  | [], trees => trees = []
  | form :: rest, trees => ∃ tree more, Reads form tree ∧ ReadsAll rest more ∧ trees = tree :: more

end

theorem readsAll_nil : ReadsAll [] [] := by
  rw [ReadsAll]

theorem readsAll_cons {form : Form} {rest : List Form} {tree : SExpr} {more : List SExpr}
    (h : form.Reads tree) (hrest : ReadsAll rest more) :
    ReadsAll (form :: rest) (tree :: more) := by
  rw [ReadsAll]
  exact ⟨tree, more, h, hrest, rfl⟩

theorem reads_group {items : List Form} {trees : List SExpr} (h : ReadsAll items trees) :
    (group items).Reads (SExpr.fold trees) := by
  rw [Reads]
  exact ⟨trees, h, rfl⟩

/-! ## Lexemes -/

theorem isLexeme_bare {word : List Char} (hne : word ≠ [])
    (h : ∀ c ∈ word, Token.isDelimiter c = false) : IsLexeme word (Atom.classify word) :=
  ⟨.bare word, ⟨hne, h⟩, rfl, rfl⟩

theorem isLexeme_barred {name : List Char} (h : '|' ∉ name) :
    IsLexeme ('|' :: name ++ ['|']) (.symbol (String.ofList name)) :=
  ⟨.quoted name, h, rfl, rfl⟩

theorem isLexeme_string (text : List Char) :
    IsLexeme (Token.stringSpelling text) (.string (String.ofList text)) :=
  ⟨.string text, trivial, rfl, rfl⟩

end Form

/-! ## Reading on from the middle of a line -/

namespace SExpr

open Form

/-- Reading a text that starts at the given byte offset, from the given state on. -/
def readFrom (position : ℕ) (state : ReadState) (text : List Char) : Except ReadError SExpr := do
  let tokens ← Token.tokensFrom position text
  let state ← tokens.foldlM ReadState.step state
  state.finish

theorem readChars_eq (line : List Char) : readChars line = readFrom 0 .start line := rfl

/-- One token is one step. -/
theorem readFrom_token {position : ℕ} {state next : ReadState} {token : Token} {rest : List Char}
    (htoken : token.WellFormed) (hrest : token.EndsBefore rest)
    (hstep : state.step (position, token) = .ok next) :
    readFrom position state (token.spelling ++ rest) =
      readFrom (position + Token.byteLength token.spelling) next rest := by
  rw [readFrom, readFrom, Token.tokensFrom_spelling position htoken hrest]
  cases Token.tokensFrom (position + Token.byteLength token.spelling) rest with
  | error e => rfl
  | ok tokens =>
    show ((position, token) :: tokens).foldlM ReadState.step state >>= ReadState.finish =
      tokens.foldlM ReadState.step next >>= ReadState.finish
    rw [List.foldlM_cons, hstep]
    rfl

/-- A blank is passed over. -/
theorem readFrom_blank (position : ℕ) (state : ReadState) (rest : List Char) :
    readFrom position state (' ' :: rest) = readFrom (position + 1) state rest := by
  rw [readFrom, readFrom, Token.tokensFrom_space position rfl]

/-- Whether the text ends whatever lexeme stands in front of it: it is empty or
starts with a blank or a closing parenthesis. -/
def Closes (rest : List Char) : Prop := ∀ c ∈ rest.head?, c = ' ' ∨ c = ')'

theorem Closes.endsBefore {rest : List Char} (h : Closes rest) (token : Token) :
    token.EndsBefore rest := by
  cases token with
  | lparen => trivial
  | rparen => trivial
  | quoted name => trivial
  | bare word =>
    intro c hc
    rcases h c hc with rfl | rfl <;> rfl
  | string text =>
    intro hq
    rcases h _ hq with hc | hc
    · exact absurd hc (by decide)
    · exact absurd hc (by decide)

theorem readFrom_lexeme {text : List Char} {tree : SExpr} (h : IsLexeme text tree)
    {rest : List Char} (hrest : Closes rest) (position : ℕ) (openLists : List (List SExpr)) :
    readFrom position (.pending openLists) (text ++ rest) =
      readFrom (position + Token.byteLength text) (.place tree openLists) rest := by
  obtain ⟨token, htoken, rfl, htree⟩ := h
  exact readFrom_token htoken (hrest.endsBefore token)
    (ReadState.step_tree htree position openLists)

theorem readFrom_lparen (position : ℕ) (openLists : List (List SExpr)) (rest : List Char) :
    readFrom position (.pending openLists) ('(' :: rest) =
      readFrom (position + 1) (.pending ([] :: openLists)) rest := by
  have htoken : Token.lparen.WellFormed := trivial
  exact readFrom_token htoken trivial rfl

theorem readFrom_rparen (position : ℕ) (items : List SExpr) (outer : List (List SExpr))
    (rest : List Char) :
    readFrom position (.pending (items :: outer)) (')' :: rest) =
      readFrom (position + 1) (.place (fold items.reverse) outer) rest := by
  have htoken : Token.rparen.WellFormed := trivial
  exact readFrom_token htoken trivial rfl

mutual

/-- A form is read as its tree, which goes to the innermost open list. -/
theorem readFrom_form : ∀ (form : Form) {tree : SExpr} {rest : List Char}, form.Reads tree →
    Closes rest → ∀ (position : ℕ) (openLists : List (List SExpr)), ∃ position',
      readFrom position (.pending openLists) (form.text ++ rest) =
        readFrom position' (.place tree openLists) rest
  | .lexeme text, tree, rest, h, hrest, position, openLists => by
    rw [Reads] at h
    rw [Form.text]
    exact ⟨_, readFrom_lexeme h hrest position openLists⟩
  | .group items, tree, rest, h, _, position, openLists => by
    rw [Reads] at h
    obtain ⟨trees, htrees, rfl⟩ := h
    have htext : (group items).text ++ rest = '(' :: (spaced items ++ ')' :: rest) := by
      rw [Form.text, List.cons_append, List.cons_append, List.append_assoc]
      rfl
    obtain ⟨p, hp⟩ := readFrom_spaced items htrees rest (position + 1) [] openLists
    refine ⟨p + 1, ?_⟩
    rw [htext, readFrom_lparen, hp, readFrom_rparen, List.append_nil, List.reverse_reverse]
  | .call operator operands, tree, rest, h, _, position, openLists => by
    rw [Reads] at h
    obtain ⟨head, trees, hhead, htrees, rfl⟩ := h
    have htext : (call operator operands).text ++ rest =
        '(' :: (operator ++ ' ' :: (spaced operands ++ ')' :: rest)) := by
      rw [Form.text]
      simp only [List.cons_append, List.append_assoc, List.nil_append]
    have hblank : Closes (' ' :: (spaced operands ++ ')' :: rest)) := by
      intro c hc
      exact Or.inl (Option.some.inj hc).symm
    obtain ⟨p, hp⟩ := readFrom_spaced operands htrees rest
      (position + 1 + Token.byteLength operator + 1) [head] openLists
    refine ⟨p + 1, ?_⟩
    rw [htext, readFrom_lparen, readFrom_lexeme hhead hblank, ReadState.place, readFrom_blank, hp,
      readFrom_rparen, List.reverse_append, List.reverse_reverse]
    rfl

/-- The items of a list are read one after another; the parenthesis behind them
is not yet taken. -/
theorem readFrom_spaced : ∀ (forms : List Form) {trees : List SExpr}, ReadsAll forms trees →
    ∀ (rest : List Char) (position : ℕ) (items : List SExpr) (outer : List (List SExpr)),
      ∃ position', readFrom position (.pending (items :: outer)) (spaced forms ++ ')' :: rest) =
        readFrom position' (.pending ((trees.reverse ++ items) :: outer)) (')' :: rest)
  | [], trees, h, rest, position, items, outer => by
    rw [ReadsAll] at h
    rw [h, spaced]
    exact ⟨position, rfl⟩
  | [form], trees, h, rest, position, items, outer => by
    rw [ReadsAll] at h
    obtain ⟨tree, more, hform, hmore, rfl⟩ := h
    rw [ReadsAll] at hmore
    subst hmore
    have hclose : Closes (')' :: rest) := fun c hc => Or.inr (Option.some.inj hc).symm
    rw [spaced]
    exact readFrom_form form hform hclose position (items :: outer)
  | form :: next :: forms, trees, h, rest, position, items, outer => by
    rw [ReadsAll] at h
    obtain ⟨tree, more, hform, hmore, rfl⟩ := h
    have hblank : Closes (' ' :: (spaced (next :: forms) ++ ')' :: rest)) :=
      fun c hc => Or.inl (Option.some.inj hc).symm
    obtain ⟨p, hp⟩ := readFrom_form form hform hblank position (items :: outer)
    obtain ⟨q, hq⟩ := readFrom_spaced (next :: forms) hmore rest (p + 1) (tree :: items) outer
    refine ⟨q, ?_⟩
    rw [spaced, List.append_assoc, List.cons_append, hp, ReadState.place, readFrom_blank, hq,
      List.reverse_cons, List.append_assoc]
    rfl

end

/-- **A form is read as its tree.**  The text of a form is a line with one
expression on it. -/
theorem readChars_text {form : Form} {tree : SExpr} (h : form.Reads tree) :
    readChars form.text = .ok tree := by
  have hclose : Closes [] := fun c hc => absurd hc (by simp)
  obtain ⟨p, hp⟩ := readFrom_form form h hclose 0 []
  rw [List.append_nil] at hp
  rw [readChars_eq, ReadState.start, hp, readFrom, Token.tokensFrom_nil]
  rfl

/-- The same on strings. -/
theorem read_toString {form : Form} {tree : SExpr} (h : form.Reads tree) :
    read (toString form) = .ok tree := by
  show readChars (String.ofList form.text).toList = .ok tree
  rw [String.toList_ofList]
  exact readChars_text h

/-- A form is read as one tree only. -/
theorem eq_of_reads {form : Form} {a b : SExpr} (ha : form.Reads a) (hb : form.Reads b) : a = b :=
  Except.ok.inj ((readChars_text ha).symm.trans (readChars_text hb))

end SExpr
end SmtQuery
