import Mathlib
import SmtQuery.Proofs.Comment
import SmtQuery.Proofs.Objective

/-!
# Comments for a reader that ends them at a carriage return

The reader of this library ends a comment at a line feed, and so does the splitting of a text into
lines.  In SMT-LIB a line can end at a carriage return as well.  This file is about the pieces of a
written comment between the breaks of that wider sort.  The comment is *enclosed* if no piece starts
with anything but a semicolon, so that nothing in it can be taken for a command.

* `Text.enclosed_iff_isChain`: what a text has to start with, and what has to follow each break.
* `Text.lexes_of_enclosed`: an enclosed text has no tokens for a solver that ends a comment at
  either break.
* `Command.enclosed_commentText_iff`: **which comments are enclosed.**  Every carriage return in the
  text has to stand at its end or in front of another break or of a semicolon (`Text.IsQuiet`).
* `Problem.comment_mem_script_iff`: the comments of a session are those of the problem, if they are
  written, and the names of its postulates.
* `Problem.enclosed_comments`: both together, for a whole session.

## Why carriage returns survive

A carriage return belongs to the ending of a line only directly in front of a line feed.  Anywhere
else it is an ordinary character of the line, which is copied behind one semicolon.
-/

namespace SmtQuery

namespace Text

variable {text front back : List Char}

/-! ## Pieces -/

/-- Whether the character ends a line in SMT-LIB: a line feed or a carriage return. -/
def isBreak (c : Char) : Bool := c = '\n' || c = '\r'

/-- The pieces of a text between its breaks. -/
def pieces (text : List Char) : List (List Char) := text.splitOnP isBreak

/-- Whether a piece holds nothing, or nothing but a comment. -/
def IsEnclosed (piece : List Char) : Prop := piece = [] ∨ piece.head? = some ';'

/-- Whether every piece of the text is empty or starts with a semicolon. -/
def Enclosed (text : List Char) : Prop := ∀ piece ∈ pieces text, IsEnclosed piece

instance (text : List Char) : Decidable (Enclosed text) :=
  inferInstanceAs (Decidable (∀ piece ∈ pieces text, piece = [] ∨ piece.head? = some ';'))

/-- Whether the second character may follow the first: behind a break stands another one, or a
semicolon. -/
def Follows (c d : Char) : Prop := isBreak c = true → isBreak d = true ∨ d = ';'

theorem pieces_nil : pieces [] = [[]] := List.splitOnP_nil

theorem pieces_of_isBreak {c : Char} (hc : isBreak c = true) (text : List Char) :
    pieces (c :: text) = [] :: pieces text := by
  rw [pieces, List.splitOnP_cons_eq_if_modifyHead, if_pos hc, pieces]

/-- A character that is no break goes to the first piece. -/
theorem pieces_cons_of_eq {c : Char} (hc : isBreak c = false) {piece : List Char}
    {rest : List (List Char)} (h : pieces text = piece :: rest) :
    pieces (c :: text) = (c :: piece) :: rest := by
  rw [pieces, List.splitOnP_cons_eq_if_modifyHead, if_neg (by rw [hc]; decide), ← pieces, h,
    List.modifyHead_cons]

theorem exists_pieces_eq (text : List Char) : ∃ piece rest, pieces text = piece :: rest :=
  List.exists_cons_of_ne_nil (List.splitOnP_ne_nil isBreak text)

/-- **The first piece** is as good as the character in front, and the others as good as what follows
the breaks. -/
theorem isEnclosed_iff_of_pieces_eq {piece : List Char} {rest : List (List Char)}
    (h : pieces text = piece :: rest) :
    (IsEnclosed piece ↔ ∀ c ∈ text.head?, isBreak c = true ∨ c = ';') ∧
      ((∀ other ∈ rest, IsEnclosed other) ↔ text.IsChain Follows) := by
  induction text generalizing piece rest with
  | nil =>
    obtain ⟨rfl, rfl⟩ := List.cons.inj (pieces_nil.symm.trans h)
    simp [IsEnclosed]
  | cons c text ih =>
    obtain ⟨next, others, htext⟩ := exists_pieces_eq text
    obtain ⟨hnext, hothers⟩ := ih htext
    have hchain : (c :: text).IsChain Follows ↔
        (∀ d ∈ text.head?, Follows c d) ∧ ∀ other ∈ others, IsEnclosed other := by
      rw [List.isChain_cons, hothers]
    rw [hchain, List.head?_cons]
    cases hc : isBreak c with
    | true =>
      rw [pieces_of_isBreak hc, htext] at h
      obtain ⟨rfl, rfl⟩ := List.cons.inj h
      refine ⟨iff_of_true (Or.inl rfl) fun d hd => Or.inl (Option.some.inj hd ▸ hc), ?_⟩
      rw [List.forall_mem_cons, hnext]
      simp [Follows, hc]
    | false =>
      rw [pieces_cons_of_eq hc htext] at h
      obtain ⟨rfl, rfl⟩ := List.cons.inj h
      simp [IsEnclosed, Follows, hc]

/-- **When a text is enclosed**: it starts with a break or a semicolon, if with anything, and behind
every break stands another one or a semicolon. -/
theorem enclosed_iff_isChain : Enclosed text ↔
    (∀ c ∈ text.head?, isBreak c = true ∨ c = ';') ∧ text.IsChain Follows := by
  obtain ⟨piece, rest, h⟩ := exists_pieces_eq text
  obtain ⟨hpiece, hrest⟩ := isEnclosed_iff_of_pieces_eq h
  rw [Enclosed, h, List.forall_mem_cons, hpiece, hrest]

/-- A line feed parts two texts. -/
theorem enclosed_append_newline :
    Enclosed (front ++ '\n' :: back) ↔ Enclosed front ∧ Enclosed back := by
  rw [Enclosed, pieces, List.splitOnP_append_cons front back rfl, List.forall_mem_append]
  rfl

theorem enclosed_intercalate {texts : List (List Char)} :
    Enclosed (['\n'].intercalate texts) ↔ ∀ text ∈ texts, Enclosed text := by
  induction texts with
  | nil => exact iff_of_true (by decide) fun _ h => absurd h List.not_mem_nil
  | cons text texts ih =>
    cases texts with
    | nil => rw [List.intercalate_singleton, List.forall_mem_singleton]
    | cons next rest =>
      rw [List.intercalate_cons_cons, List.append_assoc, List.singleton_append,
        enclosed_append_newline, ih]
      exact List.forall_mem_cons.symm

/-! ## Enclosed texts have no tokens -/

/-- The text with a line feed for each break, so that a comment ends at either. -/
def unifyBreaks (text : List Char) : List Char :=
  text.map fun c => if isBreak c then '\n' else c

theorem intercalate_pieces (text : List Char) :
    ['\n'].intercalate (pieces text) = unifyBreaks text := by
  induction text with
  | nil => rfl
  | cons c text ih =>
    obtain ⟨piece, rest, htext⟩ := exists_pieces_eq text
    rw [htext] at ih
    rw [unifyBreaks, List.map_cons, ← unifyBreaks, ← ih]
    cases hc : isBreak c with
    | true =>
      rw [pieces_of_isBreak hc, htext, List.intercalate_cons_cons, List.nil_append, if_pos rfl,
        List.singleton_append]
    | false =>
      rw [pieces_cons_of_eq hc htext, if_neg (by decide)]
      cases rest with
      | nil => rw [List.intercalate_singleton, List.intercalate_singleton]
      | cons other others =>
        rw [List.intercalate_cons_cons, List.intercalate_cons_cons, List.cons_append,
          List.cons_append]

theorem isBreak_eq_false_of_mem_pieces {piece : List Char} (h : piece ∈ pieces text) :
    ∀ c ∈ piece, isBreak c = false := by
  induction text generalizing piece with
  | nil =>
    obtain rfl := List.mem_singleton.1 (pieces_nil ▸ h)
    exact fun c hc => absurd hc List.not_mem_nil
  | cons c text ih =>
    obtain ⟨first, rest, htext⟩ := exists_pieces_eq text
    cases hc : isBreak c with
    | true =>
      rw [pieces_of_isBreak hc] at h
      rcases List.mem_cons.1 h with rfl | h
      · exact fun d hd => absurd hd List.not_mem_nil
      · exact ih h
    | false =>
      rw [pieces_cons_of_eq hc htext] at h
      rw [htext] at ih
      rcases List.mem_cons.1 h with rfl | h
      · exact List.forall_mem_cons.2 ⟨hc, ih List.mem_cons_self⟩
      · exact ih (List.mem_cons_of_mem _ h)

/-- **An enclosed text has no tokens**, also if a comment ends at a carriage return. -/
theorem lexes_of_enclosed (h : Enclosed text) : Token.Lexes (unifyBreaks text) [] := by
  rw [← intercalate_pieces]
  refine Token.lexes_intercalate_of_nil fun piece hpiece => ?_
  rcases h piece hpiece with rfl | hhead
  · exact Token.lexes_nil
  · obtain ⟨note, rfl⟩ := List.head?_eq_some_iff.1 hhead
    refine Token.lexes_comment fun hmem => ?_
    exact absurd (isBreak_eq_false_of_mem_pieces hpiece _ (List.mem_cons_of_mem _ hmem)) (by decide)

/-! ## Quiet texts -/

/-- Whether every carriage return of the text stands at its end, or in front of another break or of
a semicolon. -/
def IsQuiet (text : List Char) : Prop :=
  ∀ front c back, text = front ++ '\r' :: c :: back → isBreak c = true ∨ c = ';'

/-- What may follow a carriage return. -/
def FollowsReturn (c d : Char) : Prop := c = '\r' → isBreak d = true ∨ d = ';'

theorem isQuiet_iff_isChain : IsQuiet text ↔ text.IsChain FollowsReturn := by
  rw [List.isChain_iff_forall_rel_of_append_cons_cons]
  constructor
  · rintro h c d front back htext rfl
    exact h front d back htext
  · exact fun h front c back htext => h htext rfl

/-- A text without carriage returns in front makes no difference. -/
theorem isQuiet_append_iff (hfront : '\r' ∉ front) : IsQuiet (front ++ back) ↔ IsQuiet back := by
  have hfollows : ∀ c ∈ front, ∀ d, FollowsReturn c d :=
    fun c hc d heq => absurd (heq ▸ hc) hfront
  have hchain : front.IsChain FollowsReturn :=
    List.isChain_iff_forall_rel_of_append_cons_cons.2 fun c d before after htext =>
      hfollows c (htext ▸ List.mem_append_right before List.mem_cons_self) d
  rw [isQuiet_iff_isChain, isQuiet_iff_isChain, List.isChain_append]
  refine ⟨fun h => h.2.1, fun h => ⟨hchain, h, fun c hc d _ => ?_⟩⟩
  exact hfollows c (List.mem_of_getLast? hc) d

/-- A line feed parts two texts. -/
theorem isQuiet_append_newline :
    IsQuiet (front ++ '\n' :: back) ↔ IsQuiet front ∧ IsQuiet back := by
  have hnewline : '\r' ∉ ['\n'] := by decide
  have hback : IsQuiet ('\n' :: back) ↔ IsQuiet back := isQuiet_append_iff hnewline
  rw [← hback, isQuiet_iff_isChain, isQuiet_iff_isChain, isQuiet_iff_isChain, List.isChain_append]
  refine and_congr_right fun _ => and_iff_left fun c _ d hd => ?_
  obtain rfl := Option.some.inj hd
  exact fun _ => Or.inl rfl

/-- Nothing follows a carriage return at the end. -/
theorem isQuiet_dropReturn (line : List Char) : IsQuiet (dropReturn line) ↔ IsQuiet line := by
  rw [dropReturn]
  split
  · next hlast =>
    obtain ⟨before, rfl⟩ := List.getLast?_eq_some_iff.1 hlast
    rw [List.dropLast_concat, isQuiet_iff_isChain, isQuiet_iff_isChain, List.isChain_append]
    refine ⟨fun h => ⟨h, List.isChain_singleton _, fun c _ d hd => ?_⟩, fun h => h.1⟩
    obtain rfl := Option.some.inj hd
    exact fun _ => Or.inl rfl
  · exact Iff.rfl

/-- **Splitting a text into lines** takes away no carriage return that matters.  The characters of
the current line stand in front of the rest. -/
theorem forall_mem_linesFrom_isQuiet_iff (line text : List Char) :
    (∀ l ∈ linesFrom line text, IsQuiet l) ↔ IsQuiet (line.reverse ++ text) := by
  fun_induction linesFrom line text with
  | case1 => exact iff_of_true (fun _ h => absurd h List.not_mem_nil) (by simp [IsQuiet])
  | case2 line hne => rw [List.forall_mem_singleton, List.append_nil]
  | case3 line rest ih =>
    rw [List.forall_mem_cons, isQuiet_dropReturn, ih, isQuiet_append_newline]
    rfl
  | case4 line c rest hc ih => rw [ih, List.reverse_cons, List.append_assoc, List.singleton_append]

end Text

/-! ## Comments -/

namespace Command

open Text

/-- One line of a comment. -/
theorem enclosed_line_iff {line : List Char} (hline : '\n' ∉ line) :
    Enclosed (';' :: ' ' :: line) ↔ IsQuiet line := by
  have hfollows : ∀ c d, c ∈ line → (Follows c d ↔ FollowsReturn c d) := by
    intro c d hc
    have hne : c ≠ '\n' := fun heq => hline (heq ▸ hc)
    simp [Follows, FollowsReturn, isBreak, hne]
  have hchain : (';' :: ' ' :: line).IsChain Follows ↔ line.IsChain Follows := by
    simp [List.isChain_cons, Follows, isBreak]
  rw [enclosed_iff_isChain, hchain, isQuiet_iff_isChain]
  constructor
  · exact fun h => h.2.imp_of_mem_imp fun c d hc _ => (hfollows c d hc).1
  · exact fun h => ⟨by simp, h.imp_of_mem_imp fun c d hc _ => (hfollows c d hc).2⟩

/-- **Which comments are enclosed.** -/
theorem enclosed_commentText_iff (text : List Char) :
    Enclosed (commentText text) ↔ IsQuiet text := by
  rw [commentText, enclosed_intercalate, List.forall_mem_map]
  have hlines : (∀ line ∈ lines text, Enclosed (';' :: ' ' :: line)) ↔
      ∀ line ∈ lines text, IsQuiet line :=
    forall₂_congr fun line hline => enclosed_line_iff (newline_not_mem_of_mem_lines hline)
  rw [hlines]
  exact forall_mem_linesFrom_isQuiet_iff [] text

end Command

/-! ## Sessions -/

namespace Problem

open Text

variable {p : Problem} {program : Program} {text : String}

theorem comment_notMem_symbolCommands : .comment text ∉ p.symbolCommands := by
  have hinput : ∀ input : Input, input.declaration ≠ .comment text := by
    intro input
    rw [Input.declaration]
    split <;> simp
  have hconstant : ∀ constant : Ref × Value, constantCommand constant ≠ .comment text := by
    intro constant
    rw [constantCommand]
    split <;> simp
  simp [symbolCommands, hinput, hconstant, Table.declaration, ArrayDecl.declaration,
    FunctionDecl.command]

theorem comment_mem_header_iff {kinds : List Kind} : .comment text ∈ p.header kinds ↔
    p.config.emitComments = true ∧ text ∈ p.comments := by
  cases hemit : p.config.emitComments <;> simp [header, hemit]

/-- **The comments of a session.** -/
theorem comment_mem_script_iff (hencode : p.encode = .ok program) :
    .comment text ∈ program.script.commands ↔
      (p.config.emitComments = true ∧ text ∈ p.comments) ∨
        ∃ postulate ∈ p.postulates, text = s!"axiom: {postulate.name}" := by
  obtain ⟨-, sorts, tables, goal, -, htables, -, rfl⟩ := encode_eq_ok_iff.1 hencode
  have hsorts : .comment text ∉ sorts.map NamedSort.declaration := by
    rw [List.mem_map]
    rintro ⟨sort, -, h⟩
    rw [NamedSort.declaration] at h
    split at h <;> exact absurd h (by simp)
  have hformula : .comment text ∉ p.formula goal := fun hmem => by
    rcases eq_of_mem_formula hmem with ⟨a, -, h⟩ | ⟨term, h⟩ <;> exact absurd h (by simp)
  have hobjectives : .comment text ∉ p.objectives.map Objective.command := by
    rw [List.mem_map]
    rintro ⟨objective, -, h⟩
    rw [Objective.command] at h
    split at h <;> exact absurd h (by simp)
  have hpostlude : .comment text ∉ p.postlude := fun hmem => by
    rcases eq_of_mem_postlude hmem with ⟨input, -, -, h⟩ | h <;> exact absurd h (by simp)
  have hdeclarations : .comment text ∈ p.declarations sorts tables ↔ _ :=
    mem_declarations_iff htables rfl
  simp [Program.script, Script.push, Script.append, hformula, hobjectives, hpostlude,
    hdeclarations, hsorts, comment_mem_header_iff, comment_notMem_symbolCommands]

/-- A postulate is announced by its name. -/
theorem isQuiet_announcement_iff (name : String) :
    IsQuiet s!"axiom: {name}".toList ↔ IsQuiet name.toList := by
  have htext : s!"axiom: {name}".toList = "axiom: ".toList ++ name.toList :=
    String.toList_append
  rw [htext]
  exact isQuiet_append_iff (by decide)

/-- **What stays inside of comments.**  Breaks are line feeds and carriage returns.  The text of a
comment has only pieces that are empty or start with a semicolon exactly if each of its carriage
returns stands at the end or in front of another break or of a semicolon; then there is no token in
it for a solver that ends comments at either break.  So all comments of a session are of this sort
exactly if the comments of the problem are, where they are written, and the names of its
postulates. -/
theorem enclosed_comments (text : String) (p : Problem) :
    (Enclosed (Command.comment text).text ↔ IsQuiet text.toList) ∧
    (IsQuiet text.toList → Token.Lexes (unifyBreaks (Command.comment text).text) []) ∧
    ∀ program, p.encode = .ok program →
      ((∀ note, .comment note ∈ program.script.commands → Enclosed (Command.comment note).text) ↔
        (p.config.emitComments = true → ∀ note ∈ p.comments, IsQuiet note.toList) ∧
          ∀ postulate ∈ p.postulates, IsQuiet postulate.name.toList) := by
  have hcomment : ∀ note : String, Enclosed (Command.comment note).text ↔ IsQuiet note.toList :=
    fun note => Command.enclosed_commentText_iff note.toList
  refine ⟨hcomment text, fun h => lexes_of_enclosed ((hcomment text).2 h), ?_⟩
  intro program hencode
  simp only [hcomment, comment_mem_script_iff hencode]
  constructor
  · refine fun h => ⟨fun hemit note hnote => h note (Or.inl ⟨hemit, hnote⟩), fun a ha => ?_⟩
    exact (isQuiet_announcement_iff a.name).1 (h _ (Or.inr ⟨a, ha, rfl⟩))
  · rintro ⟨hcomments, hpostulates⟩ note (⟨hemit, hnote⟩ | ⟨a, ha, rfl⟩)
    · exact hcomments hemit note hnote
    · exact (isQuiet_announcement_iff a.name).2 (hpostulates a ha)

/-- A query with a comment on two lines and a postulate. -/
def notedQuery : Problem where
  comments := ["first\r\nsecond\r"]
  postulates := [⟨"truth", .const "true"⟩]
  assignments := [⟨⟨⟨100⟩, .bitVec false 1⟩, .bitVec 1 1⟩]
  output := ⟨⟨100⟩, .bitVec false 1⟩
  config := .ofSolver .z3

/-- The carriage returns of the query stand in front of a line feed and at the end. -/
theorem enclosed_comments_notedQuery : ∃ program, notedQuery.encode = .ok program ∧
    (∀ text, .comment text ∈ program.script.commands → Enclosed (Command.comment text).text) ∧
    Token.Lexes (unifyBreaks (Command.comment "first\r\nsecond\r").text) [] := by
  obtain ⟨hcomment, hnone, hsession⟩ := enclosed_comments "first\r\nsecond\r" notedQuery
  obtain ⟨hannounced, -⟩ := enclosed_comments "truth" notedQuery
  have hquiet : IsQuiet "first\r\nsecond\r".toList := hcomment.1 (by decide)
  have hname : IsQuiet "truth".toList := hannounced.1 (by decide)
  refine ⟨_, rfl, (hsession _ rfl).2 ⟨fun _ => ?_, ?_⟩, hnone hquiet⟩
  · exact List.forall_mem_singleton.2 hquiet
  · exact List.forall_mem_singleton.2 hname

/-- **A command can hide behind a carriage return**: the second piece of this comment is an
assertion. -/
theorem not_enclosed_of_return :
    pieces (Command.comment "note\r(assert false)").text =
      ["; note".toList, "(assert false)".toList] ∧
    ¬ Enclosed (Command.comment "note\r(assert false)").text ∧
    Token.Lexes (unifyBreaks (Command.comment "note\r(assert false)").text)
      [.lparen, .bare "assert".toList, .bare "false".toList, .rparen] := by
  refine ⟨by decide, by decide, [(7, .lparen), (8, .bare "assert".toList),
    (15, .bare "false".toList), (20, .rparen)], by cbv, rfl⟩

end Problem
end SmtQuery
