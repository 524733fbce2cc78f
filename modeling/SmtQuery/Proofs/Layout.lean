import Mathlib
import SmtQuery.Proofs.Tree

/-!
# How a line is laid out

A line that can be cut into tokens is made of separators, comments and the spellings of its tokens,
one behind another, and each token carries the byte offset at which its spelling starts.
`LaidOut position text tokens` says so for a text that starts at the given offset, and
`tokensFrom_eq_ok_iff` says that this is just when the lexer finds these tokens.  So what is to be
known about cutting a line can be proved by induction on its layout:

* `LaidOut.append_newline`: two texts with a line feed between them are cut each for itself.
* `LaidOut.moved`: where a text starts makes no difference to its tokens.
* `LaidOut.offset`: the offset of a token is the number of bytes in front of it.

`Lexes` is the same without offsets.

## Why a line feed

A line feed ends everything that can stand open at the end of a text that was cut: a bare word, a
string whose closing quote comes last, and a comment.  A blank would not end the comment.
-/

namespace SmtQuery
namespace Token

/-! ## What one token is taken from -/

theorem eq_of_readQuoted? {text name rest : List Char} (h : readQuoted? text = some (name, rest)) :
    text = name ++ '|' :: rest := by
  have hsplit : text.takeWhile (· ≠ '|') ++ text.dropWhile (· ≠ '|') = text :=
    List.takeWhile_append_dropWhile
  have hhead := List.head?_dropWhile_not (fun c => decide (c ≠ '|')) text
  unfold readQuoted? at h
  split at h
  · next c after hdrop =>
    obtain ⟨rfl, rfl⟩ := Prod.mk.inj (Option.some.inj h)
    rw [hdrop, List.head?_cons] at hhead
    have hc : c = '|' := by simpa using hhead
    rw [hdrop, hc] at hsplit
    exact hsplit.symm
  · exact absurd h (by simp)

theorem eq_of_readString? {text string rest : List Char}
    (h : readString? text = some (string, rest)) :
    text = doubleQuotes string ++ '"' :: rest ∧ rest.head? ≠ some '"' := by
  fun_induction readString? text generalizing string rest with
  | case1 => exact absurd h (by simp)
  | case2 tail ih =>
    obtain ⟨⟨s, r⟩, hs, heq⟩ := Option.map_eq_some_iff.1 h
    obtain ⟨rfl, rfl⟩ := Prod.mk.inj heq
    obtain ⟨rfl, hrest⟩ := ih hs
    refine ⟨?_, hrest⟩
    rw [doubleQuotes, if_pos rfl]
    rfl
  | case3 tail htail =>
    obtain ⟨rfl, rfl⟩ := Prod.mk.inj (Option.some.inj h)
    refine ⟨rfl, fun hhead => ?_⟩
    obtain ⟨more, hmore⟩ := List.head?_eq_some_iff.1 hhead
    exact htail more hmore
  | case4 c tail _ hc ih =>
    obtain ⟨⟨s, r⟩, hs, heq⟩ := Option.map_eq_some_iff.1 h
    obtain ⟨rfl, rfl⟩ := Prod.mk.inj heq
    obtain ⟨rfl, hrest⟩ := ih hs
    refine ⟨?_, hrest⟩
    rw [doubleQuotes, if_neg hc]
    rfl

/-- **What a token is taken from**: its spelling, up to where it ends. -/
theorem eq_of_scan {position : ℕ} {c : Char} {text : List Char} {token : Token}
    {rest : { r : List Char // r.length ≤ text.length }}
    (h : scan position c text = .ok (token, rest)) :
    c :: text = token.spelling ++ rest ∧ token.EndsBefore rest := by
  unfold scan at h
  split at h
  · next hc =>
    obtain ⟨rfl, rfl⟩ := Prod.mk.inj (Except.ok.inj h)
    exact ⟨hc ▸ rfl, trivial⟩
  split at h
  · next hc =>
    obtain ⟨rfl, rfl⟩ := Prod.mk.inj (Except.ok.inj h)
    exact ⟨hc ▸ rfl, trivial⟩
  split at h
  · next hc =>
    split at h
    · next name after hquoted =>
      obtain ⟨rfl, rfl⟩ := Prod.mk.inj (Except.ok.inj h)
      have htext := eq_of_readQuoted? hquoted
      refine ⟨?_, trivial⟩
      calc c :: text = '|' :: (name ++ '|' :: after) := by rw [hc, ← htext]
        _ = (quoted name).spelling ++ after := by
          simp only [spelling, List.cons_append, List.append_assoc, List.nil_append]
    · exact absurd h (by simp)
  split at h
  · next hc =>
    split at h
    · next string after hstring =>
      obtain ⟨rfl, rfl⟩ := Prod.mk.inj (Except.ok.inj h)
      obtain ⟨htext, hafter⟩ := eq_of_readString? hstring
      refine ⟨?_, hafter⟩
      calc c :: text = '"' :: (doubleQuotes string ++ '"' :: after) := by rw [hc, ← htext]
        _ = (Token.string string).spelling ++ after := by
          simp only [spelling, stringSpelling, List.cons_append, List.append_assoc,
            List.nil_append]
    · exact absurd h (by simp)
  · obtain ⟨rfl, rfl⟩ := Prod.mk.inj (Except.ok.inj h)
    refine ⟨?_, fun d hd => ?_⟩
    · rw [spelling, List.cons_append, List.takeWhile_append_dropWhile]
    · have hhead := List.head?_dropWhile_not (fun d => !isDelimiter d) text
      rw [Option.mem_def.1 hd] at hhead
      simpa using hhead

/-! ## Bytes -/

theorem byteLength_nil : byteLength [] = 0 := rfl

theorem byteLength_cons (c : Char) (text : List Char) :
    byteLength (c :: text) = c.utf8Size + byteLength text := rfl

theorem byteLength_append (front back : List Char) :
    byteLength (front ++ back) = byteLength front + byteLength back := by
  induction front with
  | nil => rw [List.nil_append, byteLength_nil, Nat.zero_add]
  | cons c front ih => rw [List.cons_append, byteLength_cons, byteLength_cons, ih, Nat.add_assoc]

theorem utf8Size_of_isSpace {c : Char} (h : isSpace c = true) : c.utf8Size = 1 := by
  simp only [isSpace, Bool.or_eq_true, decide_eq_true_eq] at h
  rcases h with (((rfl | rfl) | rfl) | rfl) | rfl <;> rfl

/-! ## Layouts -/

/-- Whether the text, whose first character lies at the given byte offset, is made of separators,
comments and the spellings of the tokens.  A comment runs to a line feed or to the end of the text,
and each token ends where the text behind it begins. -/
inductive LaidOut : ℕ → List Char → List (ℕ × Token) → Prop
  | nil {position : ℕ} : LaidOut position [] []
  | space {position : ℕ} {c : Char} {rest : List Char} {tokens : List (ℕ × Token)}
      (hc : isSpace c = true) (h : LaidOut (position + 1) rest tokens) :
      LaidOut position (c :: rest) tokens
  | comment {position : ℕ} {note rest : List Char} {tokens : List (ℕ × Token)}
      (hnote : '\n' ∉ note) (hrest : ∀ c ∈ rest.head?, c = '\n')
      (h : LaidOut (position + 1 + byteLength note) rest tokens) :
      LaidOut position (';' :: (note ++ rest)) tokens
  | token {position : ℕ} {token : Token} {rest : List Char} {tokens : List (ℕ × Token)}
      (htoken : token.WellFormed) (hend : token.EndsBefore rest)
      (h : LaidOut (position + byteLength token.spelling) rest tokens) :
      LaidOut position (token.spelling ++ rest) ((position, token) :: tokens)

variable {position : ℕ} {text : List Char} {tokens : List (ℕ × Token)}

/-- A comment is passed over. -/
theorem tokensFrom_comment (position : ℕ) {note rest : List Char} (hnote : '\n' ∉ note)
    (hrest : ∀ c ∈ rest.head?, c = '\n') :
    tokensFrom position (';' :: (note ++ rest)) =
      tokensFrom (position + 1 + byteLength note) rest := by
  have hpos := ne_of_notMem hnote
  have htake : rest.takeWhile (fun c => decide (c ≠ '\n')) = [] := by
    cases rest with
    | nil => rfl
    | cons c rest => rw [List.takeWhile_cons_of_neg (by simpa using hrest c rfl)]
  have hdrop : rest.dropWhile (fun c => decide (c ≠ '\n')) = rest := by
    cases rest with
    | nil => rfl
    | cons c rest => rw [List.dropWhile_cons_of_neg (by simpa using hrest c rfl)]
  rw [tokensFrom, if_neg (by decide), if_pos rfl, List.takeWhile_append_of_pos hpos,
    List.dropWhile_append_of_pos hpos, htake, hdrop, List.append_nil]

theorem laidOut_of_tokensFrom (h : tokensFrom position text = .ok tokens) :
    LaidOut position text tokens := by
  fun_induction tokensFrom position text generalizing tokens with
  | case1 =>
    rw [← Except.ok.inj h]
    exact .nil
  | case2 position c rest hspace ih => exact .space hspace (ih h)
  | case3 position rest hspace ih =>
    have hnote : '\n' ∉ rest.takeWhile (· ≠ '\n') := fun hmem => by
      simpa using List.mem_takeWhile_imp hmem
    have hrest : ∀ c ∈ (rest.dropWhile (· ≠ '\n')).head?, c = '\n' := by
      intro c hc
      have hhead := List.head?_dropWhile_not (fun c => decide (c ≠ '\n')) rest
      rw [Option.mem_def.1 hc] at hhead
      simpa using hhead
    have hlaid := LaidOut.comment hnote hrest (ih h)
    rwa [List.takeWhile_append_dropWhile] at hlaid
  | case4 => exact absurd h (by simp)
  | case5 => exact absurd h (by simp)
  | case6 position c rest hspace hc token after hle hscan tokens' htokens ih =>
    obtain ⟨htext, hend⟩ := eq_of_scan hscan
    rw [← Except.ok.inj h, htext]
    exact .token (wellFormed_of_scan (Bool.eq_false_iff.2 hspace) hc hscan) hend (ih htokens)

/-- **When a text can be cut**, and into what. -/
theorem tokensFrom_eq_ok_iff : tokensFrom position text = .ok tokens ↔
    LaidOut position text tokens := by
  refine ⟨laidOut_of_tokensFrom, fun h => ?_⟩
  induction h with
  | nil => exact tokensFrom_nil _
  | space hc _ ih => rw [tokensFrom_space _ hc, ih]
  | comment hnote hrest _ ih => rw [tokensFrom_comment _ hnote hrest, ih]
  | token htoken hend _ ih =>
    rw [tokensFrom_spelling _ htoken hend, ih]
    rfl

namespace LaidOut

/-- **A line feed parts two texts.**  Whatever the first ends with is ended by it. -/
theorem append_newline {back : List Char} {more : List (ℕ × Token)}
    (h : LaidOut position text tokens)
    (hback : LaidOut (position + byteLength text + 1) back more) :
    LaidOut position (text ++ '\n' :: back) (tokens ++ more) := by
  induction h with
  | nil => exact .space rfl hback
  | space hc _ ih =>
    refine .space hc (ih ?_)
    rw [byteLength_cons, utf8Size_of_isSpace hc, ← Nat.add_assoc] at hback
    exact hback
  | @comment position note rest tokens hnote hrest _ ih =>
    rw [List.cons_append, List.append_assoc]
    refine .comment hnote ?_ (ih ?_)
    · cases rest with
      | nil => exact fun c hc => (Option.some.inj hc).symm
      | cons c rest => exact hrest
    · have hsize : Char.utf8Size ';' = 1 := rfl
      rw [byteLength_cons, byteLength_append, hsize, ← Nat.add_assoc, ← Nat.add_assoc] at hback
      exact hback
  | @token position token rest tokens htoken hend _ ih =>
    rw [List.append_assoc]
    refine .token htoken ?_ (ih ?_)
    · cases rest with
      | cons c rest => cases token <;> exact hend
      | nil =>
        cases token with
        | bare word => exact fun c hc => Option.some.inj hc ▸ rfl
        | string text => exact fun hc => absurd (Option.some.inj hc) (by decide)
        | lparen | rparen | quoted _ => trivial
    · rw [byteLength_append, ← Nat.add_assoc] at hback
      exact hback

/-- **Where a text starts makes no difference to its tokens.** -/
theorem moved (h : LaidOut position text tokens) (start : ℕ) :
    ∃ shifted, LaidOut start text shifted ∧ shifted.map Prod.snd = tokens.map Prod.snd := by
  induction h generalizing start with
  | nil => exact ⟨[], .nil, rfl⟩
  | space hc _ ih =>
    obtain ⟨shifted, hshifted, heq⟩ := ih (start + 1)
    exact ⟨shifted, .space hc hshifted, heq⟩
  | @comment _ note rest tokens hnote hrest _ ih =>
    obtain ⟨shifted, hshifted, heq⟩ := ih (start + 1 + byteLength note)
    exact ⟨shifted, .comment hnote hrest hshifted, heq⟩
  | @token _ token rest tokens htoken hend _ ih =>
    obtain ⟨shifted, hshifted, heq⟩ := ih (start + byteLength token.spelling)
    refine ⟨_, .token htoken hend hshifted, ?_⟩
    rw [List.map_cons, List.map_cons, heq]

/-- **The offset of a token** is the number of bytes in front of its spelling. -/
theorem offset (h : LaidOut position text tokens) {start : ℕ} {token : Token}
    (hmem : (start, token) ∈ tokens) :
    ∃ front back, text = front ++ (token.spelling ++ back) ∧
      start = position + byteLength front := by
  induction h with
  | nil => exact absurd hmem List.not_mem_nil
  | space hc _ ih =>
    obtain ⟨front, back, rfl, rfl⟩ := ih hmem
    refine ⟨_ :: front, back, rfl, ?_⟩
    rw [byteLength_cons, utf8Size_of_isSpace hc, ← Nat.add_assoc]
  | @comment position note rest tokens hnote hrest _ ih =>
    obtain ⟨front, back, rfl, rfl⟩ := ih hmem
    refine ⟨';' :: (note ++ front), back, ?_, ?_⟩
    · rw [List.cons_append, List.append_assoc]
    · have hsize : Char.utf8Size ';' = 1 := rfl
      rw [byteLength_cons, byteLength_append, hsize, ← Nat.add_assoc, ← Nat.add_assoc]
  | @token position first rest tokens htoken hend _ ih =>
    rcases List.mem_cons.1 hmem with heq | hmem
    · obtain ⟨rfl, rfl⟩ := Prod.mk.inj heq
      exact ⟨[], rest, rfl, rfl⟩
    · obtain ⟨front, back, rfl, rfl⟩ := ih hmem
      refine ⟨first.spelling ++ front, back, ?_, ?_⟩
      · rw [List.append_assoc]
      · rw [byteLength_append, ← Nat.add_assoc]

end LaidOut

/-! ## Tokens without their offsets -/

/-- Whether the text can be cut into the tokens, wherever they lie. -/
def Lexes (text : List Char) (tokens : List Token) : Prop :=
  ∃ located, tokenize text = .ok located ∧ located.map Prod.snd = tokens

theorem lexes_nil : Lexes [] [] := ⟨[], tokensFrom_nil 0, rfl⟩

/-- Two texts on lines of their own are cut each for itself. -/
theorem Lexes.append_newline {front back : List Char} {tokens more : List Token}
    (h : Lexes front tokens) (hback : Lexes back more) :
    Lexes (front ++ '\n' :: back) (tokens ++ more) := by
  obtain ⟨located, hlocated, rfl⟩ := h
  obtain ⟨other, hother, rfl⟩ := hback
  obtain ⟨shifted, hshifted, heq⟩ :=
    (tokensFrom_eq_ok_iff.1 hother).moved (0 + byteLength front + 1)
  refine ⟨located ++ shifted, ?_, ?_⟩
  · exact tokensFrom_eq_ok_iff.2 ((tokensFrom_eq_ok_iff.1 hlocated).append_newline hshifted)
  · rw [List.map_append, heq]

/-- A comment without a line feed has no tokens. -/
theorem lexes_comment {note : List Char} (hnote : '\n' ∉ note) : Lexes (';' :: note) [] := by
  refine ⟨[], ?_, rfl⟩
  have h : tokensFrom 0 (';' :: (note ++ [])) = tokensFrom (0 + 1 + byteLength note) [] :=
    tokensFrom_comment 0 hnote (fun c hc => absurd hc (by simp))
  rw [List.append_nil] at h
  rw [tokenize, h, tokensFrom_nil]

end Token
end SmtQuery
