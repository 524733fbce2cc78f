import Mathlib
import SmtQuery.SExpr.Token

/-!
# Tokens read back

Cutting a line into tokens goes left to right, one token at a time, so all there
is to know about it is what one token does: its spelling, in front of a text that
does not run on with it, is read as that token, and the text behind it is cut as
if it stood alone.  That is `tokensFrom_spelling`.

## Where a token ends

A parenthesis and a bar end where they are.  A bare word goes on until a
delimiter, so the next character has to be one.  A closing quote is an ordinary
quote if another one follows, so the next character must not be a quote.  These
are the two cases of `Token.EndsBefore`; they are the only way in which the text
behind a token matters.
-/

namespace SmtQuery
namespace Token

/-! ## Tokens that have a spelling of their own -/

/-- Whether the token is one that the lexer can produce: a bare word has a
character and no delimiter among its characters, and a symbol between bars has no
bar in it. -/
def WellFormed : Token → Prop
  | lparen | rparen | string _ => True
  | bare word => word ≠ [] ∧ ∀ c ∈ word, isDelimiter c = false
  | quoted name => '|' ∉ name

/-- Whether the token ends where the given text begins. -/
def EndsBefore (token : Token) (rest : List Char) : Prop :=
  match token with
  | bare _ => ∀ c ∈ rest.head?, isDelimiter c = true
  | string _ => rest.head? ≠ some '"'
  | lparen | rparen | quoted _ => True

/-! ## Characters -/

theorem isDelimiter_of_isSpace {c : Char} (h : isSpace c = true) : isDelimiter c = true := by
  simp only [isDelimiter, h, Bool.true_or]

/-- The characters that start a token of some other sort are delimiters, so a
bare word starts with none of them. -/
theorem ne_of_isDelimiter_eq_false {c d : Char} (hc : isDelimiter c = false)
    (hd : isDelimiter d = true) : c ≠ d := by
  rintro rfl
  rw [hd] at hc
  exact absurd hc (by decide)

theorem isSpace_eq_false {c : Char} (hc : isDelimiter c = false) : isSpace c = false := by
  cases hs : isSpace c with
  | false => rfl
  | true => exact absurd (isDelimiter_of_isSpace hs) (by rw [hc]; decide)

/-- A text without a character is a run of others. -/
theorem ne_of_notMem {c : Char} {piece : List Char} (h : c ∉ piece) :
    ∀ d ∈ piece, decide (d ≠ c) = true :=
  fun _ hd => decide_eq_true fun heq => h (heq ▸ hd)

/-! ## One token -/

/-- What stands between bars is read up to the closing bar. -/
theorem readQuoted?_barred {name : List Char} (h : '|' ∉ name) (rest : List Char) :
    readQuoted? (name ++ '|' :: rest) = some (name, rest) := by
  rw [readQuoted?, List.dropWhile_append_of_pos (ne_of_notMem h),
    List.takeWhile_append_of_pos (ne_of_notMem h),
    List.dropWhile_cons_of_neg (by decide), List.takeWhile_cons_of_neg (by decide),
    List.append_nil]

/-- What stands between quotes is read up to the closing quote, which is the
first one that is not doubled. -/
theorem readString?_doubleQuotes (text : List Char) {rest : List Char}
    (h : rest.head? ≠ some '"') :
    readString? (doubleQuotes text ++ '"' :: rest) = some (text, rest) := by
  induction text with
  | nil =>
    rw [doubleQuotes, List.nil_append]
    cases rest with
    | nil => rfl
    | cons c rest =>
      have hc : c ≠ '"' := fun he => h (congrArg some he)
      rw [readString?]
      rintro tail htail
      exact hc (List.cons.inj htail).1
  | cons c text ih =>
    rw [doubleQuotes]
    split
    · next hc =>
      rw [List.cons_append, List.cons_append, readString?, ih, hc]
      rfl
    · next hc =>
      rw [List.cons_append, readString?, ih]
      · rfl
      · exact fun _ hq _ => hc hq
      · exact hc

theorem scan_lparen (position : ℕ) (rest : List Char) :
    scan position '(' rest = .ok (lparen, ⟨rest, le_refl _⟩) := rfl

theorem scan_rparen (position : ℕ) (rest : List Char) :
    scan position ')' rest = .ok (rparen, ⟨rest, le_refl _⟩) := rfl

theorem scan_bar (position : ℕ) {name text rest : List Char}
    (h : readQuoted? text = some (name, rest)) :
    scan position '|' text = .ok (quoted name, ⟨rest, le_of_lt (length_of_readQuoted? h)⟩) := by
  unfold scan
  rw [if_neg (by decide), if_neg (by decide), if_pos rfl]
  split
  · next heq =>
    obtain ⟨rfl, rfl⟩ := Prod.mk.inj (Option.some.inj (h.symm.trans heq))
    rfl
  · next heq => exact absurd (h.symm.trans heq) (by simp)

theorem scan_bar_eq_error (position : ℕ) {text : List Char} (h : readQuoted? text = none) :
    scan position '|' text = .error (.unterminatedSymbol position) := by
  unfold scan
  rw [if_neg (by decide), if_neg (by decide), if_pos rfl]
  split
  · next heq => exact absurd (h.symm.trans heq) (by simp)
  · rfl

theorem scan_quote (position : ℕ) {text' text rest : List Char}
    (h : readString? text' = some (text, rest)) :
    scan position '"' text' = .ok (string text, ⟨rest, le_of_lt (length_of_readString? h)⟩) := by
  unfold scan
  rw [if_neg (by decide), if_neg (by decide), if_neg (by decide), if_pos rfl]
  split
  · next heq =>
    obtain ⟨rfl, rfl⟩ := Prod.mk.inj (Option.some.inj (h.symm.trans heq))
    rfl
  · next heq => exact absurd (h.symm.trans heq) (by simp)

theorem scan_quote_eq_error (position : ℕ) {text : List Char} (h : readString? text = none) :
    scan position '"' text = .error (.unterminatedString position) := by
  unfold scan
  rw [if_neg (by decide), if_neg (by decide), if_neg (by decide), if_pos rfl]
  split
  · next heq => exact absurd (h.symm.trans heq) (by simp)
  · rfl

theorem scan_bare (position : ℕ) {c : Char} (h : isDelimiter c = false) (rest : List Char) :
    scan position c rest = .ok (bare (c :: rest.takeWhile (!isDelimiter ·)),
      ⟨rest.dropWhile (!isDelimiter ·), (List.dropWhile_sublist _).length_le⟩) := by
  unfold scan
  rw [if_neg (ne_of_isDelimiter_eq_false h rfl), if_neg (ne_of_isDelimiter_eq_false h rfl),
    if_neg (ne_of_isDelimiter_eq_false h rfl), if_neg (ne_of_isDelimiter_eq_false h rfl)]

/-- A bare word is taken as far as it goes. -/
theorem takeWhile_bare {word rest : List Char} (hword : ∀ c ∈ word, isDelimiter c = false)
    (hrest : ∀ c ∈ rest.head?, isDelimiter c = true) :
    (word ++ rest).takeWhile (!isDelimiter ·) = word ∧
      (word ++ rest).dropWhile (!isDelimiter ·) = rest := by
  have hpos : ∀ c ∈ word, (!isDelimiter c) = true := by
    intro c hc
    rw [hword c hc]
    rfl
  rw [List.takeWhile_append_of_pos hpos, List.dropWhile_append_of_pos hpos]
  cases rest with
  | nil => exact ⟨List.append_nil _, rfl⟩
  | cons c rest =>
    rw [List.takeWhile_cons, List.dropWhile_cons, hrest c rfl]
    exact ⟨List.append_nil _, rfl⟩

/-! ## The line -/

/-- One step of the lexer at a character that starts a token. -/
theorem tokensFrom_scan {position : ℕ} {c : Char} {text rest : List Char} {token : Token}
    {hle : rest.length ≤ text.length} (hspace : isSpace c = false) (hc : c ≠ ';')
    (h : scan position c text = .ok (token, ⟨rest, hle⟩)) :
    tokensFrom position (c :: text) =
      (tokensFrom (position + byteLength token.spelling) rest).map ((position, token) :: ·) := by
  rw [tokensFrom, hspace, if_neg (by decide), if_neg hc]
  split
  · next heq => exact absurd (h.symm.trans heq) (by simp)
  · next heq =>
    obtain ⟨rfl, hrest⟩ := Prod.mk.inj (Except.ok.inj (h.symm.trans heq))
    obtain rfl := Subtype.mk.inj hrest
    cases tokensFrom (position + byteLength token.spelling) rest <;> rfl

/-- A character that separates tokens is passed over. -/
theorem tokensFrom_space (position : ℕ) {c : Char} (h : isSpace c = true) (rest : List Char) :
    tokensFrom position (c :: rest) = tokensFrom (position + 1) rest := by
  rw [tokensFrom, if_pos h]

theorem tokensFrom_nil (position : ℕ) : tokensFrom position [] = .ok [] := by
  rw [tokensFrom]

/-- **A token's spelling is read as the token.**  It covers as many bytes as its
spelling, and what stands behind it is cut as if it stood alone. -/
theorem tokensFrom_spelling (position : ℕ) {token : Token} {rest : List Char}
    (htoken : token.WellFormed) (hrest : token.EndsBefore rest) :
    tokensFrom position (token.spelling ++ rest) =
      (tokensFrom (position + byteLength token.spelling) rest).map ((position, token) :: ·) := by
  cases token with
  | lparen => exact tokensFrom_scan rfl (by decide) (scan_lparen position rest)
  | rparen => exact tokensFrom_scan rfl (by decide) (scan_rparen position rest)
  | quoted name =>
    have htext : (quoted name).spelling ++ rest = '|' :: (name ++ '|' :: rest) := by
      simp only [spelling, List.cons_append, List.append_assoc, List.nil_append]
    rw [htext]
    exact tokensFrom_scan rfl (by decide) (scan_bar position (readQuoted?_barred htoken rest))
  | string text =>
    have htext : (string text).spelling ++ rest = '"' :: (doubleQuotes text ++ '"' :: rest) := by
      simp only [spelling, stringSpelling, List.cons_append, List.append_assoc, List.nil_append]
    rw [htext]
    exact tokensFrom_scan rfl (by decide)
      (scan_quote position (readString?_doubleQuotes text hrest))
  | bare word =>
    obtain ⟨hne, hword⟩ := htoken
    cases word with
    | nil => exact absurd rfl hne
    | cons c word =>
      have hc : isDelimiter c = false := hword c List.mem_cons_self
      obtain ⟨htake, hdrop⟩ :=
        takeWhile_bare (fun d hd => hword d (List.mem_cons_of_mem c hd)) hrest
      have hscan := scan_bare position hc (word ++ rest)
      simp only [htake, hdrop] at hscan
      exact tokensFrom_scan (isSpace_eq_false hc) (ne_of_isDelimiter_eq_false hc rfl) hscan

end Token
end SmtQuery
