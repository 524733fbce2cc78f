import Mathlib
import SmtQuery.Proofs.Grammar
import SmtQuery.Proofs.Lexeme

/-!
# Which symbols need bars

The printer of trees decides by the characters of a name and by what the name would be taken for as
a word.  The reader knows nothing of this decision: it skips separators and comments, cuts out
tokens, and classifies words.  The two fit together exactly.

* `SExpr.exists_token_of_read_symbol`: what can stand on a line that is read as a symbol.  There is
  one token on it, either the bare name, which then needs no bars, or the name between bars.
* `SExpr.needsBars_eq_false_iff_read`: **bars stand where they have to**.  A name goes without bars
  exactly if it is read as the symbol with this name.

## Why a name between bars is no name without

A line with bars on it may be read as a symbol as well, but the bars are not part of the symbol.  So
the name is shorter than the line, and a name is never read as itself because of bars of its own.
-/

namespace SmtQuery
namespace SExpr

variable {name : String}

/-! ## One token -/

/-- A word is written without bars if it has a character, no delimiter among its characters, and is
read as a symbol. -/
theorem needsBars_eq_false {word : List Char} (hne : word ≠ [])
    (hdelim : ∀ c ∈ word, Token.isDelimiter c = false)
    (h : (Atom.classify word).symbol? ≠ none) : needsBars word = false := by
  have hany : word.any Token.isDelimiter = false :=
    List.any_eq_false.2 fun c hc => Bool.eq_false_iff.1 (hdelim c hc)
  rw [needsBars, List.isEmpty_eq_false_iff.2 hne, hany, Option.isNone_eq_false_iff.2
    (Option.isSome_iff_ne_none.2 h)]
  rfl

/-- A list is never folded into a symbol. -/
theorem fold_ne_symbol (items : List SExpr) : fold items ≠ symbol name := by
  intro h
  rcases fold_eq items with hnumber | ⟨-, hlist⟩
  · rcases number?_cases (h ▸ hnumber) with ⟨_, hl⟩ | ⟨_, hl⟩ | ⟨_, hl⟩ | ⟨_, _, hl, -⟩
    · exact absurd hl (by simp)
    · exact absurd hl (by simp)
    · exact absurd hl (by simp)
    · exact absurd hl (by simp)
  · exact absurd (h.symm.trans hlist) (by simp)

/-- A symbol is spelled by one token. -/
theorem eq_singleton_of_derives_symbol {tokens : List Token} (h : Derives tokens (symbol name)) :
    ∃ token, tokens = [token] ∧ token.tree? = some (symbol name) := by
  obtain ⟨d, rfl, hd⟩ := h
  cases d with
  | atom token tree htree =>
    obtain rfl : tree = symbol name := hd
    exact ⟨token, by rw [ParseTree.tokens], htree⟩
  | group items =>
    rw [ParseTree.sexpr] at hd
    exact absurd hd (fold_ne_symbol _)

/-- The tokens that are symbols by themselves: the bare name, if it needs no bars, and the name
between bars. -/
theorem eq_of_tree?_symbol {token : Token} (htoken : token.WellFormed)
    (h : token.tree? = some (symbol name)) :
    token = .bare name.toList ∧ needsBars name.toList = false ∨ token = .quoted name.toList := by
  cases token with
  | lparen => exact absurd h (by simp [Token.tree?])
  | rparen => exact absurd h (by simp [Token.tree?])
  | string text => exact absurd (Option.some.inj h) (by simp)
  | quoted text =>
    obtain rfl := symbol.inj (Option.some.inj h)
    rw [String.toList_ofList]
    exact Or.inr rfl
  | bare word =>
    have hclassify : Atom.classify word = symbol name := Option.some.inj h
    have hsymbol : (Atom.classify word).symbol? ≠ none := by
      rw [hclassify]
      exact Option.some_ne_none name
    obtain rfl := symbol.inj (hclassify.symm.trans (Atom.classify_eq_symbol hsymbol))
    rw [String.toList_ofList]
    exact Or.inl ⟨rfl, needsBars_eq_false htoken.1 htoken.2 hsymbol⟩

/-! ## One line -/

/-- **What stands on a line that is read as a symbol**: one token, which is the bare name or the
name between bars. -/
theorem exists_token_of_read_symbol {line : String} (h : read line = .ok (symbol name)) :
    ∃ token front back, line.toList = front ++ (Token.spelling token ++ back) ∧
      (token = .bare name.toList ∧ needsBars name.toList = false ∨
        token = .quoted name.toList) := by
  obtain ⟨located, hlocated, htokens⟩ := Except.bind_eq_ok_iff.1 h
  obtain ⟨token, hone, htree⟩ := eq_singleton_of_derives_symbol (ofTokens_eq_ok_iff.1 htokens)
  obtain ⟨⟨start, _⟩, rfl, rfl⟩ := List.map_eq_singleton_iff.1 hone
  obtain ⟨front, back, htext, -⟩ :=
    (Token.tokensFrom_eq_ok_iff.1 hlocated).offset (List.mem_singleton_self _)
  have htoken := Token.wellFormed_of_tokensFrom hlocated _ (List.mem_singleton_self _)
  exact ⟨_, front, back, htext, eq_of_tree?_symbol htoken htree⟩

/-- A lexeme alone on a line is read as what it is. -/
theorem read_of_isLexeme {line : String} {tree : SExpr} (h : Form.IsLexeme line.toList tree) :
    read line = .ok tree := by
  have hreads : (Form.lexeme line.toList).Reads tree := by rwa [Form.Reads]
  have hread := readChars_text hreads
  rwa [Form.text] at hread

/-- **A name without bars** is read as the symbol, and no other name is. -/
theorem read_eq_symbol_iff : read name = .ok (symbol name) ↔ needsBars name.toList = false := by
  constructor
  · intro h
    obtain ⟨token, front, back, htext, ⟨-, hbars⟩ | rfl⟩ := exists_token_of_read_symbol h
    · exact hbars
    · -- the line would be its own name with two bars around it
      have hlength := congrArg List.length htext
      simp only [Token.spelling, List.length_append, List.length_cons, List.length_nil] at hlength
      omega
  · exact fun h => read_of_isLexeme (Form.isLexeme_word h)

theorem toList_barred (name : String) :
    ("|" ++ name ++ "|").toList = Symbol.barred name.toList := by
  simp [Symbol.barred]

/-- Between bars every name without a bar is read as the symbol. -/
theorem read_barred (h : '|' ∉ name.toList) : read ("|" ++ name ++ "|") = .ok (symbol name) := by
  have hlexeme := Form.isLexeme_barred h
  rw [String.ofList_toList] at hlexeme
  refine read_of_isLexeme ?_
  rw [toList_barred]
  exact hlexeme

/-- What is written for a symbol. -/
theorem toString_symbol (name : String) : toString (symbol name) =
    if needsBars name.toList then "|" ++ name ++ "|" else name := by
  show String.ofList (symbol name).form.text = _
  rw [form, symbolForm, Form.text]
  split
  · rw [← toList_barred, String.ofList_toList]
  · exact String.ofList_toList

/-- **Bars stand where they have to.**  For every name, the printer holds bars for unnecessary
exactly if the name is read as the symbol with this name.  Where it holds them for necessary and the
name has no bar in it, the name between bars is read as the symbol.  And what it writes for the
symbol is the name in the first case and the name between bars in the other. -/
theorem needsBars_eq_false_iff_read (name : String) :
    (needsBars name.toList = false ↔ read name = .ok (symbol name)) ∧
    ('|' ∉ name.toList → needsBars name.toList = true →
      read ("|" ++ name ++ "|") = .ok (symbol name)) ∧
    (read name = .ok (symbol name) → toString (symbol name) = name) ∧
    (read name ≠ .ok (symbol name) → toString (symbol name) = "|" ++ name ++ "|") := by
  refine ⟨read_eq_symbol_iff.symm, fun hbar _ => read_barred hbar, fun h => ?_, fun h => ?_⟩
  · rw [toString_symbol, read_eq_symbol_iff.1 h]
    rfl
  · rw [Ne, read_eq_symbol_iff, Bool.not_eq_false] at h
    rw [toString_symbol, h]
    rfl

/-- The theorem at a comment behind a word, at a number, and at a word in another script with a
no-break space in it, which is no separator. -/
theorem needsBars_eq_false_iff_read_mixed :
    ('|' ∉ "a;b".toList ∧ needsBars "a;b".toList = true ∧ read "|a;b|" = .ok (symbol "a;b")) ∧
    ('|' ∉ "-1.5".toList ∧ needsBars "-1.5".toList = true ∧
      read "|-1.5|" = .ok (symbol "-1.5")) ∧
    needsBars "été\u00a01".toList = false ∧ toString (symbol "été\u00a01") = "été\u00a01" := by
  have hword : needsBars "été\u00a01".toList = false := by decide +kernel
  obtain ⟨hread, -, hwritten, -⟩ := needsBars_eq_false_iff_read "été\u00a01"
  refine ⟨⟨by decide, by decide +kernel, ?_⟩, ⟨by decide, by decide +kernel, ?_⟩, hword,
    hwritten (hread.1 hword)⟩
  · exact (needsBars_eq_false_iff_read "a;b").2.1 (by decide) (by decide +kernel)
  · exact (needsBars_eq_false_iff_read "-1.5").2.1 (by decide) (by decide +kernel)

end SExpr
end SmtQuery
