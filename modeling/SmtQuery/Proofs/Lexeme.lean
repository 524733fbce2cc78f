import Mathlib
import SmtQuery.SExpr.Printer
import SmtQuery.Proofs.Atom

/-!
# The lexemes of numbers and symbols

A word in a written form is a lexeme if the lexer takes it whole, and then it is
read as what `Atom.classify` says.  The lexer takes a word whole when no character
of it is a delimiter, and no character of a number is one, because a delimiter is
no digit.

* `isLexeme_signed`, `isLexeme_toDigits`, `isLexeme_decimal`: integers and decimals.
* `isLexeme_hex`, `isLexeme_binary`: bit-vector literals, whose width is the number of their digits.
* `isLexeme_symbolForm`: a symbol as the printer of trees writes it.
* `isLexeme_word`: the fixed words of the language.
-/

namespace SmtQuery

/-! ## Digits are not delimiters -/

theorem Token.digitOf_of_isDelimiter {c : Char} (h : Token.isDelimiter c = true) :
    Numeral.digitOf c = 36 := by
  simp only [Token.isDelimiter, Token.isSpace, Bool.or_eq_true, decide_eq_true_eq] at h
  rcases h with ((((((((rfl | rfl) | rfl) | rfl) | rfl) | rfl) | rfl) | rfl) | rfl) | rfl <;> rfl

theorem Token.isDelimiter_of_isDigit {base : ℕ} {c : Char} (hbase : base ≤ 36)
    (hc : Numeral.isDigit base c = true) : Token.isDelimiter c = false := by
  rw [Bool.eq_false_iff]
  intro hdelim
  exact Numeral.ne_of_isDigit hbase hc (Token.digitOf_of_isDelimiter hdelim) rfl

theorem Token.isDelimiter_of_isNumeral {base : ℕ} {text : List Char} (hbase : base ≤ 36)
    (h : Numeral.isNumeral base text = true) : ∀ c ∈ text, Token.isDelimiter c = false :=
  fun c hc => Token.isDelimiter_of_isDigit hbase ((Numeral.isNumeral_iff.1 h).2 c hc)

/-- Putting a character in front that is no delimiter. -/
theorem Token.isDelimiter_cons {d : Char} {text : List Char} (hd : Token.isDelimiter d = false)
    (h : ∀ c ∈ text, Token.isDelimiter c = false) :
    ∀ c ∈ d :: text, Token.isDelimiter c = false := by
  intro c hc
  rcases List.mem_cons.1 hc with rfl | hc
  · exact hd
  · exact h c hc

/-- A point between two numerals is no delimiter either. -/
theorem Token.isDelimiter_point {whole frac : List Char}
    (hwhole : Numeral.isNumeral 10 whole = true) (hfrac : Numeral.isNumeral 10 frac = true) :
    ∀ c ∈ whole ++ '.' :: frac, Token.isDelimiter c = false :=
  List.forall_mem_append.2 ⟨Token.isDelimiter_of_isNumeral (by omega) hwhole,
    Token.isDelimiter_cons rfl (Token.isDelimiter_of_isNumeral (by omega) hfrac)⟩

namespace Form

open Numeral

theorem isLexeme_of_classify {word : List Char} {tree : SExpr} (hne : word ≠ [])
    (hdelim : ∀ c ∈ word, Token.isDelimiter c = false) (h : Atom.classify word = tree) :
    IsLexeme word tree :=
  h ▸ isLexeme_bare hne hdelim

/-! ## Numbers -/

theorem isDelimiter_toDigits (n : ℕ) : ∀ c ∈ Nat.toDigits 10 n, Token.isDelimiter c = false :=
  Token.isDelimiter_of_isNumeral (by omega) (isNumeral_toDigits (by omega) (by omega) n)

theorem signed_ne_nil (n : ℤ) : signed n ≠ [] := by
  rw [signed]
  split
  · exact List.cons_ne_nil _ _
  · exact Nat.toDigits_ne_nil

/-- An integer with its sign is one word. -/
theorem isLexeme_signed (n : ℤ) : IsLexeme (signed n) (.int n) := by
  refine isLexeme_of_classify (signed_ne_nil n) ?_ (Atom.classify_signed n)
  rw [signed]
  split
  · exact Token.isDelimiter_cons rfl (isDelimiter_toDigits _)
  · exact isDelimiter_toDigits _

theorem isLexeme_toDigits (n : ℕ) : IsLexeme (Nat.toDigits 10 n) (.int n) := by
  have h := isLexeme_signed n
  rw [signed, if_neg (by omega), Int.natAbs_natCast] at h
  exact h

/-- A decimal is one word. -/
theorem isLexeme_decimal {word : List Char} {q : ℚ} (h : Decimal.read? word = some q) :
    IsLexeme word (.decimal q) := by
  obtain ⟨whole, frac, hwhole, hfrac, hword⟩ := Atom.exists_of_read? h
  have hmagnitude := Token.isDelimiter_point hwhole hfrac
  rcases hword with rfl | rfl
  · exact isLexeme_of_classify (List.cons_ne_nil _ _) (Token.isDelimiter_cons rfl hmagnitude)
      (Atom.classify_of_decimal h)
  · exact isLexeme_of_classify
      (List.append_ne_nil_of_right_ne_nil _ (List.cons_ne_nil _ _)) hmagnitude
      (Atom.classify_of_decimal h)

/-- A literal whose digits are read leniently is one word, if they are no
delimiters; its width is the number of bits that its characters stand for. -/
theorem isLexeme_literal {opening : Char} {base bits : ℕ} {digits : List Char} {n : ℤ}
    (hopening : Token.isDelimiter opening = false)
    (hform : Atom.bitVec? ('#' :: opening :: digits) = Atom.literal? base bits digits)
    (hdelim : ∀ c ∈ digits, Token.isDelimiter c = false)
    (h : Atom.signedGrouped? base digits = some n) (hwidth : digits.length * bits < UInt32.size) :
    IsLexeme ('#' :: opening :: digits)
      (.bitVec n (UInt32.ofNat (digits.length * bits))) := by
  refine isLexeme_of_classify (List.cons_ne_nil _ _)
    (Token.isDelimiter_cons rfl (Token.isDelimiter_cons hopening hdelim)) ?_
  rw [Atom.classify, hform, Atom.literal?_of_signedGrouped? h hwidth]

theorem isLexeme_hex {digits : List Char} {n : ℤ}
    (hdelim : ∀ c ∈ digits, Token.isDelimiter c = false)
    (h : Atom.signedGrouped? 16 digits = some n) (hwidth : digits.length * 4 < UInt32.size) :
    IsLexeme ('#' :: 'x' :: digits) (.bitVec n (UInt32.ofNat (digits.length * 4))) :=
  isLexeme_literal rfl rfl hdelim h hwidth

theorem isLexeme_binary {digits : List Char} {n : ℤ}
    (hdelim : ∀ c ∈ digits, Token.isDelimiter c = false)
    (h : Atom.signedGrouped? 2 digits = some n) (hwidth : digits.length * 1 < UInt32.size) :
    IsLexeme ('#' :: 'b' :: digits) (.bitVec n (UInt32.ofNat (digits.length * 1))) :=
  isLexeme_literal rfl rfl hdelim h hwidth

/-! ## Symbols -/

theorem isLexeme_symbol {name : List Char} (h : SExpr.needsBars name = false) :
    IsLexeme name (.symbol (String.ofList name)) :=
  have ⟨hne, hdelim, hclassify⟩ := Atom.of_needsBars h
  isLexeme_of_classify hne hdelim hclassify

/-- A fixed word of the language. -/
theorem isLexeme_word {text : String} (h : SExpr.needsBars text.toList = false) :
    IsLexeme text.toList (.symbol text) := by
  have hlex := isLexeme_symbol h
  rwa [String.ofList_toList] at hlex

/-- A symbol as the printer of trees writes it, between bars if it has to be. -/
theorem isLexeme_symbolForm {name : String} (h : '|' ∉ name.toList) :
    IsLexeme (if SExpr.needsBars name.toList then Symbol.barred name.toList else name.toList)
      (.symbol name) := by
  cases hbars : SExpr.needsBars name.toList with
  | true =>
    have hlex := isLexeme_barred h
    rwa [String.ofList_toList] at hlex
  | false => exact isLexeme_word hbars

end Form
end SmtQuery
