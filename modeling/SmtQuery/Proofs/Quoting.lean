import Mathlib
import SmtQuery.Proofs.Constant

/-!
# Symbols written in a script and read in a reply

A script writes a symbol bare if its characters allow it (`Symbol.isSimple`), and the reader
decides by the whole word whether it is a number (`Atom.classify`).  The two tests disagree
about a minus sign followed by digits: `-1` may stand bare, and it is read as a number.

* `isSimple_of_isNegative`, `classify_of_isNegative`: these names are written bare, and they are
  what the reader takes for numbers.
* `Term.read_const`: **which symbols are read back**, and what becomes of the others.
-/

namespace SmtQuery

open Numeral

namespace Symbol

/-! ## Negative numbers are written bare -/

theorem isPlain_of_isDigit {c : Char} (h : Numeral.isDigit 10 c = true) : isPlain c = true := by
  rw [isPlain, Char.isAlphanum, isDigit_of_isDigit h, Bool.or_true, Bool.true_or]

theorem isPlain_of_isNumeral {text : List Char} (h : isNumeral 10 text = true) :
    ∀ c ∈ text, isPlain c = true :=
  fun c hc => isPlain_of_isDigit ((isNumeral_iff.1 h).2 c hc)

/-- A minus sign may stand in front. -/
theorem isSimple_minus {text : List Char} (h : ∀ c ∈ text, isPlain c = true) :
    isSimple ('-' :: text) = true := by
  rw [isSimple, List.all_eq_true.2 h]
  rfl

/-- The name of a negative number is a simple symbol. -/
theorem isSimple_of_isNegative {name : List Char} (h : IsNegative name) :
    isSimple name = true := by
  obtain ⟨whole, hwhole, rfl | ⟨frac, hfrac, rfl⟩⟩ := h
  · exact isSimple_minus (isPlain_of_isNumeral hwhole)
  · refine isSimple_minus fun c hc => ?_
    rcases List.mem_append.1 hc with hc | hc
    · exact isPlain_of_isNumeral hwhole c hc
    · rcases List.mem_cons.1 hc with rfl | hc
      · rfl
      · exact isPlain_of_isNumeral hfrac c hc

/-! ## And they are read as numbers -/

theorem classify_minus {whole : List Char} (h : isNumeral 10 whole = true) :
    Atom.classify ('-' :: whole) = .int (-(value 10 whole : ℤ)) := by
  refine Atom.classify_of_int (fun hhead => absurd (Option.some.inj hhead) (by decide)) ?_
  rw [Atom.int?_neg, read?, if_pos h, Option.map_some]

theorem classify_minus_point {whole frac : List Char} (hwhole : isNumeral 10 whole = true)
    (hfrac : isNumeral 10 frac = true) :
    Atom.classify ('-' :: (whole ++ '.' :: frac)) =
      .decimal (-mkRat (value 10 (whole ++ frac)) (weight 10 frac.length)) := by
  refine Atom.classify_of_decimal ?_
  rw [Decimal.read?_neg,
    Decimal.readUnsigned?_eq_some_iff.2 ⟨whole, frac, hwhole, hfrac, rfl, rfl⟩, Option.map_some]

/-- The reader takes the name of a negative number for no symbol. -/
theorem classify_of_isNegative {name : List Char} (h : IsNegative name) :
    (Atom.classify name).symbol? = none := by
  obtain ⟨whole, hwhole, rfl | ⟨frac, hfrac, rfl⟩⟩ := h
  · rw [classify_minus hwhole]
    rfl
  · rw [classify_minus_point hwhole hfrac]
    rfl

/-! ## As lexemes -/

/-- A negative number among the names is written as it stands, and is one word for the reader. -/
theorem isLexeme_write_of_isNegative {name : String} (h : IsNegative name.toList) :
    Form.IsLexeme (write name) (Atom.classify name.toList) := by
  have hsimple := isSimple_of_isNegative h
  obtain ⟨hne, hplain⟩ := isPlain_of_isSimple hsimple
  rw [write, if_pos hsimple]
  exact Form.isLexeme_bare hne fun c hc => isDelimiter_of_isPlain (hplain c hc)

end Symbol

namespace Term

/-- A constant with a negative number for its name is read as the number. -/
theorem read_const_of_isNegative {name : String} (h : Symbol.IsNegative name.toList) :
    SExpr.read (toString (const name)) = .ok (Atom.classify name.toList) := by
  have hreads : (const name).form.Reads (Atom.classify name.toList) := by
    rw [form, Symbol.form, Form.Reads]
    exact Symbol.isLexeme_write_of_isNegative h
  exact SExpr.read_toString hreads

/-- **Which constants are read back.**  A constant without a bar in its name is read as the
symbol exactly if the name is no minus sign with a numeral behind it.  Otherwise it is read as
the number that the name spells: as an integer, or with a point in it as a decimal. -/
theorem read_const {name : String} (hbar : '|' ∉ name.toList) :
    (SExpr.read (toString (const name)) = .ok (.symbol name) ↔ ¬ Symbol.IsNegative name.toList) ∧
    (∀ whole, isNumeral 10 whole = true → name.toList = '-' :: whole →
      SExpr.read (toString (const name)) = .ok (.int (-(value 10 whole : ℤ)))) ∧
    ∀ whole frac, isNumeral 10 whole = true → isNumeral 10 frac = true →
      name.toList = '-' :: (whole ++ '.' :: frac) →
      SExpr.read (toString (const name)) =
        .ok (.decimal (-mkRat (value 10 (whole ++ frac)) (weight 10 frac.length))) := by
  refine ⟨⟨fun hread hneg => ?_, fun hneg => ?_⟩, fun whole hwhole hname => ?_,
    fun whole frac hwhole hfrac hname => ?_⟩
  · rw [read_const_of_isNegative hneg] at hread
    have hsymbol := Symbol.classify_of_isNegative hneg
    rw [Except.ok.inj hread] at hsymbol
    exact Option.some_ne_none _ hsymbol
  · exact SExpr.read_toString (Symbol.reads_form hbar hneg)
  · rw [read_const_of_isNegative ⟨whole, hwhole, Or.inl hname⟩, hname,
      Symbol.classify_minus hwhole]
  · rw [read_const_of_isNegative ⟨whole, hwhole, Or.inr ⟨frac, hfrac, hname⟩⟩, hname,
      Symbol.classify_minus_point hwhole hfrac]

/-- The theorem at a symbol with a sign and a blank inside, at an integer and at a decimal. -/
theorem read_const_mixed :
    ('|' ∉ "a-1 b".toList ∧ SExpr.read (toString (const "a-1 b")) = .ok (.symbol "a-1 b")) ∧
    ('|' ∉ "-12".toList ∧ SExpr.read (toString (const "-12")) = .ok (.int (-12))) ∧
    '|' ∉ "-1.5".toList ∧ SExpr.read (toString (const "-1.5")) = .ok (.decimal (-(mkRat 15 10))) :=
  ⟨⟨by decide, (read_const (by decide)).1.2 (Symbol.not_isNegative_of_head? (by decide))⟩,
    ⟨by decide, (read_const (by decide)).2.1 ['1', '2'] rfl rfl⟩,
    by decide, (read_const (by decide)).2.2 ['1'] ['5'] rfl rfl rfl⟩

/-- The name `-1` has no bar in it and no backslash, and is read as a number. -/
theorem read_const_ne_symbol :
    ¬ ∀ name : String, '|' ∉ name.toList → '\\' ∉ name.toList →
      SExpr.read (toString (const name)) = .ok (.symbol name) := by
  intro h
  have hnegative : Symbol.IsNegative "-1".toList := ⟨['1'], rfl, Or.inl rfl⟩
  have hread := h "-1" (by decide) (by decide)
  rw [read_const_of_isNegative hnegative] at hread
  exact absurd (Except.ok.inj hread) (by decide)

end Term
end SmtQuery
