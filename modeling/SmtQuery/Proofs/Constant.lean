import Mathlib
import SmtQuery.Value
import SmtQuery.Reply.Binding
import SmtQuery.Proofs.Literal

/-!
# Values as terms, and back

A value is written as a term and read as a tree, and the tree is decoded at the kind of
the value.  `Value.tree` is what the term is read as; `Value.reads_term` goes from the
term to the tree and `Value.decode_tree` from the tree to the value, one kind at a time.

## What does not come back

All NaNs are written alike, so a NaN comes back as the positive quiet one: this is
`Value.canonical`, which changes nothing else.  And an element is written as a symbol, by
rules under which a minus sign in front of digits may stand bare; such a name would be read
as a number (`Symbol.IsNegative`).  `Value.IsProper` leaves these names out, and with them
the values that no input can have: integers out of range, positions that are not those of
the element.
-/

namespace SmtQuery

open Numeral

/-! ## Symbols -/

namespace Symbol

/-- Whether a name is a minus sign and a numeral, perhaps with decimal places. -/
def IsNegative (name : List Char) : Prop :=
  ∃ whole, isNumeral 10 whole = true ∧ (name = '-' :: whole ∨
    ∃ frac, isNumeral 10 frac = true ∧ name = '-' :: (whole ++ '.' :: frac))

theorem isPlain_of_isDelimiter {c : Char} (h : Token.isDelimiter c = true) :
    isPlain c = false := by
  simp only [Token.isDelimiter, Token.isSpace, Bool.or_eq_true, decide_eq_true_eq] at h
  rcases h with ((((((((rfl | rfl) | rfl) | rfl) | rfl) | rfl) | rfl) | rfl) | rfl) | rfl <;> rfl

theorem isDelimiter_of_isPlain {c : Char} (h : isPlain c = true) :
    Token.isDelimiter c = false := by
  rw [Bool.eq_false_iff]
  intro hdelim
  rw [isPlain_of_isDelimiter hdelim] at h
  exact absurd h (by decide)

/-- The two notions of a decimal digit agree. -/
theorem isDigit_of_isDigit {c : Char} (h : Numeral.isDigit 10 c = true) : c.isDigit = true := by
  rw [Numeral.isDigit, decide_eq_true_eq, digitOf] at h
  split at h
  · next hc =>
    rw [Char.isDigit, Bool.and_eq_true, decide_eq_true_eq, decide_eq_true_eq]
    exact hc
  · split at h
    · omega
    · split at h <;> omega

/-- A numeral starts with a digit, so it is not a simple symbol. -/
theorem isSimple_append_of_isNumeral {whole rest : List Char}
    (h : isNumeral 10 whole = true) : isSimple (whole ++ rest) = false := by
  cases whole with
  | nil => exact absurd rfl (isNumeral_iff.1 h).1
  | cons c whole =>
    have hc := isDigit_of_isDigit ((isNumeral_iff.1 h).2 c List.mem_cons_self)
    rw [List.cons_append, isSimple, hc]
    rfl

/-- A simple symbol has a character, and its characters may all stand bare. -/
theorem isPlain_of_isSimple {name : List Char} (h : isSimple name = true) :
    name ≠ [] ∧ ∀ c ∈ name, isPlain c = true := by
  cases name with
  | nil => exact absurd h (by decide)
  | cons c rest =>
    rw [isSimple, Bool.and_eq_true, Bool.and_eq_true, List.all_eq_true] at h
    exact ⟨List.cons_ne_nil _ _, List.forall_mem_cons.2 ⟨h.1.2, h.2⟩⟩

/-- A simple symbol is read as itself, unless it is a negative number. -/
theorem classify_of_isSimple {name : List Char} (h : isSimple name = true)
    (hneg : ¬ IsNegative name) : Atom.classify name = .symbol (String.ofList name) := by
  have hsharp : name.head? ≠ some '#' := by
    intro hhead
    obtain ⟨rest, rfl⟩ := List.head?_eq_some_iff.1 hhead
    exact absurd h (by simp [isSimple, show isPlain '#' = false from rfl])
  have hdigits : ∀ whole rest, isNumeral 10 whole = true → name ≠ whole ++ rest := by
    rintro whole rest hwhole rfl
    exact absurd h (Bool.eq_false_iff.1 (isSimple_append_of_isNumeral hwhole))
  exact Atom.classify_of_not_number hsharp hdigits
    (fun whole hwhole hname => hneg ⟨whole, hwhole, Or.inl hname⟩)
    (fun whole frac hwhole hfrac hname => hneg ⟨whole, hwhole, Or.inr ⟨frac, hfrac, hname⟩⟩)

/-- **A symbol as a script writes it** is read as itself, unless it has a bar in it or is
a negative number. -/
theorem isLexeme_write {name : String} (hbar : '|' ∉ name.toList)
    (hneg : ¬ IsNegative name.toList) : Form.IsLexeme (write name) (.symbol name) := by
  rw [write]
  split
  · next hsimple =>
    have hplain := isPlain_of_isSimple hsimple
    have hclassify := classify_of_isSimple hsimple hneg
    rw [String.ofList_toList] at hclassify
    exact Form.isLexeme_of_classify hplain.1
      (fun c hc => isDelimiter_of_isPlain (hplain.2 c hc)) hclassify
  · have hlex := Form.isLexeme_barred hbar
    rwa [String.ofList_toList] at hlex

theorem reads_form {name : String} (hbar : '|' ∉ name.toList)
    (hneg : ¬ IsNegative name.toList) : (form name).Reads (.symbol name) := by
  rw [form, Form.Reads]
  exact isLexeme_write hbar hneg

/-- A name that does not start with a minus sign is no negative number. -/
theorem not_isNegative_of_head? {name : List Char} (h : name.head? ≠ some '-') :
    ¬ IsNegative name := by
  rintro ⟨whole, -, rfl | ⟨frac, -, rfl⟩⟩
  · exact h rfl
  · exact h rfl

end Symbol

/-! ## Terms for values -/

namespace Term

open SExpr (fold number? quotient? rational? fold_of_number?)

/-- An integer is read as itself; minus applied to a numeral is folded. -/
theorem reads_intForm (n : ℤ) : (intForm n).Reads (.int n) := by
  rw [intForm]
  split
  · next hn =>
    have hminus : (Form.word "-").Reads (.symbol "-") := Form.reads_word (by decide)
    have h := Form.reads_group (Form.readsAll_cons hminus
      (Form.readsAll_cons (Form.reads_nat n.natAbs) Form.readsAll_nil))
    rwa [fold, number?, if_pos rfl, Int.ofNat_natAbs_of_nonpos hn.le, neg_neg] at h
  · next hn =>
    have h := Form.reads_nat n.natAbs
    rwa [Int.natAbs_of_nonneg (not_lt.1 hn)] at h

/-- A bit-vector literal is read as the residue of its value. -/
theorem reads_bitVecForm {width : UInt32} (hwidth : 0 < width.toNat) (n : ℤ) :
    (bitVecForm n width.toNat).Reads (.bitVec (wrap width.toNat n) width) := by
  have h := Form.reads_indexedBitVec hwidth width.toNat_lt (wrap_lt width.toNat n)
  rwa [UInt32.ofNat_toNat] at h

/-- A real numeral has one place after the point, which is zero. -/
theorem reads_realNumeral (n : ℕ) : (realNumeral n).Reads (.decimal n) := by
  have hdigits : isNumeral 10 (Nat.toDigits 10 n) = true :=
    isNumeral_toDigits (by omega) (by omega) n
  have hhead : (Nat.toDigits 10 n ++ ['.', '0']).head? ≠ some '-' := by
    rw [List.head?_append_of_ne_nil _ Nat.toDigits_ne_nil]
    exact Atom.head?_toDigits_ne rfl
  have hvalue : (n : ℚ) =
      mkRat (value 10 (Nat.toDigits 10 n ++ ['0'])) (weight 10 ['0'].length) := by
    rw [value_concat, value_toDigits (by omega) (by omega), Rat.mkRat_eq_div]
    have hten : (weight 10 ['0'].length : ℚ) = 10 := rfl
    rw [hten, show digitOf '0' = 0 from rfl]
    push_cast
    ring
  have hread : Decimal.read? (Nat.toDigits 10 n ++ ['.', '0']) = some (n : ℚ) := by
    rw [Decimal.read?_of_head?_ne hhead, Decimal.readUnsigned?_eq_some_iff]
    exact ⟨_, ['0'], hdigits, rfl, rfl, hvalue⟩
  rw [realNumeral, Form.Reads]
  exact Form.isLexeme_decimal hread

/-- **A real is read as itself**: a quotient folds, and then so does a minus. -/
theorem reads_realForm (q : ℚ) : (realForm q).Reads (.decimal q) := by
  have hmagnitude : (if q.den = 1 then realNumeral q.num.natAbs
      else .group [Form.word "/", realNumeral q.num.natAbs, realNumeral q.den]).Reads
        (.decimal |q|) := by
    have hden : ((q.den : ℕ) : ℚ) ≠ 0 := Nat.cast_ne_zero.2 q.den_nz
    rw [Decimal.abs_eq_div]
    split
    · next hone =>
      rw [hone, Nat.cast_one, div_one]
      exact reads_realNumeral _
    · have hslash : (Form.word "/").Reads (.symbol "/") := Form.reads_word (by decide)
      have h := Form.reads_group (Form.readsAll_cons hslash
        (Form.readsAll_cons (reads_realNumeral q.num.natAbs)
          (Form.readsAll_cons (reads_realNumeral q.den) Form.readsAll_nil)))
      rw [fold, number?, if_pos rfl, quotient?] at h
      simp only [rational?, Option.bind_eq_bind, Option.bind_some] at h
      rwa [if_neg hden] at h
  rw [realForm]
  split
  · next hq =>
    have hminus : (Form.word "-").Reads (.symbol "-") := Form.reads_word (by decide)
    have h := Form.reads_group (Form.readsAll_cons hminus
      (Form.readsAll_cons hmagnitude Form.readsAll_nil))
    rwa [fold, number?, if_pos rfl, abs_of_neg hq, neg_neg] at h
  · next hq =>
    rwa [abs_of_nonneg (not_lt.1 hq)] at hmagnitude

/-- A value with a name is read as the pattern with that name. -/
theorem reads_special (p : Precision) (special : Ieee.Special) :
    (Form.indexed (Form.word special.name) [p.exponentBits, p.significandBits]).Reads
      (.float (Ieee.ofSpecial p special)) := by
  have hunderscore : (Form.word "_").Reads (.symbol "_") := Form.reads_word (by decide)
  have hname : (Form.word special.name).Reads (.symbol special.name) := by
    refine Form.reads_word ?_
    rcases special with _ | ⟨_ | _⟩ | ⟨_ | _⟩ <;> decide
  have hnumber : number? [.symbol "_", .symbol special.name, .int p.exponentBits,
      .int p.significandBits] = some (.float (Ieee.ofSpecial p special)) := by
    cases p <;> rcases special with _ | ⟨_ | _⟩ | ⟨_ | _⟩ <;> rfl
  have h := Form.reads_group (Form.readsAll_cons hunderscore (Form.readsAll_cons hname
    (Form.readsAll_cons (Form.reads_nat p.exponentBits)
      (Form.readsAll_cons (Form.reads_nat p.significandBits) Form.readsAll_nil))))
  rwa [fold_of_number? hnumber] at h

end Term

/-! ## Values -/

/-- The value a floating-point value comes back as: any NaN as the positive quiet one. -/
def Ieee.canonical (x : Ieee) : Ieee := if x.isNaN then ofSpecial x.precision .nan else x

namespace Value

/-- Whether a value is one that an input of its kind can have, with a name that can be
read if it is an element. -/
def IsProper : Value → Prop
  | int kind n => kind.isIntegral ∧ kind.sort ≠ .bitVec 0 ∧ kind.normalize n = n
  | real _ | float _ => True
  | element sort name index? => index? = sort.indexOf? name ∧
      (∀ elements, sort.elements? = some elements → name ∈ elements) ∧
      '|' ∉ name.toList ∧ ¬ Symbol.IsNegative name.toList

/-- The value that a value comes back as. -/
def canonical : Value → Value
  | float x => float x.canonical
  | value => value

/-- What the term for a value is read as. -/
def tree : Value → SExpr
  | int (.bitVec _ width) n => .bitVec (wrap width.toNat n) width
  | int _ n => .int n
  | real q => .decimal q
  | float x => .float x.canonical
  | element _ name _ => .symbol name

/-- The term for a floating-point value is read as the value, up to NaNs. -/
theorem reads_floatTerm (x : Ieee) : (floatTerm x).form.Reads (.float x.canonical) := by
  have hexponent : (UInt32.ofNat x.precision.exponentBits).toNat = x.precision.exponentBits := by
    cases x.precision <;> rfl
  have hsignificand :
      (UInt32.ofNat x.precision.significandBits).toNat = x.precision.significandBits := by
    cases x.precision <;> rfl
  rw [floatTerm, Ieee.canonical]
  split
  · rw [Term.form, hexponent, hsignificand]
    exact Term.reads_special x.precision .nan
  · rw [Term.form, hexponent, hsignificand, Precision.significandBits, Nat.add_sub_cancel]
    exact Form.reads_floatFields_self x

/-- **The term for a value is read as one leaf.** -/
theorem reads_term {value : Value} (h : value.IsProper) : value.term.form.Reads value.tree := by
  cases value with
  | int kind n =>
    cases kind with
    | bitVec signed width =>
      have hwidth : 0 < width.toNat := by
        rw [Nat.pos_iff_ne_zero]
        intro hzero
        have hw : width = 0 := UInt32.toNat_inj.1 hzero
        exact h.2.1 (hw ▸ rfl)
      rw [term, tree, Term.form]
      exact Term.reads_bitVecForm hwidth n
    | int =>
      rw [term, tree, Term.form]
      · exact Term.reads_intForm n
      · simp
      · simp
    | real => exact absurd h.1 Bool.false_ne_true
    | float p => exact absurd h.1 Bool.false_ne_true
    | named sort => exact absurd h.1 Bool.false_ne_true
  | real q =>
    rw [term, tree, Term.form]
    exact Term.reads_realForm q
  | float x => exact reads_floatTerm x
  | element sort name index? =>
    rw [term, tree, Term.form]
    exact Symbol.reads_form h.2.2.1 h.2.2.2

end Value

/-! ## Decoding -/

/-- The range of a kind is reached from the residue as well. -/
theorem Kind.normalize_wrap (signed : Bool) (width : UInt32) (n : ℤ) :
    (Kind.bitVec signed width).normalize (wrap width.toNat n) =
      (Kind.bitVec signed width).normalize n := by
  simp only [Kind.normalize, wrap_wrap]

namespace Rule

theorem first_of_pass {rule : Rule} {rest : List Rule} {kind : Kind} {tree : SExpr}
    (h : rule.apply kind tree = .pass) : first (rule :: rest) kind tree = first rest kind tree := by
  rw [first, h]

theorem first_of_claim {rule : Rule} {rest : List Rule} {kind : Kind} {tree : SExpr}
    {value : Value} (h : rule.apply kind tree = .claim value) :
    first (rule :: rest) kind tree = .claim value := by
  rw [first, h]

/-- The rules for leaves pass a list over. -/
theorem apply_list {rule : Rule} (h : rule ≠ constantFunction) (kind : Kind)
    (items : List SExpr) : rule.apply kind (.list items) = .pass := by
  cases rule with
  | integer => exact ite_self _
  | real => exact ite_self _
  | realCast => rfl
  | element => cases kind <;> rfl
  | double => rfl
  | single => rfl
  | constantFunction => exact absurd rfl h

/-- A list has no value but that of its last operand, if it is a constant function. -/
theorem first_list (kind : Kind) (items : List SExpr) :
    first all kind (.list items) = first [constantFunction] kind (.list items) := by
  rw [all, first_of_pass (apply_list (by decide) kind items),
    first_of_pass (apply_list (by decide) kind items),
    first_of_pass (apply_list (by decide) kind items),
    first_of_pass (apply_list (by decide) kind items),
    first_of_pass (apply_list (by decide) kind items),
    first_of_pass (apply_list (by decide) kind items)]

/-- The last operand of a constant function is decoded in its place. -/
theorem exists_first_constantFunction (kind : Kind) {tree last : SExpr} {operands : List SExpr}
    (htree : tree = .list (.symbol "LAMBDA" :: (operands ++ [last]))) : ∃ smaller,
    first all kind tree = .inside last smaller := by
  have hne : operands ++ [last] ≠ [] := List.append_ne_nil_of_right_ne_nil _ (List.cons_ne_nil _ _)
  -- the rule asks for a first operand and takes the last one
  obtain ⟨operand, rest, hrest⟩ := List.exists_cons_of_ne_nil hne
  have hlast : last = (operand :: rest).getLast (List.cons_ne_nil _ _) := by
    simp only [← hrest, List.getLast_append_singleton]
  rw [hrest] at htree
  subst htree
  rw [first_list]
  clear hrest hne
  subst hlast
  exact ⟨_, rfl⟩

/-- Sorts with a list of elements and sorts without decode an element alike. -/
theorem elementVerdict_eq {tree : SExpr} {sort : NamedSort} {name : String}
    (h : ∀ elements, sort.elements? = some elements → name ∈ elements) :
    elementVerdict tree sort name = .claim (.element sort name (sort.indexOf? name)) := by
  cases helements : sort.elements? with
  | none =>
    have hindex : sort.indexOf? name = none := by
      rw [NamedSort.indexOf?, helements]
      rfl
    rw [elementVerdict, hindex]
    simp only [helements]
  | some elements =>
    have hmem := h elements helements
    have hsome : sort.indexOf? name ≠ none := by
      rw [NamedSort.indexOf?, helements]
      exact fun hnone => List.idxOf?_eq_none_iff.1 hnone hmem
    obtain ⟨i, hindex⟩ := Option.ne_none_iff_exists'.1 hsome
    rw [elementVerdict, hindex]
    simp only [helements]

end Rule

theorem decode_of_claim {kind : Kind} {tree : SExpr} {value : Value}
    (h : Rule.first Rule.all kind tree.stripAscription = .claim value) :
    decode kind tree = .value value := by
  rw [decode, decodeWith, h]

theorem decode_of_pass {kind : Kind} {tree : SExpr}
    (h : Rule.first Rule.all kind tree.stripAscription = .pass) :
    decode kind tree = .unmatched tree.stripAscription := by
  rw [decode, decodeWith, h]

namespace Value

/-- **The tree of a value decodes to the value**, up to NaNs. -/
theorem decode_tree {value : Value} (h : value.IsProper) :
    decode value.kind value.tree = .value value.canonical := by
  refine decode_of_claim ?_
  cases value with
  | int kind n =>
    cases kind with
    | bitVec signed width =>
      show Verdict.claim (Value.integer (.bitVec signed width) (wrap width.toNat n)) = _
      rw [integer, Kind.normalize_wrap, h.2.2]
      rfl
    | int => rfl
    | real => exact absurd h.1 Bool.false_ne_true
    | float p => exact absurd h.1 Bool.false_ne_true
    | named sort => exact absurd h.1 Bool.false_ne_true
  | real q => rfl
  | float x =>
    have hprecision : x.canonical.precision = x.precision := by
      rw [Ieee.canonical]
      split
      · rfl
      · rfl
    show Rule.first Rule.all (.float x.precision) (.float x.canonical) =
      .claim (.float x.canonical)
    rw [← hprecision]
    obtain ⟨p, bits⟩ := x.canonical
    cases p with
    | single => rfl
    | double => rfl
  | element sort name index? =>
    obtain ⟨rfl, helements, -⟩ := h
    have hclaim : Rule.element.apply (.named sort) (.symbol name) =
        .claim (.element sort name (sort.indexOf? name)) :=
      Rule.elementVerdict_eq helements
    show Rule.first Rule.all (.named sort) (.symbol name) = _
    rw [Rule.all, Rule.first_of_pass rfl, Rule.first_of_pass rfl, Rule.first_of_pass rfl,
      Rule.first_of_claim hclaim]
    rfl

end Value
end SmtQuery
