import Mathlib
import SmtQuery.Proofs.Atom

/-!
# What words spell

The grammar of numbers in one place, against which `Atom.classify` is measured.  A word spells a
number if it is a hexadecimal or binary literal, an integer or a decimal; every other word stands
for the symbol that it is.

## Two grammars

The grammars differ in the digits of a literal only, so `Spells` and `StandsFor` take those as a
parameter.  `IsStrict` is what the standard allows: digits and nothing else.  `IsLenient` is what
the reader takes: a sign may stand in front and underscores behind the first digit, and all of them
count towards the width.

* `standsFor_classify_iff`: the reader follows the lenient grammar, on every word.
* `spells_strict_iff`: the two grammars agree on a word unless it is a literal with a sign or an
  underscore in it (`IsLoose`).
* `bounds_of_spells_strict`: a literal of the strict grammar has a value that fits its width.
-/

namespace SmtQuery
namespace Atom

open Numeral

/-! ## The grammars -/

/-- The digits of a literal as the standard has them, and their value. -/
def IsStrict (base : ℕ) (digits : List Char) (n : ℤ) : Prop :=
  isNumeral base digits = true ∧ n = value base digits

/-- A digit, and behind it digits and underscores; the underscores do not count for the value. -/
def IsGrouped (base : ℕ) (digits : List Char) (n : ℕ) : Prop :=
  (∃ c ∈ digits.head?, isDigit base c = true) ∧ (∀ c ∈ digits, c = '_' ∨ isDigit base c = true) ∧
    n = value base (digits.filter (· ≠ '_'))

/-- The digits of a literal as they are read: grouped, with an optional sign in front. -/
inductive IsLenient (base : ℕ) : List Char → ℤ → Prop
  | unsigned {digits : List Char} {n : ℕ} (h : IsGrouped base digits n) : IsLenient base digits n
  | plus {digits : List Char} {n : ℕ} (h : IsGrouped base digits n) :
      IsLenient base ('+' :: digits) n
  | minus {digits : List Char} {n : ℕ} (h : IsGrouped base digits n) :
      IsLenient base ('-' :: digits) (-n)

/-- The number that a word spells, where `Digits` says what the digits of a bit-vector literal may
be.  A hexadecimal literal has four bits for each of them and a binary one has one; the width is
below `2 ^ 32`. -/
inductive Spells (Digits : ℕ → List Char → ℤ → Prop) : List Char → SExpr → Prop
  | hex {digits : List Char} {n : ℤ} (h : Digits 16 digits n)
      (hwidth : digits.length * 4 < UInt32.size) :
      Spells Digits ('#' :: 'x' :: digits) (.bitVec n (UInt32.ofNat (digits.length * 4)))
  | binary {digits : List Char} {n : ℤ} (h : Digits 2 digits n)
      (hwidth : digits.length * 1 < UInt32.size) :
      Spells Digits ('#' :: 'b' :: digits) (.bitVec n (UInt32.ofNat (digits.length * 1)))
  | int {digits : List Char} (h : isNumeral 10 digits = true) :
      Spells Digits digits (.int (value 10 digits))
  | negativeInt {digits : List Char} (h : isNumeral 10 digits = true) :
      Spells Digits ('-' :: digits) (.int (-(value 10 digits : ℤ)))
  | decimal {whole frac : List Char} (hwhole : isNumeral 10 whole = true)
      (hfrac : isNumeral 10 frac = true) :
      Spells Digits (whole ++ '.' :: frac)
        (.decimal (mkRat (value 10 (whole ++ frac)) (weight 10 frac.length)))
  | negativeDecimal {whole frac : List Char} (hwhole : isNumeral 10 whole = true)
      (hfrac : isNumeral 10 frac = true) :
      Spells Digits ('-' :: (whole ++ '.' :: frac))
        (.decimal (-mkRat (value 10 (whole ++ frac)) (weight 10 frac.length)))

/-- What a word stands for: the number that it spells, or else the symbol that it is. -/
def StandsFor (Digits : ℕ → List Char → ℤ → Prop) (word : List Char) (tree : SExpr) : Prop :=
  Spells Digits word tree ∨ (∀ t, ¬ Spells Digits word t) ∧ tree = .symbol (String.ofList word)

/-- Whether the word is a literal with a sign or an underscore among its digits. -/
def IsLoose (word : List Char) : Prop :=
  (∃ n width, Spells IsLenient word (.bitVec n width)) ∧ ∃ c ∈ word, c = '_' ∨ c = '+' ∨ c = '-'

/-- A word spells no symbol. -/
theorem not_spells_symbol {Digits : ℕ → List Char → ℤ → Prop} {word : List Char} {name : String} :
    ¬ Spells Digits word (.symbol name) := by
  generalize htree : SExpr.symbol name = tree
  intro h
  cases h <;> exact absurd htree (by simp)

/-! ## Reading follows the lenient grammar -/

theorem grouped?_eq_some_iff {base : ℕ} {digits : List Char} {n : ℕ} (hbase : base ≤ 36) :
    grouped? base digits = some n ↔ IsGrouped base digits n := by
  cases digits with
  | nil => simp [grouped?, IsGrouped]
  | cons c rest =>
    have hfilter : isDigit base c = true →
        (c :: rest).filter (fun d => decide (d ≠ '_')) =
          c :: rest.filter (fun d => decide (d ≠ '_')) :=
      fun hc => List.filter_cons_of_pos (decide_eq_true (ne_of_isDigit hbase hc rfl))
    rw [grouped?]
    constructor
    · intro h
      split at h
      · next hdigits =>
        simp only [Bool.and_eq_true, List.all_eq_true, Bool.or_eq_true, decide_eq_true_eq]
          at hdigits
        refine ⟨⟨c, rfl, hdigits.1⟩, ?_, ?_⟩
        · rw [List.forall_mem_cons]
          exact ⟨Or.inr hdigits.1, hdigits.2⟩
        · rw [hfilter hdigits.1]
          exact (Option.some.inj h).symm
      · exact absurd h (by simp)
    · rintro ⟨⟨d, hd, hdigit⟩, hrest, rfl⟩
      obtain rfl : c = d := Option.some.inj hd
      rw [hfilter hdigit, if_pos]
      simp only [Bool.and_eq_true, List.all_eq_true, Bool.or_eq_true, decide_eq_true_eq]
      exact ⟨hdigit, fun e he => hrest e (List.mem_cons_of_mem c he)⟩

theorem signedGrouped?_eq_some_iff {base : ℕ} {digits : List Char} {n : ℤ} (hbase : base ≤ 36) :
    signedGrouped? base digits = some n ↔ IsLenient base digits n := by
  -- grouped digits start with a digit, so with neither sign
  have hne : ∀ {c d : Char} {rest : List Char} {m : ℕ}, digitOf d = 36 →
      IsGrouped base (c :: rest) m → c ≠ d := by
    rintro c d rest m hd ⟨⟨e, he, hdigit⟩, -⟩
    obtain rfl : c = e := Option.some.inj he
    exact ne_of_isDigit hbase hdigit hd
  constructor
  · intro h
    cases digits with
    | nil => exact absurd h (by simp [signedGrouped?])
    | cons c rest =>
      rw [signedGrouped?] at h
      split at h
      · next hc =>
        obtain ⟨m, hm, rfl⟩ := Option.map_eq_some_iff.1 h
        obtain ⟨k, hk, hkm⟩ := Option.bind_eq_some_iff.1 hm
        obtain rfl := Option.some.inj hkm
        rw [hc]
        exact .minus ((grouped?_eq_some_iff hbase).1 hk)
      · split at h
        · next hc =>
          obtain ⟨m, hm, rfl⟩ := Option.map_eq_some_iff.1 h
          rw [hc]
          exact .plus ((grouped?_eq_some_iff hbase).1 hm)
        · obtain ⟨m, hm, rfl⟩ := Option.map_eq_some_iff.1 h
          exact .unsigned ((grouped?_eq_some_iff hbase).1 hm)
  · intro h
    cases h with
    | @unsigned _ m h =>
      cases digits with
      | nil => exact absurd h.1 (by simp)
      | cons c rest =>
        rw [signedGrouped?, if_neg (hne rfl h), if_neg (hne rfl h),
          (grouped?_eq_some_iff hbase).2 h]
        rfl
    | @plus rest m h =>
      rw [signedGrouped?, if_neg (by decide), if_pos rfl, (grouped?_eq_some_iff hbase).2 h]
      rfl
    | @minus rest m h =>
      rw [signedGrouped?, if_pos rfl, (grouped?_eq_some_iff hbase).2 h]
      rfl

theorem literal?_eq_some_iff {base bits : ℕ} {digits : List Char} {tree : SExpr}
    (hbase : base ≤ 36) :
    literal? base bits digits = some tree ↔ ∃ n, IsLenient base digits n ∧
      digits.length * bits < UInt32.size ∧
      tree = .bitVec n (UInt32.ofNat (digits.length * bits)) := by
  constructor
  · intro h
    obtain ⟨n, hn, h⟩ := Option.bind_eq_some_iff.1 h
    dsimp only at h
    split at h
    · next hwidth =>
      exact ⟨n, (signedGrouped?_eq_some_iff hbase).1 hn, hwidth, (Option.some.inj h).symm⟩
    · exact absurd h (by simp)
  · rintro ⟨n, hn, hwidth, rfl⟩
    exact literal?_of_signedGrouped? ((signedGrouped?_eq_some_iff hbase).2 hn) hwidth

theorem spells_of_bitVec? {word : List Char} {tree : SExpr} (h : bitVec? word = some tree) :
    Spells IsLenient word tree := by
  unfold bitVec? at h
  split at h
  · obtain ⟨n, hn, hwidth, rfl⟩ := (literal?_eq_some_iff (by omega)).1 h
    exact .hex hn hwidth
  · obtain ⟨n, hn, hwidth, rfl⟩ := (literal?_eq_some_iff (by omega)).1 h
    exact .binary hn hwidth
  · exact absurd h (by simp)

theorem spells_of_int? {word : List Char} {n : ℤ} (h : int? word = some n) :
    Spells IsLenient word (.int n) := by
  have hread : ∀ {digits : List Char} {m : ℕ}, read? 10 digits = some m →
      isNumeral 10 digits = true ∧ m = value 10 digits := by
    intro digits m hm
    rw [read?] at hm
    split at hm
    · next hnum => exact ⟨hnum, (Option.some.inj hm).symm⟩
    · exact absurd hm (by simp)
  by_cases hminus : word.head? = some '-'
  · obtain ⟨digits, rfl⟩ := List.head?_eq_some_iff.1 hminus
    rw [int?_neg] at h
    obtain ⟨m, hm, rfl⟩ := Option.map_eq_some_iff.1 h
    obtain ⟨hnum, rfl⟩ := hread hm
    exact .negativeInt hnum
  · rw [int?_of_head?_ne hminus] at h
    obtain ⟨m, hm, rfl⟩ := Option.map_eq_some_iff.1 h
    obtain ⟨hnum, rfl⟩ := hread hm
    exact .int hnum

theorem spells_of_decimal {word : List Char} {q : ℚ} (h : Decimal.read? word = some q) :
    Spells IsLenient word (.decimal q) := by
  unfold Decimal.read? at h
  split at h
  · obtain ⟨p, hp, rfl⟩ := Option.map_eq_some_iff.1 h
    obtain ⟨whole, frac, hwhole, hfrac, rfl, rfl⟩ := Decimal.readUnsigned?_eq_some_iff.1 hp
    exact .negativeDecimal hwhole hfrac
  · obtain ⟨whole, frac, hwhole, hfrac, rfl, rfl⟩ := Decimal.readUnsigned?_eq_some_iff.1 h
    exact .decimal hwhole hfrac

/-- A word that spells a number is read as the number. -/
theorem classify_of_spells {word : List Char} {tree : SExpr} (h : Spells IsLenient word tree) :
    classify word = tree := by
  cases h with
  | hex h hwidth =>
    have hlit := (literal?_eq_some_iff (by omega)).2 ⟨_, h, hwidth, rfl⟩
    rw [classify, bitVec?, hlit]
  | binary h hwidth =>
    have hlit := (literal?_eq_some_iff (by omega)).2 ⟨_, h, hwidth, rfl⟩
    rw [classify, bitVec?, hlit]
  | int h =>
    refine classify_of_int (head?_ne_of_isNumeral (by omega) h rfl) ?_
    rw [int?_of_head?_ne (head?_ne_of_isNumeral (by omega) h rfl), read?, if_pos h]
    rfl
  | negativeInt h =>
    refine classify_of_int (fun hhead => absurd (Option.some.inj hhead) (by decide)) ?_
    rw [int?_neg, read?, if_pos h]
    rfl
  | decimal hwhole hfrac =>
    refine classify_of_decimal ?_
    rw [Decimal.read?_of_head?_ne, Decimal.readUnsigned?_eq_some_iff]
    · exact ⟨_, _, hwhole, hfrac, rfl, rfl⟩
    · rw [List.head?_append_of_ne_nil _ (isNumeral_iff.1 hwhole).1]
      exact head?_ne_of_isNumeral (by omega) hwhole rfl
  | negativeDecimal hwhole hfrac =>
    refine classify_of_decimal ?_
    rw [Decimal.read?_neg,
      Decimal.readUnsigned?_eq_some_iff.2 ⟨_, _, hwhole, hfrac, rfl, rfl⟩]
    rfl

/-- A word is read as a number that it spells, or as a symbol. -/
theorem spells_classify_or (word : List Char) :
    Spells IsLenient word (classify word) ∨ classify word = .symbol (String.ofList word) := by
  rw [classify]
  split
  · next hlit => exact Or.inl (spells_of_bitVec? hlit)
  · split
    · next hint => exact Or.inl (spells_of_int? hint)
    · split
      · next hdec => exact Or.inl (spells_of_decimal hdec)
      · exact Or.inr rfl

/-- **Reading follows the lenient grammar.** -/
theorem standsFor_classify_iff {word : List Char} {tree : SExpr} :
    StandsFor IsLenient word tree ↔ classify word = tree := by
  constructor
  · rintro (h | ⟨hnone, rfl⟩)
    · exact classify_of_spells h
    · exact (spells_classify_or word).resolve_left (hnone _)
  · rintro rfl
    rcases spells_classify_or word with h | h
    · exact Or.inl h
    · refine Or.inr ⟨fun t ht => ?_, h⟩
      rw [← classify_of_spells ht, h] at ht
      exact not_spells_symbol ht

/-! ## The grammars compared -/

theorem isLenient_of_isStrict {base : ℕ} {digits : List Char} {n : ℤ} (hbase : base ≤ 36)
    (h : IsStrict base digits n) : IsLenient base digits n := by
  obtain ⟨hnum, rfl⟩ := h
  exact (signedGrouped?_eq_some_iff hbase).1 (signedGrouped?_of_isNumeral hbase hnum)

/-- Lenient digits without a sign and an underscore are strict. -/
theorem isStrict_of_isLenient {base : ℕ} {digits : List Char} {n : ℤ}
    (h : IsLenient base digits n) (hplain : ∀ c ∈ digits, ¬ (c = '_' ∨ c = '+' ∨ c = '-')) :
    IsStrict base digits n := by
  cases h with
  | unsigned h =>
    obtain ⟨⟨c, hc, -⟩, hall, rfl⟩ := h
    have hfilter : digits.filter (fun d => decide (d ≠ '_')) = digits :=
      List.filter_eq_self.2 fun d hd => decide_eq_true fun heq => hplain d hd (Or.inl heq)
    refine ⟨isNumeral_iff.2 ⟨?_, fun d hd => ?_⟩, by rw [hfilter]⟩
    · rintro rfl
      exact absurd hc (by simp)
    · exact (hall d hd).resolve_left fun heq => hplain d hd (Or.inl heq)
  | plus h => exact absurd (Or.inr (Or.inl rfl)) (hplain '+' List.mem_cons_self)
  | minus h => exact absurd (Or.inr (Or.inr rfl)) (hplain '-' List.mem_cons_self)

theorem spells_lenient_of_strict {word : List Char} {tree : SExpr}
    (h : Spells IsStrict word tree) : Spells IsLenient word tree := by
  cases h with
  | hex h hwidth => exact .hex (isLenient_of_isStrict (by omega) h) hwidth
  | binary h hwidth => exact .binary (isLenient_of_isStrict (by omega) h) hwidth
  | int h => exact .int h
  | negativeInt h => exact .negativeInt h
  | decimal hwhole hfrac => exact .decimal hwhole hfrac
  | negativeDecimal hwhole hfrac => exact .negativeDecimal hwhole hfrac

/-- **Where the grammars agree**: on every word that is not loose. -/
theorem spells_strict_iff {word : List Char} {tree : SExpr} (hloose : ¬ IsLoose word) :
    Spells IsStrict word tree ↔ Spells IsLenient word tree := by
  refine ⟨spells_lenient_of_strict, fun h => ?_⟩
  have hplain : ∀ {n : ℤ} {width : UInt32}, Spells IsLenient word (.bitVec n width) →
      ∀ c ∈ word, ¬ (c = '_' ∨ c = '+' ∨ c = '-') :=
    fun hlit c hc hsign => hloose ⟨⟨_, _, hlit⟩, c, hc, hsign⟩
  cases h with
  | hex h hwidth =>
    refine .hex (isStrict_of_isLenient h fun c hc => ?_) hwidth
    exact hplain (.hex h hwidth) c (List.mem_cons_of_mem _ (List.mem_cons_of_mem _ hc))
  | binary h hwidth =>
    refine .binary (isStrict_of_isLenient h fun c hc => ?_) hwidth
    exact hplain (.binary h hwidth) c (List.mem_cons_of_mem _ (List.mem_cons_of_mem _ hc))
  | int h => exact .int h
  | negativeInt h => exact .negativeInt h
  | decimal hwhole hfrac => exact .decimal hwhole hfrac
  | negativeDecimal hwhole hfrac => exact .negativeDecimal hwhole hfrac

/-- A loose word is no literal of the strict grammar. -/
theorem not_spells_strict_of_isLoose {word : List Char} {n : ℤ} {width : UInt32}
    (hloose : IsLoose word) : ¬ Spells IsStrict word (.bitVec n width) := by
  obtain ⟨-, c, hc, hsign⟩ := hloose
  have hdigit : ∀ base ≤ 36, isDigit base c = false := by
    intro base hbase
    rw [Bool.eq_false_iff]
    intro h
    rcases hsign with rfl | rfl | rfl <;> exact ne_of_isDigit hbase h rfl rfl
  have hmem : ∀ {base : ℕ} {opening : Char} {digits : List Char}, base ≤ 36 →
      c ∈ '#' :: opening :: digits → opening = 'x' ∨ opening = 'b' →
      isNumeral base digits ≠ true := by
    intro base opening digits hbase hc hopening hnum
    rcases List.mem_cons.1 hc with rfl | hc
    · exact absurd hsign (by decide)
    rcases List.mem_cons.1 hc with rfl | hc
    · rcases hopening with rfl | rfl <;> exact absurd hsign (by decide)
    · have h := (isNumeral_iff.1 hnum).2 c hc
      rw [hdigit base hbase] at h
      exact absurd h (by decide)
  intro h
  cases h with
  | hex h => exact hmem (by omega) hc (Or.inl rfl) h.1
  | binary h => exact hmem (by omega) hc (Or.inr rfl) h.1

/-- The value of a literal in the strict grammar fits its width, which is not zero. -/
theorem bounds_of_spells_strict {word : List Char} {n : ℤ} {width : UInt32}
    (h : Spells IsStrict word (.bitVec n width)) :
    0 < width.toNat ∧ 0 ≤ n ∧ n < weight 2 width.toNat := by
  have hlit : bitVec? word = some (.bitVec n width) := by
    cases h with
    | hex h hwidth =>
      exact (literal?_eq_some_iff (by omega)).2 ⟨n, isLenient_of_isStrict (by omega) h, hwidth, rfl⟩
    | binary h hwidth =>
      exact (literal?_eq_some_iff (by omega)).2 ⟨n, isLenient_of_isStrict (by omega) h, hwidth, rfl⟩
  have hnonneg : 0 ≤ n := by
    cases h with
    | hex h => exact h.2 ▸ Int.natCast_nonneg _
    | binary h => exact h.2 ▸ Int.natCast_nonneg _
  obtain ⟨m, w, heq, hpos, hlt, -⟩ := eq_of_bitVec? hlit
  obtain ⟨rfl, rfl⟩ := SExpr.bitVec.inj heq
  exact ⟨hpos, hnonneg, hlt⟩

/-- **What a word is read as.**  Every word is read as what it stands for in the lenient grammar.
That is also what it stands for in the strict grammar, exactly if the word is not a literal with a
sign or an underscore among its digits; and a literal of the strict grammar has a value from zero
to `2 ^ width - 1`. -/
theorem classify_eq_iff_standsFor (word : List Char) :
    (∀ tree, classify word = tree ↔ StandsFor IsLenient word tree) ∧
    ((∀ tree, classify word = tree ↔ StandsFor IsStrict word tree) ↔ ¬ IsLoose word) ∧
    ∀ n width, Spells IsStrict word (.bitVec n width) →
      0 < width.toNat ∧ 0 ≤ n ∧ n < weight 2 width.toNat := by
  refine ⟨fun tree => standsFor_classify_iff.symm, ⟨fun h hloose => ?_, fun hloose tree => ?_⟩,
    fun n width => bounds_of_spells_strict⟩
  · obtain ⟨n, width, hlit⟩ := hloose.1
    rcases (h _).1 (classify_of_spells hlit) with hstrict | ⟨-, hsymbol⟩
    · exact not_spells_strict_of_isLoose hloose hstrict
    · exact absurd hsymbol (by simp)
  · rw [← standsFor_classify_iff, StandsFor, StandsFor]
    simp only [spells_strict_iff hloose]

/-- The theorem at a literal of the strict grammar, and at one with a sign in front. -/
theorem classify_eq_iff_standsFor_mixed :
    (Spells IsStrict "#x1F".toList (.bitVec 31 8) ∧
      0 < (8 : UInt32).toNat ∧ (0 : ℤ) ≤ 31 ∧ (31 : ℤ) < weight 2 (8 : UInt32).toNat) ∧
    IsLoose "#b-101".toList ∧ StandsFor IsLenient "#b-101".toList (.bitVec (-5) 4) ∧
      ¬ ∀ tree, classify "#b-101".toList = tree ↔ StandsFor IsStrict "#b-101".toList tree := by
  have hdigits : IsStrict 16 ['1', 'F'] 31 := ⟨by decide, by decide⟩
  have hstrict : Spells IsStrict "#x1F".toList (.bitVec 31 8) := .hex hdigits (by decide)
  have hloose : IsLoose "#b-101".toList :=
    ⟨⟨-5, 4, spells_of_bitVec? (by decide)⟩, '-', by decide, by decide⟩
  exact ⟨⟨hstrict, (classify_eq_iff_standsFor _).2.2 _ _ hstrict⟩, hloose,
    ((classify_eq_iff_standsFor _).1 _).1 (by decide),
    fun h => (classify_eq_iff_standsFor _).2.1.1 h hloose⟩

/-- The word `#x1_0` is no literal of the strict grammar, and is read as the number sixteen. -/
theorem classify_ne_standsFor_strict :
    ¬ ∀ word, (Token.bare word).WellFormed →
      ∀ tree, classify word = tree ↔ StandsFor IsStrict word tree := by
  intro h
  have hplain : "#x1_0".toList.any Token.isDelimiter = false := by decide
  have hword : (Token.bare "#x1_0".toList).WellFormed :=
    ⟨by decide, fun c hc => Bool.eq_false_iff.2 (List.any_eq_false.1 hplain c hc)⟩
  have hread : classify "#x1_0".toList = .bitVec 16 12 := by decide
  have hlenient : Spells IsLenient "#x1_0".toList (.bitVec 16 12) :=
    spells_of_bitVec? (by decide)
  have hloose : IsLoose "#x1_0".toList := ⟨⟨_, _, hlenient⟩, '_', by decide, Or.inl rfl⟩
  rcases (h _ hword _).1 hread with hstrict | ⟨-, hsymbol⟩
  · exact not_spells_strict_of_isLoose hloose hstrict
  · exact absurd hsymbol (by decide)

end Atom
end SmtQuery
