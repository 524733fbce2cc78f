import Mathlib
import SmtQuery.Proofs.Derivation

/-!
# Spellings of a bit pattern

A bit-vector is printed with one digit for every bit or four bits, or as a decimal number with its
width as an index.  A floating-point value is printed by its three fields, or as the conversion of
its whole pattern, and a few values have names; and each bit-vector in it can be printed in any of
the ways in which bit-vectors are.  So one pattern has many spellings, and all of them are read as
the same tree.

* `Ieee.Special.ofName?_eq_some_iff`: the names, as they are written and as they are read.
* `BitVecSpelling.writes`: a bit-vector in any of its spellings.
* `Ieee.Spelling.writes`: a floating-point value in any of its spellings, which contain those of
  bit-vectors.
* `Ieee.readAs_of_spelling`: **all spellings of a pattern are read as the pattern.**

## Patterns and fields

A spelling by fields and one by the whole pattern agree because the fields of a pattern put together
are the pattern again, which is `Ieee.ofFields_fields`.  A named value is given by its fields as
well: `Ieee.Special.fields` says what the standard has for it.
-/

namespace SmtQuery

open Numeral Atom

variable {tokens : List Token}

/-! ## Names -/

namespace Ieee.Special

/-- **The names of the special values.** -/
def names : List (String × Special) :=
  [("NaN", .nan), ("+oo", .infinity false), ("-oo", .infinity true), ("+zero", .zero false),
    ("-zero", .zero true)]

/-- These are the names that are written. -/
theorem mem_names_iff {name : String} {special : Special} :
    (name, special) ∈ names ↔ name = special.name := by
  rcases special with _ | (_ | _) | (_ | _) <;> simp [names, Special.name]

/-- And these are the names that are read. -/
theorem ofName?_eq_some_iff {name : String} {special : Special} :
    ofName? name = some special ↔ (name, special) ∈ names := by
  rw [mem_names_iff]
  constructor
  · intro h
    have hfound := List.find?_some h
    exact (of_decide_eq_true hfound).symm
  · rintro rfl
    rcases special with _ | (_ | _) | (_ | _) <;> decide

end Ieee.Special

/-! ## Bit-vectors -/

/-- The spellings of a bit-vector.  A literal has just as many digits as the width has room for, in
either case; the number in an index may have zeros in front. -/
inductive BitVecSpelling (width n : ℕ) : List Token → Prop
  | binary {digits : List Char} (h : IsStrict 2 digits n) (hwidth : digits.length * 1 = width) :
      BitVecSpelling width n [.bare ('#' :: 'b' :: digits)]
  | hex {digits : List Char} (h : IsStrict 16 digits n) (hwidth : digits.length * 4 = width) :
      BitVecSpelling width n [.bare ('#' :: 'x' :: digits)]
  | indexed {digits index : List Char} (h : IsStrict 10 digits n)
      (hwidth : IsStrict 10 index width) :
      BitVecSpelling width n
        (Token.group [[.word "_"], [.bare ('b' :: 'v' :: digits)], [.bare index]])

theorem writes_of_isStrict {digits : List Char} {n : ℕ} (h : IsStrict 10 digits n) :
    Writes [.bare digits] (.int n) := by
  rw [h.2]
  exact writes_of_spells (.int h.1)

/-- The word `bvN` is a symbol. -/
theorem writes_bv {digits : List Char} (h : isNumeral 10 digits = true) :
    Writes [.bare ('b' :: 'v' :: digits)] (.symbol (String.ofList ('b' :: 'v' :: digits))) := by
  have hword : (Token.bare ('b' :: 'v' :: digits)).WellFormed :=
    ⟨List.cons_ne_nil _ _, Token.isDelimiter_cons rfl (Token.isDelimiter_cons rfl
      (Token.isDelimiter_of_isNumeral (by omega) h))⟩
  exact writes_bare hword (classify_cons (by decide) (by decide) (by decide))

/-- **A bit-vector in any of its spellings.** -/
theorem BitVecSpelling.writes {width n : ℕ} (h : BitVecSpelling width n tokens) (hpos : 0 < width)
    (hsize : width < UInt32.size) (hn : n < weight 2 width) :
    Writes tokens (.bitVec n (UInt32.ofNat width)) := by
  cases h with
  | binary h hwidth =>
    subst hwidth
    exact writes_of_spells (.binary h hsize)
  | hex h hwidth =>
    subst hwidth
    exact writes_of_spells (.hex h hsize)
  | @indexed digits index h hwidth =>
    have hread : read? 10 digits = some n := by
      rw [read?, if_pos h.1, Int.ofNat_inj.1 h.2]
    have hunderscore : Writes [.word "_"] (.symbol "_") := writes_word (by decide)
    have hlist := writes_group (.cons hunderscore (.cons (writes_bv h.1)
      (.cons (writes_of_isStrict hwidth) .nil)))
    rwa [SExpr.fold_of_number? (SExpr.number?_indexedBitVec hread hpos hsize hn)] at hlist

/-! ### Every bit-vector has these spellings -/

section

variable {width n : ℕ}

theorem bitVecSpelling_binary (hpos : 0 < width) (hn : n < 2 ^ width) :
    BitVecSpelling width n [.bare ('#' :: 'b' :: padded 2 width n)] := by
  refine .binary ⟨isNumeral_padded (by omega) (by omega) _ _, ?_⟩ ?_
  · rw [value_padded (by omega) (by omega)]
  · rw [mul_one]
    exact (length_padded_eq_iff (by omega)).2 ⟨hpos, hn⟩

theorem bitVecSpelling_hex (hpos : 0 < width) (hn : n < 2 ^ width) (hdvd : 4 ∣ width) :
    BitVecSpelling width n [.bare ('#' :: 'x' :: padded 16 (width / 4) n)] := by
  obtain ⟨digits, rfl⟩ := hdvd
  have hdigits : n < 16 ^ digits := by
    rwa [pow_mul] at hn
  rw [Nat.mul_div_cancel_left _ (by omega)]
  refine .hex ⟨isNumeral_padded (by omega) (by omega) _ _, ?_⟩ ?_
  · rw [value_padded (by omega) (by omega)]
  · rw [(length_padded_eq_iff (by omega)).2 ⟨by omega, hdigits⟩, Nat.mul_comm]

theorem bitVecSpelling_indexed (width n zeros : ℕ) :
    BitVecSpelling width n (Token.group [[.word "_"],
      [.bare ('b' :: 'v' :: (List.replicate zeros '0' ++ Nat.toDigits 10 n))],
      [.bare (Nat.toDigits 10 width)]]) := by
  refine .indexed ⟨?_, ?_⟩ ⟨isNumeral_toDigits (by omega) (by omega) _, ?_⟩
  · exact isNumeral_replicate_zero (by omega) zeros (isNumeral_toDigits (by omega) (by omega) n)
  · rw [value_replicate_zero, value_toDigits (by omega) (by omega)]
  · rw [value_toDigits (by omega) (by omega)]

end

/-! ## Floating-point values -/

namespace SExpr

theorem size?_exponentBits (p : Precision) : size? (int p.exponentBits) = some p.exponentBits := by
  cases p <;> rfl

theorem size?_significandBits (p : Precision) :
    size? (int p.significandBits) = some p.significandBits := by
  cases p <;> rfl

/-- The head of a conversion is no number. -/
theorem fold_conversion (e s : ℕ) : fold [symbol "_", symbol "to_fp", int e, int s] =
    list [symbol "_", symbol "to_fp", int e, int s] := by
  rw [fold_eq_list_iff]
  refine ⟨rfl, ?_⟩
  have hname : Ieee.Special.ofName? "to_fp" = none := by decide
  rw [number?, if_pos rfl, indexedFloat?]
  simp [hname]

/-- The whole pattern of a value, converted. -/
theorem number?_conversion (x : Ieee) {width : UInt32} (hwidth : width.toNat = x.precision.width) :
    number? [list [symbol "_", symbol "to_fp", int x.precision.exponentBits,
      int x.precision.significandBits], bitVec x.bits.toNat width] = some (float x) := by
  have hsizes : Precision.ofSizes? x.precision.exponentBits x.precision.significandBits =
      some x.precision := x.precision.ofSizes?_self
  have hfield : field? x.precision.width (bitVec x.bits.toNat width) = some x.bits.toNat :=
    field?_bitVec hwidth x.bits.isLt
  rw [number?, pattern?, size?_exponentBits, size?_significandBits]
  simp only [Option.bind_eq_bind, Option.bind_some, hsizes, hfield, and_self, if_true,
    Option.map_some, BitVec.ofNat_toNat, BitVec.setWidth_eq]

/-- A named value. -/
theorem number?_special (p : Precision) {name : String} {special : Ieee.Special}
    (h : (name, special) ∈ Ieee.Special.names) :
    number? [symbol "_", symbol name, int p.exponentBits, int p.significandBits] =
      some (float (Ieee.ofSpecial p special)) := by
  have hname : Ieee.Special.ofName? name = some special := Ieee.Special.ofName?_eq_some_iff.2 h
  have hsizes : Precision.ofSizes? p.exponentBits p.significandBits = some p := p.ofSizes?_self
  rw [number?, if_pos rfl, indexedFloat?, size?_exponentBits, size?_significandBits]
  simp only [Option.bind_eq_bind, Option.bind_some, hsizes, hname, Option.map_some]

end SExpr

namespace Ieee

/-- The sign, the exponent and the fraction of a named value.  An infinity and a NaN have an
exponent of ones; the fraction of the NaN has a one in front, which makes it quiet. -/
def Special.fields (p : Precision) : Special → ℕ × ℕ × ℕ
  | .nan => (0, 2 ^ p.exponentBits - 1, 2 ^ (p.fractionBits - 1))
  | .infinity negative => (negative.toNat, 2 ^ p.exponentBits - 1, 0)
  | .zero negative => (negative.toNat, 0, 0)

/-- The sign, the exponent and the fraction of a pattern. -/
def fields (x : Ieee) : ℕ × ℕ × ℕ := (x.sign, x.exponent, x.fraction)

/-- The spellings of a floating-point value: by its fields, by its whole pattern, and by name. -/
inductive Spelling (x : Ieee) : List Token → Prop
  | fields {sign exponent fraction : List Token} (hsign : BitVecSpelling 1 x.sign sign)
      (hexponent : BitVecSpelling x.precision.exponentBits x.exponent exponent)
      (hfraction : BitVecSpelling x.precision.fractionBits x.fraction fraction) :
      Spelling x (Token.group [[.word "fp"], sign, exponent, fraction])
  | pattern {e s : List Char} {bits : List Token}
      (he : IsStrict 10 e x.precision.exponentBits)
      (hs : IsStrict 10 s x.precision.significandBits)
      (hbits : BitVecSpelling x.precision.width x.bits.toNat bits) :
      Spelling x
        (Token.group [Token.group [[.word "_"], [.word "to_fp"], [.bare e], [.bare s]], bits])
  | special {name : String} {special : Special} {e s : List Char}
      (hname : (name, special) ∈ Special.names) (hfields : x.fields = special.fields x.precision)
      (he : IsStrict 10 e x.precision.exponentBits)
      (hs : IsStrict 10 s x.precision.significandBits) :
      Spelling x (Token.group [[.word "_"], [.word name], [.bare e], [.bare s]])

/-- A pattern is determined by its fields. -/
theorem eq_of_fields {x y : Ieee} (hprecision : x.precision = y.precision)
    (h : x.fields = y.fields) : x = y := by
  obtain ⟨hsign, hrest⟩ := Prod.mk.inj h
  obtain ⟨hexponent, hfraction⟩ := Prod.mk.inj hrest
  calc x = ofFields x.precision x.sign x.exponent x.fraction := x.ofFields_fields.symm
    _ = ofFields y.precision y.sign y.exponent y.fraction := by
      rw [hprecision, hsign, hexponent, hfraction]
    _ = y := y.ofFields_fields

theorem precision_ofSpecial (p : Precision) (special : Special) :
    (ofSpecial p special).precision = p := by
  cases special <;> rfl

/-- The fields of a named value are those of its pattern. -/
theorem fields_ofSpecial (p : Precision) (special : Special) :
    (ofSpecial p special).fields = special.fields p := by
  cases p <;> rcases special with _ | (_ | _) | (_ | _) <;> decide

/-- A pattern with the fields of a named value is this value. -/
theorem eq_ofSpecial {x : Ieee} {special : Special} (h : x.fields = special.fields x.precision) :
    x = ofSpecial x.precision special :=
  eq_of_fields (precision_ofSpecial _ _).symm (h.trans (fields_ofSpecial _ _).symm)

theorem Special.needsBars_of_mem_names {name : String} {special : Special}
    (h : (name, special) ∈ names) : SExpr.needsBars name.toList = false := by
  rw [mem_names_iff.1 h]
  rcases special with _ | (_ | _) | (_ | _) <;> decide

/-- **A floating-point value in any of its spellings.** -/
theorem Spelling.writes {x : Ieee} (h : x.Spelling tokens) : Writes tokens (.float x) := by
  have hunderscore : Writes [.word "_"] (.symbol "_") := writes_word (by decide)
  cases h with
  | fields hsign hexponent hfraction =>
    have hfp : Writes [.word "fp"] (.symbol "fp") := writes_word (by decide)
    have hbits : 0 < x.precision.exponentBits ∧ x.precision.exponentBits < UInt32.size ∧
        0 < x.precision.fractionBits ∧ x.precision.fractionBits < UInt32.size := by
      cases x.precision <;> decide
    obtain ⟨hepos, hesize, hfpos, hfsize⟩ := hbits
    have hlist := writes_group (.cons hfp (.cons (hsign.writes one_pos (by decide) x.sign_lt)
      (.cons (hexponent.writes hepos hesize x.exponent_lt)
        (.cons (hfraction.writes hfpos hfsize x.fraction_lt) .nil))))
    rwa [SExpr.fold_of_number? (SExpr.number?_fields x.precision x.sign_lt x.exponent_lt
      x.fraction_lt rfl (UInt32.toNat_ofNat_of_lt' hesize) (UInt32.toNat_ofNat_of_lt' hfsize)),
      x.ofFields_fields] at hlist
  | pattern he hs hbits =>
    have hconversion : Writes [.word "to_fp"] (.symbol "to_fp") := writes_word (by decide)
    have hwidth : 0 < x.precision.width ∧ x.precision.width < UInt32.size := by
      cases x.precision <;> decide
    have hhead := writes_group (.cons hunderscore (.cons hconversion
      (.cons (writes_of_isStrict he) (.cons (writes_of_isStrict hs) .nil))))
    rw [SExpr.fold_conversion] at hhead
    have hlist := writes_group (.cons hhead
      (.cons (hbits.writes hwidth.1 hwidth.2 x.bits.isLt) .nil))
    rwa [SExpr.fold_of_number? (SExpr.number?_conversion x
      (UInt32.toNat_ofNat_of_lt' hwidth.2))] at hlist
  | special hname hfields he hs =>
    have hlist := writes_group (.cons hunderscore
      (.cons (writes_word (Special.needsBars_of_mem_names hname))
        (.cons (writes_of_isStrict he) (.cons (writes_of_isStrict hs) .nil))))
    rwa [SExpr.fold_of_number? (SExpr.number?_special x.precision hname),
      ← eq_ofSpecial hfields] at hlist

/-- **All spellings of a pattern are read as the pattern.**  A bit-vector of a positive width is
read with its number, whether it is spelled by its binary digits, by its hexadecimal digits in
either case, or by a number with an index and any zeros in front; it has all of these spellings, the
hexadecimal one if four divides the width.  A floating-point value of either precision is read with
exactly its bits, whether it is spelled by its fields or by its whole pattern, each bit-vector in it
in any of these ways, or by one of the five names.  The names are those of the patterns that the
standard has for them, and a NaN is quiet. -/
theorem readAs_of_spelling :
    (∀ (width : UInt32) (n : ℕ), 0 < width.toNat → n < 2 ^ width.toNat →
      (∀ tokens, BitVecSpelling width.toNat n tokens → ReadAs tokens (.bitVec n width)) ∧
      (∃ digits, BitVecSpelling width.toNat n [.bare ('#' :: 'b' :: digits)]) ∧
      (4 ∣ width.toNat → ∃ digits, BitVecSpelling width.toNat n [.bare ('#' :: 'x' :: digits)]) ∧
      ∀ zeros, BitVecSpelling width.toNat n (Token.group [[.word "_"],
        [.bare ('b' :: 'v' :: (List.replicate zeros '0' ++ Nat.toDigits 10 n))],
        [.bare (Nat.toDigits 10 width.toNat)]])) ∧
    (∀ (x : Ieee) (tokens : List Token), x.Spelling tokens → ReadAs tokens (.float x)) ∧
    ∀ (p : Precision) (special : Special), (ofSpecial p special).precision = p ∧
      (ofSpecial p special).fields = special.fields p := by
  refine ⟨fun width n hpos hn => ⟨fun tokens h => ?_, ⟨_, bitVecSpelling_binary hpos hn⟩,
    fun hdvd => ⟨_, bitVecSpelling_hex hpos hn hdvd⟩, bitVecSpelling_indexed width.toNat n⟩,
    fun x tokens h => h.writes.readAs, fun p special =>
    ⟨precision_ofSpecial p special, fields_ofSpecial p special⟩⟩
  have hwrites := h.writes hpos (UInt32.toNat_lt_size _) hn
  rw [UInt32.ofNat_toNat] at hwrites
  exact hwrites.readAs

/-- The theorem at a byte with zeros in front of its number, at the pattern of minus two and a half,
by its fields and as a whole, and at the quiet NaN by name. -/
theorem readAs_of_spelling_mixed :
    let x : Ieee := ⟨.single, 0xC0200000#32⟩
    let nan : Ieee := ⟨.double, 0x7FF8000000000000#64⟩
    let fields := Token.group [[.word "fp"], [.bare ['#', 'b', '1']], [.bare ['#', 'x', '8', '0']],
      Token.group [[.word "_"], [.bare ('b' :: 'v' :: "2097152".toList)], [.bare ['2', '3']]]]
    let pattern := Token.group [Token.group [[.word "_"], [.word "to_fp"], [.bare ['8']],
      [.bare ['2', '4']]], [.bare ('#' :: 'x' :: "c0200000".toList)]]
    (0 < (8 : UInt32).toNat ∧ 128 < 2 ^ (8 : UInt32).toNat ∧
      SExpr.read "(_ bv00128 8)" = .ok (.bitVec 128 8)) ∧
    (x.Spelling fields ∧ SExpr.read "(fp #b1 #x80(_ bv2097152 23))" = .ok (.float x)) ∧
    (x.Spelling pattern ∧
      SExpr.read "((_ to_fp 8 24)  #xc0200000) ; -2.5" = .ok (.float x)) ∧
    nan.fields = Special.nan.fields .double ∧ SExpr.read "(_ NaN 11 53)" = .ok (.float nan) := by
  intro x nan fields pattern
  obtain ⟨hbits, hfloat, -⟩ := readAs_of_spelling
  obtain ⟨hbyte, -, -, hzeros⟩ := hbits 8 128 (by decide) (by decide)
  have hbyteLexes : Token.Lexes "(_ bv00128 8)".toList (Token.group [[.word "_"],
      [.bare ('b' :: 'v' :: (List.replicate 2 '0' ++ Nat.toDigits 10 128))],
      [.bare (Nat.toDigits 10 (8 : UInt32).toNat)]]) := ⟨_, by cbv, by decide⟩
  have hfields : x.Spelling fields := .fields (.binary ⟨by decide, by decide⟩ rfl)
    (.hex ⟨by decide, by decide⟩ rfl) (.indexed ⟨by decide, by decide⟩ ⟨by decide, by decide⟩)
  have hpattern : x.Spelling pattern := .pattern ⟨by decide, by decide⟩ ⟨by decide, by decide⟩
    (.hex ⟨by decide, by decide⟩ rfl)
  have hname : nan.Spelling (Token.group [[.word "_"], [.word "NaN"], [.bare ['1', '1']],
      [.bare ['5', '3']]]) :=
    .special List.mem_cons_self (by decide) ⟨by decide, by decide⟩ ⟨by decide, by decide⟩
  exact ⟨⟨by decide, by decide, (hbyte _ (hzeros 2)).read_eq _ hbyteLexes⟩,
    ⟨hfields, (hfloat x _ hfields).read_eq _ ⟨_, by cbv, by decide⟩⟩,
    ⟨hpattern, (hfloat x _ hpattern).read_eq _ ⟨_, by cbv, by decide⟩⟩,
    by decide, (hfloat nan _ hname).read_eq _ ⟨_, by cbv, by decide⟩⟩

end Ieee
end SmtQuery
