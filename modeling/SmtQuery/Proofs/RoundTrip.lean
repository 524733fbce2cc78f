import Mathlib
import SmtQuery.SExpr.Printer
import SmtQuery.Proofs.Tree

/-!
# Printing a tree and reading it again

The reader accepts many spellings of one tree and the printer writes one of them.
Two questions are answered here, both for trees of any size and depth.

* `read_toString_of_wellFormed`: reading undoes printing on every well-formed tree.
* `reread_of_read`: what happens to a tree that was itself read.

## Where the second falls short of the first

A tree that was read is well formed but for one thing.  The digits of a bit-vector
literal may have a minus sign in front, and then the value is negative.  The
printer fills such a value up to the width with the sign counted as a digit, so a
hexadecimal literal holds four bits less than its width says and a value that needs
them is written too wide; and a literal with an index cannot have a sign at all.
`KeepsWidth` says which negative values escape both, and `reread_of_read` shows that
it decides: a tree is read again as itself exactly when every node keeps its width.
-/

namespace SmtQuery

open Numeral

/-! ## Signed digits -/

namespace Numeral

theorem signedPadded_of_neg {base width : ℕ} {n : ℤ} (hn : n < 0) :
    signedPadded base width n = '-' :: padded base (width - 1) n.natAbs :=
  if_pos hn

theorem signedPadded_of_nonneg {base width : ℕ} {n : ℤ} (hn : 0 ≤ n) :
    signedPadded base width n = padded base width n.natAbs :=
  if_neg (not_lt.2 hn)

/-- The sign takes the place of a digit, so a negative number has to fit one place
less. -/
theorem length_signedPadded_of_neg {base width : ℕ} {n : ℤ} (hbase : 1 < base) (hn : n < 0) :
    (signedPadded base width n).length = width ↔ n.natAbs < weight base (width - 1) := by
  have hpadded : (padded base (width - 1) n.natAbs).length = width - 1 ↔
      0 < width - 1 ∧ n.natAbs < weight base (width - 1) := length_padded_eq_iff hbase
  have hlong : width - 1 ≤ (padded base (width - 1) n.natAbs).length := by
    rw [length_padded]
    exact le_max_left _ _
  have hpos : 0 < (padded base (width - 1) n.natAbs).length :=
    List.length_pos_iff.2 (padded_ne_nil _ _ _)
  rw [signedPadded_of_neg hn, List.length_cons]
  constructor
  · intro hlen
    exact (hpadded.1 (by omega)).2
  · intro hfits
    have hwidth : 0 < width - 1 := by
      rcases Nat.eq_zero_or_pos (width - 1) with hzero | hwidth
      · rw [hzero, weight_eq, pow_zero] at hfits
        omega
      · exact hwidth
    have hlen := hpadded.2 ⟨hwidth, hfits⟩
    omega

/-- A number that fits some places needs no more of them, sign included, than one
more. -/
theorem length_signedPadded_le {base width bound : ℕ} {n : ℤ} (hbase : 1 < base)
    (hbound : 0 < bound) (hwidth : width ≤ bound) (hn : n.natAbs < weight base bound) :
    (signedPadded base width n).length ≤ bound + 1 := by
  have hdigits : (Nat.toDigits base n.natAbs).length ≤ bound :=
    (Nat.length_toDigits_le_iff hbase hbound).2 hn
  rw [signedPadded]
  split
  · rw [List.length_cons, length_padded]
    omega
  · rw [length_padded]
    omega

end Numeral

/-- Padding and sign are read back. -/
theorem Atom.signedGrouped?_signedPadded {base : ℕ} (h1 : 1 < base) (h16 : base ≤ 16)
    (width : ℕ) (n : ℤ) : Atom.signedGrouped? base (signedPadded base width n) = some n := by
  have hnum := isNumeral_padded h1 h16
  rcases lt_or_ge n 0 with hn | hn
  · rw [signedPadded_of_neg hn, signedGrouped?_neg (by omega) (hnum _ _), value_padded h1 h16,
      Int.ofNat_natAbs_of_nonpos hn.le, neg_neg]
  · rw [signedPadded_of_nonneg hn, signedGrouped?_of_isNumeral (by omega) (hnum _ _),
      value_padded h1 h16, Int.natAbs_of_nonneg hn]

theorem Token.isDelimiter_signedPadded {base : ℕ} (h1 : 1 < base) (h16 : base ≤ 16)
    (width : ℕ) (n : ℤ) : ∀ c ∈ signedPadded base width n, Token.isDelimiter c = false := by
  have hnum := fun width => isNumeral_padded h1 h16 width n.natAbs
  rw [signedPadded]
  split
  · exact isDelimiter_cons rfl (isDelimiter_of_isNumeral (by omega) (hnum _))
  · exact isDelimiter_of_isNumeral (by omega) (hnum _)

namespace SExpr

/-! ## Nodes that are printed and read again -/

/-- Whether a node of a tree is well formed: a symbol has no bar, a bit-vector is
an unsigned value of its width, and a list does not spell a number. -/
def WellFormed : SExpr → Prop
  | symbol name => '|' ∉ name.toList
  | bitVec n width => 0 < width.toNat ∧ 0 ≤ n ∧ n < weight 2 width.toNat
  | list items => fold items = list items
  | string _ | int _ | decimal _ | float _ => True

/-- Whether the printer keeps the width of a bit-vector.  It always does for a value
that is not negative. -/
def KeepsWidth : SExpr → Prop
  | bitVec n width => n < 0 → width.toNat ≤ maxPaddedWidth ∧
      (width.toNat % 4 = 0 → n.natAbs < weight 16 (width.toNat / 4 - 1))
  | symbol _ | string _ | int _ | decimal _ | float _ | list _ => True

theorem WellFormed.readable {tree : SExpr} (h : tree.WellFormed) : tree.Readable := by
  cases tree with
  | symbol name => exact h
  | string text => trivial
  | int n => trivial
  | bitVec n width =>
    have hpos : 0 < weight 2 (width.toNat - 1) := Nat.two_pow_pos _
    exact ⟨h.1, h.2.2, by have := h.2.1; omega⟩
  | decimal q => trivial
  | float x => trivial
  | list items => exact h

theorem WellFormed.keepsWidth {tree : SExpr} (h : tree.WellFormed) : tree.KeepsWidth := by
  cases tree with
  | bitVec n width => exact fun hn => absurd h.2.1 (not_le.2 hn)
  | symbol name => trivial
  | string text => trivial
  | int n => trivial
  | decimal q => trivial
  | float x => trivial
  | list items => trivial

/-! ## Bit-vectors -/

theorem bitVec_eq_iff {n : ℤ} {k : ℕ} {width : UInt32} (hk : k < UInt32.size) :
    bitVec n (UInt32.ofNat k) = bitVec n width ↔ k = width.toNat := by
  constructor
  · intro h
    rw [← (bitVec.inj h).2, UInt32.toNat_ofNat_of_lt' hk]
  · intro h
    rw [h, UInt32.ofNat_toNat]

/-- A bit-vector that fits its width has as many binary digits, a sign counted as one of them. -/
theorem length_signedPadded_two {n : ℤ} {width : UInt32} (h : (bitVec n width).Readable) :
    (signedPadded 2 width.toNat n).length = width.toNat := by
  obtain ⟨hwidth, hlt, hgt⟩ := h
  rcases lt_or_ge n 0 with hn | hn
  · exact (length_signedPadded_of_neg (by omega) hn).2 (by omega)
  · rw [signedPadded_of_nonneg hn]
    exact (length_padded_eq_iff (by omega)).2 ⟨hwidth, by omega⟩

/-- A bit-vector that fits its width has a binary literal. -/
theorem isLexeme_of_readable {n : ℤ} {width : UInt32} (h : (bitVec n width).Readable) :
    Form.IsLexeme ('#' :: 'b' :: signedPadded 2 width.toNat n) (bitVec n width) := by
  have hlength := length_signedPadded_two h
  have hlex := Form.isLexeme_binary (Token.isDelimiter_signedPadded (by omega) (by omega) _ _)
    (Atom.signedGrouped?_signedPadded (by omega) (by omega) width.toNat n)
    (by rw [hlength, Nat.mul_one]; exact width.toNat_lt)
  rwa [hlength, Nat.mul_one, UInt32.ofNat_toNat] at hlex

/-- A value without a sign keeps its width in every spelling. -/
theorem reads_bitVecForm_of_nonneg {n : ℤ} {width : UInt32} (hwidth : 0 < width.toNat)
    (hn : 0 ≤ n) (hlt : n < weight 2 width.toNat) :
    (bitVecForm n width.toNat).Reads (bitVec n width) := by
  have hsize : width.toNat < UInt32.size := width.toNat_lt
  obtain ⟨m, rfl⟩ := Int.eq_ofNat_of_zero_le hn
  have hm : m < weight 2 width.toNat := Int.ofNat_lt.1 hlt
  rw [bitVecForm]
  split
  · have h := Form.reads_indexedBitVec hwidth hsize hm
    rwa [UInt32.ofNat_toNat] at h
  split
  · next hfour =>
    -- four bits to a digit, so the digits are a quarter of the width
    have hquarter : weight 2 width.toNat = weight 16 (width.toNat / 4) := by
      rw [weight_eq, weight_eq, show (16 : ℕ) = 2 ^ 4 from rfl, ← pow_mul,
        Nat.mul_div_cancel' (Nat.dvd_of_mod_eq_zero hfour)]
    have hlen : (padded 16 (width.toNat / 4) m).length = width.toNat / 4 :=
      (length_padded_eq_iff (by omega)).2 ⟨by omega, hquarter ▸ hm⟩
    have hlex := Form.isLexeme_hex (Token.isDelimiter_signedPadded (by omega) (by omega) _ _)
      (Atom.signedGrouped?_signedPadded (by omega) (by omega) (width.toNat / 4) m)
      (by rw [signedPadded_of_nonneg hn, Int.natAbs_natCast, hlen]; omega)
    rw [Form.Reads]
    rwa [signedPadded_of_nonneg hn, Int.natAbs_natCast, hlen,
      Nat.div_mul_cancel (Nat.dvd_of_mod_eq_zero hfour), UInt32.ofNat_toNat] at hlex
  · have h := Form.reads_binary hwidth hsize hm
    rwa [UInt32.ofNat_toNat] at h

/-- **What becomes of a negative value.**  It is always read as something, and as
itself exactly when it keeps its width. -/
theorem reads_bitVecForm_of_neg {n : ℤ} {width : UInt32} (hwidth : 0 < width.toNat)
    (hn : n < 0) (hgt : -(weight 2 (width.toNat - 1) : ℤ) < n) :
    ∃ tree, (bitVecForm n width.toNat).Reads tree ∧
      (tree = bitVec n width ↔ (bitVec n width).KeepsWidth) := by
  have hkeeps : (bitVec n width).KeepsWidth ↔ width.toNat ≤ maxPaddedWidth ∧
      (width.toNat % 4 = 0 → n.natAbs < weight 16 (width.toNat / 4 - 1)) :=
    ⟨fun h => h hn, fun h _ => h⟩
  have habs : n.natAbs < weight 2 (width.toNat - 1) := by omega
  have hmono : weight 2 (width.toNat - 1) ≤ weight 2 width.toNat :=
    Nat.pow_le_pow_right (by omega) (Nat.sub_le _ _)
  have hbase : weight 2 width.toNat ≤ weight 16 width.toNat := Nat.pow_le_pow_left (by omega) _
  rw [hkeeps, bitVecForm]
  split
  · next hwide =>
    -- an index has no sign, so the list is not folded
    have hdelim : ∀ c ∈ signed n, Token.isDelimiter c = false := by
      rw [signed, if_pos hn]
      exact Token.isDelimiter_cons rfl (Form.isDelimiter_toDigits _)
    have hnone : number? [symbol "_", symbol (String.ofList ('b' :: 'v' :: signed n)),
        int width.toNat] = none := by
      have hread : read? 10 (signed n) = none := by
        rw [signed, if_pos hn, read?, if_neg]
        intro hnum
        exact absurd ((isNumeral_iff.1 hnum).2 '-' List.mem_cons_self) (by decide)
      rw [number?, if_neg (by decide), if_pos rfl, indexedBitVec?, size?_int width.toNat_lt]
      simp only [String.toList_ofList, hread, Option.bind_eq_bind, Option.bind_some,
        Option.bind_none]
    refine ⟨_, Form.reads_group (Form.readsAll_indexed hdelim width.toNat), ?_⟩
    rw [fold, hnone]
    exact iff_of_false (by simp) fun h => absurd h.1 (not_le.2 hwide)
  split
  · next hwide hfour =>
    have hlen : (signedPadded 16 (width.toNat / 4) n).length ≤ width.toNat + 1 :=
      length_signedPadded_le (by omega) hwidth (Nat.div_le_self _ _)
        (habs.trans_le (hmono.trans hbase))
    have hsize : (signedPadded 16 (width.toNat / 4) n).length * 4 < UInt32.size := by
      rw [maxPaddedWidth] at hwide
      rw [UInt32.size]
      omega
    have hlex := Form.isLexeme_hex (Token.isDelimiter_signedPadded (by omega) (by omega) _ _)
      (Atom.signedGrouped?_signedPadded (by omega) (by omega) _ n) hsize
    refine ⟨_, by rw [Form.Reads]; exact hlex, ?_⟩
    rw [bitVec_eq_iff hsize, ← length_signedPadded_of_neg (by omega) hn]
    omega
  · next hwide hfour =>
    have hread : (bitVec n width).Readable := ⟨hwidth, by omega, hgt⟩
    exact ⟨_, by rw [Form.Reads]; exact isLexeme_of_readable hread,
      iff_of_true rfl ⟨not_lt.1 hwide, fun h => absurd h hfour⟩⟩

theorem reads_bitVecForm {n : ℤ} {width : UInt32} (h : (bitVec n width).Readable) :
    ∃ tree, (bitVecForm n width.toNat).Reads tree ∧
      (tree = bitVec n width ↔ (bitVec n width).KeepsWidth) := by
  rcases lt_or_ge n 0 with hn | hn
  · exact reads_bitVecForm_of_neg h.1 hn h.2.2
  · exact ⟨_, reads_bitVecForm_of_nonneg h.1 hn h.2.1,
      iff_of_true rfl fun hneg => absurd hn (not_le.2 hneg)⟩

/-! ## Decimals -/

/-- A quotient of numerator and denominator folds into the rational. -/
theorem number?_quotient (q : ℚ) :
    number? [symbol "/", int q.num, int q.den] = some (decimal q) := by
  have hden : ((q.den : ℤ) : ℚ) ≠ 0 := by
    rw [Int.cast_natCast]
    exact Nat.cast_ne_zero.2 q.den_nz
  rw [number?, if_pos rfl, quotient?]
  simp only [rational?, Option.bind_eq_bind, Option.bind_some]
  rw [if_neg hden, Int.cast_natCast, Rat.num_div_den]

theorem reads_decimalForm (q : ℚ) : (decimalForm q).Reads (decimal q) := by
  rw [decimalForm]
  split
  · next hwrite =>
    rw [Form.Reads]
    exact Form.isLexeme_decimal (Decimal.read?_write? hwrite)
  · have hnum : (Form.lexeme (signed q.num)).Reads (int q.num) := by
      rw [Form.Reads]
      exact Form.isLexeme_signed q.num
    have hslash : (Form.word "/").Reads (symbol "/") := Form.reads_word (by decide)
    have h := Form.reads_group (Form.readsAll_cons hslash
      (Form.readsAll_cons hnum (Form.readsAll_cons (Form.reads_nat q.den) Form.readsAll_nil)))
    rwa [fold_of_number? (number?_quotient q)] at h

/-! ## Trees -/

/-- If each item is read as something, the list is; and the items come back exactly
when each of them does. -/
theorem readsAll_forms : ∀ {items : List SExpr},
    (∀ t ∈ items, ∃ t', t.form.Reads t' ∧ (t' = t ↔ t.Everywhere KeepsWidth)) →
    ∃ trees, Form.ReadsAll (forms items) trees ∧
      (trees = items ↔ ∀ t ∈ items, t.Everywhere KeepsWidth)
  | [], _ => by
    rw [forms]
    exact ⟨[], Form.readsAll_nil, iff_of_true rfl fun t ht => absurd ht List.not_mem_nil⟩
  | tree :: rest, h => by
    obtain ⟨tree', hreads, hsame⟩ := h tree List.mem_cons_self
    obtain ⟨trees, hrest, hsames⟩ := readsAll_forms fun t ht => h t (List.mem_cons_of_mem _ ht)
    rw [forms]
    refine ⟨tree' :: trees, Form.readsAll_cons hreads hrest, ?_⟩
    rw [List.cons_eq_cons, hsame, hsames, List.forall_mem_cons]

/-- **The form of a readable tree is read as something**, and as the tree itself
exactly when every node keeps its width. -/
theorem reads_form {tree : SExpr} (h : tree.Everywhere Readable) :
    ∃ tree', tree.form.Reads tree' ∧ (tree' = tree ↔ tree.Everywhere KeepsWidth) := by
  induction h with
  | @intro tree here deeper ih =>
    cases tree with
    | symbol name =>
      refine ⟨_, ?_, iff_of_true rfl (everywhere_leaf rfl trivial)⟩
      rw [form, symbolForm, Form.Reads]
      exact Form.isLexeme_symbolForm here
    | string text =>
      have hlex := Form.isLexeme_string text.toList
      rw [String.ofList_toList] at hlex
      refine ⟨_, ?_, iff_of_true rfl (everywhere_leaf rfl trivial)⟩
      rw [form, Form.Reads]
      exact hlex
    | int n =>
      refine ⟨_, ?_, iff_of_true rfl (everywhere_leaf rfl trivial)⟩
      rw [form, Form.Reads]
      exact Form.isLexeme_signed n
    | bitVec n width =>
      obtain ⟨tree', hreads, hsame⟩ := reads_bitVecForm here
      rw [form]
      exact ⟨tree', hreads, hsame.trans ⟨everywhere_leaf rfl, Everywhere.here⟩⟩
    | decimal q =>
      rw [form]
      exact ⟨_, reads_decimalForm q, iff_of_true rfl (everywhere_leaf rfl trivial)⟩
    | float x =>
      rw [form, floatForm]
      exact ⟨_, Form.reads_floatFields_self x, iff_of_true rfl (everywhere_leaf rfl trivial)⟩
    | list items =>
      obtain ⟨trees, hreads, hsame⟩ := readsAll_forms ih
      have hnone : number? items = none := (fold_eq_list_iff.1 here).2
      rw [form]
      refine ⟨_, Form.reads_group hreads, ?_⟩
      rw [fold_eq_list_iff]
      constructor
      · rintro ⟨rfl, -⟩
        exact everywhere_list trivial (hsame.1 rfl)
      · intro hkeeps
        have htrees := hsame.2 fun t ht => hkeeps.of_mem ht
        exact ⟨htrees, htrees ▸ hnone⟩

/-- **Reading undoes printing.**  A tree of any size and depth is read back from its
text if every node of it is well formed. -/
theorem read_toString_of_wellFormed {tree : SExpr} (h : tree.Everywhere WellFormed) :
    read (toString tree) = .ok tree := by
  obtain ⟨tree', hreads, hsame⟩ := reads_form (h.mono fun _ => WellFormed.readable)
  have htree := hsame.2 (h.mono fun _ => WellFormed.keepsWidth)
  exact read_toString (htree ▸ hreads)

/-- A tree with a name that needs bars, a name that looks like a number, quotes in a
string, a wide bit-vector, a quotient and a not-a-number with a payload. -/
theorem read_toString_of_wellFormed_mixed :
    let tree := list [symbol "a (b", symbol "-12", string "say \"hi\"", list [],
      bitVec 12345 300, bitVec 10 12, decimal (-7 / 3), float ⟨.single, 0xffc00001⟩]
    tree.Everywhere WellFormed ∧ read (toString tree) = .ok tree := by
  have h : (list [symbol "a (b", symbol "-12", string "say \"hi\"", list [],
      bitVec 12345 300, bitVec 10 12, decimal (-7 / 3),
      float ⟨.single, 0xffc00001⟩]).Everywhere WellFormed := by
    refine everywhere_list rfl ?_
    simp only [List.forall_mem_cons]
    have hparen : '|' ∉ "a (b".toList := by decide
    have hminus : '|' ∉ "-12".toList := by decide
    have hwide : ((12345 : ℕ) : ℤ) < weight 2 (300 : UInt32).toNat :=
      Int.ofNat_lt.2 (fitsWidth_iff.1 rfl)
    exact ⟨everywhere_leaf rfl hparen, everywhere_leaf rfl hminus,
      everywhere_leaf rfl trivial, everywhere_leaf rfl rfl,
      everywhere_leaf rfl ⟨by decide, by decide, hwide⟩,
      everywhere_leaf rfl ⟨by decide, by decide, by decide⟩,
      everywhere_leaf rfl trivial, everywhere_leaf rfl trivial,
      fun _ ht => absurd ht List.not_mem_nil⟩
  exact ⟨h, read_toString_of_wellFormed h⟩

/-- **What becomes of a tree that was read.**  Its text can be read again, and gives
the tree back exactly when every negative bit-vector in it keeps its width. -/
theorem reread_of_read {line : String} {tree : SExpr} (h : read line = .ok tree) :
    ∃ tree', read (toString tree) = .ok tree' ∧ (tree' = tree ↔ tree.Everywhere KeepsWidth) := by
  obtain ⟨tree', hreads, hsame⟩ := reads_form (everywhere_of_readChars h)
  exact ⟨tree', read_toString hreads, hsame⟩

/-- One underscore is lost and one literal widened, so the list is not read again as
itself. -/
theorem reread_of_read_mixed :
    read "(f #x1_0 #b-101)" = .ok (list [symbol "f", bitVec 16 12, bitVec (-5) 4]) ∧
      ∃ tree', read (toString (list [symbol "f", bitVec 16 12, bitVec (-5) 4])) = .ok tree' ∧
        (tree' = list [symbol "f", bitVec 16 12, bitVec (-5) 4] ↔
          (list [symbol "f", bitVec 16 12, bitVec (-5) 4]).Everywhere KeepsWidth) := by
  have h : read "(f #x1_0 #b-101)" = .ok (list [symbol "f", bitVec 16 12, bitVec (-5) 4]) := by
    cbv
  exact ⟨h, reread_of_read h⟩

/-- A negative literal of width four is read again at width eight. -/
theorem reread_ne_of_negative :
    read "#b-101" = .ok (bitVec (-5) 4) ∧
      read (toString (bitVec (-5) 4)) = .ok (bitVec (-5) 8) ∧
      read (toString (bitVec (-5) 4)) ≠ .ok (bitVec (-5) 4) :=
  ⟨by cbv, by cbv, by decide_cbv⟩

end SExpr
end SmtQuery
