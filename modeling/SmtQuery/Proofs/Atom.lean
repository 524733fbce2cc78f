import Mathlib
import SmtQuery.SExpr.Printer
import SmtQuery.Proofs.Decimal
import SmtQuery.Proofs.Reading

/-!
# What a word stands for

`Atom.classify` tries the numeric forms of a word one after another.  Each section
below is about one form: which words have it, and what the words that are written
for a number are read as.

* `classify_of_int`, `classify_of_decimal`: the first form that fits wins, and a word of a later
  form has none of the earlier ones.
* `eq_of_bitVec?`: what a bit-vector literal can be.  Its digits are read leniently, so the value
  may be negative; then the sign has taken a digit's place.
* `classify_of_not_number`, `of_needsBars`: which words are symbols, and that a symbol that is
  written without bars is one of them.
-/

namespace SmtQuery
namespace Atom

open Numeral

/-! ## Bit-vector literals -/

theorem bitVec?_of_head?_ne {word : List Char} (h : word.head? ≠ some '#') :
    bitVec? word = none := by
  unfold bitVec?
  split
  · exact absurd rfl h
  · exact absurd rfl h
  · rfl

/-- Without underscores the lenient reading of digits is the strict one. -/
theorem grouped?_of_isNumeral {base : ℕ} {digits : List Char} (hbase : base ≤ 36)
    (h : isNumeral base digits = true) : grouped? base digits = some (value base digits) := by
  obtain ⟨hne, hdigits⟩ := isNumeral_iff.1 h
  cases digits with
  | nil => exact absurd rfl hne
  | cons c rest =>
    have hrest : ∀ d ∈ rest, isDigit base d = true :=
      fun d hd => hdigits d (List.mem_cons_of_mem c hd)
    have hall : rest.all (fun d => d = '_' || isDigit base d) = true := by
      rw [List.all_eq_true]
      intro d hd
      rw [hrest d hd, Bool.or_true]
    have hfilter : rest.filter (fun d => decide (d ≠ '_')) = rest := by
      rw [List.filter_eq_self]
      intro d hd
      exact decide_eq_true (ne_of_isDigit hbase (hrest d hd) rfl)
    rw [grouped?, hdigits c List.mem_cons_self, hall, Bool.and_self, if_pos rfl, hfilter]

theorem signedGrouped?_of_isNumeral {base : ℕ} {digits : List Char} (hbase : base ≤ 36)
    (h : isNumeral base digits = true) :
    signedGrouped? base digits = some (value base digits : ℤ) := by
  have hminus : digits.head? ≠ some '-' := head?_ne_of_isNumeral hbase h rfl
  have hplus : digits.head? ≠ some '+' := head?_ne_of_isNumeral hbase h rfl
  cases digits with
  | nil => exact absurd rfl (isNumeral_iff.1 h).1
  | cons c rest =>
    rw [signedGrouped?, if_neg fun he => hminus (congrArg some he),
      if_neg fun he => hplus (congrArg some he), grouped?_of_isNumeral hbase h]
    rfl

theorem signedGrouped?_neg {base : ℕ} {digits : List Char} (hbase : base ≤ 36)
    (h : isNumeral base digits = true) :
    signedGrouped? base ('-' :: digits) = some (-(value base digits : ℤ)) := by
  rw [signedGrouped?, if_pos rfl, grouped?_of_isNumeral hbase h]
  rfl

/-- The lenient reading gives a number that fits the number of characters. -/
theorem lt_of_grouped? {base n : ℕ} {digits : List Char} (hbase : 0 < base)
    (h : grouped? base digits = some n) : n < weight base digits.length ∧ 0 < digits.length := by
  cases digits with
  | nil => exact absurd h (by simp [grouped?])
  | cons c rest =>
    rw [grouped?] at h
    split at h
    · next hdigits =>
      rw [Bool.and_eq_true, List.all_eq_true] at hdigits
      have hall : ∀ d ∈ c :: rest.filter (fun d => decide (d ≠ '_')), isDigit base d = true := by
        intro d hd
        rw [List.mem_cons, List.mem_filter] at hd
        rcases hd with rfl | ⟨hd, hne⟩
        · exact hdigits.1
        · have hor := hdigits.2 d hd
          rw [Bool.or_eq_true, decide_eq_true_eq] at hor
          exact hor.resolve_left (of_decide_eq_true hne)
      have hle : (c :: rest.filter (fun d => decide (d ≠ '_'))).length ≤ (c :: rest).length :=
        Nat.succ_le_succ (List.length_filter_le _ _)
      refine ⟨?_, Nat.succ_pos _⟩
      rw [← Option.some.inj h]
      exact (value_lt_weight hall).trans_le (Nat.pow_le_pow_right hbase hle)
    · exact absurd h (by simp)

/-- A sign in front of the digits takes the place of one of them. -/
theorem bounds_of_signedGrouped? {base : ℕ} {n : ℤ} {digits : List Char} (hbase : 0 < base)
    (h : signedGrouped? base digits = some n) :
    0 < digits.length ∧ n < weight base digits.length ∧
      -(weight base (digits.length - 1) : ℤ) < n := by
  cases digits with
  | nil => exact absurd h (by simp [signedGrouped?])
  | cons c rest =>
    have hgrow : weight base rest.length ≤ weight base (rest.length + 1) :=
      Nat.pow_le_pow_right hbase (Nat.le_succ _)
    have hpos : ∀ k, 0 < weight base k := fun k => Nat.pow_pos hbase
    rw [signedGrouped?] at h
    rw [List.length_cons, Nat.add_sub_cancel]
    refine ⟨Nat.succ_pos _, ?_⟩
    split at h
    · obtain ⟨m, hm, rfl⟩ := Option.map_eq_some_iff.1 h
      obtain ⟨k, hk, hkm⟩ := Option.bind_eq_some_iff.1 hm
      obtain rfl := Option.some.inj hkm
      have hlt := (lt_of_grouped? hbase hk).1
      have := hpos (rest.length + 1)
      omega
    · split at h
      · obtain ⟨m, hm, rfl⟩ := Option.map_eq_some_iff.1 h
        have hlt := (lt_of_grouped? hbase hm).1
        have := hpos rest.length
        rw [Int.ofNat_eq_natCast]
        omega
      · obtain ⟨m, hm, rfl⟩ := Option.map_eq_some_iff.1 h
        have hlt := (lt_of_grouped? hbase hm).1
        rw [List.length_cons] at hlt
        have := hpos rest.length
        rw [Int.ofNat_eq_natCast]
        omega

/-- What a literal is: its width counts every character behind the opening. -/
theorem eq_of_literal? {base bits : ℕ} {digits : List Char} {tree : SExpr}
    (h : literal? base bits digits = some tree) :
    ∃ n width, tree = .bitVec n width ∧ signedGrouped? base digits = some n ∧
      width.toNat = digits.length * bits := by
  rw [literal?] at h
  obtain ⟨n, hn, h⟩ := Option.bind_eq_some_iff.1 h
  dsimp only at h
  split at h
  · next hlt =>
    refine ⟨n, _, (Option.some.inj h).symm, hn, ?_⟩
    exact UInt32.toNat_ofNat_of_lt' hlt
  · exact absurd h (by simp)

theorem literal?_of_signedGrouped? {base bits : ℕ} {digits : List Char} {n : ℤ}
    (h : signedGrouped? base digits = some n) (hwidth : digits.length * bits < UInt32.size) :
    literal? base bits digits = some (.bitVec n (UInt32.ofNat (digits.length * bits))) := by
  rw [literal?, h]
  exact if_pos hwidth

/-- **What a word with a bit-vector form can be.**  The width is positive, and the
value fits it; a negative one fits with the sign in place of a digit. -/
theorem eq_of_bitVec? {word : List Char} {tree : SExpr} (h : bitVec? word = some tree) :
    ∃ (n : ℤ) (width : UInt32), tree = .bitVec n width ∧ 0 < width.toNat ∧
      n < weight 2 width.toNat ∧ -(weight 2 (width.toNat - 1) : ℤ) < n := by
  unfold bitVec? at h
  split at h
  · next digits =>
    obtain ⟨n, width, rfl, hn, hwidth⟩ := eq_of_literal? h
    obtain ⟨hpos, hlt, hgt⟩ := bounds_of_signedGrouped? (by decide) hn
    have hhex : ∀ k, weight 16 k = weight 2 (k * 4) := by
      intro k
      rw [weight_eq, weight_eq, Nat.mul_comm, pow_mul]
      norm_num
    have hle : weight 2 ((digits.length - 1) * 4) ≤ weight 2 (digits.length * 4 - 1) :=
      Nat.pow_le_pow_right (by decide) (by omega)
    refine ⟨n, width, rfl, by omega, ?_, ?_⟩
    · rw [hwidth, ← hhex]
      exact hlt
    · rw [hwidth]
      rw [hhex] at hgt
      omega
  · obtain ⟨n, width, rfl, hn, hwidth⟩ := eq_of_literal? h
    obtain ⟨hpos, hlt, hgt⟩ := bounds_of_signedGrouped? (by decide) hn
    rw [Nat.mul_one] at hwidth
    rw [← hwidth] at hpos hlt hgt
    exact ⟨n, width, rfl, hpos, hlt, hgt⟩
  · exact absurd h (by simp)

/-! ## Integers and decimals -/

theorem int?_neg (digits : List Char) :
    int? ('-' :: digits) = (read? 10 digits).map fun n : ℕ => -(n : ℤ) := by
  rw [int?]
  cases read? 10 digits <;> rfl

theorem int?_of_head?_ne {word : List Char} (h : word.head? ≠ some '-') :
    int? word = (read? 10 word).map Int.ofNat := by
  rw [int?]
  rintro digits rfl
  exact h rfl

theorem head?_toDigits_ne {n : ℕ} {d : Char} (hd : digitOf d = 36) :
    (Nat.toDigits 10 n).head? ≠ some d :=
  head?_ne_of_isNumeral (by omega) (isNumeral_toDigits (by omega) (by omega) n) hd

/-- A written integer is read as itself. -/
theorem int?_signed (n : ℤ) : int? (signed n) = some n := by
  have hread : read? 10 (Nat.toDigits 10 n.natAbs) = some n.natAbs :=
    read?_toDigits (by omega) (by omega) n.natAbs
  rw [signed]
  split
  · next hn =>
    rw [int?_neg, hread, Option.map_some]
    congr 1
    omega
  · next hn =>
    rw [int?_of_head?_ne (head?_toDigits_ne rfl), hread, Option.map_some, Int.ofNat_eq_natCast]
    congr 1
    omega

theorem classify_of_int {word : List Char} {n : ℤ} (hword : word.head? ≠ some '#')
    (h : int? word = some n) : classify word = .int n := by
  rw [classify, bitVec?_of_head?_ne hword, h]

theorem head?_signed_ne (n : ℤ) : (signed n).head? ≠ some '#' := by
  rw [signed]
  split
  · exact fun he => absurd (Option.some.inj he) (by decide)
  · exact head?_toDigits_ne rfl

theorem classify_signed (n : ℤ) : classify (signed n) = .int n :=
  classify_of_int (head?_signed_ne n) (int?_signed n)

/-- A point is not a digit, so a word with a point in it is not an integer. -/
theorem read?_eq_none_of_point {word : List Char} (h : '.' ∈ word) : read? 10 word = none := by
  rw [read?, if_neg]
  intro hnum
  exact ne_of_isDigit (by omega) ((isNumeral_iff.1 hnum).2 '.' h) rfl rfl

/-- The shape of a word that is read as a decimal. -/
theorem exists_of_read? {word : List Char} {q : ℚ} (h : Decimal.read? word = some q) :
    ∃ whole frac, isNumeral 10 whole = true ∧ isNumeral 10 frac = true ∧
      (word = '-' :: (whole ++ '.' :: frac) ∨ word = whole ++ '.' :: frac) := by
  unfold Decimal.read? at h
  split at h
  · next rest =>
    obtain ⟨p, hp, -⟩ := Option.map_eq_some_iff.1 h
    obtain ⟨whole, frac, hwhole, hfrac, rfl, -⟩ := Decimal.readUnsigned?_eq_some_iff.1 hp
    exact ⟨whole, frac, hwhole, hfrac, Or.inl rfl⟩
  · obtain ⟨whole, frac, hwhole, hfrac, rfl, -⟩ := Decimal.readUnsigned?_eq_some_iff.1 h
    exact ⟨whole, frac, hwhole, hfrac, Or.inr rfl⟩

/-- A word that is read as a decimal is no literal and no integer. -/
theorem classify_of_decimal {word : List Char} {q : ℚ} (h : Decimal.read? word = some q) :
    classify word = .decimal q := by
  obtain ⟨whole, frac, hwhole, -, hword⟩ := exists_of_read? h
  have hpoint : '.' ∈ whole ++ '.' :: frac := List.mem_append_right _ List.mem_cons_self
  have hhead : ∀ d, digitOf d = 36 → (whole ++ '.' :: frac).head? ≠ some d := by
    intro d hd
    rw [List.head?_append_of_ne_nil _ (isNumeral_iff.1 hwhole).1]
    exact head?_ne_of_isNumeral (by omega) hwhole hd
  have hint : int? word = none := by
    rcases hword with rfl | rfl
    · rw [int?_neg, read?_eq_none_of_point hpoint]
      rfl
    · rw [int?_of_head?_ne (hhead '-' rfl), read?_eq_none_of_point hpoint]
      rfl
  have hsharp : word.head? ≠ some '#' := by
    rcases hword with rfl | rfl
    · exact fun he => absurd (Option.some.inj he) (by decide)
    · exact hhead '#' rfl
  rw [classify, bitVec?_of_head?_ne hsharp, hint, h]

/-! ## Symbols -/

/-- A word is a symbol if it does not open like a literal, does not start with digits and is
not a number behind a minus sign. -/
theorem classify_of_not_number {word : List Char} (hsharp : word.head? ≠ some '#')
    (hdigits : ∀ whole rest, isNumeral 10 whole = true → word ≠ whole ++ rest)
    (hneg : ∀ whole, isNumeral 10 whole = true → word ≠ '-' :: whole)
    (hnegDecimal : ∀ whole frac, isNumeral 10 whole = true → isNumeral 10 frac = true →
      word ≠ '-' :: (whole ++ '.' :: frac)) :
    classify word = .symbol (String.ofList word) := by
  have hint : int? word = none := by
    by_cases hminus : word.head? = some '-'
    · obtain ⟨digits, rfl⟩ := List.head?_eq_some_iff.1 hminus
      rw [int?_neg, read?, if_neg fun hnum => hneg digits hnum rfl]
      rfl
    · rw [int?_of_head?_ne hminus, read?,
        if_neg fun hnum => hdigits word [] hnum (List.append_nil _).symm]
      rfl
  have hdecimal : Decimal.read? word = none := by
    rw [Option.eq_none_iff_forall_ne_some]
    intro q hq
    obtain ⟨whole, frac, hwhole, hfrac, hword | hword⟩ := exists_of_read? hq
    · exact hnegDecimal whole frac hwhole hfrac hword
    · exact hdigits whole _ hwhole hword
  rw [classify, bitVec?_of_head?_ne hsharp, hint, hdecimal]

/-- A word is a symbol if its first character is no digit, no minus sign and not the one that
opens a literal. -/
theorem classify_cons {c : Char} {rest : List Char} (hdigit : isDigit 10 c = false)
    (hminus : c ≠ '-') (hsharp : c ≠ '#') :
    classify (c :: rest) = .symbol (String.ofList (c :: rest)) := by
  have hneg : ∀ text, c :: rest ≠ '-' :: text :=
    fun _ hword => hminus (List.cons.inj hword).1
  refine classify_of_not_number (fun hhead => hsharp (Option.some.inj hhead)) ?_
    (fun _ _ => hneg _) (fun _ _ _ _ => hneg _)
  rintro (_ | ⟨d, whole⟩) more hwhole hword
  · exact (isNumeral_iff.1 hwhole).1 rfl
  · have hd := (isNumeral_iff.1 hwhole).2 d List.mem_cons_self
    rw [← (List.cons.inj hword).1, hdigit] at hd
    exact absurd hd (by decide)

/-- A word that is read as a symbol is read as the symbol it spells. -/
theorem classify_eq_symbol {word : List Char} (h : (classify word).symbol? ≠ none) :
    classify word = .symbol (String.ofList word) := by
  unfold classify at h ⊢
  split at h
  · next hlit =>
    obtain ⟨n, width, rfl, -⟩ := eq_of_bitVec? hlit
    exact absurd rfl h
  · split at h
    · exact absurd rfl h
    · split at h
      · exact absurd rfl h
      · rfl

/-- A symbol that is written without bars has a character, no delimiter among its
characters, and reads as itself. -/
theorem of_needsBars {name : List Char} (h : SExpr.needsBars name = false) :
    name ≠ [] ∧ (∀ c ∈ name, Token.isDelimiter c = false) ∧
      classify name = .symbol (String.ofList name) := by
  rw [SExpr.needsBars, Bool.or_eq_false_iff, Bool.or_eq_false_iff, List.isEmpty_eq_false_iff,
    List.any_eq_false, Option.isNone_eq_false_iff, Option.isSome_iff_ne_none] at h
  exact ⟨h.1.1, fun c hc => Bool.eq_false_iff.2 (h.1.2 c hc), classify_eq_symbol h.2⟩

end Atom
end SmtQuery
