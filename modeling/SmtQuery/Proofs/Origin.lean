import Mathlib
import SmtQuery.Problem.Program
import SmtQuery.Proofs.Reference

/-!
# Generated symbols

Four things have symbols that no user chose: values, the functions behind dependent inputs,
tables and arrays.  Each symbol is a number between two fixed texts, and the texts tell the four
apart.  So two things have the same symbol only if they are of one sort and have the same number
(`Origin.symbol_injective`), and a name that a user chose is none of these symbols unless it has
the shape of one (`Symbol.isReserved_symbol`).
-/

namespace SmtQuery

/-- What a generated symbol stands for. -/
inductive Origin where
  | value (id : NodeId)
  /-- The function behind the dependent input with the given number. -/
  | skolem (id : NodeId)
  | table (id : ℕ)
  | array (id : ℕ)
  deriving DecidableEq

namespace Origin

/-- The texts in front of the number and behind it. -/
def frame : Origin → String × String
  | value _ => ("s", "")
  | skolem _ => ("s", "_skolem")
  | table _ => ("table", "")
  | array _ => ("array_", "")

/-- The number in the symbol. -/
def number : Origin → ℕ
  | value id | skolem id => id.val.toNat
  | table id | array id => id

/-- The generated symbol. -/
def symbol (origin : Origin) : String :=
  String.ofList (origin.frame.1.toList ++ Nat.toDigits 10 origin.number ++ origin.frame.2.toList)

theorem toList_symbol (origin : Origin) : origin.symbol.toList =
    origin.frame.1.toList ++ Nat.toDigits 10 origin.number ++ origin.frame.2.toList := by
  rw [symbol, String.toList_ofList]

/-! ## The symbols in a query -/

theorem symbol_value (id : NodeId) : (value id).symbol = id.symbol := by
  simp [symbol, frame, number, NodeId.symbol]

theorem symbol_skolem (input : Input) : (skolem input.id).symbol = input.skolemSymbol := by
  apply String.toList_inj.1
  simp [toList_symbol, frame, number, Input.id, Input.skolemSymbol, Ref.symbol, NodeId.symbol]

theorem symbol_table (t : Table) : (table t.id).symbol = t.symbol := by
  have htext : t.symbol = "table" ++ t.id.repr := rfl
  apply String.toList_inj.1
  simp [toList_symbol, frame, number, htext]

theorem symbol_array (a : ArrayDecl) : (array a.id).symbol = a.symbol := by
  have htext : a.symbol = "array_" ++ a.id.repr := rfl
  apply String.toList_inj.1
  simp [toList_symbol, frame, number, htext]

/-! ## Two symbols -/

theorem toDigits_injective : Function.Injective (Nat.toDigits 10) := by
  intro m n h
  calc m = Nat.ofDigitChars 10 (Nat.toDigits 10 m) 0 := Nat.ofDigitChars_ten_toDigits.symm
    _ = Nat.ofDigitChars 10 (Nat.toDigits 10 n) 0 := by rw [h]
    _ = n := Nat.ofDigitChars_ten_toDigits

/-- A numeral is no numeral followed by an underscore. -/
theorem toDigits_ne_append {m n : ℕ} {tail : List Char} :
    Nat.toDigits 10 m ≠ Nat.toDigits 10 n ++ '_' :: tail := by
  intro h
  have hmem : '_' ∈ Nat.toDigits 10 m := by
    rw [h]
    exact List.mem_append_right _ List.mem_cons_self
  exact absurd (Numeral.isDigit_of_mem_toDigits (by omega) (by omega) hmem)
    (by decide : ¬ Numeral.isDigit 10 '_' = true)

/-- The texts around the numbers are the same in symbols that are the same. -/
theorem frame_eq_of_symbol {a b : Origin} (h : a.symbol = b.symbol) : a.frame = b.frame := by
  have htext := congrArg String.toList h
  rw [toList_symbol, toList_symbol] at htext
  -- two texts differ in the first letter, or a word follows one of the numbers
  cases a <;> cases b <;>
    simp [frame, number, toDigits_ne_append, toDigits_ne_append.symm] at htext ⊢

/-- Texts and number determine what a symbol stands for. -/
theorem eq_of_frame {a b : Origin} (hframe : a.frame = b.frame) (hnumber : a.number = b.number) :
    a = b := by
  have hids : ∀ i j : NodeId, i.val.toNat = j.val.toNat ↔ i = j := by
    rintro ⟨i⟩ ⟨j⟩
    rw [NodeId.mk.injEq, UInt64.toNat_inj]
  cases a <;> cases b <;> simp_all [frame, number]

/-- **A symbol stands for one thing.** -/
theorem symbol_injective : Function.Injective symbol := by
  intro a b h
  have hframe := frame_eq_of_symbol h
  have htext := congrArg String.toList h
  rw [toList_symbol, toList_symbol, hframe, List.append_left_inj, List.append_right_inj] at htext
  exact eq_of_frame hframe (toDigits_injective htext)

end Origin

/-! ## Names of the user's choice -/

namespace Symbol

/-- Whether a name has the shape of a generated symbol: a numeral between the texts around the
number in one. -/
def IsReserved (name : String) : Prop :=
  ∃ frame ∈ [("s", ""), ("s", "_skolem"), ("table", ""), ("array_", "")], ∃ digits,
    Numeral.isNumeral 10 digits ∧ name.toList = frame.1.toList ++ digits ++ frame.2.toList

/-- Every generated symbol has the shape of one. -/
theorem isReserved_symbol (origin : Origin) : IsReserved origin.symbol := by
  refine ⟨origin.frame, ?_, Nat.toDigits 10 origin.number,
    Numeral.isNumeral_toDigits (by omega) (by omega) _, origin.toList_symbol⟩
  cases origin <;> simp [Origin.frame]

/-- A name that starts with another letter than the generated symbols has not their shape. -/
theorem not_isReserved_of_head {name : String}
    (h : ∀ c ∈ name.toList.head?, c ∉ ['s', 't', 'a']) : ¬ IsReserved name := by
  rintro ⟨frame, hframe, digits, -, htext⟩
  rw [htext] at h
  simp only [List.mem_cons, List.not_mem_nil, or_false] at hframe
  rcases hframe with rfl | rfl | rfl | rfl <;> simp at h

end Symbol
end SmtQuery
