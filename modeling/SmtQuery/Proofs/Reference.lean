import Mathlib
import SmtQuery.Input
import SmtQuery.Proofs.Numeral

/-!
# References and the inputs they name

A reference is written as a symbol and read as a number, and the number is looked up
among the inputs.  This file follows one reference all the way.

* `NodeId.ofSymbol?_symbol`: the symbol of a number gives the number back.
* `InputIndex.get_ofList`: the index holds, under each number, the inputs with that number in the
  order of their declaration.
* `InputIndex.resolve_symbol`: where all numbers differ, the symbol of an input names this input.
-/

namespace SmtQuery

namespace NodeId

/-- The symbol of a number gives the number back. -/
theorem ofSymbol?_symbol (id : NodeId) : ofSymbol? id.symbol = some id := by
  have hread : Numeral.read? 10 (Nat.toDigits 10 id.val.toNat) = some id.val.toNat :=
    Numeral.read?_toDigits (by omega) (by omega) _
  rw [ofSymbol?, symbol, String.toList_ofList]
  simp only [hread, Option.bind_eq_bind, Option.bind_some]
  rw [if_pos id.val.toNat_lt, UInt64.ofNat_toNat]

/-- Two numbers have two symbols. -/
theorem symbol_injective : Function.Injective symbol := by
  intro a b h
  have hsome : some a = some b := by
    rw [← ofSymbol?_symbol a, ← ofSymbol?_symbol b, h]
  exact Option.some.inj hsome

end NodeId

namespace InputIndex

/-- An input is added behind those that have its number. -/
theorem get_insert (index : InputIndex) (input : Input) (id : NodeId) :
    (index.insert input).get id = index.get id ++ if input.id = id then [input] else [] := by
  rw [get, get, insert, Std.HashMap.getD_alter]
  by_cases hid : input.id = id
  · rw [if_pos (beq_iff_eq.2 hid), if_pos hid, hid, Option.getD_some,
      Std.HashMap.getD_eq_getD_getElem?]
  · rw [if_neg fun h => hid (beq_iff_eq.1 h), if_neg hid, List.append_nil]

/-- Adding several inputs adds, under each number, those that have it. -/
theorem get_foldl_insert (inputs : List Input) (index : InputIndex) (id : NodeId) :
    (inputs.foldl insert index).get id =
      index.get id ++ inputs.filter fun input => input.id = id := by
  induction inputs generalizing index with
  | nil => rw [List.foldl_nil, List.filter_nil, List.append_nil]
  | cons input inputs ih =>
    rw [List.foldl_cons, ih, get_insert, List.append_assoc, List.filter_cons]
    by_cases hid : input.id = id
    · rw [if_pos hid, if_pos (decide_eq_true hid), List.singleton_append]
    · rw [if_neg hid, if_neg (by simpa using hid), List.nil_append]

/-- **What the index holds under a number.** -/
theorem get_ofList (inputs : List Input) (id : NodeId) :
    (ofList inputs).get id = inputs.filter fun input => input.id = id := by
  rw [ofList, get_foldl_insert, get, Std.HashMap.getD_empty, List.nil_append]

/-- Where all numbers differ, an input is the only one with its number. -/
theorem filter_id_eq_singleton {inputs : List Input} (hids : (inputs.map Input.id).Nodup)
    {input : Input} (h : input ∈ inputs) :
    (inputs.filter fun other => other.id = input.id) = [input] := by
  induction inputs with
  | nil => exact absurd h List.not_mem_nil
  | cons first rest ih =>
    rw [List.map_cons, List.nodup_cons] at hids
    rw [List.filter_cons]
    rcases List.mem_cons.1 h with rfl | h
    · have hrest : (rest.filter fun other => other.id = input.id) = [] := by
        rw [List.filter_eq_nil_iff]
        intro other hother heq
        exact hids.1 (of_decide_eq_true heq ▸ List.mem_map_of_mem hother)
      rw [if_pos (decide_eq_true rfl), hrest]
    · have hne : first.id ≠ input.id := fun heq => hids.1 (heq ▸ List.mem_map_of_mem h)
      rw [if_neg (by simpa using hne), ih hids.2 h]

/-- **The symbol of an input names the input.** -/
theorem resolve_symbol {inputs : List Input} (hids : (inputs.map Input.id).Nodup)
    {input : Input} (h : input ∈ inputs) (line : String) :
    (ofList inputs).resolve input.id.symbol line = .ok (some input) := by
  rw [resolve, NodeId.ofSymbol?_symbol]
  simp only [get_ofList, filter_id_eq_singleton hids h]

end InputIndex
end SmtQuery
