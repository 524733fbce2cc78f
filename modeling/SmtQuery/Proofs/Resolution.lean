import Mathlib
import SmtQuery.Proofs.Reference

/-!
# Which input a reference names

A reference is the letter `s` and a numeral.  The numeral may have zeros in front, and its value has
to be a number that values can have; any other text names nothing.  The inputs are looked up in an
index that is filled one by one, and this comes to the same as going through the list of inputs.

* `NodeId.ofSymbol?_eq_some_iff`: the texts that stand for a number.
* `NodeId.isReference_iff`: the same with the zeros in front told apart.
* `InputIndex.resolve_ofList`: **looking up is scanning.**  A reference names the only input that
  the scan finds, or none, or it is refused with all that the scan finds.
-/

namespace SmtQuery

open Numeral

namespace NodeId

variable {id : NodeId} {reference : String}

/-- Whether the reference is `s` and digits of the value of the number. -/
def IsReference (id : NodeId) (reference : String) : Prop :=
  ∃ digits, reference.toList = 's' :: digits ∧ isNumeral 10 digits = true ∧
    value 10 digits = id.val.toNat

/-- **The texts that stand for a number.**  The number is below `2 ^ 64`, as all numbers of values
are. -/
theorem ofSymbol?_eq_some_iff : ofSymbol? reference = some id ↔ id.IsReference reference := by
  constructor
  · intro h
    rw [ofSymbol?] at h
    split at h
    · next digits htext =>
      obtain ⟨n, hread, h⟩ := Option.bind_eq_some_iff.1 h
      split at h
      · next hlt =>
        rw [read?] at hread
        split at hread
        · next hdigits =>
          refine ⟨digits, htext, hdigits, ?_⟩
          rw [Option.some.inj hread, ← Option.some.inj h]
          exact (UInt64.toNat_ofNat_of_lt' hlt).symm
        · exact absurd hread (by simp)
      · exact absurd h (by simp)
    · exact absurd h (by simp)
  · rintro ⟨digits, htext, hdigits, hvalue⟩
    have hread : read? 10 digits = some id.val.toNat := by
      rw [read?, if_pos hdigits, hvalue]
    rw [ofSymbol?, htext]
    simp only [hread, Option.bind_eq_bind, Option.bind_some]
    rw [if_pos id.val.toNat_lt, UInt64.ofNat_toNat]

/-- **The zeros in front.**  Any number of them may stand between the letter and the digits. -/
theorem isReference_iff : id.IsReference reference ↔ ∃ zeros, reference.toList =
    's' :: (List.replicate zeros '0' ++ Nat.toDigits 10 id.val.toNat) := by
  constructor
  · rintro ⟨digits, htext, hdigits, hvalue⟩
    have hpadded := padded_value hdigits
    rw [padded_eq, hvalue] at hpadded
    exact ⟨_, by rw [htext, ← hpadded]⟩
  · rintro ⟨zeros, htext⟩
    refine ⟨_, htext, ?_, ?_⟩
    · exact isNumeral_replicate_zero (by omega) zeros (isNumeral_toDigits (by omega) (by omega) _)
    · rw [value_replicate_zero, value_toDigits (by omega) (by omega)]

instance (id : NodeId) (reference : String) : Decidable (id.IsReference reference) :=
  decidable_of_iff _ ofSymbol?_eq_some_iff

end NodeId

namespace InputIndex

variable {inputs : List Input} {reference : String}

/-- The inputs that a scan of the list finds, in the order of their declaration. -/
def scan (inputs : List Input) (reference : String) : List Input :=
  inputs.filter fun input => input.id.IsReference reference

theorem scan_of_ofSymbol?_eq_none (h : NodeId.ofSymbol? reference = none) :
    scan inputs reference = [] := by
  rw [scan, List.filter_eq_nil_iff]
  intro input _ hreference
  have hsome := NodeId.ofSymbol?_eq_some_iff.2 (of_decide_eq_true hreference)
  exact absurd (h.symm.trans hsome) (by simp)

/-- Under the number of a reference the index has what a scan finds. -/
theorem scan_of_ofSymbol?_eq_some {id : NodeId} (h : NodeId.ofSymbol? reference = some id) :
    scan inputs reference = (ofList inputs).get id := by
  rw [scan, get_ofList]
  refine List.filter_congr fun input _ => ?_
  rw [decide_eq_decide, ← NodeId.ofSymbol?_eq_some_iff, h, Option.some.injEq]
  exact eq_comm

/-- A reference is resolved by what a scan finds. -/
theorem resolve_eq_scan (inputs : List Input) (reference line : String) :
    (ofList inputs).resolve reference line =
      match scan inputs reference with
      | [] => .ok none
      | [input] => .ok (some input)
      | several => .error (.ambiguousReference reference line (several.map Input.text)) := by
  rw [resolve]
  cases hid : NodeId.ofSymbol? reference with
  | none => rw [scan_of_ofSymbol?_eq_none hid]
  | some id =>
    have hscan : scan inputs reference = (ofList inputs).get id := scan_of_ofSymbol?_eq_some hid
    exact hscan ▸ rfl

/-- **Looking up is scanning.**  A text stands for a number exactly if it is the letter `s`, any
number of zeros and the digits of the number.  For every list of inputs, whatever numbers they
share, a reference names no input if the scan of the list finds none; it names the input that the
scan finds, if that is the only one; and it is refused if the scan finds several, with all of them
in the order of their declaration, the reference and the line. -/
theorem resolve_ofList (inputs : List Input) (reference line : String) :
    (∀ id, NodeId.ofSymbol? reference = some id ↔ ∃ zeros, reference.toList =
      's' :: (List.replicate zeros '0' ++ Nat.toDigits 10 id.val.toNat)) ∧
    ((ofList inputs).resolve reference line = .ok none ↔
      ∀ id, id.IsReference reference → ∀ input ∈ inputs, input.id ≠ id) ∧
    (∀ input, (ofList inputs).resolve reference line = .ok (some input) ↔
      scan inputs reference = [input]) ∧
    ∀ e, (ofList inputs).resolve reference line = .error e ↔
      2 ≤ (scan inputs reference).length ∧
        e = .ambiguousReference reference line ((scan inputs reference).map Input.text) := by
  have hnil : scan inputs reference = [] ↔
      ∀ id, id.IsReference reference → ∀ input ∈ inputs, input.id ≠ id := by
    rw [scan, List.filter_eq_nil_iff]
    constructor
    · rintro h id hid input hinput rfl
      exact h input hinput (decide_eq_true hid)
    · exact fun h input hinput hid => h _ (of_decide_eq_true hid) input hinput rfl
  refine ⟨fun id => NodeId.ofSymbol?_eq_some_iff.trans NodeId.isReference_iff, ?_⟩
  rw [← hnil, resolve_eq_scan]
  -- none found, one, or several
  rcases scan inputs reference with _ | ⟨first, _ | ⟨second, rest⟩⟩
  · simp
  · simp
  · simp [eq_comm]

end InputIndex
end SmtQuery
