import Mathlib
import SmtQuery.Proofs.Wrapper

/-!
# The order of the rules

The rules are tried in a fixed order, and the first one that knows a tree decides what becomes of
it.  The order is a choice without consequences: a tree has one shape, nearly every shape is known
to one rule, and where two rules know a tree they make the same of it.

* `Rule.Knows`: which rule knows which trees, at which kind.
* `Rule.Knows.eq_or`: **at most one rule knows a tree**, but for the two that take decimals.
* `Rule.first_eq_of_mem`: so the first rule that knows a tree stands for all that do.
* `decodeWith_of_perm`: **the rules in any order** decode every value to the same.

## Why decimals are known twice

A decimal is kept as a real whatever the kind of the input, so the rule that does this knows it at
the kind of the reals as well.  There the rule for reals knows it too, and both keep the same
number.
-/

namespace SmtQuery
namespace Rule

variable {kind : Kind} {tree : SExpr} {rule other : Rule} {rules rules' : List Rule}

/-! ## Which rule knows which trees -/

/-- The trees that a rule has something to say about, by shape and kind. -/
inductive Knows : Rule → Kind → SExpr → Prop
  | numeral {kind : Kind} (hkind : kind.isIntegral) (n : ℤ) : Knows integer kind (.int n)
  | literal {kind : Kind} (hkind : kind.isIntegral) (n : ℤ) (width : UInt32) :
    Knows integer kind (.bitVec n width)
  | wholeReal (n : ℤ) : Knows real .real (.int n)
  | decimalReal (q : ℚ) : Knows real .real (.decimal q)
  | decimal (kind : Kind) (q : ℚ) : Knows realCast kind (.decimal q)
  | symbol (sort : NamedSort) (name : String) : Knows element (.named sort) (.symbol name)
  | double {x : Ieee} (hx : x.precision = .double) : Knows double (.float .double) (.float x)
  | single {x : Ieee} (hx : x.precision = .single) : Knows single (.float .single) (.float x)
  | operand (kind : Kind) (operand : SExpr) (operands : List SExpr) :
    Knows constantFunction kind (.list (.symbol "LAMBDA" :: operand :: operands))

/-- **A rule passes over what it does not know.** -/
theorem knows_of_apply_ne_pass (h : rule.apply kind tree ≠ .pass) : rule.Knows kind tree := by
  unfold apply at h
  cases rule with
  | integer =>
    dsimp only at h
    split at h
    · next hkind =>
      split at h
      · exact .numeral hkind _
      · exact .literal hkind _ _
      · exact absurd rfl h
    · exact absurd rfl h
  | real =>
    dsimp only at h
    split at h
    · next hkind =>
      subst hkind
      split at h
      · exact .decimalReal _
      · exact .wholeReal _
      · exact absurd rfl h
    · exact absurd rfl h
  | realCast =>
    dsimp only at h
    split at h
    · exact .decimal _ _
    · exact absurd rfl h
  | element =>
    dsimp only at h
    split at h
    · exact .symbol _ _
    · exact absurd rfl h
  | double =>
    dsimp only at h
    split at h
    · split at h
      · next hx => exact hx.1 ▸ .double hx.2
      · exact absurd rfl h
    · exact absurd rfl h
  | single =>
    dsimp only at h
    split at h
    · split at h
      · next hx => exact hx.1 ▸ .single hx.2
      · exact absurd rfl h
    · exact absurd rfl h
  | constantFunction =>
    dsimp only at h
    split at h
    · next head operand operands =>
      split at h
      · next hlambda =>
        rw [SExpr.eq_symbol_of_isSymbol hlambda]
        exact .operand _ _ _
      · exact absurd rfl h
    · exact absurd rfl h

/-- **At most one rule knows a tree**, except that two know a decimal at the kind of the reals. -/
theorem Knows.eq_or (h : rule.Knows kind tree) (hother : other.Knows kind tree) :
    rule = other ∨ ∃ q, kind = .real ∧ tree = .decimal q ∧
      (rule = real ∧ other = realCast ∨ rule = realCast ∧ other = real) := by
  cases h with
  | numeral hkind n =>
    cases hother with
    | numeral => exact Or.inl rfl
    | wholeReal => exact absurd hkind Bool.false_ne_true
  | literal => cases hother; exact Or.inl rfl
  | wholeReal n =>
    cases hother with
    | numeral hkind => exact absurd hkind Bool.false_ne_true
    | wholeReal => exact Or.inl rfl
  | decimalReal q =>
    cases hother with
    | decimalReal => exact Or.inl rfl
    | decimal => exact Or.inr ⟨q, rfl, rfl, Or.inl ⟨rfl, rfl⟩⟩
  | decimal kind q =>
    cases hother with
    | decimalReal => exact Or.inr ⟨q, rfl, rfl, Or.inr ⟨rfl, rfl⟩⟩
    | decimal => exact Or.inl rfl
  | symbol => cases hother; exact Or.inl rfl
  | double => cases hother; exact Or.inl rfl
  | single => cases hother; exact Or.inl rfl
  | operand => cases hother; exact Or.inl rfl

/-- Two rules that both know a tree make the same of it. -/
theorem apply_eq_of_ne_pass (h : rule.apply kind tree ≠ .pass)
    (hother : other.apply kind tree ≠ .pass) : rule.apply kind tree = other.apply kind tree := by
  rcases (knows_of_apply_ne_pass h).eq_or (knows_of_apply_ne_pass hother) with
    rfl | ⟨q, rfl, rfl, ⟨rfl, rfl⟩ | ⟨rfl, rfl⟩⟩
  · rfl
  · rfl
  · rfl

/-! ## The first rule that knows a tree -/

/-- **The first rule stands for all.**  Whichever rule knows the tree, what it makes of it is what
the first one does. -/
theorem first_eq_of_mem (hmem : rule ∈ rules) (h : rule.apply kind tree ≠ .pass) :
    first rules kind tree = rule.apply kind tree := by
  induction rules with
  | nil => exact absurd hmem List.not_mem_nil
  | cons head rules ih =>
    rw [first]
    split
    · next hpass =>
      rcases List.mem_cons.1 hmem with rfl | hmem
      · exact absurd hpass h
      · exact ih hmem
    · next hhead => exact apply_eq_of_ne_pass hhead h

theorem first_eq_pass (h : ∀ rule ∈ rules, rule.apply kind tree = .pass) :
    first rules kind tree = .pass := by
  induction rules with
  | nil => rfl
  | cons head rules ih =>
    rw [first, h head List.mem_cons_self]
    exact ih fun rule hrule => h rule (List.mem_cons_of_mem head hrule)

/-- Only the members of the list matter, not where they stand or how often. -/
theorem first_congr (h : ∀ rule, rule ∈ rules ↔ rule ∈ rules') (kind : Kind) (tree : SExpr) :
    first rules kind tree = first rules' kind tree := by
  by_cases hknown : ∃ rule ∈ rules, rule.apply kind tree ≠ .pass
  · obtain ⟨rule, hmem, hrule⟩ := hknown
    rw [first_eq_of_mem hmem hrule, first_eq_of_mem ((h rule).1 hmem) hrule]
  · push Not at hknown
    rw [first_eq_pass hknown, first_eq_pass fun rule hmem => hknown rule ((h rule).2 hmem)]

end Rule

/-! ## Round after round -/

/-- Lists with the same rules decode alike, by induction on the rounds: each of them starts with the
whole list again. -/
theorem decodeWith_congr {rules rules' : List Rule} (h : ∀ rule, rule ∈ rules ↔ rule ∈ rules')
    (kind : Kind) (tree : SExpr) : decodeWith rules kind tree = decodeWith rules' kind tree := by
  have hsame (tree : SExpr) := Rule.first_congr h kind tree
  induction tree using decodeWith.induct rules kind with
  | case1 tree hfirst => rw [decodeWith, hfirst, decodeWith, ← hsame, hfirst]
  | case2 tree value hfirst => rw [decodeWith, hfirst, decodeWith, ← hsame, hfirst]
  | case3 tree reason hfirst => rw [decodeWith, hfirst, decodeWith, ← hsame, hfirst]
  | case4 tree part smaller hfirst ih =>
    rw [decodeWith, hfirst, decodeWith, ← hsame, hfirst]
    exact ih

/-- **The order of the rules does not matter.**  For every kind and every value, the rules in any
order decode the value to the same, however often they start again inside it.  For at most one rule
knows a tree at a kind; the only two that know the same one are the two that take decimals, at the
kind of the reals, and they claim the same constant. -/
theorem decodeWith_of_perm (kind : Kind) (tree : SExpr) :
    (∀ rules : List Rule, rules.Perm Rule.all →
      decodeWith rules kind tree = decode kind tree) ∧
    ∀ rule other : Rule, rule ≠ other →
      (rule.apply kind tree ≠ .pass ∧ other.apply kind tree ≠ .pass ↔
        ∃ q, kind = .real ∧ tree = .decimal q ∧
          (rule = .real ∧ other = .realCast ∨ rule = .realCast ∧ other = .real) ∧
          rule.apply kind tree = .claim (.real q) ∧ other.apply kind tree = .claim (.real q)) := by
  refine ⟨fun rules h => decodeWith_congr (fun rule => h.mem_iff) kind tree,
    fun rule other hne => ⟨?_, ?_⟩⟩
  · rintro ⟨hrule, hother⟩
    have hknows := Rule.knows_of_apply_ne_pass hrule
    rcases hknows.eq_or (Rule.knows_of_apply_ne_pass hother) with rfl | ⟨q, rfl, rfl, hrules⟩
    · exact absurd rfl hne
    · refine ⟨q, rfl, rfl, hrules, ?_⟩
      rcases hrules with ⟨rfl, rfl⟩ | ⟨rfl, rfl⟩
      · exact ⟨rfl, rfl⟩
      · exact ⟨rfl, rfl⟩
  · rintro ⟨q, -, -, -, hrule, hother⟩
    exact ⟨by simp [hrule], by simp [hother]⟩

/-- The rules from the last to the first, at a decimal in an ascription in a constant function. -/
theorem decodeWith_of_perm_reverse :
    let tree : SExpr := .list [.symbol "LAMBDA", .list [],
      .list [.symbol "as", .decimal (5 / 2), .symbol "Real"]]
    Rule.all.reverse.Perm Rule.all ∧
      decodeWith Rule.all.reverse .real tree = .value (.real (5 / 2)) := by
  intro tree
  have hperm : Rule.all.reverse.Perm Rule.all := List.reverse_perm _
  have hapart : Wrapper.Apart [.constantFunction [.list []], .ascription (.symbol "Real")]
      (.decimal (5 / 2)) := by
    refine ⟨?_, trivial⟩
    rintro ⟨value, sort, heq⟩
    exact absurd heq (by simp [Wrapper.wrap])
  refine ⟨hperm, ?_⟩
  calc decodeWith Rule.all.reverse .real tree = decode .real tree :=
        (decodeWith_of_perm .real tree).1 _ hperm
    _ = decode .real (.decimal (5 / 2)) := decode_wrap hapart
    _ = .value (.real (5 / 2)) := decode_of_claim rfl

end SmtQuery
