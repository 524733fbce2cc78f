import Mathlib
import SmtQuery.Proofs.Constant
import SmtQuery.Proofs.Decoding
import SmtQuery.Proofs.Encode

/-!
# Constants that keep their value

A constant of a query is a reference with a value.  The preamble defines the reference as the
literal for the value, and then no model gives it another one.  Only an element of a sort without a
list of elements has no literal; its reference is declared, and a model may give it any value.

Which of the two is written depends on the position that comes with an element and not on its sort.
So what matters is whether the position is there (`Value.IsDefinite`), and not which one it is: the
literal says nothing about it, and the element comes back with the position that its sort gives it
(`Value.located`).

* `Value.Suits`: which values a constant of a kind can have.
* `Value.Suits.decodesTo_term`: the literal for a definite value is read as the value.
* `Problem.constantCommand_pins_iff`: which constants are defined as their value.
-/

namespace SmtQuery

/-! ## Literals -/

/-- Whether the text of a term is read as a tree that has the value at the given kind. -/
def Term.DecodesTo (body : Term) (kind : Kind) (value : Value) : Prop :=
  ∃ tree, SExpr.read (toString body) = .ok tree ∧ decode kind tree = .value value

namespace Value

/-- Whether a constant of the kind can have the value.  Integers are in the range of the kind, and
elements among those that the sort lists, with names that can be read.  Nothing is asked of the
position of an element. -/
inductive Suits : Value → Kind → Prop where
  | int {kind : Kind} {n : ℤ} (hwidth : kind.sort ≠ .bitVec 0) (hnormal : kind.normalize n = n) :
    Suits (.int kind n) kind
  | real (q : ℚ) : Suits (.real q) .real
  | float (x : Ieee) : Suits (.float x) (.float x.precision)
  | element {sort name : String} {elements : List String} {index? : Option ℕ}
    (hmem : name ∈ elements) (hbar : '|' ∉ name.toList) (hneg : ¬ Symbol.IsNegative name.toList) :
    Suits (.element ⟨sort, some elements⟩ name index?) (.named ⟨sort, some elements⟩)

/-- Whether a value says which one it is: an element has a position, and an integer a kind of
integers. -/
def IsDefinite : Value → Prop
  | int kind _ => kind.isIntegral
  | real _ | float _ => True
  | element _ _ index? => index? ≠ none

/-- The value with the position that its sort gives to its element. -/
def located : Value → Value
  | element sort name _ => element sort name (sort.indexOf? name)
  | value => value

/-- The literal does not depend on the position. -/
theorem term_located (value : Value) : value.located.term = value.term := by
  cases value <;> rfl

variable {value : Value} {kind : Kind}

theorem Suits.kind_located (h : value.Suits kind) : value.located.kind = kind := by
  cases h <;> rfl

/-- A definite value that suits a constant is proper, up to the position of its element. -/
theorem Suits.isProper_located (h : value.Suits kind) (hdefinite : value.IsDefinite) :
    value.located.IsProper := by
  cases h with
  | int hwidth hnormal => exact ⟨hdefinite, hwidth, hnormal⟩
  | real q => trivial
  | float x => trivial
  | element hmem hbar hneg =>
    refine ⟨rfl, fun elements helements => ?_, hbar, hneg⟩
    rwa [← Option.some.inj helements]

/-- **The literal for a definite value** is read as the value, up to NaNs. -/
theorem Suits.decodesTo_term (h : value.Suits kind) (hdefinite : value.IsDefinite) :
    value.term.DecodesTo kind value.located.canonical := by
  have hproper := h.isProper_located hdefinite
  have hreads := reads_term hproper
  rw [term_located] at hreads
  have hdecode := decode_tree hproper
  rw [h.kind_located] at hdecode
  exact ⟨_, SExpr.read_toString hreads, hdecode⟩

/-- Only an integer of a kind of integers is read as itself. -/
theorem isIntegral_of_decodesTo {body : Term} {n : ℤ} (h : body.DecodesTo kind (.int kind n)) :
    kind.isIntegral := by
  obtain ⟨tree, -, hdecode⟩ := h
  rcases decodedFrom_of_decodeWith hdecode with ⟨-, hrange⟩ | ⟨q, hvalue, -⟩
  · cases kind with
    | bitVec _ _ | int => rfl
    | real | float _ | named _ => exact False.elim hrange
  · exact absurd hvalue (by simp)

end Value

namespace Problem

/-! ## Commands -/

/-- A constant is defined as its literal, unless its value is an element without a position. -/
theorem constantCommand_eq_defineFun_iff {constant : Ref × Value} {body : Term} :
    constantCommand constant = .defineFun constant.1.symbol [] constant.1.kind.sort body ↔
      body = constant.2.term ∧ ∀ sort name, constant.2 ≠ .element sort name none := by
  obtain ⟨ref, value⟩ := constant
  cases value with
  | element sort name index? =>
    cases index? with
    | none => simp [constantCommand]
    | some i => simp [constantCommand, eq_comm]
  | _ => simp [constantCommand, eq_comm]

/-- A constant is declared or defined in the preamble. -/
theorem constantCommand_mem_preamble {p : Problem} {program : Program} {constant : Ref × Value}
    (hencode : p.encode = .ok program) (hconstant : constant ∈ p.constants) :
    constantCommand constant ∈ program.preamble.commands := by
  obtain ⟨-, sorts, tables, goal, -, -, -, rfl⟩ := encode_eq_ok_iff.1 hencode
  have hmem := List.mem_map_of_mem (f := constantCommand) hconstant
  simp only [declarations, List.mem_append, hmem, true_or, or_true]

/-- **Which constants keep their value.**  In every query that is written, each constant has a
command of its own in the preamble.  The command defines the constant as a term that is read as the
value, up to NaNs and the position of an element, exactly if the value is definite: an integer of a
kind of integers, a real, a floating-point number, or an element that comes with a position. -/
theorem constantCommand_pins_iff {p : Problem} {program : Program} {constant : Ref × Value}
    (hencode : p.encode = .ok program) (hconstant : constant ∈ p.constants)
    (hsuits : constant.2.Suits constant.1.kind) :
    constantCommand constant ∈ program.preamble.commands ∧
    ((∃ body, constantCommand constant =
          .defineFun constant.1.symbol [] constant.1.kind.sort body ∧
        body.DecodesTo constant.1.kind constant.2.located.canonical) ↔ constant.2.IsDefinite) := by
  refine ⟨constantCommand_mem_preamble hencode hconstant, ?_⟩
  simp only [constantCommand_eq_defineFun_iff]
  obtain ⟨ref, value⟩ := constant
  constructor
  · rintro ⟨body, ⟨rfl, hposition⟩, hdecodes⟩
    cases value with
    | int kind n =>
      have hkind : kind = ref.kind := hsuits.kind_located
      rw [← hkind] at hdecodes
      exact Value.isIntegral_of_decodesTo hdecodes
    | real q => trivial
    | float x => trivial
    | element sort name index? => rintro rfl; exact hposition sort name rfl
  · intro hdefinite
    refine ⟨value.term, ⟨rfl, ?_⟩, hsuits.decodesTo_term hdefinite⟩
    rintro sort name rfl
    exact hdefinite rfl

/-- The sort of the elements below. -/
def colorSort : NamedSort := ⟨"Color", some ["R", "G"]⟩

/-- A query with a NaN, an element with its position, and an element without. -/
def paletteQuery : Problem where
  constants := [(⟨⟨0⟩, .float .single⟩, .float ⟨.single, 0x7fc00001⟩),
    (⟨⟨1⟩, .named colorSort⟩, .element colorSort "G" (some 1)),
    (⟨⟨2⟩, .named colorSort⟩, .element colorSort "G" none)]
  assignments := [⟨⟨⟨100⟩, .bitVec false 1⟩, .bitVec 1 1⟩]
  output := ⟨⟨100⟩, .bitVec false 1⟩
  config := .ofSolver .z3

/-- Whether an element suits its sort can be seen from its name. -/
theorem suits_color (index? : Option ℕ) :
    (Value.element colorSort "G" index?).Suits (.named colorSort) :=
  .element (by decide) (by decide) (Symbol.not_isNegative_of_head? (by decide))

/-- The NaN and the element with its position are defined as themselves. -/
theorem constantCommand_pins_iff_paletteQuery : ∃ program, paletteQuery.encode = .ok program ∧
    (∃ body, .defineFun "s0" [] (.float 8 24) body ∈ program.preamble.commands ∧
      body.DecodesTo (.float .single) (.float ⟨.single, 0x7fc00000⟩)) ∧
    ∃ body, .defineFun "s1" [] (.named "Color") body ∈ program.preamble.commands ∧
      body.DecodesTo (.named colorSort) (.element colorSort "G" (some 1)) := by
  refine ⟨_, rfl, ?_, ?_⟩
  · obtain ⟨hmem, hpins⟩ := constantCommand_pins_iff (p := paletteQuery) rfl List.mem_cons_self
      (.float ⟨.single, 0x7fc00001⟩)
    obtain ⟨body, hbody, hdecodes⟩ := hpins.2 trivial
    rw [hbody] at hmem
    exact ⟨body, hmem, hdecodes⟩
  · obtain ⟨hmem, hpins⟩ := constantCommand_pins_iff (p := paletteQuery) rfl
      (List.mem_cons_of_mem _ List.mem_cons_self) (suits_color (some 1))
    obtain ⟨body, hbody, hdecodes⟩ := hpins.2 (by simp [Value.IsDefinite])
    rw [hbody] at hmem
    exact ⟨body, hmem, hdecodes⟩

/-- **A constant can be left free.**  The sort of the constant `s2` lists its elements and the value
is one of them, and still nothing in the preamble defines `s2`: it is declared. -/
theorem declared_constant_paletteQuery : ∃ program constant, paletteQuery.encode = .ok program ∧
    constant ∈ paletteQuery.constants ∧ constant.2.Suits constant.1.kind ∧
    .declareFun constant.1.symbol [] constant.1.kind.sort ∈ program.preamble.commands ∧
    ∀ sort body, .defineFun constant.1.symbol [] sort body ∉ program.preamble.commands := by
  have hconstant : (⟨⟨2⟩, .named colorSort⟩, .element colorSort "G" none) ∈
      paletteQuery.constants :=
    List.mem_cons_of_mem _ (List.mem_cons_of_mem _ List.mem_cons_self)
  refine ⟨_, _, rfl, hconstant, suits_color none, constantCommand_mem_preamble rfl hconstant, ?_⟩
  show ∀ sort body, Command.defineFun "s2" [] sort body ∉
    [.setOption "produce-models" "true", .setLogic "QF_UFFPBV", .declareEnum "Color" ["R", "G"],
      .defineFun "s0" [] (.float 8 24) (.special .nan 8 24),
      .defineFun "s1" [] (.named "Color") (.const "G"), .declareFun "s2" [] (.named "Color"),
      .defineFun "s100" [] (.bitVec 1) (.bitVec 1 1), .assert (.eq (.const "s100") (.bitVec 1 1))]
  simp

end Problem
end SmtQuery
