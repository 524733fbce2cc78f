import Mathlib
import SmtQuery.Command

/-!
# The meaning of terms and commands

Terms are given a meaning by any `Semantics`: a type of values, a domain for each sort, and an
evaluation in an environment that satisfies the laws of the logical core.  The environment
interprets all names, those of operators and those that a script declares, so the laws say
nothing about single operators.  A law about binders is asked for only where the names differ.

`Semantics.HoldsAll` reads a list of commands: a definition changes the environment of the
commands behind it, and an assertion has to hold in the environment it stands in.

That the laws can be met is shown by `Interpretation.semantics`: an interpretation of the
literals and the array operations over any type with two distinct truth values extends to all
terms by recursion.
-/

namespace SmtQuery

/-! ## Environments -/

/-- What stands under each name: a function of the values of any number of operands.  The
value of a constant is that for no operands. -/
abbrev Env (V : Type) := String → List V → V

namespace Env

variable {V : Type} (env : Env V)

/-- Gives a name a meaning. -/
def define (name : String) (meaning : List V → V) : Env V :=
  fun other => if other = name then meaning else env other

/-- Gives a name a value. -/
def set (name : String) (value : V) : Env V := env.define name fun _ => value

/-- Gives several names values, all at once; the first one counts where a name occurs twice. -/
def bind : List (String × V) → Env V
  | [] => env
  | (name, value) :: rest => (bind rest).set name value

theorem set_self (name : String) (value : V) (operands : List V) :
    env.set name value name operands = value := by
  rw [set, define, if_pos rfl]

theorem set_of_ne {name other : String} (h : other ≠ name) (value : V) :
    env.set name value other = env other := by
  rw [set, define, if_neg h]

/-- A name that is not bound keeps its meaning. -/
theorem bind_of_notMem {bindings : List (String × V)} {name : String}
    (h : name ∉ bindings.map Prod.fst) : env.bind bindings name = env name := by
  induction bindings with
  | nil => rfl
  | cons binding bindings ih =>
    rw [List.map_cons, List.mem_cons, not_or] at h
    rw [bind, set_of_ne _ h.1, ih h.2]

/-- A name that is bound once has the value it is bound to. -/
theorem bind_of_mem {bindings : List (String × V)} (hnames : (bindings.map Prod.fst).Nodup)
    {name : String} {value : V} (h : (name, value) ∈ bindings) (operands : List V) :
    env.bind bindings name operands = value := by
  induction bindings with
  | nil => exact absurd h List.not_mem_nil
  | cons binding bindings ih =>
    rw [List.map_cons, List.nodup_cons] at hnames
    rcases List.mem_cons.1 h with rfl | h
    · rw [bind, set_self]
    · have hne : name ≠ binding.1 := by
        rintro rfl
        exact hnames.1 (List.mem_map.2 ⟨_, h, rfl⟩)
      rw [bind, set_of_ne _ hne, ih hnames.2 h]

end Env

/-! ## Terms -/

/-- A semantics of terms.  The laws are those of the logical core: application, parallel
`let`, conjunction, negation, equality, and the universal quantifier over the domains of its
sorts. -/
structure Semantics where
  Value : Type
  /-- The values of a sort. -/
  domain : SmtSort → Set Value
  /-- Whether a value counts as true. -/
  Holds : Value → Prop
  /-- The value of a term. -/
  eval : Env Value → Term → Value
  /-- The one-bit value `1`. -/
  bit : Value
  eval_bit : ∀ env, eval env (.bitVec 1 1) = bit
  eval_const : ∀ env name, eval env (.const name) = env name []
  eval_app : ∀ env name operands, operands ≠ [] →
    eval env (.app name operands) = env name (operands.map (eval env))
  eval_letIn : ∀ env bindings body, (bindings.map Prod.fst).Nodup →
    eval env (.letIn bindings body) =
      eval (env.bind (bindings.map fun b => (b.1, eval env b.2))) body
  holds_and : ∀ env terms, Holds (eval env (.and terms)) ↔ ∀ t ∈ terms, Holds (eval env t)
  holds_not : ∀ env term, Holds (eval env (.not term)) ↔ ¬ Holds (eval env term)
  holds_eq : ∀ env left right, Holds (eval env (.eq left right)) ↔ eval env left = eval env right
  holds_forall : ∀ env binders body, (binders.map Prod.fst).Nodup →
    (Holds (eval env (.quantified .universal binders body)) ↔
      ∀ value : String → Value, (∀ x ∈ binders, value x.1 ∈ domain x.2) →
        Holds (eval (env.bind (binders.map fun x => (x.1, value x.1))) body))

namespace Semantics

variable (σ : Semantics)

theorem holds_conj (env : Env σ.Value) (terms : List Term) :
    σ.Holds (σ.eval env (Term.conj terms)) ↔ ∀ t ∈ terms, σ.Holds (σ.eval env t) := by
  rcases terms with _ | ⟨a, _ | ⟨b, rest⟩⟩
  · exact σ.holds_and env []
  · rw [Term.conj, List.forall_mem_singleton]
  · exact σ.holds_and env (a :: b :: rest)

/-! ## Commands -/

/-- Whether the assertions among the commands hold, each under the definitions in front of
it. -/
def HoldsAll : Env σ.Value → List Command → Prop
  | _, [] => True
  | env, .assert term :: rest => σ.Holds (σ.eval env term) ∧ HoldsAll env rest
  | env, .defineFun name parameters _ body :: rest =>
    HoldsAll (env.define name fun operands =>
      σ.eval (env.bind ((parameters.map Prod.fst).zip operands)) body) rest
  | env, _ :: rest => HoldsAll env rest

/-- A definition without parameters gives the name the value of the term. -/
theorem holdsAll_defineFun (env : Env σ.Value) (name : String) (sort : SmtSort) (body : Term)
    (rest : List Command) : σ.HoldsAll env (.defineFun name [] sort body :: rest) ↔
      σ.HoldsAll (env.set name (σ.eval env body)) rest := by
  rw [HoldsAll]
  rfl

/-- Assertions in a row all hold in one environment. -/
theorem holdsAll_assert (env : Env σ.Value) (terms : List Term) (rest : List Command) :
    σ.HoldsAll env (terms.map Command.assert ++ rest) ↔
      (∀ t ∈ terms, σ.Holds (σ.eval env t)) ∧ σ.HoldsAll env rest := by
  induction terms with
  | nil => simp
  | cons term terms ih =>
    rw [List.map_cons, List.cons_append, HoldsAll, ih, List.forall_mem_cons, and_assoc]

end Semantics

/-! ## Interpretations -/

/-- What a semantics needs besides the laws: values with two that stand for true and false, the
domains of the sorts, the values of literals, and constant arrays.  All other operators are
interpreted by the environment. -/
structure Interpretation where
  Value : Type
  domain : SmtSort → Set Value
  yes : Value
  no : Value
  no_ne_yes : no ≠ yes
  /-- The value of a term that is a literal number. -/
  literal : Term → Value
  constArray : SmtSort → Value → Value

namespace Interpretation

variable (I : Interpretation)

open Classical in
/-- The value of a proposition. -/
noncomputable def truth (P : Prop) : I.Value := if P then I.yes else I.no

theorem truth_eq_yes_iff {P : Prop} : I.truth P = I.yes ↔ P := by
  rw [truth]
  split
  · next h => exact iff_of_true rfl h
  · next h => exact iff_of_false I.no_ne_yes h

open Classical in
mutual

/-- The value of a term. -/
noncomputable def eval : Env I.Value → Term → I.Value
  | _, .bool value => I.truth (value = true)
  | _, .int n => I.literal (.int n)
  | _, .bitVec n width => I.literal (.bitVec n width)
  | _, .real q => I.literal (.real q)
  | _, .special x e s => I.literal (.special x e s)
  | _, .float sign exponent fraction e s => I.literal (.float sign exponent fraction e s)
  | env, .const name => env name []
  | env, .not t => I.truth (¬ eval env t = I.yes)
  | env, .and ts => I.truth (∀ v ∈ evalAll env ts, v = I.yes)
  | env, .or ts => I.truth (∃ v ∈ evalAll env ts, v = I.yes)
  | env, .implies a b => I.truth (eval env a = I.yes → eval env b = I.yes)
  | env, .eq a b => I.truth (eval env a = eval env b)
  | env, .distinct ts => I.truth (evalAll env ts).Nodup
  | env, .ite c a b => if eval env c = I.yes then eval env a else eval env b
  | env, .select a i => env "select" [eval env a, eval env i]
  | env, .store a i v => env "store" [eval env a, eval env i, eval env v]
  | env, .constArray sort v => I.constArray sort (eval env v)
  | env, .quantified .universal binders body =>
    I.truth (∀ value : String → I.Value, (∀ x ∈ binders, value x.1 ∈ I.domain x.2) →
      eval (env.bind (binders.map fun x => (x.1, value x.1))) body = I.yes)
  | env, .quantified .existential binders body =>
    I.truth (∃ value : String → I.Value, (∀ x ∈ binders, value x.1 ∈ I.domain x.2) ∧
      eval (env.bind (binders.map fun x => (x.1, value x.1))) body = I.yes)
  | env, .letIn bindings body => eval (env.bind (evalBindings env bindings)) body
  | env, .app name operands => env name (evalAll env operands)

/-- The values of several terms. -/
noncomputable def evalAll : Env I.Value → List Term → List I.Value
  | _, [] => []
  | env, t :: rest => eval env t :: evalAll env rest

/-- The names of `let` bindings with the values of their terms. -/
noncomputable def evalBindings : Env I.Value → List (String × Term) → List (String × I.Value)
  | _, [] => []
  | env, (name, t) :: rest => (name, eval env t) :: evalBindings env rest

end

theorem evalAll_eq_map (env : Env I.Value) (terms : List Term) :
    I.evalAll env terms = terms.map (I.eval env) := by
  induction terms with
  | nil => rw [evalAll, List.map_nil]
  | cons t terms ih => rw [evalAll, ih, List.map_cons]

theorem evalBindings_eq_map (env : Env I.Value) (bindings : List (String × Term)) :
    I.evalBindings env bindings = bindings.map fun b => (b.1, I.eval env b.2) := by
  induction bindings with
  | nil => rw [evalBindings, List.map_nil]
  | cons b bindings ih => rw [evalBindings, ih, List.map_cons]

/-- **Every interpretation extends to a semantics of all terms.** -/
noncomputable def semantics : Semantics where
  Value := I.Value
  domain := I.domain
  Holds v := v = I.yes
  eval := I.eval
  bit := I.literal (.bitVec 1 1)
  eval_bit env := by rw [eval]
  eval_const env name := by rw [eval]
  eval_app env name operands _ := by rw [eval, evalAll_eq_map]
  eval_letIn env bindings body _ := by rw [eval, evalBindings_eq_map]
  holds_and env terms := by rw [eval, truth_eq_yes_iff, evalAll_eq_map, List.forall_mem_map]
  holds_not env term := by rw [eval, truth_eq_yes_iff]
  holds_eq env left right := by rw [eval, truth_eq_yes_iff]
  holds_forall env binders body _ := by rw [eval, truth_eq_yes_iff]

/-- The integers, with the residues as bit-vectors. -/
def integers : Interpretation where
  Value := ℤ
  domain
    | .bool => {0, 1}
    | .bitVec width => {n | 0 ≤ n ∧ n < Numeral.weight 2 width.toNat}
    | _ => Set.univ
  yes := 1
  no := 0
  no_ne_yes := by decide
  literal
    | .int n => n
    | .bitVec n width => Numeral.wrap width.toNat n
    | _ => 0
  constArray _ value := value

/-- The integers as an environment: sums, the order, and the first operand for any other
name. -/
def integerOperators : Env ℤ := fun name operands =>
  if name = "+" then operands.sum
  else if name = "<" then if operands.getD 0 0 < operands.getD 1 0 then 1 else 0
  else operands.headI

end Interpretation
end SmtQuery
