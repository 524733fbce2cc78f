import SmtQuery.Ieee

/-!
# S-expressions

The tree a line of solver output is read into.  Numbers are leaves whatever
their spelling: a solver may print one third as `(/ 1 3)` and minus five as
`(- 5)`, and the reader folds both into a single leaf.  A bit-vector literal
keeps its width, since the same digits of another width are another value.

Equality is structural, and exact on floating-point leaves: they agree when
their bits do.
-/

namespace SmtQuery

/-- An s-expression with typed leaves. -/
inductive SExpr where
  /-- A symbol, without any bars around it. -/
  | symbol (name : String)
  /-- A string literal, without its quotes. -/
  | string (text : String)
  | int (value : Int)
  /-- A bit-vector literal.  Whatever the reader builds has a width below
  `2 ^ 32`. -/
  | bitVec (value : Int) (width : UInt32)
  /-- A number with a point, or a quotient. -/
  | decimal (value : Rat)
  | float (value : Ieee)
  /-- A parenthesised list, which may be empty. -/
  | list (items : List SExpr)

namespace SExpr

instance : Inhabited SExpr := ⟨.list []⟩

mutual

/-- Whether two trees are the same. -/
def same : SExpr → SExpr → Bool
  | symbol a, symbol b => a = b
  | string a, string b => a = b
  | int a, int b => a = b
  | bitVec a v, bitVec b w => a = b && v = w
  | decimal a, decimal b => a = b
  | float a, float b => a = b
  | list as, list bs => sameAll as bs
  | _, _ => false

/-- Whether two lists of trees are the same, item by item. -/
def sameAll : List SExpr → List SExpr → Bool
  | [], [] => true
  | a :: as, b :: bs => same a b && sameAll as bs
  | _, _ => false

end

mutual

theorem same_self : ∀ a : SExpr, same a a = true
  | symbol _ | string _ | int _ | bitVec _ _ | decimal _ | float _ => by simp [same]
  | list items => by simp [same, sameAll_self items]

theorem sameAll_self : ∀ as : List SExpr, sameAll as as = true
  | [] => rfl
  | a :: as => by simp [sameAll, same_self a, sameAll_self as]

end

mutual

theorem eq_of_same : ∀ {a b : SExpr}, same a b = true → a = b
  | symbol _, b, h | string _, b, h | int _, b, h | bitVec _ _, b, h | decimal _, b, h
  | float _, b, h => by cases b <;> simp_all [same]
  | list as, b, h => by
    cases b with
    | list bs => rw [@eq_of_sameAll as bs (by simpa [same] using h)]
    | _ => simp [same] at h

theorem eq_of_sameAll : ∀ {as bs : List SExpr}, sameAll as bs = true → as = bs
  | [], bs, h => by cases bs <;> simp_all [sameAll]
  | a :: as, bs, h => by
    cases bs with
    | nil => simp [sameAll] at h
    | cons b bs =>
      simp only [sameAll, Bool.and_eq_true] at h
      rw [eq_of_same h.1, eq_of_sameAll h.2]

end

instance : DecidableEq SExpr := fun a b =>
  if h : same a b = true then isTrue (eq_of_same h)
  else isFalse fun hab => h (hab ▸ same_self a)

/-- Whether the tree is the symbol with the given name. -/
def isSymbol (tree : SExpr) (name : String) : Bool :=
  match tree with
  | symbol s => s = name
  | _ => false

/-- The name of a symbol, or `none` for any other tree. -/
def symbol? : SExpr → Option String
  | symbol name => some name
  | _ => none

/-- The items of a list, or `none` for a leaf. -/
def items? : SExpr → Option (List SExpr)
  | list items => some items
  | _ => none

/-- Whether the tree is the given integer. -/
def isInt (tree : SExpr) (n : Int) : Bool :=
  match tree with
  | int m => m = n
  | _ => false

end SExpr
end SmtQuery
