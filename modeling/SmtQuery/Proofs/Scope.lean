import Mathlib
import SmtQuery.Command

/-!
# Names in scope

A script has to introduce a name before it uses it.  Commands introduce sorts and functions, and
terms mention them; binders and `let` bindings hide the names they bind, so what a term mentions
are its free names.  Names that the solver has built in are known from the start.

`Command.InScope` walks a script in order with what is known so far.  `Command.inScope_iff` says
the same command by command, and `Command.inScope_append` lets a script be checked part by part.
-/

namespace SmtQuery

/-- What commands introduce and terms mention: sorts and functions, each by its name. -/
inductive Entity where
  | sort (name : String)
  | function (name : String)
  deriving DecidableEq

namespace Entity

/-- What is left of some entities where functions of the given names are bound. -/
def unbound (names : List String) (entities : List Entity) : List Entity :=
  entities.filter fun e => e ∉ names.map Entity.function

theorem mem_unbound_iff {names : List String} {entities : List Entity} {e : Entity} :
    e ∈ unbound names entities ↔ e ∈ entities ∧ e ∉ names.map Entity.function := by
  rw [unbound, List.mem_filter, decide_eq_true_eq]

end Entity

open Entity (unbound)

/-! ## Mentions -/

/-- The declared sorts in a sort. -/
def SmtSort.mentions : SmtSort → List Entity
  | array index element => index.mentions ++ element.mentions
  | named name => [.sort name]
  | _ => []

namespace Term

mutual

/-- The declared sorts and the free names in a term. -/
def mentions : Term → List Entity
  | const name => [.function name]
  | not t => t.mentions
  | and ts | or ts | distinct ts => mentionsAll ts
  | implies a b | eq a b | select a b => a.mentions ++ b.mentions
  | ite a b c | store a b c => a.mentions ++ b.mentions ++ c.mentions
  | constArray sort value => sort.mentions ++ value.mentions
  | quantified _ binders body =>
    binders.flatMap (·.2.mentions) ++ unbound (binders.map Prod.fst) body.mentions
  | letIn bindings body =>
    mentionsBindings bindings ++ unbound (bindings.map Prod.fst) body.mentions
  | app name arguments => .function name :: mentionsAll arguments
  | _ => []

/-- The mentions of several terms. -/
def mentionsAll : List Term → List Entity
  | [] => []
  | t :: rest => t.mentions ++ mentionsAll rest

/-- The mentions of the terms in `let` bindings. -/
def mentionsBindings : List (String × Term) → List Entity
  | [] => []
  | (_, t) :: rest => t.mentions ++ mentionsBindings rest

end

theorem mentionsAll_eq_flatMap (terms : List Term) :
    mentionsAll terms = terms.flatMap mentions := by
  induction terms with
  | nil => rw [mentionsAll, List.flatMap_nil]
  | cons t terms ih => rw [mentionsAll, ih, List.flatMap_cons]

theorem mentionsBindings_eq_flatMap (bindings : List (String × Term)) :
    mentionsBindings bindings = bindings.flatMap fun b => b.2.mentions := by
  induction bindings with
  | nil => rw [mentionsBindings, List.flatMap_nil]
  | cons b bindings ih => rw [mentionsBindings, ih, List.flatMap_cons]

/-- A conjunction mentions what its parts do. -/
theorem mem_mentions_conj_iff {terms : List Term} {e : Entity} :
    e ∈ (conj terms).mentions ↔ ∃ t ∈ terms, e ∈ t.mentions := by
  rcases terms with _ | ⟨a, _ | ⟨b, rest⟩⟩
  · simp [conj, mentions, mentionsAll]
  · simp [conj]
  · rw [conj, mentions, mentionsAll_eq_flatMap, List.mem_flatMap]
    exact fun t h => nomatch h

/-- **Bindings inside each other**: each hides its name from those behind it and from the body. -/
theorem mem_mentions_foldr_letIn_iff {bindings : List (String × Term)} {body : Term} {e : Entity} :
    e ∈ (bindings.foldr (fun b t => .letIn [b] t) body).mentions ↔
      (∃ before b after, bindings = before ++ b :: after ∧ e ∈ b.2.mentions ∧
        e ∉ before.map fun b => Entity.function b.1) ∨
      (e ∈ body.mentions ∧ e ∉ bindings.map fun b => Entity.function b.1) := by
  induction bindings with
  | nil => simp
  | cons b rest ih =>
    have hmentions : e ∈ ((b :: rest).foldr (fun b t => .letIn [b] t) body).mentions ↔
        e ∈ b.2.mentions ∨
          (e ∈ (rest.foldr (fun b t => .letIn [b] t) body).mentions ∧ e ≠ .function b.1) := by
      rw [List.foldr_cons, mentions, mentionsBindings_eq_flatMap, List.mem_append,
        Entity.mem_unbound_iff]
      simp
    rw [hmentions, ih]
    constructor
    · rintro (hb | ⟨⟨before, c, after, rfl, hc, hbefore⟩ | ⟨hbody, hrest⟩, hne⟩)
      · exact Or.inl ⟨[], b, rest, rfl, hb, List.not_mem_nil⟩
      · refine Or.inl ⟨b :: before, c, after, rfl, hc, ?_⟩
        rw [List.map_cons, List.mem_cons, not_or]
        exact ⟨hne, hbefore⟩
      · refine Or.inr ⟨hbody, ?_⟩
        rw [List.map_cons, List.mem_cons, not_or]
        exact ⟨hne, hrest⟩
    · rintro (⟨_ | ⟨d, before⟩, c, after, hsplit, hc, hbefore⟩ | ⟨hbody, hrest⟩)
      · obtain ⟨rfl, -⟩ := List.cons.inj hsplit
        exact Or.inl hc
      · obtain ⟨rfl, hrest⟩ := List.cons.inj hsplit
        rw [List.map_cons, List.mem_cons, not_or] at hbefore
        exact Or.inr ⟨Or.inl ⟨before, c, after, hrest, hc, hbefore.2⟩, hbefore.1⟩
      · rw [List.map_cons, List.mem_cons, not_or] at hrest
        exact Or.inr ⟨Or.inr ⟨hbody, hrest.2⟩, hrest.1⟩

end Term

/-! ## Commands -/

namespace Command

/-- What a command introduces. -/
def introduces : Command → List Entity
  | declareSort name _ => [.sort name]
  | declareEnum name elements => .sort name :: elements.map .function
  | declareFun name _ _ | defineFun name _ _ _ => [.function name]
  | _ => []

/-- What a command mentions. -/
def mentions : Command → List Entity
  | declareFun _ parameters result => parameters.flatMap SmtSort.mentions ++ result.mentions
  | defineFun _ parameters result body =>
    parameters.flatMap (·.2.mentions) ++ result.mentions
      ++ unbound (parameters.map Prod.fst) body.mentions
  | assert term | maximize term | minimize term => term.mentions
  | getValue terms => terms.flatMap Term.mentions
  | _ => []

/-- What several commands introduce, in order. -/
def introduced (commands : List Command) : List Entity := commands.flatMap introduces

theorem introduced_append (front back : List Command) :
    introduced (front ++ back) = introduced front ++ introduced back :=
  List.flatMap_append

/-- Commands that introduce one entity each. -/
theorem introduced_map {α : Type} {f : α → Command} {g : α → Entity}
    (h : ∀ x, (f x).introduces = [g x]) (xs : List α) : introduced (xs.map f) = xs.map g := by
  rw [introduced, List.flatMap_map]
  simp only [h]
  exact List.flatMap_pure_eq_map g xs

/-- Commands that introduce nothing. -/
theorem introduced_eq_nil {commands : List Command} (h : ∀ c ∈ commands, c.introduces = []) :
    introduced commands = [] :=
  List.flatMap_eq_nil_iff.2 h

/-- Whether each command mentions only what is known when the script reaches it: at the start the
given entities, and behind every command also what it introduces. -/
def InScope : Set Entity → List Command → Prop
  | _, [] => True
  | known, c :: rest =>
    (∀ e ∈ c.mentions, e ∈ known) ∧ InScope (known ∪ {e | e ∈ c.introduces}) rest

variable {known : Set Entity} {commands : List Command}

/-- **A walk in two parts.** -/
theorem inScope_append {front back : List Command} :
    InScope known (front ++ back) ↔
      InScope known front ∧ InScope (known ∪ {e | e ∈ introduced front}) back := by
  induction front generalizing known with
  | nil => simp [InScope, introduced]
  | cons c front ih =>
    have hknown : known ∪ {e | e ∈ c.introduces} ∪ {e | e ∈ introduced front} =
        known ∪ {e | e ∈ introduced (c :: front)} := by
      ext e
      simp [introduced, or_assoc]
    rw [List.cons_append, InScope, InScope, ih, hknown, and_assoc]

/-- **In scope, command by command**: what a command mentions is known at the start or introduced
by a command in front of it. -/
theorem inScope_iff : InScope known commands ↔
    ∀ before c after, commands = before ++ c :: after →
      ∀ e ∈ c.mentions, e ∈ known ∨ e ∈ introduced before := by
  constructor
  · rintro h before c after rfl e he
    exact (inScope_append.1 h).2.1 e he
  · intro h
    induction commands generalizing known with
    | nil => trivial
    | cons c rest ih =>
      refine ⟨fun e he => (h [] c rest rfl e he).resolve_right (by simp [introduced]), ih ?_⟩
      rintro before d after rfl e he
      rcases h (c :: before) d after rfl e he with hknown | hbefore
      · exact Or.inl (Or.inl hknown)
      · rw [introduced, List.flatMap_cons, List.mem_append] at hbefore
        exact hbefore.imp_left Or.inr

/-- Commands that mention only what is known at the start are in scope. -/
theorem inScope_of_forall (h : ∀ c ∈ commands, ∀ e ∈ c.mentions, e ∈ known) :
    InScope known commands := by
  refine inScope_iff.2 ?_
  rintro before c after rfl e he
  exact Or.inl (h c (List.mem_append_right _ List.mem_cons_self) e he)

/-- More may be known at the start. -/
theorem InScope.mono {more : Set Entity} (hknown : known ⊆ more) (h : InScope known commands) :
    InScope more commands := by
  rw [inScope_iff] at h ⊢
  exact fun before c after hsplit e he => (h before c after hsplit e he).imp_left (@hknown e)

/-- Two parts that are in scope by themselves are so in a row. -/
theorem InScope.append {front back : List Command} (hfront : InScope known front)
    (hback : InScope known back) : InScope known (front ++ back) :=
  inScope_append.2 ⟨hfront, hback.mono Set.subset_union_left⟩

end Command
end SmtQuery
