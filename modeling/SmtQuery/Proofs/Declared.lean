import Mathlib
import SmtQuery.Proofs.Introduction

/-!
# A written query is in scope

A query that is written introduces every name once and uses none before.  For its part a problem
has to give its values, tables, arrays, functions and elements names of their own, and its terms may
mention only what is there when they are reached: this is `Problem.WellScoped`.  What is built into
the solver is given as a set of names.

Names are made unique by `nodup_introduced_outline`, where generated symbols are compared by what
they stand for, and chosen names by not having the shape of a generated one.  Scope is followed
along the script.  The declarations mention sorts and elements only.  Without bound inputs the
formula is a walk through the assignments (`inScope_openFormula`); with bound inputs it is one
term, and its free names are found by going through the `let` bindings from the inside and then
through the quantifier (`mem_of_mem_mentions_closedFormula`).  `inScope_script` puts the parts
together.

The assertions about the contents of tables and arrays are left out.  They stand with the
declarations of these, in front of the functions and the assignments, so they may mention less
than other terms; `SmtQuery.Proofs.Content` is about them.
-/

namespace SmtQuery

open Command (introduced introduced_append introduced_map InScope)

namespace Problem

variable {p : Problem}

/-! ## Problems that refer to their own names only -/

/-- The numbers of the values of a problem: those of inputs, constants and assigned values. -/
def values (p : Problem) : List NodeId :=
  p.inputs.map Input.id ++ p.constants.map (fun constant => constant.1.id)
    ++ p.assignments.map (fun a => a.target.id)

/-- The sorts that a problem mentions. -/
def sortEntities (p : Problem) : List Entity := p.namedSorts.map fun sort => .sort sort.name

/-- What the declarations of a problem introduce, apart from the functions behind dependent
inputs. -/
def globals (p : Problem) : List Entity :=
  p.sortEntities ++ ((p.freeInputs.filter (!·.isSkolem)).map (fun input => input.ref.symbol)
    ++ p.constants.map (fun constant => constant.1.symbol) ++ p.tables.map Table.symbol
    ++ p.arrays.map ArrayDecl.symbol ++ p.chosenNames).map .function

/-- What a term may mention behind some of the assignments: what is built in, what the
declarations introduce, any input, and the values assigned so far. -/
def MayMention (p : Problem) (builtins : Set Entity) (earlier : List Assignment) (e : Entity) :
    Prop :=
  e ∈ builtins ∨ e ∈ p.globals ∨ e ∈ p.inputs.map (fun input => input.ref.entity) ∨
    e ∈ earlier.map fun a => a.target.entity

instance {p : Problem} {builtins : Set Entity} [DecidablePred (· ∈ builtins)]
    {earlier : List Assignment} : DecidablePred (p.MayMention builtins earlier) :=
  fun e => inferInstanceAs (Decidable (e ∈ builtins ∨ e ∈ p.globals ∨ _ ∨ _))

/-- Whether a problem gives everything a name of its own and its terms mention only what they
may. -/
structure WellScoped (p : Problem) (builtins : Set Entity) : Prop where
  nodup_values : p.values.Nodup
  nodup_tables : (p.tables.map Table.id).Nodup
  nodup_arrays : (p.arrays.map ArrayDecl.id).Nodup
  nodup_names : p.chosenNames.Nodup
  not_reserved : ∀ name ∈ p.chosenNames, ¬ Symbol.IsReserved name
  /-- An element has the position at which its sort lists it. -/
  index_constants : ∀ constant ∈ p.constants, ∀ sort name index?,
    constant.2 = .element sort name index? → index? = sort.indexOf? name
  depends : ∀ input ∈ p.freeInputs, ∀ ref ∈ input.dependsOn,
    ∃ bound ∈ p.boundInputs, bound.id = ref.id
  trackers : ∀ objective ∈ p.objectives,
    ∃ input ∈ p.freeInputs, ¬ input.isSkolem ∧ input.id = objective.tracker.id
  objectives : ∀ objective ∈ p.objectives, objective.value.id ∈ p.values
  output : p.output.id ∈ p.values
  postulates : ∀ postulate ∈ p.postulates, ∀ e ∈ postulate.term.mentions,
    e ∈ builtins ∨ e ∈ p.globals
  assignments : ∀ i, ∀ h : i < p.assignments.length, ∀ e ∈ p.assignments[i].term.mentions,
    p.MayMention builtins (p.assignments.take i) e
  constraints : ∀ term ∈ p.constraints, ∀ e ∈ term.mentions,
    p.MayMention builtins p.assignments e

variable {builtins : Set Entity}

/-! ## Nothing is introduced twice -/

/-- What a generated symbol is told apart by: the number of a value, with or without a function
behind it, or that of a table or an array. -/
def originKey : Origin → NodeId ⊕ ℕ ⊕ ℕ
  | .value id | .skolem id => .inl id
  | .table id => .inr (.inl id)
  | .array id => .inr (.inr id)

/-- Where the two parts of a list of keys are told apart, each has to be without repetition. -/
theorem nodup_map_inl_append_map_inr {α β : Type} {as : List α} {bs : List β} (ha : as.Nodup)
    (hb : bs.Nodup) : (as.map Sum.inl ++ bs.map Sum.inr).Nodup := by
  refine List.nodup_append'.2 ⟨ha.map Sum.inl_injective, hb.map Sum.inr_injective, ?_⟩
  intro key hleft hright
  obtain ⟨a, -, rfl⟩ := List.mem_map.1 hleft
  obtain ⟨b, -, hkey⟩ := List.mem_map.1 hright
  exact absurd hkey Sum.inr_ne_inl

/-- **Generated symbols are declared once.** -/
theorem nodup_origins (h : p.WellScoped builtins) : (p.origins ++ p.definedOrigins).Nodup := by
  have hinputs : (p.freeInputs.map Input.origin).map originKey =
      (p.freeInputs.map Input.id).map .inl := by
    rw [List.map_map, List.map_map]
    refine List.map_congr_left fun input _ => ?_
    rw [Function.comp_apply, Input.origin]
    split <;> rfl
  obtain ⟨ids, hids, hdefined⟩ : ∃ ids : List NodeId,
      ids.Sublist (p.assignments.map fun a => a.target.id) ∧
        p.definedOrigins.map originKey = ids.map .inl := by
    rw [definedOrigins]
    split
    · exact ⟨_, List.Sublist.refl _, by simp [Function.comp_def, originKey]⟩
    · exact ⟨[], List.nil_sublist _, rfl⟩
  have hvalues : (p.freeInputs.map Input.id ++ p.constants.map (fun constant => constant.1.id)
      ++ ids).Nodup :=
    h.nodup_values.sublist
      (((List.filter_sublist.map _).append (List.Sublist.refl _)).append hids)
  have hperm : ((p.origins ++ p.definedOrigins).map originKey).Perm
      ((p.freeInputs.map Input.id ++ p.constants.map (fun constant => constant.1.id)
        ++ ids).map .inl ++ ((p.tables.map Table.id).map Sum.inl
        ++ (p.arrays.map ArrayDecl.id).map Sum.inr).map .inr) := by
    simp only [origins, List.map_append, hinputs, hdefined, List.map_map, List.append_assoc]
    refine List.Perm.append_left _ (List.Perm.append_left _ ?_)
    rw [← List.append_assoc]
    exact List.perm_append_comm
  refine List.Nodup.of_map originKey (hperm.nodup_iff.2 (nodup_map_inl_append_map_inr hvalues ?_))
  exact nodup_map_inl_append_map_inr h.nodup_tables h.nodup_arrays

/-- **Nothing is introduced twice.** -/
theorem nodup_introduced_outline (h : p.WellScoped builtins) {sorts : List NamedSort}
    (hsorts : NamedSort.ofKinds p.kinds = .ok sorts) (goal : Term) :
    (introduced (p.outline sorts goal)).Nodup := by
  have hperm : (introduced (p.outline sorts goal)).Perm
      (sorts.map (fun sort => .sort sort.name) ++
        ((p.origins ++ p.definedOrigins).map Origin.symbol ++ p.chosenNames).map .function) := by
    have helements : (sorts.flatMap fun sort => sort.elements?.getD []).Perm p.elements :=
      (perm_of_ofKinds hsorts).flatMap_right _
    have hnames : ((sorts.flatMap fun sort => sort.elements?.getD [])
        ++ (p.origins.map Origin.symbol ++ p.functions.map FunctionDecl.name
          ++ p.definedOrigins.map Origin.symbol)).Perm
        ((p.origins ++ p.definedOrigins).map Origin.symbol ++ p.chosenNames) := by
      refine List.perm_iff_count.2 fun name => ?_
      simp only [List.map_append, List.count_append, chosenNames, helements.count_eq]
      omega
    rw [introduced_outline_eq]
    refine ((List.map_append_flatMap_perm sorts _ _).symm.append_right _).trans ?_
    rw [← List.map_flatMap, List.append_assoc, ← List.map_append]
    exact (hnames.map Entity.function).append_left _
  have hchosen : ∀ name ∈ p.chosenNames, ∀ origin : Origin, origin.symbol ≠ name := by
    rintro name hname origin rfl
    exact h.not_reserved _ hname (Symbol.isReserved_symbol origin)
  have hfunction : Function.Injective Entity.function := fun a b => Entity.function.inj
  have hsort : Function.Injective Entity.sort := fun a b => Entity.sort.inj
  rw [hperm.nodup_iff]
  refine List.nodup_append'.2 ⟨?_, ?_, ?_⟩
  · have := (NamedSort.ofKinds_spec hsorts).1.nodup_names.map hsort
    rwa [List.map_map] at this
  · refine List.Nodup.map hfunction (List.nodup_append'.2 ⟨?_, h.nodup_names, ?_⟩)
    · exact (nodup_origins h).map Origin.symbol_injective
    · intro name horigin hname
      obtain ⟨origin, -, rfl⟩ := List.mem_map.1 horigin
      exact hchosen _ hname origin rfl
  · intro e he he'
    obtain ⟨sort, -, rfl⟩ := List.mem_map.1 he
    obtain ⟨name, -, hname⟩ := List.mem_map.1 he'
    exact Entity.noConfusion hname

/-! ## The declarations are in scope -/

/-- A sort in a signature is one that the problem mentions. -/
theorem mem_sortEntities_of_kind {kind : Kind} (hkind : kind ∈ p.mentionedKinds) {e : Entity}
    (he : e ∈ kind.sort.mentions) : e ∈ p.sortEntities := by
  obtain ⟨sort, rfl, rfl⟩ := Kind.mem_mentions_sort_iff.1 he
  exact List.mem_map_of_mem (mem_namedSorts_iff.2 hkind)

theorem mem_sortEntities_of_table {table : Table} (htable : table ∈ p.tables) {e : Entity}
    (he : e ∈ table.declaration.mentions) : e ∈ p.sortEntities := by
  have hkinds := kind_mem_of_table htable
  rw [Table.declaration, Command.mentions, List.mem_append, List.flatMap_singleton] at he
  exact he.elim (mem_sortEntities_of_kind hkinds.1) (mem_sortEntities_of_kind hkinds.2)

theorem mem_sortEntities_of_array {array : ArrayDecl} (harray : array ∈ p.arrays) {e : Entity}
    (he : e ∈ array.declaration.mentions) : e ∈ p.sortEntities := by
  have hkinds := kind_mem_of_array harray
  rw [ArrayDecl.declaration, Command.mentions, List.flatMap_nil, List.nil_append,
    SmtSort.mentions, List.mem_append] at he
  exact he.elim (mem_sortEntities_of_kind hkinds.1) (mem_sortEntities_of_kind hkinds.2)

/-- An element with a position is one that the problem's sorts list. -/
theorem mem_elements_of_constant (h : p.WellScoped builtins) {constant : Ref × Value}
    (hconstant : constant ∈ p.constants) {sort : NamedSort} {name : String} {i : ℕ}
    (hvalue : constant.2 = .element sort name (some i)) : name ∈ p.elements := by
  have hindex := h.index_constants constant hconstant sort name (some i) hvalue
  obtain ⟨elements, helements, hposition⟩ := Option.bind_eq_some_iff.1 hindex.symm
  have hsort : sort ∈ p.namedSorts := by
    have hkind := (kind_mem_of_constant hconstant).2
    rw [hvalue] at hkind
    exact mem_namedSorts_iff.2 hkind
  have hname : name ∈ elements := by
    by_contra hnot
    rw [List.idxOf?_eq_none_iff.2 hnot] at hposition
    exact absurd hposition (by simp)
  exact List.mem_flatMap.2 ⟨sort, hsort, by rwa [helements]⟩

/-- **What declarations mention**: sorts of the problem, and in the definition of a constant an
element of one. -/
theorem mem_of_mem_mentions_symbolCommands (h : p.WellScoped builtins) {c : Command}
    (hc : c ∈ p.symbolCommands) {e : Entity} (he : e ∈ c.mentions) :
    e ∈ p.sortEntities ∨ e ∈ p.elements.map .function := by
  have hsort : ∀ kind ∈ p.mentionedKinds, e ∈ kind.sort.mentions → e ∈ p.sortEntities :=
    fun kind hkind => mem_sortEntities_of_kind hkind
  simp only [symbolCommands, List.mem_append, List.mem_map] at hc
  rcases hc with (((⟨input, hinput, rfl⟩ | ⟨constant, hconstant, rfl⟩) | ⟨table, htable, rfl⟩) |
    ⟨array, harray, rfl⟩) | ⟨function, hfunction, rfl⟩
  · have hmem := (List.mem_filter.1 hinput).1
    rcases Input.mem_mentions_declaration he with he | ⟨ref, href, he⟩
    · exact Or.inl (hsort _ (kind_mem_of_input hmem) he)
    · exact Or.inl (hsort _ (kind_mem_of_dependsOn hmem href) he)
  · rcases mem_mentions_constantCommand he with he | ⟨sort, name, i, hvalue, rfl⟩
    · exact Or.inl (hsort _ (kind_mem_of_constant hconstant).1 he)
    · exact Or.inr (List.mem_map_of_mem (mem_elements_of_constant h hconstant hvalue))
  · exact Or.inl (mem_sortEntities_of_table htable he)
  · exact Or.inl (mem_sortEntities_of_array harray he)
  · have hkinds := kind_mem_of_function hfunction
    rw [List.forall_mem_append, List.forall_mem_singleton] at hkinds
    rw [FunctionDecl.command, Command.mentions, List.mem_append, List.mem_flatMap] at he
    rcases he with ⟨_, hparameter, he⟩ | he
    · obtain ⟨kind, hkind, rfl⟩ := List.mem_map.1 hparameter
      exact Or.inl (hsort _ (hkinds.1 kind hkind) he)
    · exact Or.inl (hsort _ hkinds.2 he)

/-- The declarations of sorts introduce the sorts of the problem and their elements. -/
theorem mem_introduced_sorts {sorts : List NamedSort}
    (hsorts : NamedSort.ofKinds p.kinds = .ok sorts) {e : Entity}
    (he : e ∈ p.sortEntities ∨ e ∈ p.elements.map .function) :
    e ∈ introduced (sorts.map NamedSort.declaration) := by
  have hmem : ∀ {sort}, sort ∈ p.namedSorts → sort ∈ sorts := (perm_of_ofKinds hsorts).mem_iff.2
  rw [introduced_sorts, List.mem_flatMap]
  rcases he with he | he
  · obtain ⟨sort, hsort, rfl⟩ := List.mem_map.1 he
    exact ⟨sort, hmem hsort, List.mem_cons_self⟩
  · obtain ⟨name, hname, rfl⟩ := List.mem_map.1 he
    obtain ⟨sort, hsort, hname⟩ := List.mem_flatMap.1 hname
    exact ⟨sort, hmem hsort, List.mem_cons_of_mem _ (List.mem_map_of_mem hname)⟩

/-- **The declarations introduce what terms may mention everywhere.** -/
theorem mem_introduced_of_globals {sorts : List NamedSort}
    (hsorts : NamedSort.ofKinds p.kinds = .ok sorts) {e : Entity} (he : e ∈ p.globals) :
    e ∈ introduced (sorts.map NamedSort.declaration) ∨ e ∈ introduced p.symbolCommands := by
  simp only [globals, chosenNames, List.map_append, List.mem_append] at he
  rw [introduced_symbolCommands, map_symbol_origins]
  simp only [List.map_append, List.mem_append]
  rcases he with hsort | (((hinput | hconstant) | htable) | harray) | hfunction | helement
  · exact Or.inl (mem_introduced_sorts hsorts (Or.inl hsort))
  · obtain ⟨_, hsymbol, rfl⟩ := List.mem_map.1 hinput
    obtain ⟨input, hmem, rfl⟩ := List.mem_map.1 hsymbol
    obtain ⟨hfree, hskolem⟩ := List.mem_filter.1 hmem
    rw [← Input.symbol_origin_of_not_isSkolem (by simpa using hskolem)]
    exact Or.inr (Or.inl (Or.inl (Or.inl (Or.inl
      (List.mem_map_of_mem (List.mem_map_of_mem hfree))))))
  · exact Or.inr (Or.inl (Or.inl (Or.inl (Or.inr hconstant))))
  · exact Or.inr (Or.inl (Or.inl (Or.inr htable)))
  · exact Or.inr (Or.inl (Or.inr harray))
  · exact Or.inr (Or.inr hfunction)
  · exact Or.inl (mem_introduced_sorts hsorts (Or.inr helement))

/-- The functions behind dependent inputs are declared as well. -/
theorem mem_introduced_of_skolemInputs {input : Input} (h : input ∈ p.skolemInputs) :
    .function input.skolemSymbol ∈ introduced p.symbolCommands := by
  obtain ⟨hfree, hskolem⟩ := mem_skolemInputs_iff.1 h
  rw [introduced_symbolCommands, map_symbol_origins, ← Input.symbol_origin_of_isSkolem hskolem]
  simp only [List.map_append, List.mem_append, List.map_map]
  exact Or.inl (Or.inl (Or.inl (Or.inl (List.mem_map_of_mem hfree))))

/-- **The declarations are in scope.** -/
theorem inScope_declarations (h : p.WellScoped builtins) {sorts : List NamedSort}
    (hsorts : NamedSort.ofKinds p.kinds = .ok sorts) : InScope builtins
      (p.header p.kinds ++ sorts.map NamedSort.declaration ++ p.symbolCommands) := by
  have hnone : ∀ c ∈ p.header p.kinds ++ sorts.map NamedSort.declaration, c.mentions = [] := by
    intro c hc
    rcases List.mem_append.1 hc with hc | hc
    · rcases eq_of_mem_header hc with ⟨text, rfl⟩ | ⟨key, value, rfl⟩ | ⟨logic, rfl⟩ <;> rfl
    · obtain ⟨sort, -, rfl⟩ := List.mem_map.1 hc
      rw [NamedSort.declaration]
      split <;> rfl
  refine Command.inScope_append.2 ⟨Command.inScope_of_forall fun c hc e he => ?_,
    Command.inScope_of_forall fun c hc e he => Or.inr ?_⟩
  · rw [hnone c hc] at he
    exact absurd he List.not_mem_nil
  · show e ∈ introduced _
    rw [introduced_append, introduced_header, List.nil_append]
    exact mem_introduced_sorts hsorts (mem_of_mem_mentions_symbolCommands h hc he)

/-! ## What is asserted in the end -/

/-- A free input that depends on nothing may be mentioned everywhere. -/
theorem mem_globals_of_freeInputs {input : Input} (hfree : input ∈ p.freeInputs)
    (hskolem : ¬ input.isSkolem) : input.ref.entity ∈ p.globals := by
  have hmem : input ∈ p.freeInputs.filter (!·.isSkolem) :=
    List.mem_filter.2 ⟨hfree, by simpa using hskolem⟩
  simp only [globals, List.map_append, List.mem_append, List.map_map]
  exact Or.inr (Or.inl (Or.inl (Or.inl (Or.inl (List.mem_map_of_mem hmem)))))

/-- A value of the problem may be mentioned behind all assignments. -/
theorem mayMention_of_mem_values {ref : Ref} (h : ref.id ∈ p.values) :
    p.MayMention builtins p.assignments ref.entity := by
  simp only [values, List.mem_append] at h
  rcases h with (h | h) | h
  · obtain ⟨input, hinput, hid⟩ := List.mem_map.1 h
    rw [← Ref.entity_eq_of_id hid]
    exact Or.inr (Or.inr (Or.inl (List.mem_map_of_mem hinput)))
  · obtain ⟨constant, hconstant, hid⟩ := List.mem_map.1 h
    refine Or.inr (Or.inl ?_)
    rw [← Ref.entity_eq_of_id hid]
    simp only [globals, List.map_append, List.mem_append, List.map_map]
    exact Or.inr (Or.inl (Or.inl (Or.inl (Or.inr (List.mem_map_of_mem hconstant)))))
  · obtain ⟨a, ha, hid⟩ := List.mem_map.1 h
    rw [← Ref.entity_eq_of_id hid]
    exact Or.inr (Or.inr (Or.inr (List.mem_map_of_mem ha)))

/-- The goal mentions the output. -/
theorem eq_of_mem_mentions_goal {goal : Term} (hgoal : p.goal = .ok goal) {e : Entity}
    (he : e ∈ goal.mentions) : e = p.output.entity := by
  rw [eq_of_goal hgoal] at he
  cases hmode : p.mode <;> rw [hmode] at he <;>
    simpa [Term.mentions, Ref.term, Ref.entity] using he

/-- **What is asserted in the end** mentions only what it may behind all assignments. -/
theorem mayMention_asserted (h : p.WellScoped builtins) {goal : Term} (hgoal : p.goal = .ok goal)
    {term : Term} (hterm : term ∈ p.constraints ++ p.objectives.map Objective.trackerEquation
      ++ [goal]) {e : Entity} (he : e ∈ term.mentions) :
    p.MayMention builtins p.assignments e := by
  rw [List.mem_append, List.mem_append, List.mem_singleton] at hterm
  rcases hterm with (hconstraint | hequation) | rfl
  · exact h.constraints term hconstraint e he
  · obtain ⟨objective, hobjective, rfl⟩ := List.mem_map.1 hequation
    have hboth : e = objective.tracker.entity ∨ e = objective.value.entity := by
      simpa [Objective.trackerEquation, Term.mentions, Ref.term, Ref.entity] using he
    rcases hboth with rfl | rfl
    · obtain ⟨input, hfree, -, hid⟩ := h.trackers objective hobjective
      refine mayMention_of_mem_values ?_
      rw [← hid, values, List.mem_append, List.mem_append]
      exact Or.inl (Or.inl (List.mem_map_of_mem (List.mem_filter.1 hfree).1))
    · exact mayMention_of_mem_values (h.objectives objective hobjective)
  · rw [eq_of_mem_mentions_goal hgoal he]
    exact mayMention_of_mem_values h.output

/-! ## The formula is in scope -/

/-- What the assignment behind some others mentions. -/
theorem mayMention_assignment (h : p.WellScoped builtins) {before after : List Assignment}
    {a : Assignment} (hsplit : p.assignments = before ++ a :: after) {e : Entity}
    (he : e ∈ a.term.mentions) : p.MayMention builtins before e := by
  have hlength : before.length < p.assignments.length := by
    rw [hsplit, List.length_append, List.length_cons]
    omega
  have hget : p.assignments[before.length] = a := by simp [hsplit]
  have htake : p.assignments.take before.length = before := by simp [hsplit]
  have hmention := h.assignments before.length hlength e (by rwa [hget])
  rwa [htake] at hmention

/-- An input is free, by itself or through a function of bound inputs, or it is bound. -/
theorem input_cases {input : Input} (h : input ∈ p.inputs) :
    input.ref.entity ∈ p.globals ∨ input ∈ p.skolemInputs ∨ input ∈ p.boundInputs := by
  by_cases hbinds : p.mode.Binds input.quantifier
  · exact Or.inr (Or.inr (mem_boundInputs_iff.2 ⟨h, hbinds⟩))
  · have hfree : input ∈ p.freeInputs := mem_freeInputs_iff.2 ⟨h, hbinds⟩
    by_cases hskolem : input.isSkolem
    · exact Or.inr (Or.inl (mem_skolemInputs_iff.2 ⟨hfree, hskolem⟩))
    · exact Or.inl (mem_globals_of_freeInputs hfree hskolem)

section Known

variable {known : Set Entity} (hbuiltins : builtins ⊆ known) (hglobals : ∀ e ∈ p.globals, e ∈ known)

include hbuiltins hglobals

/-- **The formula without bound inputs is in scope**: each definition mentions only what is known
and the values defined in front of it, and the assertions come behind all definitions. -/
theorem inScope_openFormula (h : p.WellScoped builtins) (hbound : p.boundInputs = []) {goal : Term}
    (hgoal : p.goal = .ok goal) : InScope known (p.openFormula goal) := by
  have hmay : ∀ earlier e, p.MayMention builtins earlier e →
      e ∈ known ∨ e ∈ earlier.map fun a => a.target.entity := by
    rintro earlier e (he | he | he | he)
    · exact Or.inl (hbuiltins he)
    · exact Or.inl (hglobals e he)
    · -- without bound inputs every input is free and depends on nothing
      obtain ⟨input, hinput, rfl⟩ := List.mem_map.1 he
      rcases input_cases hinput with hglobal | hskolem | hmem
      · exact Or.inl (hglobals _ hglobal)
      · rw [skolemInputs_eq_nil hbound h.depends] at hskolem
        exact absurd hskolem List.not_mem_nil
      · rw [hbound] at hmem
        exact absurd hmem List.not_mem_nil
    · exact Or.inr he
  have hintroduced : ∀ assignments : List Assignment, introduced (assignments.map fun a =>
      .defineFun a.target.symbol [] a.target.kind.sort a.term) =
        assignments.map fun a => a.target.entity :=
    introduced_map fun _ => rfl
  rw [openFormula_eq, Command.inScope_append, hintroduced]
  constructor
  · refine Command.inScope_iff.2 fun before c after hsplit e he => ?_
    obtain ⟨earlier, rest, hassignments, rfl, hrest⟩ := List.map_eq_append_iff.1 hsplit
    obtain ⟨a, later, rfl, rfl, -⟩ := List.map_eq_cons_iff.1 hrest
    rw [hintroduced]
    rw [Command.mentions, List.mem_append, Entity.mem_unbound_iff] at he
    rcases he with he | ⟨he, -⟩
    · have hmem : a ∈ p.assignments := by
        rw [hassignments]
        exact List.mem_append_right _ List.mem_cons_self
      refine Or.inl (hglobals e (List.mem_append_left _ ?_))
      exact mem_sortEntities_of_kind (kind_mem_of_assignment hmem) he
    · exact hmay earlier e (mayMention_assignment h hassignments he)
  · refine Command.inScope_of_forall fun c hc e he => ?_
    obtain ⟨term, hterm, rfl⟩ := List.mem_map.1 hc
    exact hmay p.assignments e (mayMention_asserted h hgoal hterm he)

end Known

/-- The nested bindings mention no assigned value that is not bound where it is mentioned. -/
theorem mayMention_nestedLets (h : p.WellScoped builtins) {goal : Term}
    (hgoal : p.goal = .ok goal) {e : Entity} (he : e ∈ (p.nestedLets goal).mentions) :
    p.MayMention builtins [] e := by
  have hnone : ∀ earlier, p.MayMention builtins earlier e →
      (e ∉ earlier.map fun a => a.target.entity) → p.MayMention builtins [] e := by
    rintro earlier (he | he | he | he) hnot
    · exact Or.inl he
    · exact Or.inr (Or.inl he)
    · exact Or.inr (Or.inr (Or.inl he))
    · exact absurd he hnot
  have hfoldr : p.nestedLets goal = (p.assignments.map fun a => (a.target.symbol, a.term)).foldr
      (fun b t => .letIn [b] t)
      (Term.conj (p.constraints ++ p.objectives.map Objective.trackerEquation ++ [goal])) := by
    rw [List.foldr_map]
    rfl
  rw [hfoldr, Term.mem_mentions_foldr_letIn_iff] at he
  rcases he with ⟨before, b, after, hsplit, he, hbefore⟩ | ⟨he, hall⟩
  · obtain ⟨earlier, rest, hassignments, rfl, hrest⟩ := List.map_eq_append_iff.1 hsplit
    obtain ⟨a, later, rfl, rfl, -⟩ := List.map_eq_cons_iff.1 hrest
    rw [List.map_map] at hbefore
    exact hnone earlier (mayMention_assignment h hassignments he) hbefore
  · obtain ⟨term, hterm, he⟩ := Term.mem_mentions_conj_iff.1 he
    rw [List.map_map] at hall
    exact hnone p.assignments (mayMention_asserted h hgoal hterm he) hall

/-- The binding of a dependent input mentions the function behind it and the inputs it depends
on. -/
theorem eq_of_mem_mentions_skolemBinding {input : Input} {e : Entity}
    (he : e ∈ input.skolemBinding.2.mentions) :
    e = .function input.skolemSymbol ∨ ∃ ref ∈ input.dependsOn, e = ref.entity := by
  rw [Input.skolemBinding, Term.mentions, Term.mentionsAll_eq_flatMap, List.mem_cons,
    List.mem_flatMap] at he
  rcases he with he | ⟨_, hterm, he⟩
  · exact Or.inl he
  · obtain ⟨ref, href, rfl⟩ := List.mem_map.1 hterm
    exact Or.inr ⟨ref, href, by simpa [Ref.term, Term.mentions, Ref.entity] using he⟩

/-- The `let` for the dependent inputs hides their symbols from the assignments. -/
theorem mem_mentions_matrix {goal : Term} {e : Entity} (he : e ∈ (if p.skolemBindings.isEmpty then
      p.nestedLets goal else .letIn p.skolemBindings (p.nestedLets goal)).mentions) :
    (∃ input ∈ p.skolemInputs, e ∈ input.skolemBinding.2.mentions) ∨
      (e ∈ (p.nestedLets goal).mentions ∧ ∀ input ∈ p.skolemInputs, e ≠ input.ref.entity) := by
  split at he
  · next hempty =>
    rw [skolemBindings_eq, List.isEmpty_iff, List.map_eq_nil_iff] at hempty
    rw [hempty]
    exact Or.inr ⟨he, fun input hinput => absurd hinput List.not_mem_nil⟩
  · rw [Term.mentions, Term.mentionsBindings_eq_flatMap, List.mem_append, List.mem_flatMap,
      Entity.mem_unbound_iff, skolemBindings_eq] at he
    rcases he with ⟨_, hbinding, he⟩ | ⟨he, hunbound⟩
    · obtain ⟨input, hinput, rfl⟩ := List.mem_map.1 hbinding
      exact Or.inl ⟨input, hinput, he⟩
    · refine Or.inr ⟨he, ?_⟩
      rintro input hinput rfl
      exact hunbound (List.mem_map_of_mem (List.mem_map_of_mem (List.mem_map_of_mem hinput)))

/-- **What the quantified formula mentions**: what is built in, what the declarations introduce,
and the functions behind dependent inputs.  Every other name in it is bound by the quantifier or by
a `let`. -/
theorem mem_of_mem_mentions_closedFormula (h : p.WellScoped builtins) {goal : Term}
    (hgoal : p.goal = .ok goal) {e : Entity} (he : e ∈ (p.closedFormula goal).mentions) :
    e ∈ builtins ∨ e ∈ p.globals ∨
      ∃ input ∈ p.skolemInputs, e = .function input.skolemSymbol := by
  rw [closedFormula, Term.mentions, List.mem_append, List.mem_flatMap, Entity.mem_unbound_iff] at he
  rcases he with ⟨x, hx, he⟩ | ⟨he, hunbound⟩
  · obtain ⟨input, hinput, rfl⟩ := List.mem_map.1 hx
    have hkind := kind_mem_of_input (List.mem_filter.1 hinput).1
    exact Or.inr (Or.inl (List.mem_append_left _ (mem_sortEntities_of_kind hkind he)))
  · have hbound : ∀ input ∈ p.boundInputs, e ≠ input.ref.entity := by
      rintro input hinput rfl
      refine hunbound (List.mem_map_of_mem ?_)
      rw [boundVariables, List.map_map]
      exact List.mem_map_of_mem hinput
    rcases mem_mentions_matrix he with ⟨input, hinput, he⟩ | ⟨he, hskolem⟩
    · rcases eq_of_mem_mentions_skolemBinding he with he | ⟨ref, href, rfl⟩
      · exact Or.inr (Or.inr ⟨input, hinput, he⟩)
      · obtain ⟨bound, hmem, hid⟩ := h.depends input (mem_skolemInputs_iff.1 hinput).1 ref href
        exact absurd (Ref.entity_eq_of_id hid).symm (hbound bound hmem)
    · rcases mayMention_nestedLets h hgoal he with he | he | he | he
      · exact Or.inl he
      · exact Or.inr (Or.inl he)
      · obtain ⟨input, hinput, rfl⟩ := List.mem_map.1 he
        rcases input_cases hinput with hglobal | hmem | hmem
        · exact Or.inr (Or.inl hglobal)
        · exact absurd rfl (hskolem input hmem)
        · exact absurd rfl (hbound input hmem)
      · exact absurd he List.not_mem_nil

/-! ## The whole script -/

/-- Everything behind the declarations is in scope where what they introduce is known. -/
theorem inScope_back (h : p.WellScoped builtins) {goal : Term} (hgoal : p.goal = .ok goal)
    {known : Set Entity} (hbuiltins : builtins ⊆ known) (hglobals : ∀ e ∈ p.globals, e ∈ known)
    (hskolem : ∀ input ∈ p.skolemInputs, .function input.skolemSymbol ∈ known) :
    InScope known (p.back goal) := by
  have hfree : ∀ input ∈ p.freeInputs, ¬ input.isSkolem → input.ref.entity ∈ known :=
    fun input hinput hnot => hglobals _ (mem_globals_of_freeInputs hinput hnot)
  refine ((Command.InScope.append ?_ ?_).append ?_).append ?_
  · refine Command.inScope_of_forall fun c hc e he => ?_
    obtain ⟨postulate, hpostulate, hc⟩ := List.mem_flatMap.1 hc
    rcases List.mem_pair.1 hc with rfl | rfl
    · exact absurd he List.not_mem_nil
    · exact (h.postulates postulate hpostulate e he).elim (@hbuiltins e) (hglobals e)
  · rw [formula]
    split
    · next hempty =>
      exact inScope_openFormula hbuiltins hglobals h (List.isEmpty_iff.1 hempty) hgoal
    · refine Command.inScope_of_forall fun c hc e he => ?_
      obtain rfl := List.mem_singleton.1 hc
      rcases mem_of_mem_mentions_closedFormula h hgoal he with he | he | ⟨input, hinput, rfl⟩
      · exact hbuiltins he
      · exact hglobals e he
      · exact hskolem input hinput
  · refine Command.inScope_of_forall fun c hc e he => ?_
    obtain ⟨objective, hobjective, rfl⟩ := List.mem_map.1 hc
    obtain ⟨input, hinput, hnot, hid⟩ := h.trackers objective hobjective
    rw [objective.mentions_command, List.mem_singleton] at he
    rw [he, ← Ref.entity_eq_of_id hid]
    exact hfree input hinput hnot
  · refine Command.inScope_of_forall fun c hc e he => ?_
    rcases List.mem_cons.1 hc with rfl | hc
    · exact absurd he List.not_mem_nil
    · rcases eq_of_mem_postlude hc with ⟨input, hinput, hnot, rfl⟩ | rfl
      · have hvalue : e = input.ref.entity := by
          simpa [Command.mentions, Ref.term, Term.mentions, Ref.entity] using he
        rw [hvalue]
        exact hfree input hinput hnot
      · exact absurd he List.not_mem_nil

/-- The outline of the script is in scope. -/
theorem inScope_outline (h : p.WellScoped builtins) {sorts : List NamedSort} {goal : Term}
    (hsorts : NamedSort.ofKinds p.kinds = .ok sorts) (hgoal : p.goal = .ok goal) :
    InScope builtins (p.outline sorts goal) := by
  refine Command.inScope_append.2 ⟨inScope_declarations h hsorts, ?_⟩
  have hintroduced : ∀ e, e ∈ introduced (sorts.map NamedSort.declaration) ∨
      e ∈ introduced p.symbolCommands → e ∈ introduced
        (p.header p.kinds ++ sorts.map NamedSort.declaration ++ p.symbolCommands) := by
    intro e he
    rw [introduced_append, introduced_append, List.mem_append, List.mem_append]
    exact he.imp_left Or.inr
  refine inScope_back h hgoal Set.subset_union_left ?_ ?_
  · exact fun e he => Or.inr (hintroduced e (mem_introduced_of_globals hsorts he))
  · exact fun input hinput =>
      Or.inr (hintroduced _ (Or.inr (mem_introduced_of_skolemInputs hinput)))

/-- **A written query is in scope.**  A query is written that gives everything a name of its own
and whose terms mention only what they may.  Then no command of the session introduces a name that
is there already, and every command mentions only what is built in or introduced in front of it;
left out are the assertions about the contents of tables and arrays, which stand with the
declarations of these and can be about anything. -/
theorem inScope_script {program : Program} (hencode : p.encode = .ok program)
    (h : p.WellScoped builtins) :
    (introduced program.script.commands).Nodup ∧ ∃ front tables back,
      p.tables.mapM Table.commands = .ok tables ∧
      program.script.commands =
        front ++ (tables.flatten ++ p.arrays.flatMap ArrayDecl.commands) ++ back ∧
      InScope builtins (front ++ (tables.flatten ++ p.arrays.flatMap ArrayDecl.commands).filter
        (!·.isAssert) ++ back) := by
  obtain ⟨sorts, tables, goal, hsorts, htables, hgoal, hcommands⟩ := script_commands_eq hencode
  refine ⟨?_, _, tables, _, htables, hcommands, ?_⟩
  · rw [hcommands, introduced_outline htables]
    exact nodup_introduced_outline h hsorts goal
  · rw [outline_eq htables]
    exact inScope_outline h hsorts hgoal

/-- A query with a bound input, one that depends on it, a tracker, constants of two sorts, a
table, an array, a function, a postulate and two assignments.  An entry of the table mentions a
value that is nowhere introduced. -/
def scopedQuery : Problem where
  inputs := [{ ref := ⟨⟨0⟩, .int⟩, name := "x", quantifier := .universal },
    { ref := ⟨⟨1⟩, .int⟩, name := "y", dependsOn := [⟨⟨0⟩, .int⟩] },
    { ref := ⟨⟨2⟩, .int⟩, name := "best" }]
  constants := [(⟨⟨3⟩, .named ⟨"Color", some ["red", "green"]⟩⟩,
      .element ⟨"Color", some ["red", "green"]⟩ "green" (some 1)),
    (⟨⟨4⟩, .named ⟨"Person", none⟩⟩, .element ⟨"Person", none⟩ "bob" none)]
  tables := [{ id := 0, index := .int, element := .int, entries := [.int 7, .const "s9"] }]
  arrays := [{ id := 0, index := .int, element := .named ⟨"Color", some ["red", "green"]⟩,
               initial? := some (.const "red") }]
  functions := [⟨"rank", [.named ⟨"Person", none⟩], .int⟩]
  postulates := [⟨"bob", .app "<" [.app "rank" [.const "s4"], .const "s2"]⟩]
  assignments := [⟨⟨⟨5⟩, .int⟩, .app "+" [.const "s1", .app "table0" [.const "s2"]]⟩,
    ⟨⟨⟨6⟩, .bitVec false 1⟩,
      .ite (.app "<" [.const "s0", .const "s5"]) (.bitVec 1 1) (.bitVec 0 1)⟩]
  constraints := [.distinct [.const "s3", .select (.const "array_0") (.const "s5")]]
  output := ⟨⟨6⟩, .bitVec false 1⟩
  config := .ofSolver .z3
  objectives := [⟨"best", .maximize, ⟨⟨5⟩, .int⟩, ⟨⟨2⟩, .int⟩⟩]

/-- The names in the query that no command introduces. -/
def scopedBuiltins : Set Entity := {e | e ∈ [Entity.function "+", Entity.function "<"]}

instance : DecidablePred (· ∈ scopedBuiltins) :=
  fun e => inferInstanceAs (Decidable (e ∈ [Entity.function "+", Entity.function "<"]))

theorem wellScoped_scopedQuery : scopedQuery.WellScoped scopedBuiltins where
  nodup_values := by decide
  nodup_tables := by decide
  nodup_arrays := by decide
  nodup_names := by decide
  not_reserved := by
    intro name hname
    have hnames : scopedQuery.chosenNames = ["rank", "red", "green"] := by decide
    simp only [hnames, List.mem_cons, List.not_mem_nil, or_false] at hname
    refine Symbol.not_isReserved_of_head ?_
    rcases hname with rfl | rfl | rfl <;> simp
  index_constants := by
    intro constant hconstant sort name index? hvalue
    rcases List.mem_pair.1 hconstant with rfl | rfl <;>
      · obtain ⟨rfl, rfl, rfl⟩ := Value.element.inj hvalue
        rfl
  depends := by decide
  trackers := by decide
  objectives := by decide
  output := by decide
  postulates := by decide
  assignments := by decide
  constraints := by decide

/-- The session for the query is in scope. -/
theorem inScope_script_scopedQuery : ∃ program, scopedQuery.encode = .ok program ∧
    scopedQuery.WellScoped scopedBuiltins ∧ (introduced program.script.commands).Nodup ∧
    ∃ front tables back, scopedQuery.tables.mapM Table.commands = .ok tables ∧
      program.script.commands = front ++ (tables.flatten
        ++ scopedQuery.arrays.flatMap ArrayDecl.commands) ++ back ∧
      InScope scopedBuiltins (front ++ (tables.flatten
        ++ scopedQuery.arrays.flatMap ArrayDecl.commands).filter (!·.isAssert) ++ back) :=
  ⟨_, rfl, wellScoped_scopedQuery, inScope_script rfl wellScoped_scopedQuery⟩

end Problem
end SmtQuery
