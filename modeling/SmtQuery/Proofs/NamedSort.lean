import Mathlib
import SmtQuery.Problem.Program
import SmtQuery.Proofs.Except

/-!
# The sorts a query declares

The named sorts of a problem are collected one kind after another into a list with increasing
names.  Two sorts of one name and different elements are a fault; so where none is found, the
names tell the sorts apart, and the list holds the sorts among the kinds, each once
(`Problem.perm_of_ofKinds`).
-/

namespace SmtQuery

/-- Whether the names of the sorts increase. -/
def NamedSort.Increasing (sorts : List NamedSort) : Prop :=
  sorts.Pairwise fun a b => a.name < b.name

namespace NamedSort

variable {sort : NamedSort} {sorts result : List NamedSort}

/-- **What an insertion does**: it adds the sort and nothing else, and keeps the order. -/
theorem insert_spec (hsorts : Increasing sorts) (h : sort.insert sorts = .ok result) :
    Increasing result ∧ ∀ s, s ∈ result ↔ s = sort ∨ s ∈ sorts := by
  induction sorts generalizing result with
  | nil =>
    obtain rfl := Except.ok.inj h
    exact ⟨List.pairwise_singleton _ _, fun s => by simp⟩
  | cons other rest ih =>
    obtain ⟨hother, hrest⟩ := List.pairwise_cons.1 hsorts
    rw [insert] at h
    split at h
    · next hlt =>
      obtain rfl := Except.ok.inj h
      refine ⟨List.pairwise_cons.2 ⟨?_, hsorts⟩, fun s => List.mem_cons⟩
      intro s hs
      rcases List.mem_cons.1 hs with rfl | hs
      · exact hlt
      · exact String.lt_trans hlt (hother s hs)
    · next hnlt =>
      split at h
      · split at h
        · next heq =>
          obtain rfl := Except.ok.inj h
          refine ⟨hsorts, fun s => ?_⟩
          rw [heq, List.mem_cons, or_self_left]
        · exact absurd h (by simp)
      · next hne =>
        cases hinsert : sort.insert rest with
        | error fault =>
          rw [hinsert] at h
          exact absurd h (by simp [Except.map])
        | ok inserted =>
          rw [hinsert] at h
          obtain rfl := Except.ok.inj h
          obtain ⟨hincreasing, hmem⟩ := ih hrest hinsert
          refine ⟨List.pairwise_cons.2 ⟨?_, hincreasing⟩, fun s => ?_⟩
          · intro s hs
            rcases (hmem s).1 hs with rfl | hs
            · -- neither below the first name nor equal to it, so above it
              by_contra hge
              exact hne (String.lt_antisymm hnlt hge)
            · exact hother s hs
          · rw [List.mem_cons, List.mem_cons, hmem, or_left_comm]

/-- Collecting sorts adds those among the kinds. -/
theorem foldlM_spec {kinds : List Kind} (hsorts : Increasing sorts)
    (h : kinds.foldlM (fun sorts kind =>
      match kind with
      | .named sort => sort.insert sorts
      | _ => .ok sorts) sorts = .ok result) :
    Increasing result ∧ ∀ s, s ∈ result ↔ .named s ∈ kinds ∨ s ∈ sorts := by
  induction kinds generalizing sorts with
  | nil =>
    obtain rfl := Except.ok.inj h
    exact ⟨hsorts, fun s => by simp⟩
  | cons kind kinds ih =>
    rw [List.foldlM_cons] at h
    obtain ⟨next, hnext, hrest⟩ := Except.bind_eq_ok_iff.1 h
    cases kind with
    | named sort =>
      obtain ⟨hincreasing, hmem⟩ := insert_spec hsorts hnext
      obtain ⟨hresult, hall⟩ := ih hincreasing hrest
      refine ⟨hresult, fun s => ?_⟩
      rw [hall, hmem, List.mem_cons, Kind.named.injEq, or_left_comm, or_assoc]
    | _ =>
      obtain rfl := Except.ok.inj hnext
      obtain ⟨hresult, hall⟩ := ih hsorts hrest
      refine ⟨hresult, fun s => ?_⟩
      rw [hall, List.mem_cons]
      simp

/-- **What is collected from the kinds**: the named sorts among them, with increasing names. -/
theorem ofKinds_spec {kinds : List Kind} (h : ofKinds kinds = .ok result) :
    Increasing result ∧ ∀ s, s ∈ result ↔ .named s ∈ kinds := by
  obtain ⟨hincreasing, hmem⟩ := foldlM_spec List.Pairwise.nil h
  refine ⟨hincreasing, fun s => ?_⟩
  rw [hmem, or_iff_left List.not_mem_nil]

/-- Increasing names differ. -/
theorem Increasing.nodup_names (h : Increasing sorts) : (sorts.map NamedSort.name).Nodup := by
  rw [List.Nodup, List.pairwise_map]
  refine h.imp ?_
  intro a b hlt heq
  rw [heq] at hlt
  exact String.lt_irrefl b.name hlt

end NamedSort

/-- The sort of a named kind. -/
def Kind.named? : Kind → Option NamedSort
  | .named sort => some sort
  | _ => none

theorem Kind.named?_eq_some_iff {kind : Kind} {sort : NamedSort} :
    kind.named? = some sort ↔ kind = .named sort := by
  cases kind <;> simp [Kind.named?]

namespace Problem

variable {p : Problem}

/-! ## Mentioned kinds -/

theorem kind_mem_of_input {input : Input} (h : input ∈ p.inputs) :
    input.kind ∈ p.mentionedKinds := by
  have hmem : input.kind ∈
      p.inputs.flatMap fun input => input.kind :: input.dependsOn.map Ref.kind :=
    List.mem_flatMap.2 ⟨input, h, List.mem_cons_self⟩
  simp only [mentionedKinds, List.mem_append, hmem, true_or, or_true]

theorem kind_mem_of_dependsOn {input : Input} (h : input ∈ p.inputs) {ref : Ref}
    (href : ref ∈ input.dependsOn) : ref.kind ∈ p.mentionedKinds := by
  have hmem : ref.kind ∈
      p.inputs.flatMap fun input => input.kind :: input.dependsOn.map Ref.kind :=
    List.mem_flatMap.2 ⟨input, h, List.mem_cons_of_mem _ (List.mem_map_of_mem href)⟩
  simp only [mentionedKinds, List.mem_append, hmem, true_or, or_true]

theorem kind_mem_of_constant {constant : Ref × Value} (h : constant ∈ p.constants) :
    constant.1.kind ∈ p.mentionedKinds ∧ constant.2.kind ∈ p.mentionedKinds := by
  have hmem : ∀ kind ∈ [constant.1.kind, constant.2.kind],
      kind ∈ p.constants.flatMap fun c => [c.1.kind, c.2.kind] :=
    fun kind hkind => List.mem_flatMap.2 ⟨constant, h, hkind⟩
  rw [List.forall_mem_cons, List.forall_mem_singleton] at hmem
  simp only [mentionedKinds, List.mem_append, hmem, true_or, or_true, and_self]

theorem kind_mem_of_table {table : Table} (h : table ∈ p.tables) :
    table.index ∈ p.mentionedKinds ∧ table.element ∈ p.mentionedKinds := by
  have hmem : ∀ kind ∈ [table.index, table.element],
      kind ∈ p.tables.flatMap fun table => [table.index, table.element] :=
    fun kind hkind => List.mem_flatMap.2 ⟨table, h, hkind⟩
  rw [List.forall_mem_cons, List.forall_mem_singleton] at hmem
  simp only [mentionedKinds, List.mem_append, hmem, true_or, or_true, and_self]

theorem kind_mem_of_array {array : ArrayDecl} (h : array ∈ p.arrays) :
    array.index ∈ p.mentionedKinds ∧ array.element ∈ p.mentionedKinds := by
  have hmem : ∀ kind ∈ [array.index, array.element],
      kind ∈ p.arrays.flatMap fun array => [array.index, array.element] :=
    fun kind hkind => List.mem_flatMap.2 ⟨array, h, hkind⟩
  rw [List.forall_mem_cons, List.forall_mem_singleton] at hmem
  simp only [mentionedKinds, List.mem_append, hmem, true_or, or_true, and_self]

theorem kind_mem_of_function {function : FunctionDecl} (h : function ∈ p.functions) :
    ∀ kind ∈ function.parameters ++ [function.result], kind ∈ p.mentionedKinds := by
  intro kind hkind
  have hmem : kind ∈
      p.functions.flatMap fun function => function.parameters ++ [function.result] :=
    List.mem_flatMap.2 ⟨function, h, hkind⟩
  simp only [mentionedKinds, List.mem_append, hmem, true_or, or_true]

theorem kind_mem_of_assignment {a : Assignment} (h : a ∈ p.assignments) :
    a.target.kind ∈ p.mentionedKinds := by
  have hmem : a.target.kind ∈ p.assignments.map fun a => a.target.kind :=
    List.mem_map_of_mem h
  simp only [mentionedKinds, List.mem_append, hmem, true_or, or_true]

/-! ## Mentioned sorts -/

/-- The named sorts that a problem mentions. -/
def namedSorts (p : Problem) : List NamedSort := p.kinds.filterMap Kind.named?

theorem mem_namedSorts_iff {sort : NamedSort} :
    sort ∈ p.namedSorts ↔ .named sort ∈ p.mentionedKinds := by
  rw [namedSorts, List.mem_filterMap, kinds]
  simp only [List.mem_eraseDups, Kind.named?_eq_some_iff]
  exact exists_eq_right

/-- Every kind is kept once. -/
theorem nodup_eraseDups : ∀ kinds : List Kind, kinds.eraseDups.Nodup
  | [] => List.nodup_nil
  | kind :: kinds => by
    rw [List.eraseDups_cons, List.nodup_cons]
    refine ⟨?_, nodup_eraseDups _⟩
    rw [List.mem_eraseDups, List.mem_filter]
    simp
termination_by kinds => kinds.length
decreasing_by exact Nat.lt_succ_of_le (List.length_filter_le _ _)

theorem nodup_namedSorts : p.namedSorts.Nodup := by
  refine List.Nodup.filterMap ?_ (nodup_eraseDups p.mentionedKinds)
  intro a b sort ha hb
  rw [Option.mem_def, Kind.named?_eq_some_iff] at ha hb
  rw [ha, hb]

/-- **The sorts that are declared** are those that the problem mentions, in order of their
names. -/
theorem perm_of_ofKinds {sorts : List NamedSort} (h : NamedSort.ofKinds p.kinds = .ok sorts) :
    sorts.Perm p.namedSorts := by
  obtain ⟨hincreasing, hmem⟩ := NamedSort.ofKinds_spec h
  rw [List.perm_ext_iff_of_nodup hincreasing.nodup_names.of_map nodup_namedSorts]
  intro sort
  rw [hmem, mem_namedSorts_iff, kinds, List.mem_eraseDups]

end Problem
end SmtQuery
