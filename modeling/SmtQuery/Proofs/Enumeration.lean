import Mathlib
import SmtQuery.Proofs.Encode
import SmtQuery.Proofs.NamedSort

/-!
# The order of the kinds

The kinds that a problem mentions are a set, and a set can be enumerated in any order.  Writing a
query looks at them three times: the gate and the choice of the logic ask which kinds there are,
and the sorts in use are collected from them one after another.  The collection stops at the first
kind that names a sort in another way than one before it.

* `Conflicting kinds name` says that the kinds name a sort in two ways, and
  `exists_ofKinds_eq_ok_iff` that sorts can be collected exactly if no name is conflicting.  Then
  they are the same for every order (`ofKinds_eq_ok_of_perm`).
* Otherwise the fault names a conflicting sort (`exists_conflicting_of_ofKinds`), and every one of
  them is the one that is named if its two kinds come first (`exists_perm_ofKinds`).

So the order shows in what is reported, and only where two names are conflicting
(`Problem.encodeWith_eq_iff`).
-/

namespace SmtQuery

namespace NamedSort

variable {sort : NamedSort} {sorts : List NamedSort} {kinds kinds' : List Kind} {fault : Fault}
  {name : String}

/-- Whether two of the kinds name a sort and disagree on its elements. -/
def Conflicting (kinds : List Kind) (name : String) : Prop :=
  ∃ a b : NamedSort, .named a ∈ kinds ∧ .named b ∈ kinds ∧ a.name = name ∧ b.name = name ∧ a ≠ b

/-- Which names are conflicting does not depend on the order. -/
theorem Conflicting.perm (h : Conflicting kinds name) (hkinds : kinds.Perm kinds') :
    Conflicting kinds' name := by
  obtain ⟨a, b, ha, hb, hname⟩ := h
  exact ⟨a, b, hkinds.mem_iff.1 ha, hkinds.mem_iff.1 hb, hname⟩

/-- An insertion fails at a sort of the same name and other elements. -/
theorem exists_of_insert_eq_error (h : sort.insert sorts = .error fault) :
    fault = .conflictingSort sort.name ∧
      ∃ other ∈ sorts, other.name = sort.name ∧ sort ≠ other := by
  induction sorts with
  | nil => exact absurd h (by simp [insert])
  | cons other rest ih =>
    rw [insert] at h
    split at h
    · exact absurd h (by simp)
    split at h
    · next hname =>
      split at h
      · exact absurd h (by simp)
      · next hne =>
        exact ⟨(Except.error.inj h).symm, other, List.mem_cons_self, hname.symm, hne⟩
    · cases hinsert : sort.insert rest with
      | ok inserted =>
        rw [hinsert] at h
        exact absurd h (by simp [Except.map])
      | error e =>
        rw [hinsert] at h
        obtain ⟨hfault, other', hmem, hother⟩ := ih (hinsert.trans h)
        exact ⟨hfault, other', List.mem_cons_of_mem _ hmem, hother⟩

/-- **What a fault is about**: a name that the kinds use in two ways. -/
theorem exists_conflicting_of_ofKinds (h : ofKinds kinds = .error fault) :
    ∃ name, Conflicting kinds name ∧ fault = .conflictingSort name := by
  obtain ⟨front, kind, back, state, rfl, hfront, hstep⟩ := Except.exists_of_foldlM_eq_error h
  cases kind with
  | named sort =>
    obtain ⟨hfault, other, hother, hname, hne⟩ := exists_of_insert_eq_error hstep
    have hmem : Kind.named other ∈ front := ((ofKinds_spec hfront).2 other).1 hother
    exact ⟨sort.name, ⟨sort, other, List.mem_append_right _ List.mem_cons_self,
      List.mem_append_left _ hmem, rfl, hname, hne⟩, hfault⟩
  | _ => exact absurd hstep (by simp)

/-- Where sorts are collected, the names tell them apart. -/
theorem not_conflicting_of_ofKinds (h : ofKinds kinds = .ok sorts) : ¬ Conflicting kinds name := by
  rintro ⟨a, b, ha, hb, rfl, hname, hne⟩
  obtain ⟨hincreasing, hmem⟩ := ofKinds_spec h
  exact hne (List.inj_on_of_nodup_map hincreasing.nodup_names ((hmem a).2 ha) ((hmem b).2 hb)
    hname.symm)

/-- **When sorts can be collected**: if no name is used in two ways. -/
theorem exists_ofKinds_eq_ok_iff :
    (∃ sorts, ofKinds kinds = .ok sorts) ↔ ∀ name, ¬ Conflicting kinds name := by
  refine ⟨fun ⟨sorts, hsorts⟩ name => not_conflicting_of_ofKinds hsorts, fun h => ?_⟩
  cases hkinds : ofKinds kinds with
  | ok sorts => exact ⟨sorts, rfl⟩
  | error fault =>
    obtain ⟨name, hname, -⟩ := exists_conflicting_of_ofKinds hkinds
    exact absurd hname (h name)

/-- Sorts with increasing names are known by which sorts they are. -/
theorem Increasing.eq_of_mem_iff {sorts' : List NamedSort} (h : Increasing sorts)
    (h' : Increasing sorts') (hmem : ∀ s, s ∈ sorts ↔ s ∈ sorts') : sorts = sorts' := by
  have hperm : sorts.Perm sorts' :=
    (List.perm_ext_iff_of_nodup h.nodup_names.of_map h'.nodup_names.of_map).2 hmem
  refine hperm.eq_of_pairwise (fun a b _ _ hab hba => ?_) h h'
  exact absurd (String.lt_trans hab hba) (String.lt_irrefl a.name)

/-- **Collected sorts do not depend on the order.** -/
theorem ofKinds_eq_ok_of_perm (hkinds : kinds.Perm kinds') (h : ofKinds kinds = .ok sorts) :
    ofKinds kinds' = .ok sorts := by
  have hnone : ∀ name, ¬ Conflicting kinds' name :=
    fun name hname => not_conflicting_of_ofKinds h (hname.perm hkinds.symm)
  obtain ⟨sorts', hsorts'⟩ := exists_ofKinds_eq_ok_iff.2 hnone
  obtain ⟨hincreasing, hmem⟩ := ofKinds_spec h
  obtain ⟨hincreasing', hmem'⟩ := ofKinds_spec hsorts'
  rw [hsorts', hincreasing.eq_of_mem_iff hincreasing' fun s => by rw [hmem, hmem', hkinds.mem_iff]]

/-- **Every conflicting name is reported in some order**: in one with its two kinds in front. -/
theorem exists_perm_ofKinds (h : Conflicting kinds name) :
    ∃ kinds', kinds'.Perm kinds ∧ ofKinds kinds' = .error (.conflictingSort name) := by
  obtain ⟨a, b, ha, hb, rfl, hname, hne⟩ := h
  have hb' : Kind.named b ∈ kinds.erase (.named a) :=
    (List.mem_erase_of_ne fun heq => hne (Kind.named.inj heq).symm).2 hb
  refine ⟨.named b :: .named a :: (kinds.erase (.named a)).erase (.named b), ?_, ?_⟩
  · have hfront := (List.perm_cons_erase ha).trans ((List.perm_cons_erase hb').cons (.named a))
    exact ((List.Perm.swap _ _ _).trans hfront.symm)
  · have hlt : ¬ a.name < b.name := fun hlt => String.lt_irrefl b.name (hname ▸ hlt)
    have hinsert : a.insert [b] = .error (.conflictingSort a.name) := by
      rw [insert, if_neg hlt, if_pos hname.symm, if_neg hne]
    -- what comes behind these two is not looked at
    show (a.insert [b] >>= fun sorts => List.foldlM _ sorts _) = _
    rw [hinsert]
    rfl

end NamedSort

namespace Problem

open NamedSort

variable {p : Problem} {kinds kinds' : List Kind}

/-! ## What asks which kinds there are -/

theorem uses_of_perm (hkinds : kinds.Perm kinds') (feature : Feature) :
    p.uses kinds feature = p.uses kinds' feature := by
  cases feature with
  | ints | reals | singleFloats | doubleFloats => exact hkinds.contains_eq
  | namedSorts => exact hkinds.any_eq
  | quantifiers | optimization => rfl

/-- The gate asks which kinds there are. -/
theorem rejection?_of_perm (hkinds : kinds.Perm kinds') (caps : Capabilities) :
    p.rejection? kinds caps = p.rejection? kinds' caps := by
  simp only [rejection?, uses_of_perm hkinds]

/-- So does the choice of the logic. -/
theorem logic_of_perm (hkinds : kinds.Perm kinds') : p.logic kinds = p.logic kinds' := by
  have htheory : theory? kinds = theory? kinds' := by
    simp only [theory?, hkinds.any_eq, hkinds.contains_eq]
  rw [logic, logic, htheory, hasFunctions, hasFunctions, hkinds.any_eq]

theorem header_of_perm (hkinds : kinds.Perm kinds') : p.header kinds = p.header kinds' := by
  rw [header, header, logic_of_perm hkinds]

/-! ## What a query is written as -/

/-- A query that the solver cannot take is rejected for the same reason in every order. -/
theorem encodeWith_of_rejection {rejection : Rejection} (hkinds : kinds.Perm kinds')
    (h : p.rejection? kinds' p.config.capabilities = some rejection) :
    p.encodeWith kinds = .error (rejection.error p.config.capabilities.name) := by
  rw [encodeWith, rejection?_of_perm hkinds, h]

/-- A query without a conflict is written in the same way in every order. -/
theorem encodeWith_of_ofKinds {sorts : List NamedSort} (hkinds : kinds.Perm kinds')
    (h : ofKinds kinds = .ok sorts) : p.encodeWith kinds = p.encodeWith kinds' := by
  rw [encodeWith, encodeWith, rejection?_of_perm hkinds, preamble, preamble, h,
    ofKinds_eq_ok_of_perm hkinds h, header_of_perm hkinds]

/-- A query with a conflict is not written. -/
theorem encodeWith_of_fault {fault : Fault}
    (hgate : p.rejection? kinds p.config.capabilities = none) (h : ofKinds kinds = .error fault) :
    p.encodeWith kinds = .error (.invalidProblem fault.text) := by
  rw [encodeWith, hgate, preamble, h]
  rfl

/-- The message tells which sort is meant. -/
theorem conflictingSort_text_inj {a b : String}
    (h : (Fault.conflictingSort a).text = (Fault.conflictingSort b).text) : a = b := by
  have happend : "sort " ++ a ++ " is declared with conflicting elements" =
      "sort " ++ b ++ " is declared with conflicting elements" := h
  exact (String.append_right_inj _).1 ((String.append_left_inj _).1 happend)

/-- **Two orders of the kinds** make no difference, apart from which of two conflicting sorts is
reported. -/
theorem encodeWith_eq_or (p : Problem) (hkinds : kinds.Perm p.kinds)
    (hkinds' : kinds'.Perm p.kinds) :
    p.encodeWith kinds = p.encodeWith kinds' ∨
      p.rejection? p.kinds p.config.capabilities = none ∧
      ∃ a b, a ≠ b ∧ Conflicting p.kinds a ∧ Conflicting p.kinds b ∧
        p.encodeWith kinds = .error (.invalidProblem (Fault.conflictingSort a).text) ∧
        p.encodeWith kinds' = .error (.invalidProblem (Fault.conflictingSort b).text) := by
  cases hgate : p.rejection? p.kinds p.config.capabilities with
  | some rejection =>
    refine Or.inl ?_
    rw [encodeWith_of_rejection hkinds hgate, encodeWith_of_rejection hkinds' hgate]
  | none =>
    have hboth : kinds.Perm kinds' := hkinds.trans hkinds'.symm
    cases hsorts : ofKinds kinds with
    | ok sorts => exact Or.inl (encodeWith_of_ofKinds hboth hsorts)
    | error fault =>
      cases hsorts' : ofKinds kinds' with
      | ok sorts => exact Or.inl (encodeWith_of_ofKinds hboth.symm hsorts').symm
      | error fault' =>
        obtain ⟨a, ha, rfl⟩ := exists_conflicting_of_ofKinds hsorts
        obtain ⟨b, hb, rfl⟩ := exists_conflicting_of_ofKinds hsorts'
        have hleft := encodeWith_of_fault ((rejection?_of_perm hkinds _).trans hgate) hsorts
        have hright := encodeWith_of_fault ((rejection?_of_perm hkinds' _).trans hgate) hsorts'
        rcases eq_or_ne a b with rfl | hne
        · exact Or.inl (hleft.trans hright.symm)
        · exact Or.inr ⟨rfl, a, b, hne, ha.perm hkinds, hb.perm hkinds', hleft, hright⟩

/-- A query that is written in one order of its kinds is written so in every order. -/
theorem encodeWith_eq_encode (hkinds : kinds.Perm p.kinds) {a : Program}
    (h : p.encodeWith kinds = .ok a ∨ p.encode = .ok a) : p.encodeWith kinds = p.encode := by
  rcases encodeWith_eq_or p hkinds (List.Perm.refl p.kinds) with heq | ⟨-, x, y, -, -, -, hx, hy⟩
  · exact heq
  · rcases h with h | h
    · exact absurd (hx.symm.trans h) (by simp)
    · exact absurd (hy.symm.trans h) (by simp)

/-- **When the order of the kinds makes no difference.**  The kinds of a problem can be enumerated
in any order.  All orders lead to the same program, or to the same error with the same message,
exactly if the solver cannot take the problem or at most one sort is conflicting.  And where two
orders lead to different results, both are the fault of a conflicting sort, of one sort here and of
another there. -/
theorem encodeWith_eq_iff (p : Problem) :
    ((∀ kinds kinds', kinds.Perm p.kinds → kinds'.Perm p.kinds →
        p.encodeWith kinds = p.encodeWith kinds') ↔
      (p.rejection? p.kinds p.config.capabilities = none →
        ∀ a b, Conflicting p.kinds a → Conflicting p.kinds b → a = b)) ∧
    ∀ kinds kinds', kinds.Perm p.kinds → kinds'.Perm p.kinds →
      p.encodeWith kinds = p.encodeWith kinds' ∨
      ∃ a b, a ≠ b ∧ Conflicting p.kinds a ∧ Conflicting p.kinds b ∧
        p.encodeWith kinds = .error (.invalidProblem (Fault.conflictingSort a).text) ∧
        p.encodeWith kinds' = .error (.invalidProblem (Fault.conflictingSort b).text) := by
  refine ⟨⟨fun h hgate a b ha hb => ?_, fun h kinds kinds' hkinds hkinds' => ?_⟩,
    fun kinds kinds' hkinds hkinds' => (encodeWith_eq_or p hkinds hkinds').imp_right And.right⟩
  · -- in one order the one sort is reported, in another the other
    obtain ⟨kinds, hkinds, hsorts⟩ := exists_perm_ofKinds ha
    obtain ⟨kinds', hkinds', hsorts'⟩ := exists_perm_ofKinds hb
    have heq := h kinds kinds' hkinds hkinds'
    rw [encodeWith_of_fault ((rejection?_of_perm hkinds _).trans hgate) hsorts,
      encodeWith_of_fault ((rejection?_of_perm hkinds' _).trans hgate) hsorts'] at heq
    exact conflictingSort_text_inj (Error.invalidProblem.inj (Except.error.inj heq))
  · rcases encodeWith_eq_or p hkinds hkinds' with heq | ⟨hgate, a, b, hne, ha, hb, -⟩
    · exact heq
    · exact absurd (h hgate a b ha hb) hne

/-- A query that names two sorts in two ways each. -/
def conflictedQuery : Problem where
  output := ⟨⟨0⟩, .bitVec false 1⟩
  config := { solver := .z3, capabilities := .ofList "Sorts" [.namedSorts] }
  notedKinds := [.named ⟨"Apple", none⟩, .named ⟨"Apple", some ["a"]⟩, .named ⟨"Zebra", none⟩,
    .named ⟨"Zebra", some ["z"]⟩]

/-- One order of its kinds leads to the fault of the one sort, the reverse order to that of the
other. -/
theorem encodeWith_ne_conflictedQuery : ¬ ∀ (p : Problem) (kinds kinds' : List Kind),
    kinds.Perm p.kinds → kinds'.Perm p.kinds → p.encodeWith kinds = p.encodeWith kinds' := by
  intro h
  have heq := h conflictedQuery conflictedQuery.kinds conflictedQuery.kinds.reverse
    (List.Perm.refl _) (List.reverse_perm _)
  have hforward : conflictedQuery.encodeWith conflictedQuery.kinds =
      .error (.invalidProblem (Fault.conflictingSort "Apple").text) := rfl
  have hbackward : conflictedQuery.encodeWith conflictedQuery.kinds.reverse =
      .error (.invalidProblem (Fault.conflictingSort "Zebra").text) := rfl
  rw [hforward, hbackward] at heq
  exact absurd (conflictingSort_text_inj (Error.invalidProblem.inj (Except.error.inj heq)))
    (by decide)

end Problem
end SmtQuery
