import Mathlib

/-!
# Computations that may fail

How a computation that succeeded is taken apart: a sequence into its steps, a map over a list
into what it gives for each member, and a fold over a list into the invariant that each of its
steps keeps.  A fold that failed is taken apart at the step that did.
-/

namespace SmtQuery
namespace Except

variable {ε α β : Type}

/-- A sequence succeeds if its first part does and the second does on what the first gives. -/
theorem bind_eq_ok_iff {x : Except ε α} {f : α → Except ε β} {b : β} :
    x >>= f = .ok b ↔ ∃ a, x = .ok a ∧ f a = .ok b := by
  cases x with
  | error e =>
    refine ⟨fun h => absurd h (by simp [bind, Except.bind]), ?_⟩
    rintro ⟨_, h, -⟩
    exact absurd h (by simp)
  | ok a =>
    refine ⟨fun h => ⟨a, rfl, h⟩, ?_⟩
    rintro ⟨_, ha, h⟩
    exact Except.ok.inj ha ▸ h

/-- A sequence fails where its first part does, or the second on what the first gives. -/
theorem bind_eq_error_iff {x : Except ε α} {f : α → Except ε β} {e : ε} :
    x >>= f = .error e ↔ x = .error e ∨ ∃ a, x = .ok a ∧ f a = .error e := by
  cases x with
  | error e' => simp [bind, Except.bind]
  | ok a => simp [bind, Except.bind]

/-- What is done with a result at the end does not fail. -/
theorem bind_pure_eq_error_iff {x : Except ε α} {f : α → β} {e : ε} :
    (x >>= fun a => pure (f a)) = .error e ↔ x = .error e := by
  cases x with
  | error e' => simp [bind, Except.bind]
  | ok a => simp [bind, Except.bind, pure, Except.pure]

/-- **A computation that fails in one case only** succeeds in every other. -/
theorem exists_eq_ok_iff {x : Except ε α} {P : Prop} {fault : ε}
    (h : ∀ e, x = .error e ↔ ¬ P ∧ e = fault) : (∃ a, x = .ok a) ↔ P := by
  cases x with
  | error e =>
    have hP : ¬ P := ((h e).1 rfl).1
    simp [hP]
  | ok a =>
    have hP : P := by
      by_contra hP
      exact absurd ((h fault).2 ⟨hP, rfl⟩) (by simp)
    simp [hP]

/-- What a result is changed into. -/
theorem map_eq_ok_iff {x : Except ε α} {f : α → β} {b : β} :
    x.map f = .ok b ↔ ∃ a, x = .ok a ∧ f a = b := by
  cases x with
  | error e => simp [Except.map]
  | ok a => simp [Except.map]

/-- Changing a result leaves an error as it is. -/
theorem map_eq_error_iff {x : Except ε α} {f : α → β} {e : ε} :
    x.map f = .error e ↔ x = .error e := by
  cases x with
  | error e' => simp [Except.map]
  | ok a => simp [Except.map]

/-- A map over a list succeeds if it does for every member, and gives what it gives for each. -/
theorem mapM_eq_ok_iff {f : α → Except ε β} {xs : List α} {ys : List β} :
    xs.mapM f = .ok ys ↔ List.Forall₂ (fun x y => f x = .ok y) xs ys := by
  induction xs generalizing ys with
  | nil =>
    rw [List.mapM_nil, List.forall₂_nil_left_iff]
    exact ⟨fun h => (Except.ok.inj h).symm, fun h => h ▸ rfl⟩
  | cons x xs ih =>
    rw [List.mapM_cons, bind_eq_ok_iff, List.forall₂_cons_left_iff]
    constructor
    · rintro ⟨y, hy, h⟩
      obtain ⟨rest, hrest, h⟩ := bind_eq_ok_iff.1 h
      exact ⟨y, rest, hy, ih.1 hrest, (Except.ok.inj h).symm⟩
    · rintro ⟨y, rest, hy, hrest, rfl⟩
      exact ⟨y, hy, bind_eq_ok_iff.2 ⟨rest, ih.2 hrest, rfl⟩⟩

/-- A map over two lists succeeds if it does over each. -/
theorem mapM_append_eq_ok_iff {f : α → Except ε β} {xs xs' : List α} {zs : List β} :
    (xs ++ xs').mapM f = .ok zs ↔
      ∃ ys ys', xs.mapM f = .ok ys ∧ xs'.mapM f = .ok ys' ∧ zs = ys ++ ys' := by
  rw [List.mapM_append, bind_eq_ok_iff]
  constructor
  · rintro ⟨ys, hys, h⟩
    obtain ⟨ys', hys', h⟩ := bind_eq_ok_iff.1 h
    exact ⟨ys, ys', hys, hys', (Except.ok.inj h).symm⟩
  · rintro ⟨ys, ys', hys, hys', rfl⟩
    exact ⟨ys, hys, bind_eq_ok_iff.2 ⟨ys', hys', rfl⟩⟩

/-- A map over a list succeeds if it does for every member. -/
theorem exists_mapM_eq_ok_iff {f : α → Except ε β} {xs : List α} :
    (∃ ys, xs.mapM f = .ok ys) ↔ ∀ x ∈ xs, ∃ y, f x = .ok y := by
  simp only [mapM_eq_ok_iff]
  induction xs with
  | nil => simp
  | cons x xs ih =>
    rw [List.forall_mem_cons, ← ih]
    constructor
    · rintro ⟨_, hall⟩
      cases hall with
      | cons hx hxs => exact ⟨⟨_, hx⟩, _, hxs⟩
    · rintro ⟨⟨y, hx⟩, ys, hxs⟩
      exact ⟨y :: ys, .cons hx hxs⟩

/-- **Where a map fails**: at the first member for which it does. -/
theorem mapM_eq_error_iff {f : α → Except ε β} {xs : List α} {e : ε} :
    xs.mapM f = .error e ↔ ∃ front x back, xs = front ++ x :: back ∧
      (∀ y ∈ front, ∃ b, f y = .ok b) ∧ f x = .error e := by
  induction xs with
  | nil =>
    rw [List.mapM_nil]
    refine ⟨fun h => absurd h (by simp [pure, Except.pure]), ?_⟩
    rintro ⟨front, x, back, hsplit, -⟩
    exact absurd hsplit (by simp)
  | cons x xs ih =>
    rw [List.mapM_cons]
    cases hx : f x with
    | error e' =>
      show Except.error e' = Except.error e ↔ _
      constructor
      · intro h
        obtain rfl := Except.error.inj h
        exact ⟨[], x, xs, rfl, fun y hy => absurd hy List.not_mem_nil, hx⟩
      · rintro ⟨front, y, back, hsplit, hfront, hy⟩
        cases front with
        | nil =>
          obtain ⟨rfl, -⟩ := List.cons.inj hsplit
          rw [Except.error.inj (hx.symm.trans hy)]
        | cons z front =>
          obtain ⟨rfl, -⟩ := List.cons.inj hsplit
          obtain ⟨b, hb⟩ := hfront x List.mem_cons_self
          exact absurd (hx.symm.trans hb) (by simp)
    | ok b =>
      have hrest : (Except.ok b >>= fun y => xs.mapM f >>= fun ys => pure (y :: ys)) = .error e ↔
          xs.mapM f = .error e := by
        cases xs.mapM f <;> simp [bind, Except.bind, pure, Except.pure]
      rw [hrest, ih]
      constructor
      · rintro ⟨front, y, back, rfl, hfront, hy⟩
        exact ⟨x :: front, y, back, rfl, List.forall_mem_cons.2 ⟨⟨b, hx⟩, hfront⟩, hy⟩
      · rintro ⟨front, y, back, hsplit, hfront, hy⟩
        cases front with
        | nil =>
          obtain ⟨rfl, -⟩ := List.cons.inj hsplit
          exact absurd (hx.symm.trans hy) (by simp)
        | cons z front =>
          obtain ⟨rfl, rfl⟩ := List.cons.inj hsplit
          exact ⟨front, y, back, rfl, (List.forall_mem_cons.1 hfront).2, hy⟩

/-- A map over the members in another order gives its results in another order. -/
theorem exists_mapM_of_perm {f : α → Except ε β} {xs xs' : List α} {ys : List β}
    (hxs : xs.Perm xs') (h : xs.mapM f = .ok ys) :
    ∃ ys', xs'.mapM f = .ok ys' ∧ ys.Perm ys' := by
  obtain ⟨ys', hall, hperm⟩ := List.perm_comp_forall₂ hxs.symm (mapM_eq_ok_iff.1 h)
  exact ⟨ys', mapM_eq_ok_iff.2 hall, hperm.symm⟩

/-- What a map gives contains what it gives for a member. -/
theorem exists_mem_of_mapM {f : α → Except ε β} {xs : List α} {ys : List β}
    (h : xs.mapM f = .ok ys) {x : α} (hx : x ∈ xs) : ∃ y ∈ ys, f x = .ok y := by
  have hall := mapM_eq_ok_iff.1 h
  clear h
  induction hall with
  | nil => exact absurd hx List.not_mem_nil
  | @cons a b as bs hab _ ih =>
    rcases List.mem_cons.1 hx with rfl | hx
    · exact ⟨b, List.mem_cons_self, hab⟩
    · obtain ⟨y, hy, hxy⟩ := ih hx
      exact ⟨y, List.mem_cons_of_mem b hy, hxy⟩

/-- What a map gives comes from a member. -/
theorem exists_of_mem_mapM {f : α → Except ε β} {xs : List α} {ys : List β}
    (h : xs.mapM f = .ok ys) {y : β} (hy : y ∈ ys) : ∃ x ∈ xs, f x = .ok y := by
  have hall := mapM_eq_ok_iff.1 h
  clear h
  induction hall with
  | nil => exact absurd hy List.not_mem_nil
  | @cons a b as bs hab _ ih =>
    rcases List.mem_cons.1 hy with rfl | hy
    · exact ⟨a, List.mem_cons_self, hab⟩
    · obtain ⟨x, hx, hxy⟩ := ih hy
      exact ⟨x, List.mem_cons_of_mem a hx, hxy⟩

/-- **Invariants of a fold.**  What holds at the start and is kept by every successful step holds
at the end. -/
theorem foldlM_induction {P : β → Prop} {f : β → α → Except ε β} {xs : List α} {start final : β}
    (hstart : P start)
    (hstep : ∀ x ∈ xs, ∀ state next, P state → f state x = .ok next → P next)
    (hrun : xs.foldlM f start = .ok final) : P final := by
  induction xs generalizing start with
  | nil =>
    rw [← Except.ok.inj hrun]
    exact hstart
  | cons x xs ih =>
    rw [List.foldlM_cons] at hrun
    obtain ⟨next, hnext, hrest⟩ := bind_eq_ok_iff.1 hrun
    exact ih (hstep x List.mem_cons_self start next hstart hnext)
      (fun y hy => hstep y (List.mem_cons_of_mem _ hy)) hrest

/-- **Where a fold fails**: at one of its steps, behind a run without failure. -/
theorem exists_of_foldlM_eq_error {f : β → α → Except ε β} {xs : List α} {start : β} {e : ε}
    (h : xs.foldlM f start = .error e) :
    ∃ front x back state, xs = front ++ x :: back ∧ front.foldlM f start = .ok state ∧
      f state x = .error e := by
  induction xs generalizing start with
  | nil => exact absurd h (by simp [pure, Except.pure])
  | cons x xs ih =>
    rw [List.foldlM_cons] at h
    cases hx : f start x with
    | error e' =>
      rw [hx] at h
      exact ⟨[], x, xs, start, rfl, rfl, hx.trans h⟩
    | ok next =>
      rw [hx] at h
      obtain ⟨front, y, back, state, rfl, hrun, hy⟩ := ih h
      refine ⟨x :: front, y, back, state, rfl, ?_, hy⟩
      rw [List.foldlM_cons, hx]
      exact hrun

end Except
end SmtQuery
