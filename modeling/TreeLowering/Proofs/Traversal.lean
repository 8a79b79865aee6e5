import Mathlib.Data.List.Forall2

/-!
# Computations that may fail, one after the other

A computation in two steps succeeds when both steps do. Going over a list succeeds when every
item does; it fails when some item does, with the error of the first one.
-/

namespace TreeLowering

variable {ε α β : Type}

theorem bind_eq_ok {first : Except ε α} {further : α → Except ε β} {b : β} :
    first >>= further = .ok b ↔ ∃ a, first = .ok a ∧ further a = .ok b := by
  cases first with
  | error e => exact ⟨nofun, nofun⟩
  | ok a => exact ⟨fun h => ⟨a, rfl, h⟩, fun ⟨_, ha, h⟩ => Except.ok.inj ha ▸ h⟩

theorem map_eq_ok {first : Except ε α} {f : α → β} {b : β} :
    first.map f = .ok b ↔ ∃ a, first = .ok a ∧ f a = b := by
  cases first with
  | error e => exact ⟨nofun, nofun⟩
  | ok a => exact ⟨fun h => ⟨a, rfl, Except.ok.inj h⟩, fun ⟨_, ha, h⟩ => by cases ha; rw [← h]; rfl⟩

theorem map_eq_error {first : Except ε α} {f : α → β} {e : ε} :
    first.map f = .error e ↔ first = .error e := by
  cases first with
  | error e' => simp only [Except.map, Except.error.injEq]
  | ok a => exact ⟨nofun, nofun⟩

section

variable {f : α → Except ε β} {xs : List α}

/-- Going over a list succeeds exactly when every item gives its value. -/
theorem mapM_eq_ok {ys : List β} :
    xs.mapM f = .ok ys ↔ List.Forall₂ (fun x y => f x = .ok y) xs ys := by
  induction xs generalizing ys with
  | nil =>
    constructor
    · intro h
      cases h
      exact .nil
    · intro h
      cases h
      rfl
  | cons x xs ih =>
    simp only [List.mapM_cons, bind_eq_ok]
    constructor
    · rintro ⟨y, hy, others, hothers, h⟩
      cases h
      exact .cons hy (ih.mp hothers)
    · intro h
      cases h with
      | cons hy hothers => exact ⟨_, hy, _, ih.mpr hothers, rfl⟩

/-- Going over a list stops with an error exactly when some item gives that error and the items
before it give none. -/
theorem mapM_eq_error {e : ε} :
    xs.mapM f = .error e ↔ ∃ before x after, xs = before ++ x :: after ∧
      (∀ b ∈ before, ∃ y, f b = .ok y) ∧ f x = .error e := by
  constructor
  · intro h
    induction xs with
    | nil => exact nomatch h
    | cons x xs ih =>
      rw [List.mapM_cons] at h
      cases hx : f x with
      | error e' =>
        rw [hx] at h
        cases h
        exact ⟨[], x, xs, rfl, nofun, hx⟩
      | ok y =>
        rw [hx] at h
        cases hxs : xs.mapM f with
        | ok ys =>
          rw [hxs] at h
          exact nomatch h
        | error e' =>
          rw [hxs] at h
          cases h
          obtain ⟨before, z, after, rfl, hbefore, hz⟩ := ih hxs
          refine ⟨x :: before, z, after, rfl, ?_, hz⟩
          exact List.forall_mem_cons.mpr ⟨⟨y, hx⟩, hbefore⟩
  · rintro ⟨before, x, after, rfl, hbefore, hx⟩
    induction before with
    | nil =>
      rw [List.nil_append, List.mapM_cons, hx]
      rfl
    | cons b before ih =>
      obtain ⟨⟨y, hy⟩, hrest⟩ := List.forall_mem_cons.mp hbefore
      rw [List.cons_append, List.mapM_cons, hy, ih hrest]
      rfl

/-- Going over a list fails exactly when some item does. -/
theorem exists_mapM_eq_error_iff :
    (∃ e, xs.mapM f = .error e) ↔ ∃ x ∈ xs, ∃ e, f x = .error e := by
  constructor
  · rintro ⟨e, he⟩
    obtain ⟨before, x, after, rfl, -, hx⟩ := mapM_eq_error.mp he
    exact ⟨x, by simp, e, hx⟩
  · rintro ⟨x, hx, e, he⟩
    cases hresult : xs.mapM f with
    | error e' => exact ⟨e', rfl⟩
    | ok ys =>
      obtain ⟨before, after, rfl⟩ := List.append_of_mem hx
      simp only [List.mapM_append, List.mapM_cons, bind_eq_ok, he, reduceCtorEq, false_and,
        and_false, exists_false] at hresult

end

end TreeLowering
