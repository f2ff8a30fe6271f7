import Mathlib.Data.List.Forall2

/-!
# Computations that may fail

How a computation in `Except` that succeeded is taken apart: a chain into its steps (`bind_eq_ok`), a step for each
element of a list into the steps (`mapM_eq_ok`), which relate what is given to what results one by one.
-/

namespace Gazetteer.Outcome

set_option autoImplicit false

variable {ε δ α β γ : Type}

@[simp]
theorem ok_bind (a : α) (f : α → Except ε β) : (Except.ok a >>= f) = f a := pure_bind (m := Except ε) a f

@[simp]
theorem error_bind (e : ε) (f : α → Except ε β) : (Except.error e >>= f) = .error e := rfl

theorem bind_eq_ok {x : Except ε α} {f : α → Except ε β} {b : β} :
    (x >>= f) = .ok b ↔ ∃ a, x = .ok a ∧ f a = .ok b := by
  cases x <;> simp

theorem bind_eq_error {x : Except ε α} {f : α → Except ε β} {e : ε} :
    (x >>= f) = .error e ↔ x = .error e ∨ ∃ a, x = .ok a ∧ f a = .error e := by
  cases x <;> simp

theorem exists_bind {x : Except ε α} {f : α → Except ε β} {a : α} (first : x = .ok a) (rest : ∃ b, f a = .ok b) :
    ∃ b, (x >>= f) = .ok b := by
  rw [first, ok_bind]
  exact rest

theorem map_eq_ok {x : Except ε α} {f : α → β} {b : β} : x.map f = .ok b ↔ ∃ a, x = .ok a ∧ f a = b := by
  cases x <;> simp [Except.map]

theorem mapError_eq_ok {x : Except ε α} {f : ε → δ} {a : α} : x.mapError f = .ok a ↔ x = .ok a := by
  cases x <;> simp [Except.mapError]

theorem toOption_eq_some {x : Except ε α} {a : α} : x.toOption = some a ↔ x = .ok a := by
  cases x <;> simp [Except.toOption]

theorem exists_of_isOk {x : Except ε α} (ok : x.isOk = true) : ∃ a, x = .ok a := by
  cases x with
  | ok a => exact ⟨a, rfl⟩
  | error e => cases ok

theorem exists_of_not_isOk {x : Except ε α} (failed : x.isOk = false) : ∃ e, x = .error e := by
  cases x with
  | ok a => cases failed
  | error e => exact ⟨e, rfl⟩

theorem mapM_eq_ok {f : α → Except ε β} {xs : List α} {ys : List β} :
    xs.mapM f = .ok ys ↔ List.Forall₂ (fun x y => f x = .ok y) xs ys := by
  induction xs generalizing ys with
  | nil =>
    rw [List.mapM_nil, List.forall₂_nil_left_iff]
    exact ⟨fun same => by cases same; rfl, fun none => by rw [none]; rfl⟩
  | cons x xs ih =>
    rw [List.mapM_cons, List.forall₂_cons_left_iff, bind_eq_ok]
    constructor
    · rintro ⟨y, head, rest⟩
      obtain ⟨tail, each, same⟩ := bind_eq_ok.1 rest
      cases same
      exact ⟨y, tail, head, ih.1 each, rfl⟩
    · rintro ⟨y, tail, head, each, rfl⟩
      exact ⟨y, head, bind_eq_ok.2 ⟨tail, ih.2 each, rfl⟩⟩

/-! ## Lists that are related one by one -/

section Each

variable {R : α → β → Prop} {xs : List α} {ys : List β}

theorem map_of_each {f : β → α} (each : List.Forall₂ R xs ys) (back : ∀ x y, R x y → f y = x) : ys.map f = xs := by
  induction each with
  | nil => rfl
  | cons head _ ih => rw [List.map_cons, ih, back _ _ head]

theorem exists_each (each : ∀ x ∈ xs, ∃ y, R x y) : ∃ ys, List.Forall₂ R xs ys := by
  induction xs with
  | nil => exact ⟨[], .nil⟩
  | cons x xs ih =>
    obtain ⟨first, others⟩ := List.forall_mem_cons.1 each
    obtain ⟨y, head⟩ := first
    obtain ⟨ys, rest⟩ := ih others
    exact ⟨y :: ys, .cons head rest⟩

theorem exists_of_mem_right (each : List.Forall₂ R xs ys) {y : β} (member : y ∈ ys) : ∃ x ∈ xs, R x y := by
  induction each with
  | nil => cases member
  | cons head _ ih =>
    obtain rfl | inner := List.mem_cons.1 member
    · exact ⟨_, List.mem_cons_self, head⟩
    · obtain ⟨x, listed, related⟩ := ih inner
      exact ⟨x, List.mem_cons_of_mem _ listed, related⟩

theorem exists_of_mem_left (each : List.Forall₂ R xs ys) {x : α} (member : x ∈ xs) : ∃ y ∈ ys, R x y :=
  exists_of_mem_right each.flip member

end Each

end Gazetteer.Outcome
