import Mathlib.Data.List.Forall2

/-!
# Successful outcomes

Readers are written with steps that may fail. A sequence of such steps succeeds
exactly when every step does, and the results then correspond one to one to what
was read.
-/

namespace IControl

variable {ε α β : Type}

theorem bind_eq_ok_iff {x : Except ε α} {f : α → Except ε β} {b : β} :
    (x >>= f) = .ok b ↔ ∃ a, x = .ok a ∧ f a = .ok b := by
  cases x with
  | error e => exact ⟨nofun, fun ⟨_, h, _⟩ => nomatch h⟩
  | ok a => exact ⟨fun h => ⟨a, rfl, h⟩, fun ⟨_, h, hf⟩ => Except.ok.inj h ▸ hf⟩

theorem map_eq_ok_iff {x : Except ε α} {f : α → β} {b : β} :
    x.map f = .ok b ↔ ∃ a, x = .ok a ∧ f a = b := by
  cases x <;> simp [Except.map]

theorem mapM_eq_some_iff {f : α → Option β} {xs : List α} {ys : List β} :
    xs.mapM f = some ys ↔ List.Forall₂ (fun x y => f x = some y) xs ys := by
  induction xs generalizing ys with
  | nil => simp [eq_comm]
  | cons x xs ih =>
    simp only [List.mapM_cons, List.forall₂_cons_left_iff, Option.bind_eq_bind,
      Option.bind_eq_some_iff, ih]
    exact ⟨fun ⟨y, hy, zs, hzs, h⟩ => ⟨y, zs, hy, hzs, (Option.some.inj h).symm⟩,
      fun ⟨y, zs, hy, hzs, h⟩ => ⟨y, hy, zs, hzs, congrArg some h.symm⟩⟩

theorem mapM_eq_ok_iff {f : α → Except ε β} {xs : List α} {ys : List β} :
    xs.mapM f = .ok ys ↔ List.Forall₂ (fun x y => f x = .ok y) xs ys := by
  induction xs generalizing ys with
  | nil =>
    rw [List.mapM_nil, List.forall₂_nil_left_iff]
    exact ⟨fun h => (Except.ok.inj h).symm, fun h => h ▸ rfl⟩
  | cons x xs ih =>
    simp only [List.mapM_cons, List.forall₂_cons_left_iff, bind_eq_ok_iff, ih]
    exact ⟨fun ⟨y, hy, zs, hzs, h⟩ => ⟨y, zs, hy, hzs, (Except.ok.inj h).symm⟩,
      fun ⟨y, zs, hy, hzs, h⟩ => ⟨y, hy, zs, hzs, congrArg Except.ok h.symm⟩⟩

theorem forall₂_map_self {R : α → β → Prop} {g : α → β} {xs : List α} (h : ∀ x ∈ xs, R x (g x)) :
    List.Forall₂ R xs (xs.map g) := by
  rw [List.forall₂_map_right_iff]
  exact List.forall₂_same.2 h

theorem forall₂_map_of {γ : Type} {R : β → γ → Prop} {S : ε → γ → Prop} {f : α → β} {g : α → ε}
    {xs : List α} {ys : List γ} (h : List.Forall₂ R (xs.map f) ys)
    (step : ∀ x ∈ xs, ∀ y, R (f x) y → S (g x) y) : List.Forall₂ S (xs.map g) ys := by
  induction xs generalizing ys with
  | nil => simpa using h
  | cons x xs ih =>
    cases h with
    | cons first others =>
      exact .cons (step x List.mem_cons_self _ first)
        (ih others fun x hx => step x (List.mem_cons_of_mem _ hx))

theorem exists_forall₂ {R : α → β → Prop} {xs : List α} (h : ∀ x ∈ xs, ∃ y, R x y) :
    ∃ ys, List.Forall₂ R xs ys := by
  induction xs with
  | nil => exact ⟨[], .nil⟩
  | cons x xs ih =>
    obtain ⟨y, first⟩ := h x List.mem_cons_self
    obtain ⟨ys, others⟩ := ih fun x hx => h x (List.mem_cons_of_mem _ hx)
    exact ⟨y :: ys, .cons first others⟩

theorem exists_of_mem_right {R : α → β → Prop} {xs : List α} {ys : List β}
    (h : List.Forall₂ R xs ys) {y : β} (hy : y ∈ ys) : ∃ x ∈ xs, R x y := by
  induction h with
  | nil => exact absurd hy List.not_mem_nil
  | cons first _ ih =>
    rcases List.mem_cons.1 hy with rfl | hy
    · exact ⟨_, List.mem_cons_self, first⟩
    · obtain ⟨x, hx, hxy⟩ := ih hy
      exact ⟨x, List.mem_cons_of_mem _ hx, hxy⟩

end IControl
