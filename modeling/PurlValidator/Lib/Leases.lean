import Mathlib.Logic.Function.Basic
import Mathlib.Tactic.TypeStar

/-!
# Leases

Holders hold at most one name each.  A holder acquires a name that nobody holds and
releases it again.  Then no two holders ever hold one name, and what is held is what
was acquired and not released.
-/

namespace Leases

variable {ι κ : Type*} {f : ι → Option κ} {i : ι} {x y : κ}

/-- Somebody holds the name. -/
def Held (f : ι → Option κ) (x : κ) : Prop := ∃ i, f i = some x

/-- No two holders hold one name. -/
def Exclusive (f : ι → Option κ) : Prop := ∀ i j x, f i = some x → f j = some x → i = j

variable [DecidableEq ι]

/-- An acquisition adds one name to those that are held. -/
theorem held_acquire (hi : f i = none) :
    Held (Function.update f i (some x)) y ↔ Held f y ∨ y = x := by
  constructor
  · intro h
    obtain ⟨j, hj⟩ := h
    by_cases hji : j = i
    · rw [hji, Function.update_self, Option.some.injEq] at hj
      exact Or.inr hj.symm
    · rw [Function.update_of_ne hji] at hj
      exact Or.inl ⟨j, hj⟩
  · intro h
    cases h with
    | inl h =>
        obtain ⟨j, hj⟩ := h
        have hji : j ≠ i := fun heq => by
          rw [heq, hi] at hj
          cases hj
        exact ⟨j, by rw [Function.update_of_ne hji, hj]⟩
    | inr heq => exact ⟨i, by rw [Function.update_self, heq]⟩

/-- Acquiring a name that nobody holds keeps the names apart. -/
theorem Exclusive.acquire (h : Exclusive f) (hx : ¬ Held f x) :
    Exclusive (Function.update f i (some x)) := by
  intro j k y hj hk
  by_cases hji : j = i
  · by_cases hki : k = i
    · rw [hji, hki]
    · rw [hji, Function.update_self] at hj
      rw [Function.update_of_ne hki] at hk
      cases hj
      exact absurd ⟨k, hk⟩ hx
  · rw [Function.update_of_ne hji] at hj
    by_cases hki : k = i
    · rw [hki, Function.update_self] at hk
      cases hk
      exact absurd ⟨j, hj⟩ hx
    · rw [Function.update_of_ne hki] at hk
      exact h j k y hj hk

/-- A release takes one name from those that are held. -/
theorem Exclusive.held_release (h : Exclusive f) (hi : f i = some x) :
    Held (Function.update f i none) y ↔ Held f y ∧ y ≠ x := by
  constructor
  · intro hy
    obtain ⟨j, hj⟩ := hy
    have hji : j ≠ i := fun heq => by
      rw [heq, Function.update_self] at hj
      cases hj
    rw [Function.update_of_ne hji] at hj
    exact ⟨⟨j, hj⟩, fun heq => hji (h j i x (heq ▸ hj) hi)⟩
  · intro hy
    obtain ⟨⟨j, hj⟩, hne⟩ := hy
    have hji : j ≠ i := fun heq => by
      rw [heq, hi] at hj
      exact hne (Option.some.inj hj).symm
    exact ⟨j, by rw [Function.update_of_ne hji, hj]⟩

/-- A release keeps the names apart. -/
theorem Exclusive.release (h : Exclusive f) : Exclusive (Function.update f i none) := by
  intro j k y hj hk
  have hne : ∀ {k}, Function.update f i none k = some y → k ≠ i := fun hk heq => by
    rw [heq, Function.update_self] at hk
    cases hk
  rw [Function.update_of_ne (hne hj)] at hj
  rw [Function.update_of_ne (hne hk)] at hk
  exact h j k y hj hk

end Leases
