import Mathlib.Tactic.TypeStar

/-!
# Scripts

A script changes a state and returns or raises.  What it has done to the state before it
raises stays done.

`Script.bind_eq_ok_iff` goes back from the end of a script that returned to its parts.
`Keeps r` says that a script, however it ends, leaves a state that is related to the one that
it started in.
-/

universe u

/-- A computation with a state that may raise. -/
abbrev Script (σ ε α : Type u) : Type u := ExceptT ε (StateM σ) α

namespace Script

variable {σ ε α β : Type u} {x : Script σ ε α} {f : α → Script σ ε β} {s t : σ} {b : β}

/-- A result that depends on the state, and does not change it. -/
def read (result : σ → Except ε α) : Script σ ε α := fun s => (result s, s)

/-- The second part starts where the first one has ended, unless that raised. -/
theorem bind_apply : (x >>= f : Script σ ε β) s =
    match x s with
    | (.ok a, t) => f a t
    | (.error e, t) => (.error e, t) := by
  show (ExceptT.bindCont f (x s).1 : StateM σ (Except ε β)) (x s).2 = _
  cases x s with
  | mk result t =>
      cases result with
      | ok a => rfl
      | error e => rfl

theorem bind_of_eq_ok {a : α} (h : x s = (.ok a, t)) : (x >>= f : Script σ ε β) s = f a t := by
  rw [bind_apply, h]

theorem bind_of_eq_error {e : ε} (h : x s = (.error e, t)) :
    (x >>= f : Script σ ε β) s = (.error e, t) := by
  rw [bind_apply, h]

/-- A sequence returned if both parts did. -/
theorem bind_eq_ok_iff : (x >>= f : Script σ ε β) s = (.ok b, t) ↔
    ∃ a s₁, x s = (.ok a, s₁) ∧ f a s₁ = (.ok b, t) := by
  rw [bind_apply]
  cases x s with
  | mk result s₁ =>
      cases result with
      | ok a =>
          constructor
          · intro h
            exact ⟨a, s₁, rfl, h⟩
          · rintro ⟨_, _, ⟨⟩, h⟩
            exact h
      | error e =>
          constructor
          · intro h
            cases h
          · rintro ⟨_, _, h, -⟩
            cases h

/-! ## What a script keeps -/

/-- However the script ends, the states are related. -/
def Keeps (r : σ → σ → Prop) (x : Script σ ε α) : Prop := ∀ s, r s (x s).2

/-- A script that only reads keeps everything. -/
theorem keeps_read {r : σ → σ → Prop} (hrefl : ∀ s, r s s) (result : σ → Except ε α) :
    Keeps r (read result : Script σ ε α) :=
  hrefl

/-- What both parts keep, the sequence keeps. -/
theorem Keeps.bind {r : σ → σ → Prop} (htrans : ∀ s t u, r s t → r t u → r s u)
    (hx : Keeps r x) (hf : ∀ a, Keeps r (f a)) : Keeps r (x >>= f) := by
  intro s
  have hfirst := hx s
  rw [bind_apply]
  cases hrun : x s with
  | mk result s₁ =>
      rw [hrun] at hfirst
      cases result with
      | ok a => exact htrans _ _ _ hfirst (hf a s₁)
      | error e => exact hfirst

end Script
