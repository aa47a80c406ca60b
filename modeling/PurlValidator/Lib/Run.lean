import Mathlib.Tactic.TypeStar

/-!
# Runs of a labelled transition system

A run is a finite sequence of steps, each labelled with the event an observer
sees.  `Run step s es t` says that the events `es`, oldest first, lead from `s`
to `t`.

`Run.invariant` is the induction over a run, `Run.refine` follows a run by
another system, and `Run.exists_step_of_mem` goes back to the step of an event.
`Run.simulate` follows a run by a system that does not see all of its events.
-/

/-- The events `es` lead from the first state to the second. -/
inductive Run {σ ε : Type*} (step : σ → ε → σ → Prop) (s : σ) : List ε → σ → Prop where
  | nil : Run step s [] s
  | snoc {es : List ε} {t : σ} {e : ε} {u : σ} :
      Run step s es t → step t e u → Run step s (es ++ [e]) u

namespace Run

variable {σ ε τ δ : Type*} {step : σ → ε → σ → Prop} {s t : σ} {es : List ε}

/-- An invariant of the state and of the events so far holds of every run. -/
theorem invariant {p : List ε → σ → Prop} (hrun : Run step s es t) (hinit : p [] s)
    (hstep : ∀ es t e u, p es t → step t e u → p (es ++ [e]) u) : p es t := by
  induction hrun with
  | nil => exact hinit
  | snoc _ hs ih => exact hstep _ _ _ _ ih hs

/-- A run of one system is followed by a run of another, if each step is. -/
theorem refine {step' : τ → δ → τ → Prop} {r : σ → τ → Prop} {f : ε → δ}
    (hstep : ∀ s e t s', r s s' → step s e t → ∃ t', r t t' ∧ step' s' (f e) t')
    {s' : τ} (hrun : Run step s es t) (hrel : r s s') :
    ∃ t', r t t' ∧ Run step' s' (es.map f) t' := by
  induction hrun with
  | nil => exact ⟨s', hrel, .nil⟩
  | snoc _ hs ih =>
      obtain ⟨t', ht, hrun'⟩ := ih
      obtain ⟨u', hu, hs'⟩ := hstep _ _ _ _ ht hs
      refine ⟨u', hu, ?_⟩
      rw [List.map_append]
      exact hrun'.snoc hs'

/-- One run after another. -/
theorem append {es' : List ε} {u : σ} (hrun : Run step s es t) (hrun' : Run step t es' u) :
    Run step s (es ++ es') u := by
  induction hrun' with
  | nil =>
      rw [List.append_nil]
      exact hrun
  | snoc _ hs ih =>
      rw [← List.append_assoc]
      exact ih.snoc hs

theorem single {e : ε} (hs : step s e t) : Run step s [e] t := Run.nil.snoc hs

/-- A run of one system is followed by a run of another on the events that the other sees,
if a step whose event it does not see leaves it where it is. -/
theorem simulate {step' : τ → δ → τ → Prop} {r : σ → τ → Prop} {f : ε → Option δ}
    (hstep : ∀ s e t s', r s s' → step s e t → ∃ t', r t t' ∧ Run step' s' (f e).toList t')
    {s' : τ} (hrun : Run step s es t) (hrel : r s s') :
    ∃ t', r t t' ∧ Run step' s' (es.filterMap f) t' := by
  induction hrun with
  | nil => exact ⟨s', hrel, .nil⟩
  | @snoc es t e u _ hs ih =>
      obtain ⟨t', ht, hrun'⟩ := ih
      obtain ⟨u', hu, hs'⟩ := hstep _ _ _ _ ht hs
      refine ⟨u', hu, ?_⟩
      have hlast : [e].filterMap f = (f e).toList := by
        cases he : f e with
        | none => simp [he]
        | some e' => simp [he]
      rw [List.filterMap_append, hlast]
      exact hrun'.append hs'

/-- Every event of a run is a step that a shorter run leads to. -/
theorem exists_step_of_mem (hrun : Run step s es t) {e : ε} (he : e ∈ es) :
    ∃ es₁ t₁ t₂, es₁ ++ [e] <+: es ∧ Run step s es₁ t₁ ∧ step t₁ e t₂ := by
  induction hrun with
  | nil => cases he
  | snoc hr hs ih =>
      cases List.mem_append.mp he with
      | inl he =>
          obtain ⟨es₁, t₁, t₂, hpre, hr₁, hs₁⟩ := ih he
          exact ⟨es₁, t₁, t₂, hpre.trans (List.prefix_append _ _), hr₁, hs₁⟩
      | inr he =>
          rw [List.mem_singleton.mp he]
          exact ⟨_, _, _, List.prefix_rfl, hr, hs⟩

end Run
