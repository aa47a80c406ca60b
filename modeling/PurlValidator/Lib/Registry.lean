import Mathlib.Data.List.Nodup
import Mathlib.Data.List.ReduceOption
import Mathlib.Logic.Function.Basic
import PurlValidator.Lib.Run

/-!
# Write-once registries

A registry keeps values under names.  A value is published under a name that is
free, and nothing is changed or taken back.  After any run, what a name stands
for is what it stood for before or what was published under it, and no name was
published twice.
-/

namespace Registry

variable {ι κ : Type*}

/-- One step: publish a value under a free name, or leave the registry alone. -/
inductive Step [DecidableEq ι] : (ι → Option κ) → Option (ι × κ) → (ι → Option κ) → Prop where
  | publish {t : ι → Option κ} {i : ι} {k : κ} :
      t i = none → Step t (some (i, k)) (Function.update t i (some k))
  | skip {t : ι → Option κ} : Step t none t

variable {s t u : ι → Option κ} {i : ι} {k : κ}

/-- Publishing under a free name adds one value to what was there. -/
theorem update_eq_some_iff [DecidableEq ι] (hfree : t i = none) {j : ι} {l : κ} :
    Function.update t i (some k) j = some l ↔ t j = some l ∨ (j, l) = (i, k) := by
  by_cases hj : j = i
  · subst hj
    simp [hfree, eq_comm]
  · simp [hj]

/-- What a run amounts to: a name that was published was free at the start, was published
once, and nothing else has changed. -/
structure Published (s : ι → Option κ) (es : List (Option (ι × κ))) (t : ι → Option κ) : Prop where
  nodup : (es.reduceOption.map Prod.fst).Nodup
  free : ∀ e ∈ es.reduceOption, s e.1 = none
  get_iff : ∀ i k, t i = some k ↔ s i = some k ∨ (i, k) ∈ es.reduceOption

theorem Published.init : Published s [] s where
  nodup := List.nodup_nil
  free := fun _ he => nomatch he
  get_iff _ _ := by simp

/-- One step adds its publication to the list. -/
theorem Published.step [DecidableEq ι] {es : List (Option (ι × κ))} {e : Option (ι × κ)}
    (h : Published s es t) (hstep : Step t e u) : Published s (es ++ [e]) u := by
  cases hstep with
  | skip =>
      have hes : (es ++ [none]).reduceOption = es.reduceOption := by
        rw [List.reduceOption_append, List.reduceOption_cons_of_none, List.reduceOption_nil,
          List.append_nil]
      refine ⟨?_, ?_, ?_⟩
      · rw [hes]
        exact h.nodup
      · rw [hes]
        exact h.free
      · rw [hes]
        exact h.get_iff
  | @publish i k hfree =>
      have hes : (es ++ [some (i, k)]).reduceOption = es.reduceOption ++ [(i, k)] := by
        rw [List.reduceOption_append, List.reduceOption_singleton]
        rfl
      have hnew : ∀ l, ¬ (s i = some l ∨ (i, l) ∈ es.reduceOption) := fun l hl => by
        rw [(h.get_iff i l).mpr hl] at hfree
        cases hfree
      refine ⟨?_, fun e he => ?_, fun j l => ?_⟩
      · rw [hes, List.map_append, List.map_singleton, List.nodup_append]
        refine ⟨h.nodup, List.nodup_singleton _, fun j hj j' hj' => ?_⟩
        obtain ⟨⟨j, l⟩, hmem, rfl⟩ := List.mem_map.mp hj
        rw [List.mem_singleton.mp hj']
        intro heq
        subst heq
        exact hnew l (Or.inr hmem)
      · rw [hes] at he
        cases List.mem_append.mp he with
        | inl hmem => exact h.free e hmem
        | inr heq =>
            rw [List.mem_singleton.mp heq]
            exact Option.eq_none_iff_forall_ne_some.mpr fun l hl => hnew l (Or.inl hl)
      · rw [update_eq_some_iff hfree, h.get_iff, hes, List.mem_append, List.mem_singleton, or_assoc]

/-- Every run of a registry is as described. -/
theorem published_of_run [DecidableEq ι] {es : List (Option (ι × κ))} (hrun : Run Step s es t) :
    Published s es t :=
  hrun.invariant Published.init fun _ _ _ _ h hstep => h.step hstep

end Registry
