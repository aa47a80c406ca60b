import Mathlib.Data.List.Basic
import Mathlib.Data.List.DropRight

/-!
# Splitting at separators

Components are joined with one separator letter between them.  A
component may hold the separator itself, so the joined word does not determine
the components.  It determines their segments, the words between separators, and
nothing more.
-/

namespace Separators

variable {α : Type*} [DecidableEq α] (x : α)

/-- The segments of some components: each is split at the separator. -/
def segments (ls : List (List α)) : List (List α) := ls.flatMap (List.splitOn x)

theorem splitOn_injective : Function.Injective (List.splitOn x) := by
  intro l m h
  have hl : [x].intercalate (l.splitOn x) = l := List.intercalate_splitOn x
  rw [← hl, h, List.intercalate_splitOn]

/-- Splitting the joined word gives the segments. -/
theorem splitOn_intercalate_eq_segments {ls : List (List α)} (h : ls ≠ []) :
    ([x].intercalate ls).splitOn x = segments x ls := by
  induction ls with
  | nil => exact absurd rfl h
  | cons l ls ih =>
      cases ls with
      | nil => simp [segments]
      | cons m ms =>
          have hsplit := ih (List.cons_ne_nil m ms)
          rw [List.intercalate_cons_cons, List.append_assoc, List.singleton_append,
            List.splitOn_append_cons_self, hsplit]
          rfl

/-- Components join to the same word exactly when they have the same segments. -/
theorem intercalate_eq_intercalate_iff {ls ms : List (List α)} (hl : ls ≠ []) (hm : ms ≠ []) :
    [x].intercalate ls = [x].intercalate ms ↔ segments x ls = segments x ms := by
  rw [← splitOn_intercalate_eq_segments x hl, ← splitOn_intercalate_eq_segments x hm]
  exact (splitOn_injective x).eq_iff.symm

/-- A word has one segment more than separators. -/
theorem length_splitOn (l : List α) : (l.splitOn x).length = l.count x + 1 := by
  induction l with
  | nil => rfl
  | cons a l ih =>
      rw [List.splitOn_cons_eq_if_modifyHead]
      by_cases h : a = x
      · simp [h, ih]
      · simp [h, ih]

/-! ## The last separator -/

variable {x}

omit [DecidableEq α] in
theorem exists_append_cons_notMem {l : List α} (h : x ∈ l) : ∃ s t, l = s ++ x :: t ∧ x ∉ t := by
  obtain ⟨t, s, hrev, ht⟩ := List.eq_append_cons_of_mem (List.mem_reverse.mpr h)
  refine ⟨s.reverse, t.reverse, ?_, fun hmem => ht (List.mem_reverse.mp hmem)⟩
  rw [← List.reverse_reverse l, hrev]
  simp

/-- What stands before and after the last separator. -/
theorem rdropWhile_rtakeWhile_append_cons (s : List α) {t : List α} (h : x ∉ t) :
    (s ++ x :: t).rdropWhile (· != x) = s ++ [x] ∧ (s ++ x :: t).rtakeWhile (· != x) = t := by
  induction t using List.reverseRecOn with
  | nil =>
      have hx : ¬ (x != x) = true := by simp
      exact ⟨List.rdropWhile_concat_neg _ _ _ hx, List.rtakeWhile_concat_neg _ _ _ hx⟩
  | append_singleton t y ih =>
      have hy : (y != x) = true := bne_iff_ne.mpr fun heq => h (heq ▸ List.mem_concat_self)
      obtain ⟨hdrop, htake⟩ := ih fun hmem => h (List.mem_append_left _ hmem)
      rw [← List.cons_append, ← List.append_assoc,
        List.rdropWhile_concat_pos (p := (· != x)) _ _ hy,
        List.rtakeWhile_concat_pos (p := (· != x)) _ _ hy, htake]
      exact ⟨hdrop, rfl⟩

end Separators
