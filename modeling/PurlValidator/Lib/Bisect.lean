import Mathlib.Data.List.Sort

/-!
# Binary search for the left insertion point

`bisectLeft a x` is the binary search that halves the interval `[lo, hi)` until it
is empty.  On a sorted list it returns the number of elements below `x`, so that
`x` is in the list exactly when it stands at that position.
-/

namespace Bisect

variable {α : Type*} [LinearOrder α]

/-- The loop: everything below `lo` is known to be smaller than `x`, nothing from
`hi` on is. -/
def bisectLoop (a : List α) (x : α) (lo hi : Nat) (hhi : hi ≤ a.length) : Nat :=
  if hlt : lo < hi then
    let mid := (lo + hi) / 2
    if a.get ⟨mid, by omega⟩ < x then bisectLoop a x (mid + 1) hi hhi
    else bisectLoop a x lo mid (by omega)
  else lo
termination_by hi - lo

/-- The left insertion point of `x` in `a`. -/
def bisectLeft (a : List α) (x : α) : Nat := bisectLoop a x 0 a.length le_rfl

/-- Position `i` splits `a` into elements below `x` and elements that are not. -/
structure Splits (a : List α) (x : α) (lo hi : Nat) : Prop where
  /-- The interval is in range. -/
  le : lo ≤ hi
  le_length : hi ≤ a.length
  /-- Elements before the interval are below `x`. -/
  below : ∀ i (h : i < a.length), i < lo → a[i] < x
  /-- Elements after the interval are not below `x`. -/
  above : ∀ i (h : i < a.length), hi ≤ i → x ≤ a[i]

variable {a : List α} {x : α}

theorem splits_init : Splits a x 0 a.length where
  le := Nat.zero_le _
  le_length := le_rfl
  below _ _ h := absurd h (Nat.not_lt_zero _)
  above _ h hle := absurd hle (Nat.not_le.mpr h)

/-- One step keeps the invariant: the middle element sends its half of the interval
to the side where sortedness puts it. -/
theorem Splits.step {lo hi mid : Nat} (hs : a.SortedLE) (h : Splits a x lo hi)
    (hlo : lo ≤ mid) (hhi : mid < hi) (hmid : mid < a.length) :
    (a[mid] < x → Splits a x (mid + 1) hi) ∧ (¬ a[mid] < x → Splits a x lo mid) := by
  constructor
  · intro hlt
    refine ⟨hhi, h.le_length, fun i hi' hle => ?_, h.above⟩
    exact lt_of_le_of_lt (hs.getElem_le_getElem_of_le (Nat.lt_succ_iff.mp hle)) hlt
  · intro hge
    refine ⟨hlo, hmid.le, h.below, fun i hi' hle => ?_⟩
    exact le_trans (not_lt.mp hge) (hs.getElem_le_getElem_of_le hle)

/-- The loop ends with an empty interval that splits the list. -/
theorem splits_bisectLoop (hs : a.SortedLE) {lo hi : Nat} (hhi : hi ≤ a.length)
    (h : Splits a x lo hi) :
    Splits a x (bisectLoop a x lo hi hhi) (bisectLoop a x lo hi hhi) := by
  fun_induction bisectLoop a x lo hi hhi with
  | case1 lo hi hhi hlt mid hmid ih => exact ih ((h.step hs (by omega) (by omega) _).1 hmid)
  | case2 lo hi hhi hlt mid hmid ih => exact ih ((h.step hs (by omega) (by omega) _).2 hmid)
  | case3 lo hi hhi hlt =>
      have heq : hi = lo := Nat.le_antisymm (Nat.not_lt.mp hlt) h.le
      subst heq
      exact h

theorem splits_bisectLeft (hs : a.SortedLE) : Splits a x (bisectLeft a x) (bisectLeft a x) :=
  splits_bisectLoop hs le_rfl splits_init

/-- On a sorted list the element looked for is at the insertion point or nowhere. -/
theorem getElem?_bisectLeft_eq_some_iff (hs : a.SortedLE) :
    a[bisectLeft a x]? = some x ↔ x ∈ a := by
  have h := splits_bisectLeft (x := x) hs
  constructor
  · exact fun hx => List.mem_of_getElem? hx
  · intro hx
    obtain ⟨i, hi, hix⟩ := List.getElem_of_mem hx
    have hge : bisectLeft a x ≤ i := by
      by_contra hlt
      exact absurd hix (h.below i hi (Nat.not_le.mp hlt)).ne
    have hlen : bisectLeft a x < a.length := Nat.lt_of_le_of_lt hge hi
    rw [List.getElem?_eq_getElem hlen, Option.some.injEq]
    refine le_antisymm ?_ (h.above _ hlen le_rfl)
    exact le_trans (hs.getElem_le_getElem_of_le hge) hix.le

end Bisect
