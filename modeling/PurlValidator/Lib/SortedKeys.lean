import Mathlib.Data.List.Dedup
import Mathlib.Data.List.Destutter
import Mathlib.Data.List.Sort
import Mathlib.Data.Prod.Lex

/-!
# Walking a set in any order, and sorting what comes out

A hash set is filled by a sequence of insertions and then walked.  Which order
the walk takes depends on the hashes and on the insertions, but it meets every
element once.  `SetWalk` is such an order.

Sorting removes the order again.  The sorted walk of a set is strictly sorted,
holds the elements that were inserted, and is the same list for two sequences of
insertions and two walks exactly when the same elements were inserted.

`pairLe` is the order of pairs that compares the second component only where the
first ones are equal.  Sorting pairs that share their second component is sorting
their first components.
-/

/-- An order in which a set of `α` is walked, given the insertions that made it. -/
structure SetWalk (α : Type*) where
  /-- The elements, in the order of the walk. -/
  walk : List α → List α
  /-- No element is met twice. -/
  nodup : ∀ l, (walk l).Nodup
  /-- The elements met are the elements inserted. -/
  mem_walk : ∀ {l a}, a ∈ walk l ↔ a ∈ l

namespace SetWalk

variable {α : Type*}

/-- The walk in order of the last insertion. -/
def byInsertion [DecidableEq α] : SetWalk α where
  walk := List.dedup
  nodup := List.nodup_dedup
  mem_walk := List.mem_dedup

variable [LinearOrder α]

/-- The elements of the set in increasing order. -/
def sorted (w : SetWalk α) (l : List α) : List α := (w.walk l).insertionSort (· ≤ ·)

@[simp] theorem mem_sorted (w : SetWalk α) {l : List α} {a : α} : a ∈ w.sorted l ↔ a ∈ l := by
  rw [sorted, List.mem_insertionSort, w.mem_walk]

theorem sortedLT_sorted (w : SetWalk α) (l : List α) : (w.sorted l).SortedLT := by
  rw [List.sortedLT_iff_nodup_and_sortedLE]
  constructor
  · exact (List.perm_insertionSort _ _).nodup_iff.mpr (w.nodup l)
  · exact (List.pairwise_insertionSort (· ≤ ·) (w.walk l)).sortedLE

end SetWalk

/-! ## Dropping repetitions of a sorted list -/

section Destutter

variable {α : Type*}

theorem mem_destutter_ne [DecidableEq α] {l : List α} {a : α} :
    a ∈ l.destutter (· ≠ ·) ↔ a ∈ l := by
  have hcons : ∀ (l : List α) (b : α), a ∈ l.destutter' (· ≠ ·) b ↔ a = b ∨ a ∈ l := by
    intro l
    induction l with
    | nil => simp
    | cons c l ih =>
        intro b
        by_cases h : b = c
        · subst h
          rw [List.destutter'_cons_neg _ (not_not.mpr rfl), ih, List.mem_cons, or_self_left]
        · rw [List.destutter'_cons_pos _ h, List.mem_cons, ih, List.mem_cons]
  cases l with
  | nil => rfl
  | cons b l => rw [List.destutter_cons', hcons, List.mem_cons]

/-- In a sorted list equal elements are adjacent, so no repetition is left. -/
theorem sortedLT_destutter_ne [PartialOrder α] [DecidableEq α] {l : List α} (h : l.SortedLE) :
    (l.destutter (· ≠ ·)).SortedLT := by
  have hle := (h.pairwise.sublist (List.destutter_sublist (· ≠ ·) l)).isChain
  have hne := List.isChain_destutter (· ≠ ·) l
  rw [List.isChain_iff_getElem] at hle hne
  rw [List.sortedLT_iff_isChain, List.isChain_iff_getElem]
  exact fun i hi => lt_of_le_of_ne (hle i hi) (hne i hi)

/-- A list without repetitions is no longer than any list of the same elements, and shorter than
those with repetitions. -/
theorem length_le_and_eq_iff_nodup [DecidableEq α] {keys l : List α} (hkeys : keys.Nodup)
    (hmem : ∀ a, a ∈ keys ↔ a ∈ l) :
    keys.length ≤ l.length ∧ (keys.length = l.length ↔ l.Nodup) := by
  have hperm : keys.Perm l.dedup :=
    (List.perm_ext_iff_of_nodup hkeys (List.nodup_dedup l)).mpr fun a => by
      rw [hmem, List.mem_dedup]
  have hsub := List.dedup_sublist l
  rw [hperm.length_eq]
  refine ⟨hsub.length_le, fun heq => ?_, fun hnodup => ?_⟩
  · exact List.dedup_eq_self.mp (hsub.eq_of_length heq)
  · rw [List.dedup_eq_self.mpr hnodup]

end Destutter

/-! ## Pairs -/

section Pairs

variable {α β : Type*} [LinearOrder α] [LinearOrder β]

/-- The order of pairs: by the first component, then by the second. -/
def pairLe (a b : α × β) : Prop := toLex a ≤ toLex b

instance pairLe.decidableRel : DecidableRel (pairLe (α := α) (β := β)) :=
  fun a b => inferInstanceAs (Decidable (toLex a ≤ toLex b))

theorem pairLe_mk_iff {a b : α} {v : β} : pairLe (a, v) (b, v) ↔ a ≤ b := by
  rw [pairLe, Prod.Lex.toLex_le_toLex]
  simp [le_iff_lt_or_eq]

/-- Pairs with one second component are sorted by their first components. -/
theorem insertionSort_pairLe_map (l : List α) (v : β) :
    (l.map fun a => (a, v)).insertionSort pairLe = (l.insertionSort (· ≤ ·)).map fun a => (a, v) :=
  (List.map_insertionSort (· ≤ ·) pairLe (fun a => (a, v)) l
    fun _ _ _ _ => pairLe_mk_iff.symm).symm

end Pairs

/-! ## Looking up a key -/

/-- Where no key is repeated, a lookup finds the entries of the list. -/
theorem lookup_eq_some_iff_mem {α β : Type*} [BEq α] [LawfulBEq α] {l : List (α × β)}
    (h : (l.map Prod.fst).Nodup) {k : α} {v : β} : l.lookup k = some v ↔ (k, v) ∈ l := by
  induction l with
  | nil => simp
  | cons e l ih =>
      obtain ⟨a, b⟩ := e
      simp only [List.map_cons, List.nodup_cons] at h
      rw [List.lookup_cons, List.mem_cons]
      by_cases hk : k = a
      · subst hk
        have hnot : (k, v) ∉ l := fun hm => h.1 (List.mem_map_of_mem (f := Prod.fst) hm)
        simp [hnot, eq_comm]
      · have hbeq : (k == a) = false := beq_eq_false_iff_ne.mpr hk
        simp only [hbeq, ih h.2, Prod.mk.injEq, hk, false_and, false_or]
