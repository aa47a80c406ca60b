import Mathlib.Data.List.Lex
import Mathlib.Data.List.Sort
import Mathlib.Order.Monotone.Basic

/-!
# Order-preserving codes

A code sends each letter of a source alphabet to a word over a target alphabet,
and a source word to the concatenation of the code words of its letters.  It is
*order preserving* when a smaller letter has a code word that is smaller at a
position inside both words.  Then no code word is a prefix of another, and the
encoding of words keeps the lexicographic order, whatever follows the first
letter that differs.

`DecidedLt u v` says that `u` is smaller than `v` at a position inside both.
`OrderCode e` says that `e` is such a code.  The results are that encoding is
strictly monotone, hence injective, and sends a strictly sorted list of words to
a strictly sorted list.
-/

namespace OrderCode

variable {α β : Type*}

/-! ## Words that differ inside both -/

/-- `u` is smaller than `v` at a position that both words reach. -/
def DecidedLt [LT β] : List β → List β → Prop
  | x :: u, y :: v => x < y ∨ x = y ∧ DecidedLt u v
  | _, _ => False

/-- A decided comparison is not changed by what follows the two words. -/
theorem DecidedLt.append_lt_append [LT β] : ∀ {u v : List β}, DecidedLt u v →
    ∀ s t : List β, u ++ s < v ++ t
  | x :: u, y :: v, h, s, t => by
      simp only [List.cons_append, List.cons_lt_cons_iff]
      cases h with
      | inl hlt => exact Or.inl hlt
      | inr h => exact Or.inr ⟨h.1, DecidedLt.append_lt_append h.2 s t⟩
  | [], _, h, _, _ => by simp [DecidedLt] at h
  | _ :: _, [], h, _, _ => by simp [DecidedLt] at h

end OrderCode

/-- A code whose words are nonempty and decide the order of their letters. -/
structure OrderCode {α β : Type*} [LT α] [LT β] (e : α → List β) : Prop where
  /-- No letter is coded by the empty word. -/
  ne_nil : ∀ a, e a ≠ []
  /-- A smaller letter has a smaller word, at a position inside both. -/
  decided : ∀ {a b}, a < b → OrderCode.DecidedLt (e a) (e b)

namespace OrderCode

/-! ## Encoding words -/

variable {α β : Type*} [LinearOrder α] [LinearOrder β] {e : α → List β}

/-- Encoding is strictly monotone.  The induction follows the comparison: either
one word ends, or the first letters differ, or they agree and the rest decides. -/
theorem flatMap_lt_flatMap (he : OrderCode e) {l m : List α} (h : l < m) :
    l.flatMap e < m.flatMap e := by
  induction h with
  | @nil b m =>
      rw [List.flatMap_nil, List.flatMap_cons]
      cases hb : e b with
      | nil => exact absurd hb (he.ne_nil b)
      | cons y w => exact List.nil_lt_cons y _
  | @rel a l b m hab =>
      rw [List.flatMap_cons, List.flatMap_cons]
      exact (he.decided hab).append_lt_append _ _
  | @cons a l m _ ih =>
      rw [List.flatMap_cons, List.flatMap_cons]
      exact List.append_left_lt ih

theorem strictMono_flatMap (he : OrderCode e) : StrictMono (List.flatMap e) :=
  fun _ _ h => he.flatMap_lt_flatMap h

theorem flatMap_le_iff (he : OrderCode e) {l m : List α} :
    l.flatMap e ≤ m.flatMap e ↔ l ≤ m :=
  he.strictMono_flatMap.le_iff_le

/-- Words are determined by their encodings. -/
theorem flatMap_injective (he : OrderCode e) : Function.Injective (List.flatMap e) :=
  he.strictMono_flatMap.injective

/-- Encoding a strictly sorted list keeps it strictly sorted. -/
theorem sortedLT_map_flatMap (he : OrderCode e) {ls : List (List α)} (h : ls.SortedLT) :
    (ls.map (List.flatMap e)).SortedLT := by
  rw [List.sortedLT_iff_pairwise] at h ⊢
  rw [List.pairwise_map]
  exact h.imp fun hlt => he.flatMap_lt_flatMap hlt

end OrderCode
