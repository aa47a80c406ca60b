import Mathlib.Data.List.Basic

/-!
# Computations that may fail

A computation that may raise is an `Except`.  The lemmas say when a sequence of
two succeeds, and when a function applied to every element of a list does: it
succeeds when every element does, with the results as its elements, and it fails
when some element fails.
-/

namespace Results

universe u

variable {ε : Type*} {α β : Type u}

/-- A sequence succeeds when both parts do. -/
theorem bind_eq_ok_iff {x : Except ε α} {f : α → Except ε β} {b : β} :
    (x >>= f) = .ok b ↔ ∃ a, x = .ok a ∧ f a = .ok b := by
  cases x with
  | error e => simp [bind, Except.bind]
  | ok a => simp [bind, Except.bind]

theorem exists_error_iff {x : Except ε α} : (∃ e, x = .error e) ↔ ¬ ∃ a, x = .ok a := by
  cases x with
  | error e => simp
  | ok a => simp

section MapM

variable {α : Type*} {f : α → Except ε β} {xs : List α} {ys : List β}

/-- The results are those of the elements. -/
theorem mem_of_mapM_eq_ok (h : xs.mapM f = .ok ys) (y : β) :
    y ∈ ys ↔ ∃ x ∈ xs, f x = .ok y := by
  induction xs generalizing ys with
  | nil =>
      cases h
      simp
  | cons x xs ih =>
      rw [List.mapM_cons] at h
      obtain ⟨z, hz, h⟩ := bind_eq_ok_iff.mp h
      obtain ⟨zs, hzs, h⟩ := bind_eq_ok_iff.mp h
      cases h
      simp only [List.mem_cons, exists_eq_or_imp, hz, Except.ok.injEq]
      rw [ih hzs, eq_comm]

/-- A list succeeds when every element does. -/
theorem exists_mapM_eq_ok_iff : (∃ ys, xs.mapM f = .ok ys) ↔ ∀ x ∈ xs, ∃ y, f x = .ok y := by
  constructor
  · rintro ⟨ys, h⟩
    induction xs generalizing ys with
    | nil => intro x hx; cases hx
    | cons z xs ih =>
        rw [List.mapM_cons] at h
        obtain ⟨y, hy, h⟩ := bind_eq_ok_iff.mp h
        obtain ⟨zs, hzs, -⟩ := bind_eq_ok_iff.mp h
        intro x hx
        rcases List.mem_cons.mp hx with rfl | hx
        · exact ⟨y, hy⟩
        · exact ih zs hzs x hx
  · intro h
    induction xs with
    | nil => exact ⟨[], rfl⟩
    | cons x xs ih =>
        obtain ⟨y, hy⟩ := h x List.mem_cons_self
        obtain ⟨ys, hys⟩ := ih fun z hz => h z (List.mem_cons_of_mem _ hz)
        refine ⟨y :: ys, ?_⟩
        rw [List.mapM_cons, hy, hys]
        rfl

/-- A list on which `f` computes `g` gives the results of `g`. -/
theorem mapM_eq_ok_map {g : α → β} (h : ∀ x ∈ xs, f x = .ok (g x)) :
    xs.mapM f = .ok (xs.map g) := by
  induction xs with
  | nil => rfl
  | cons x xs ih =>
      rw [List.mapM_cons, h x List.mem_cons_self, ih fun z hz => h z (List.mem_cons_of_mem _ hz)]
      rfl

theorem mapM_concat {x : α} :
    (xs ++ [x]).mapM f = xs.mapM f >>= fun ys => f x >>= fun y => .ok (ys ++ [y]) := by
  rw [List.mapM_append, List.mapM_cons, List.mapM_nil]
  cases xs.mapM f with
  | error e => rfl
  | ok ys =>
      cases f x with
      | error e => rfl
      | ok y => rfl

end MapM

/-! ## Loops -/

section Loops

variable {σ : Type u} {α : Type*} {f : σ → α → Except ε σ} {xs : List α} {s t : σ}

/-- A loop whose body keeps the state or fails ends where it started, if it ends. -/
theorem foldlM_keep_eq_ok_iff {p : α → Prop}
    (h : ∀ s x t, f s x = .ok t ↔ p x ∧ t = s) :
    xs.foldlM f s = .ok t ↔ (∀ x ∈ xs, p x) ∧ t = s := by
  induction xs with
  | nil => simp [pure, Except.pure, eq_comm]
  | cons x xs ih =>
      rw [List.foldlM_cons, bind_eq_ok_iff, List.forall_mem_cons]
      simp only [h]
      constructor
      · intro hx
        obtain ⟨u, ⟨hp, hu⟩, hrest⟩ := hx
        rw [hu, ih] at hrest
        exact ⟨⟨hp, hrest.1⟩, hrest.2⟩
      · intro hx
        exact ⟨s, ⟨hx.1.1, rfl⟩, ih.mpr ⟨hx.1.2, hx.2⟩⟩

/-- A loop whose body keeps the state or fails in one way. -/
theorem foldlM_keep_eq {p : α → Prop} [DecidablePred p] {e : ε}
    (h : ∀ s x, f s x = if p x then .ok s else .error e) :
    xs.foldlM f s = if ∀ x ∈ xs, p x then .ok s else .error e := by
  induction xs with
  | nil => exact (if_pos fun x hx => absurd hx List.not_mem_nil).symm
  | cons x xs ih =>
      rw [List.foldlM_cons, h]
      simp only [List.forall_mem_cons]
      by_cases hx : p x
      · rw [if_pos hx]
        simp only [hx, true_and]
        exact ih
      · rw [if_neg hx, if_neg fun hall => hx hall.1]
        rfl

/-- A loop that refuses some elements, whatever the state, ends with the error of the first of
them. -/
theorem foldlM_eq_findSome? {refusal : α → Option ε} {g : σ → α → σ}
    (h : ∀ s x, f s x = (refusal x).elim (.ok (g s x)) .error) :
    xs.foldlM f s = (xs.findSome? refusal).elim (.ok (xs.foldl g s)) .error := by
  induction xs generalizing s with
  | nil => rfl
  | cons x xs ih =>
      rw [List.foldlM_cons, List.findSome?_cons, h]
      cases refusal x with
      | some e => rfl
      | none => exact ih

/-- Two loops in one end as the two loops do. -/
theorem foldlM_prod_eq_ok_iff {τ : Type u} {g : τ → α → Except ε τ} {s' : σ} {t t' : τ} :
    xs.foldlM (fun acc x => do return (← f acc.1 x, ← g acc.2 x)) (s, t) = .ok (s', t') ↔
      xs.foldlM f s = .ok s' ∧ xs.foldlM g t = .ok t' := by
  induction xs generalizing s t with
  | nil => simp [pure, Except.pure]
  | cons x xs ih =>
      simp only [List.foldlM_cons]
      cases hf : f s x with
      | error e => simp [bind, Except.bind]
      | ok s₁ =>
          cases hg : g t x with
          | error e => simp [bind, Except.bind]
          | ok t₁ => exact ih

end Loops

section KeepLast

variable {β : Type u} {α : Type*} {f : α → Option (Except ε β)} {xs : List α} {last last' : Option β}

/-- The body of a loop that keeps the last value it meets.  Some elements have none. -/
def keepLast (f : α → Option (Except ε β)) (last : Option β) (x : α) : Except ε (Option β) :=
  match f x with
  | none => .ok last
  | some value => value.map some

/-- The loop ends if every value does, and with the last one. -/
theorem foldlM_keepLast_eq_ok_iff :
    xs.foldlM (keepLast f) last = .ok last' ↔
      (∀ x ∈ xs, ∀ e, f x ≠ some (.error e)) ∧
        last' = (xs.filterMap fun x => (f x).bind Except.toOption).getLast?.or last := by
  induction xs generalizing last with
  | nil => simp [pure, Except.pure, eq_comm]
  | cons x xs ih =>
      rw [List.foldlM_cons, List.forall_mem_cons, List.filterMap_cons, keepLast]
      match hx : f x with
      | none => simpa [bind, Except.bind] using ih
      | some (.error e) => simp [bind, Except.bind, Except.map]
      | some (.ok b) =>
          have hrest := @ih (some b)
          simp only [bind, Except.bind, Except.map, hrest, Option.bind_some, Except.toOption,
            List.getLast?_cons]
          simp

end KeepLast

end Results
