import Mathlib.Data.List.Basic

/-!
# Lines of a text

A text is cut after each terminator.  The last piece may lack its terminator, and
no piece is cut from the empty text.  `pieces_induction` is the induction that goes
with it: a text is empty, or a last piece, or a piece with its terminator and the
rest.

`lines` cuts at line feeds and drops one carriage return before each of them, and
`scanLines` drops it at the end of the text as well.  Both are the same for a text
and for an encoding of it that leaves the two letters alone (`LineCode`).
-/

namespace Lines

variable {α β : Type*}

/-! ## Pieces -/

/-- The pieces of a text, each with whether a terminator ends it.  The terminators
are the letters that satisfy `p` and are left out of the pieces. -/
def pieces (p : α → Bool) : List α → List (List α × Bool)
  | [] => []
  | a :: l =>
      if p a then ([], true) :: pieces p l
      else
        match pieces p l with
        | [] => [([a], false)]
        | (s, b) :: rest => (a :: s, b) :: rest

section Pieces

variable {p : α → Bool} {s l : List α} {a : α}

@[simp] theorem pieces_nil : pieces p [] = [] := rfl

/-- A piece with its terminator comes first. -/
theorem pieces_append_cons (hs : ∀ b ∈ s, p b = false) (ha : p a = true) :
    pieces p (s ++ a :: l) = (s, true) :: pieces p l := by
  induction s with
  | nil => simp [pieces, ha]
  | cons b s ih =>
      have hb : p b = false := hs b List.mem_cons_self
      have hs' := ih fun c hc => hs c (List.mem_cons_of_mem _ hc)
      simp [pieces, hb, hs']

/-- Without terminators there is one piece. -/
theorem pieces_of_forall (hne : s ≠ []) (hs : ∀ b ∈ s, p b = false) :
    pieces p s = [(s, false)] := by
  induction s with
  | nil => exact absurd rfl hne
  | cons b s ih =>
      have hb : p b = false := hs b List.mem_cons_self
      cases s with
      | nil => simp [pieces, hb]
      | cons c s =>
          have hs' := ih (List.cons_ne_nil c s) fun d hd => hs d (List.mem_cons_of_mem _ hd)
          rw [pieces, hs']
          simp [hb]

/-- A text is empty, a last piece, or a piece with its terminator and the rest. -/
theorem pieces_induction (p : α → Bool) {motive : List α → Prop} (nil : motive [])
    (last : ∀ s, s ≠ [] → (∀ b ∈ s, p b = false) → motive s)
    (piece : ∀ s a l, (∀ b ∈ s, p b = false) → p a = true → motive l → motive (s ++ a :: l))
    (l : List α) : motive l := by
  -- the induction is on the text, for all that may stand before it in its first piece
  suffices h : ∀ l s : List α, (∀ b ∈ s, p b = false) → motive (s ++ l) from
    h l [] fun _ hb => nomatch hb
  intro l
  induction l with
  | nil =>
      intro s hs
      rw [List.append_nil]
      by_cases hne : s = []
      · exact hne ▸ nil
      · exact last s hne hs
  | cons a l ih =>
      intro s hs
      cases ha : p a with
      | true => exact piece s a l hs ha (ih [] fun _ hb => nomatch hb)
      | false =>
          rw [List.append_cons]
          refine ih (s ++ [a]) fun b hb => ?_
          cases List.mem_append.mp hb with
          | inl hb => exact hs b hb
          | inr hb => exact List.mem_singleton.mp hb ▸ ha

/-- The letters of the pieces are the letters of the text that end no piece. -/
theorem mem_pieces_iff : (∃ s ∈ pieces p l, a ∈ s.1) ↔ a ∈ l ∧ p a = false := by
  induction l using pieces_induction p with
  | nil => simp
  | last s hne hs =>
      rw [pieces_of_forall hne hs]
      simp only [List.mem_singleton, exists_eq_left]
      exact ⟨fun ha => ⟨ha, hs a ha⟩, And.left⟩
  | piece s b l hs hb ih =>
      rw [pieces_append_cons hs hb]
      simp only [List.mem_cons, exists_eq_or_imp, ih, List.mem_append]
      constructor
      · intro h
        cases h with
        | inl ha => exact ⟨Or.inl ha, hs a ha⟩
        | inr h => exact ⟨Or.inr (Or.inr h.1), h.2⟩
      · intro h
        obtain ⟨hmem, ha⟩ := h
        cases hmem with
        | inl hmem => exact Or.inl hmem
        | inr hmem =>
            cases hmem with
            | inl heq =>
                rw [heq, hb] at ha
                cases ha
            | inr hmem => exact Or.inr ⟨hmem, ha⟩

end Pieces

/-! ## Lines -/

section Lines

variable [DecidableEq α] (lf cr : α)

/-- Drop one carriage return at the end. -/
def dropCR (l : List α) : List α := if l.getLast? = some cr then l.dropLast else l

/-- What stands between the line feeds. -/
def rawLines (l : List α) : List (List α) := (pieces (· == lf) l).map Prod.fst

/-- The lines of a text, each with its line feed. -/
def linesKeepEnds (l : List α) : List (List α) :=
  (pieces (· == lf) l).map fun s => if s.2 then s.1 ++ [lf] else s.1

/-- The lines of a text, without line feeds and without a carriage return before one. -/
def lines (l : List α) : List (List α) :=
  (pieces (· == lf) l).map fun s => if s.2 then dropCR cr s.1 else s.1

/-- The lines of a text, without line feeds and without a carriage return at the end. -/
def scanLines (l : List α) : List (List α) := (rawLines lf l).map (dropCR cr)

variable {lf cr} {s l : List α}

@[simp] theorem dropCR_concat : dropCR cr (s ++ [cr]) = s := by
  simp [dropCR]

theorem dropCR_of_ne (h : s.getLast? ≠ some cr) : dropCR cr s = s := if_neg h

theorem dropCR_eq_or (cr : α) (s : List α) : dropCR cr s = s ∨ s = dropCR cr s ++ [cr] := by
  by_cases h : s.getLast? = some cr
  · obtain ⟨s', rfl⟩ := List.getLast?_eq_some_iff.mp h
    exact Or.inr (by rw [dropCR_concat])
  · exact Or.inl (dropCR_of_ne h)

theorem pieces_append_lf (hs : lf ∉ s) :
    pieces (· == lf) (s ++ lf :: l) = (s, true) :: pieces (· == lf) l :=
  pieces_append_cons (fun _ hb => beq_eq_false_iff_ne.mpr fun h => hs (h ▸ hb))
    (beq_self_eq_true lf)

theorem pieces_of_notMem (hne : s ≠ []) (hs : lf ∉ s) : pieces (· == lf) s = [(s, false)] :=
  pieces_of_forall hne fun _ hb => beq_eq_false_iff_ne.mpr fun h => hs (h ▸ hb)

/-- The first line of a text that has a line feed. -/
theorem lines_append_lf (hs : lf ∉ s) :
    lines lf cr (s ++ lf :: l) = dropCR cr s :: lines lf cr l := by
  rw [lines, pieces_append_lf hs]
  rfl

/-- A text without a line feed is one line. -/
theorem lines_of_notMem (hne : s ≠ []) (hs : lf ∉ s) : lines lf cr s = [s] := by
  rw [lines, pieces_of_notMem hne hs]
  rfl

theorem rawLines_append_lf (hs : lf ∉ s) : rawLines lf (s ++ lf :: l) = s :: rawLines lf l := by
  rw [rawLines, pieces_append_lf hs]
  rfl

theorem rawLines_of_notMem (hne : s ≠ []) (hs : lf ∉ s) : rawLines lf s = [s] := by
  rw [rawLines, pieces_of_notMem hne hs]
  rfl

/-- A text is empty, a last line, or a line with its line feed and the rest. -/
theorem lines_induction (lf : α) {motive : List α → Prop} (nil : motive [])
    (last : ∀ s, s ≠ [] → lf ∉ s → motive s)
    (line : ∀ s l, lf ∉ s → motive l → motive (s ++ lf :: l)) (l : List α) : motive l := by
  have hnot : ∀ {s : List α}, (∀ b ∈ s, (b == lf) = false) → lf ∉ s := fun hs hmem =>
    absurd (hs lf hmem) (by simp)
  induction l using pieces_induction (· == lf) with
  | nil => exact nil
  | last s hne hs => exact last s hne (hnot hs)
  | piece s a l hs ha ih => exact eq_of_beq ha ▸ line s l (hnot hs) ih

/-- Lines with their ends make up the text. -/
theorem flatten_linesKeepEnds (lf : α) (l : List α) : (linesKeepEnds lf l).flatten = l := by
  induction l using lines_induction lf with
  | nil => rfl
  | last s hne hs =>
      rw [linesKeepEnds, pieces_of_notMem hne hs]
      exact List.flatten_singleton
  | line s l hs ih =>
      rw [linesKeepEnds] at ih ⊢
      rw [pieces_append_lf hs, List.map_cons, List.flatten_cons, ih]
      exact (List.append_cons s lf l).symm

/-- The lines of a text that is written line by line are those written. -/
theorem lines_flatMap_concat_lf {ls : List (List α)} (hlf : ∀ s ∈ ls, lf ∉ s)
    (hcr : ∀ s ∈ ls, s.getLast? ≠ some cr) : lines lf cr (ls.flatMap (· ++ [lf])) = ls := by
  induction ls with
  | nil => rfl
  | cons s ls ih =>
      obtain ⟨hs, hlf⟩ := List.forall_mem_cons.mp hlf
      obtain ⟨hs', hcr⟩ := List.forall_mem_cons.mp hcr
      rw [List.flatMap_cons, ← List.append_cons, lines_append_lf hs, dropCR_of_ne hs', ih hlf hcr]

theorem rawLines_flatMap_concat_lf {ls : List (List α)} (hlf : ∀ s ∈ ls, lf ∉ s) :
    rawLines lf (ls.flatMap (· ++ [lf])) = ls := by
  induction ls with
  | nil => rfl
  | cons s ls ih =>
      obtain ⟨hs, hlf⟩ := List.forall_mem_cons.mp hlf
      rw [List.flatMap_cons, ← List.append_cons, rawLines_append_lf hs, ih hlf]

omit [DecidableEq α] in
/-- Joining lines with line feeds, and one more at the end, writes them line by line. -/
theorem intercalate_append_lf {ls : List (List α)} (h : ls ≠ []) :
    [lf].intercalate ls ++ [lf] = ls.flatMap (· ++ [lf]) := by
  induction ls with
  | nil => exact absurd rfl h
  | cons s ls ih =>
      cases ls with
      | nil => simp
      | cons t ls =>
          rw [List.intercalate_cons_cons, List.append_assoc, List.flatMap_cons,
            ih (List.cons_ne_nil t ls)]

/-- The two agree where no line holds a carriage return. -/
theorem scanLines_eq_lines (h : ∀ s ∈ lines lf cr l, cr ∉ s) :
    scanLines lf cr l = lines lf cr l := by
  rw [scanLines, rawLines, List.map_map]
  refine List.map_congr_left fun s hs => ?_
  show dropCR cr s.1 = if s.2 then dropCR cr s.1 else s.1
  split
  · rfl
  · case isFalse hlast =>
      have hmem : s.1 ∈ lines lf cr l := List.mem_map.mpr ⟨s, hs, if_neg hlast⟩
      exact dropCR_of_ne fun hcr => h s.1 hmem (List.mem_of_getLast? hcr)

/-! ### Texts of empty lines -/

/-- A text of line ends and nothing else. -/
inductive OnlyLineEnds (lf cr : α) : List α → Prop where
  | nil : OnlyLineEnds lf cr []
  | lf {l : List α} : OnlyLineEnds lf cr l → OnlyLineEnds lf cr (lf :: l)
  | crlf {l : List α} : OnlyLineEnds lf cr l → OnlyLineEnds lf cr (cr :: lf :: l)

/-- These are the texts whose lines are all empty. -/
theorem onlyLineEnds_iff (hne : lf ≠ cr) :
    OnlyLineEnds lf cr l ↔ ∀ s ∈ lines lf cr l, s = [] := by
  constructor
  · intro h
    induction h with
    | nil => exact fun s hs => nomatch hs
    | lf _ ih =>
        rw [← List.nil_append (lf :: _), lines_append_lf List.not_mem_nil]
        exact List.forall_mem_cons.mpr ⟨rfl, ih⟩
    | @crlf l _ ih =>
        have hs : lf ∉ [cr] := List.mem_singleton.not.mpr hne
        rw [show cr :: lf :: l = [cr] ++ lf :: l from rfl, lines_append_lf hs]
        exact List.forall_mem_cons.mpr ⟨dropCR_concat (s := []), ih⟩
  · intro h
    induction l using lines_induction lf with
    | nil => exact .nil
    | last s hne hs =>
        rw [lines_of_notMem hne hs] at h
        exact absurd (h s List.mem_cons_self) hne
    | line s l hs ih =>
        rw [lines_append_lf hs] at h
        obtain ⟨hempty, hrest⟩ := List.forall_mem_cons.mp h
        cases dropCR_eq_or cr s with
        | inl heq =>
            rw [← heq, hempty]
            exact .lf (ih hrest)
        | inr heq =>
            rw [heq, hempty]
            exact .crlf (ih hrest)

end Lines

/-! ## Encodings -/

/-- An encoding that writes the two letters as they are, and no other letter with them. -/
structure LineCode (f : α → List β) (lf cr : α) (lf' cr' : β) : Prop where
  ne_nil : ∀ a, f a ≠ []
  lf_eq : f lf = [lf']
  cr_eq : f cr = [cr']
  eq_lf : ∀ {a}, lf' ∈ f a → a = lf
  eq_cr : ∀ {a}, cr' ∈ f a → a = cr

section Encodings

variable {f : α → List β} {lf cr : α} {lf' cr' : β}

theorem LineCode.notMem_flatMap (h : LineCode f lf cr lf' cr') {s : List α} (hs : lf ∉ s) :
    lf' ∉ s.flatMap f := by
  intro hmem
  obtain ⟨a, ha, hlf⟩ := List.mem_flatMap.mp hmem
  exact hs (h.eq_lf hlf ▸ ha)

theorem LineCode.flatMap_ne_nil (h : LineCode f lf cr lf' cr') {s : List α} (hs : s ≠ []) :
    s.flatMap f ≠ [] := by
  obtain ⟨a, s, rfl⟩ := List.exists_cons_of_ne_nil hs
  rw [List.flatMap_cons]
  exact List.append_ne_nil_of_left_ne_nil (h.ne_nil a) _

theorem LineCode.flatMap_append_lf (h : LineCode f lf cr lf' cr') (s l : List α) :
    (s ++ lf :: l).flatMap f = s.flatMap f ++ lf' :: l.flatMap f := by
  rw [List.flatMap_append, List.flatMap_cons, h.lf_eq]
  rfl

variable [DecidableEq α] [DecidableEq β]

theorem LineCode.dropCR_flatMap (h : LineCode f lf cr lf' cr') (s : List α) :
    dropCR cr' (s.flatMap f) = (dropCR cr s).flatMap f := by
  cases List.eq_nil_or_concat' s with
  | inl hs =>
      subst hs
      rfl
  | inr hs =>
      obtain ⟨s, a, rfl⟩ := hs
      by_cases ha : a = cr
      · rw [ha, List.flatMap_append, List.flatMap_singleton, h.cr_eq, dropCR_concat, dropCR_concat]
      · rw [dropCR_of_ne, dropCR_of_ne]
        · rw [List.getLast?_concat]
          exact fun heq => ha (Option.some.inj heq)
        · intro hlast
          rw [List.flatMap_append, List.flatMap_singleton,
            List.getLast?_append_of_ne_nil _ (h.ne_nil a)] at hlast
          exact ha (h.eq_cr (List.mem_of_getLast? hlast))

/-- The lines of the encoded text are the encoded lines. -/
theorem LineCode.lines_flatMap (h : LineCode f lf cr lf' cr') (l : List α) :
    lines lf' cr' (l.flatMap f) = (lines lf cr l).map (List.flatMap f) := by
  induction l using lines_induction lf with
  | nil => rfl
  | last s hne hs =>
      rw [lines_of_notMem (h.flatMap_ne_nil hne) (h.notMem_flatMap hs), lines_of_notMem hne hs]
      rfl
  | line s l hs ih =>
      rw [h.flatMap_append_lf, lines_append_lf (h.notMem_flatMap hs), lines_append_lf hs, ih,
        h.dropCR_flatMap]
      rfl

/-- The lines of an encoded text are the encoded lines. -/
theorem LineCode.rawLines_flatMap (h : LineCode f lf cr lf' cr') (l : List α) :
    rawLines lf' (l.flatMap f) = (rawLines lf l).map (List.flatMap f) := by
  induction l using lines_induction lf with
  | nil => rfl
  | last s hne hs =>
      rw [rawLines_of_notMem (h.flatMap_ne_nil hne) (h.notMem_flatMap hs),
        rawLines_of_notMem hne hs]
      rfl
  | line s l hs ih =>
      rw [h.flatMap_append_lf, rawLines_append_lf (h.notMem_flatMap hs), rawLines_append_lf hs, ih]
      rfl

theorem LineCode.scanLines_flatMap (h : LineCode f lf cr lf' cr') (l : List α) :
    scanLines lf' cr' (l.flatMap f) = (scanLines lf cr l).map (List.flatMap f) := by
  rw [scanLines, scanLines, h.rawLines_flatMap, List.map_map, List.map_map]
  exact List.map_congr_left fun s _ => h.dropCR_flatMap s

end Encodings

end Lines
