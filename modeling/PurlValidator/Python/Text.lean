import PurlValidator.Lib.Lines
import PurlValidator.Lib.Utf8
import Mathlib.Data.List.DropRight
import Mathlib.Tactic.Lift

/-!
# Python strings

A `str` is a sequence of code points, and a code point may be a lone surrogate,
which no encoding to UTF-8 accepts.  So `Str` is a list of `CodePoint`, a
character of Lean is a code point that is no surrogate, and `Str.encode` is
partial.  Strings are compared by their code points.

The module also models what the programs do with text: `strip`, the newline
translation of a file opened in text mode, the lines of such a file and
`splitlines`.
-/

namespace Py

open Utf8 (Bytes)
open Lines (pieces lines linesKeepEnds)

/-! ## Code points -/

/-- A Unicode code point, surrogates included. -/
abbrev CodePoint := Fin 0x110000

/-- A character is a code point that is not a surrogate. -/
def CodePoint.ofChar (c : Char) : CodePoint :=
  ⟨c.val.toNat, by
    have := c.valid
    unfold UInt32.isValidChar Nat.isValidChar at this
    omega⟩

/-- The character of a code point, unless it is a surrogate. -/
def CodePoint.toChar? (p : CodePoint) : Option Char :=
  if h : p.val.isValidChar then some (Char.ofNatAux p.val h) else none

@[simp] theorem CodePoint.toChar?_ofChar (c : Char) : (CodePoint.ofChar c).toChar? = some c := by
  have hvalid : (CodePoint.ofChar c).val.isValidChar := c.valid
  rw [CodePoint.toChar?, dif_pos hvalid]
  rfl

/-- The only code point of a character is its own. -/
theorem CodePoint.toChar?_eq_some_iff {p : CodePoint} {c : Char} :
    p.toChar? = some c ↔ p = CodePoint.ofChar c := by
  constructor
  · intro h
    by_cases hvalid : p.val.isValidChar
    · rw [CodePoint.toChar?, dif_pos hvalid] at h
      cases h
      rfl
    · rw [CodePoint.toChar?, dif_neg hvalid] at h
      cases h
  · intro h
    rw [h, CodePoint.toChar?_ofChar]

@[simp] theorem CodePoint.ofChar_lt_ofChar {c d : Char} :
    CodePoint.ofChar c < CodePoint.ofChar d ↔ c < d := Iff.rfl

/-- The order of characters is that of their code points. -/
theorem CodePoint.strictMono_ofChar : StrictMono CodePoint.ofChar :=
  fun _ _ h => CodePoint.ofChar_lt_ofChar.mpr h

@[simp] theorem CodePoint.ofChar_inj {c d : Char} :
    CodePoint.ofChar c = CodePoint.ofChar d ↔ c = d :=
  CodePoint.strictMono_ofChar.injective.eq_iff

/-- The digits of ASCII. -/
theorem isDigit_iff {c : Char} : c.isDigit = true ↔ 48 ≤ c.toNat ∧ c.toNat ≤ 57 := by
  rw [Char.isDigit, Bool.and_eq_true, decide_eq_true_iff, decide_eq_true_iff]
  exact and_congr UInt32.le_iff_toNat_le UInt32.le_iff_toNat_le

/-! ## Strings -/

/-- A `str`. -/
abbrev Str := List CodePoint

/-- The string of a text without surrogates. -/
def Str.ofChars (cs : List Char) : Str := cs.map CodePoint.ofChar

/-- A string literal of the source. -/
def Str.lit (s : String) : Str := Str.ofChars s.toList

theorem Str.ofChars_append (s t : List Char) :
    Str.ofChars (s ++ t) = Str.ofChars s ++ Str.ofChars t :=
  List.map_append

/-- Different texts are different strings. -/
theorem Str.ofChars_injective : Function.Injective Str.ofChars :=
  List.map_injective_iff.mpr CodePoint.strictMono_ofChar.injective

/-- The order of strings is the order of their texts. -/
theorem Str.strictMono_ofChars : StrictMono Str.ofChars := by
  intro s t h
  induction h with
  | @nil c t => exact List.nil_lt_cons _ _
  | @rel c s d t hcd => exact List.Lex.rel (CodePoint.ofChar_lt_ofChar.mpr hcd)
  | @cons c s t _ ih => exact List.Lex.cons ih

/-- No code point of the string is a surrogate. -/
def Str.Scalar (s : Str) : Prop := ∀ p ∈ s, p.toChar? ≠ none

instance Str.decidableScalar (s : Str) : Decidable s.Scalar :=
  inferInstanceAs (Decidable (∀ p ∈ s, p.toChar? ≠ none))

/-- The characters of the string, unless it holds a surrogate. -/
def Str.toChars? (s : Str) : Option (List Char) := s.mapM CodePoint.toChar?

/-- A string has a text if it is the string of that text. -/
theorem Str.toChars?_eq_some_iff {s : Str} {cs : List Char} :
    s.toChars? = some cs ↔ s = Str.ofChars cs := by
  rw [Str.toChars?, Str.ofChars]
  induction s generalizing cs with
  | nil => cases cs <;> simp
  | cons p s ih =>
      cases cs with
      | nil => cases hp : p.toChar? <;> simp [hp, Option.bind_eq_some_iff]
      | cons c cs =>
          rw [List.map_cons, List.cons.injEq, ← CodePoint.toChar?_eq_some_iff, ← ih]
          cases hp : p.toChar? with
          | none => simp [hp]
          | some d => simp [hp, Option.bind_eq_some_iff, and_comm]

theorem Str.scalar_ofChars (cs : List Char) : (Str.ofChars cs).Scalar := by
  intro p hp
  obtain ⟨c, -, rfl⟩ := List.mem_map.mp hp
  simp

theorem Str.Scalar.exists_ofChars {s : Str} (h : s.Scalar) : ∃ cs, s = Str.ofChars cs := by
  induction s with
  | nil => exact ⟨[], rfl⟩
  | cons p s ih =>
      obtain ⟨cs, rfl⟩ := ih fun q hq => h q (List.mem_cons_of_mem _ hq)
      obtain ⟨c, hc⟩ := Option.ne_none_iff_exists'.mp (h p List.mem_cons_self)
      rw [CodePoint.toChar?_eq_some_iff] at hc
      exact ⟨c :: cs, by rw [hc]; rfl⟩

/-- The strings without surrogates are those of texts. -/
theorem Str.scalar_iff_exists {s : Str} : s.Scalar ↔ ∃ cs, s = Str.ofChars cs := by
  constructor
  · exact Str.Scalar.exists_ofChars
  · rintro ⟨cs, rfl⟩
    exact Str.scalar_ofChars cs

/-- A string without surrogates is a text. -/
instance Str.canLift : CanLift Str (List Char) Str.ofChars Str.Scalar where
  prf _ h := (Str.scalar_iff_exists.mp h).imp fun _ => Eq.symm

/-! ## Encoding -/

/-- `bytes(s, "utf-8")` and `s.encode("utf-8")`.  A surrogate raises
`UnicodeEncodeError`. -/
def Str.encode (s : Str) : Option Bytes := s.toChars?.map Utf8.encode

/-- What can be encoded is a text, and is encoded as that. -/
theorem Str.encode_eq_some_iff {s : Str} {b : Bytes} :
    s.encode = some b ↔ ∃ cs, s = Str.ofChars cs ∧ b = Utf8.encode cs := by
  rw [Str.encode, Option.map_eq_some_iff]
  simp only [Str.toChars?_eq_some_iff, eq_comm (a := b)]

@[simp] theorem Str.encode_ofChars (cs : List Char) :
    (Str.ofChars cs).encode = some (Utf8.encode cs) :=
  Str.encode_eq_some_iff.mpr ⟨cs, rfl, rfl⟩

/-- A string can be encoded exactly when it has no surrogate. -/
theorem Str.exists_encode_iff {s : Str} : (∃ b, s.encode = some b) ↔ s.Scalar := by
  rw [Str.scalar_iff_exists]
  constructor
  · rintro ⟨b, hb⟩
    obtain ⟨cs, hs, -⟩ := Str.encode_eq_some_iff.mp hb
    exact ⟨cs, hs⟩
  · rintro ⟨cs, rfl⟩
    exact ⟨_, Str.encode_ofChars cs⟩

/-- Strings with equal encodings are equal. -/
theorem Str.encode_inj {s t : Str} {b : Bytes} (hs : s.encode = some b) (ht : t.encode = some b) :
    s = t := by
  obtain ⟨cs, rfl, hb⟩ := Str.encode_eq_some_iff.mp hs
  obtain ⟨ds, rfl, hb'⟩ := Str.encode_eq_some_iff.mp ht
  rw [Utf8.encode_injective (hb.symm.trans hb')]

/-! ## White space and lines -/

/-- The code points that `str.strip` removes. -/
def isSpace (p : CodePoint) : Bool :=
  (9 ≤ p.val && p.val ≤ 13) || (28 ≤ p.val && p.val ≤ 32) || p.val == 0x85 || p.val == 0xa0 ||
    p.val == 0x1680 || (0x2000 ≤ p.val && p.val ≤ 0x200a) || p.val == 0x2028 ||
    p.val == 0x2029 || p.val == 0x202f || p.val == 0x205f || p.val == 0x3000

/-- `s.strip()`. -/
def Str.strip (s : Str) : Str := (s.dropWhile isSpace).rdropWhile isSpace

/-- Stripping leaves nothing of white space. -/
theorem Str.strip_eq_nil_iff {s : Str} : s.strip = [] ↔ ∀ p ∈ s, isSpace p = true := by
  rw [Str.strip, List.rdropWhile_eq_nil_iff]
  constructor
  · intro h p hp
    rw [← List.takeWhile_append_dropWhile (p := isSpace) (l := s)] at hp
    rcases List.mem_append.mp hp with hp | hp
    · exact List.mem_takeWhile_imp hp
    · exact h p hp
  · exact fun h p hp => h p (List.dropWhile_suffix isSpace |>.subset hp)

/-- The line feed. -/
def lf : CodePoint := CodePoint.ofChar '\n'

/-- The carriage return. -/
def cr : CodePoint := CodePoint.ofChar '\r'

/-- Newline translation, with whether the code point before was a carriage return,
whose newline is already written. -/
def newlinesAfter : Bool → Str → Str
  | _, [] => []
  | afterCr, p :: s =>
      if p = cr then lf :: newlinesAfter true s
      else if p = lf && afterCr then newlinesAfter false s
      else p :: newlinesAfter false s

/-- What reading a file in text mode gives: `\r\n` and `\r` become `\n`. -/
def universalNewlines (s : Str) : Str := newlinesAfter false s

/-- The lines that iterating over a file in text mode gives, with their newlines. -/
def fileLines (text : Str) : List Str := linesKeepEnds lf (universalNewlines text)

/-- The boundaries of `splitlines`; `\r\n` is one boundary. -/
def isLineBoundary (p : CodePoint) : Bool :=
  (10 ≤ p.val && p.val ≤ 13) || (28 ≤ p.val && p.val ≤ 30) || p.val == 0x85 ||
    p.val == 0x2028 || p.val == 0x2029

/-- `s.splitlines()`. -/
def Str.splitlines (s : Str) : List Str :=
  (pieces isLineBoundary (universalNewlines s)).map Prod.fst

/-! ### Blank files -/

theorem forall_mem_newlinesAfter_iff {b : Bool} {s : Str} :
    (∀ p ∈ newlinesAfter b s, isSpace p = true) ↔ ∀ p ∈ s, isSpace p = true := by
  have hlf : isSpace lf = true := by decide
  have hcr : isSpace cr = true := by decide
  fun_induction newlinesAfter b s with
  | case1 => exact Iff.rfl
  | case2 b s ih => simp only [List.forall_mem_cons, ih, hlf, hcr]
  | case3 b p s hp h ih =>
      have heq : p = lf := of_decide_eq_true (Bool.and_elim_left h)
      simp only [List.forall_mem_cons, ih, heq, hlf, true_and]
  | case4 b p s hp h ih => simp only [List.forall_mem_cons, ih]

/-- Every line of a file is blank exactly when the file holds nothing but white space. -/
theorem forall_strip_eq_nil_iff {s : Str} :
    (∀ line ∈ fileLines s, line.strip = []) ↔ ∀ p ∈ s, isSpace p = true := by
  rw [← forall_mem_newlinesAfter_iff (b := false), ← universalNewlines,
    ← Lines.flatten_linesKeepEnds lf (universalNewlines s), List.forall_mem_flatten]
  simp only [Str.strip_eq_nil_iff, fileLines]

/-! ### Plain line ends -/

/-- Newline translation passes over what holds no line boundary. -/
theorem newlinesAfter_append {s t : Str} (hs : ∀ p ∈ s, isLineBoundary p = false) :
    newlinesAfter false (s ++ t) = s ++ newlinesAfter false t := by
  induction s with
  | nil => rfl
  | cons p s ih =>
      obtain ⟨hp, hs⟩ := List.forall_mem_cons.mp hs
      have hcr : p ≠ cr := fun h => absurd (h ▸ hp) (by decide)
      rw [List.cons_append, newlinesAfter, if_neg hcr, ih hs]
      simp

theorem universalNewlines_append_lf {s t : Str} (hs : ∀ p ∈ s, isLineBoundary p = false) :
    universalNewlines (s ++ lf :: t) = s ++ lf :: universalNewlines t := by
  rw [universalNewlines, newlinesAfter_append hs]
  rfl

theorem universalNewlines_append_crlf {s t : Str} (hs : ∀ p ∈ s, isLineBoundary p = false) :
    universalNewlines (s ++ cr :: lf :: t) = s ++ lf :: universalNewlines t := by
  rw [universalNewlines, newlinesAfter_append hs]
  rfl

theorem universalNewlines_eq_self {s : Str} (hs : ∀ p ∈ s, isLineBoundary p = false) :
    universalNewlines s = s := by
  have h := newlinesAfter_append (t := []) hs
  rwa [List.append_nil, newlinesAfter, List.append_nil] at h

/-- The lines of a text that is read from a file are those between `\n`s and `\r\n`s exactly
when none of those holds another line boundary. -/
theorem splitlines_eq_lines_iff {s : Str} :
    (universalNewlines s).splitlines = lines lf cr s ↔
      ∀ line ∈ lines lf cr s, ∀ p ∈ line, isLineBoundary p = false := by
  constructor
  · intro h line hline p hp
    rw [← h] at hline
    obtain ⟨piece, hpiece, rfl⟩ := List.mem_map.mp hline
    exact (Lines.mem_pieces_iff.mp ⟨piece, hpiece, hp⟩).2
  · intro h
    induction s using Lines.lines_induction lf with
    | nil => rfl
    | last s hne hs =>
        rw [Lines.lines_of_notMem hne hs] at h ⊢
        have hs' := h s List.mem_cons_self
        rw [Str.splitlines, universalNewlines_eq_self hs', universalNewlines_eq_self hs',
          Lines.pieces_of_forall hne hs']
        rfl
    | line s l hs ih =>
        rw [Lines.lines_append_lf hs] at h ⊢
        obtain ⟨hfirst, hrest⟩ := List.forall_mem_cons.mp h
        have hread : universalNewlines (s ++ lf :: l) =
            Lines.dropCR cr s ++ lf :: universalNewlines l := by
          cases Lines.dropCR_eq_or cr s with
          | inl heq =>
              rw [heq] at hfirst ⊢
              exact universalNewlines_append_lf hfirst
          | inr heq =>
              rw [congrArg (· ++ lf :: l) heq, List.append_assoc]
              exact universalNewlines_append_crlf hfirst
        rw [hread, Str.splitlines, universalNewlines_append_lf hfirst,
          Lines.pieces_append_cons hfirst (by decide), List.map_cons]
        exact congrArg _ (ih hrest)

end Py
