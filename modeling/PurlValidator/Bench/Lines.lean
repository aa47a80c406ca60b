import PurlValidator.Python.Text

/-!
# Lines in Python, Rust and Go

The three lookup programs read one text of queries.  Python reads it as a file and
then cuts it with `splitlines`, which knows more line boundaries than `\n`.  Rust
cuts it with `lines`.  Go cuts its bytes with a `bufio.Scanner`, which gives up on a
line that does not fit into its buffer.

`pythonQueries_eq_iff` says for which texts Python sees the lines that Rust sees, the
plain ones.  `scanTokens_encode` says that Go sees them as well, up to a line that
is too long.
-/

namespace Bench

open Py (CodePoint Str isLineBoundary universalNewlines)
open Utf8 (Bytes)
open Lines (LineCode lines rawLines scanLines)

/-! ## The three readers -/

/-- `query_path.read_text(encoding="utf-8").splitlines()`. -/
def pythonQueries (text : List Char) : List Str :=
  (universalNewlines (Str.ofChars text)).splitlines

/-- `str::lines` and `BufRead::lines`. -/
def rustLines (text : List Char) : List (List Char) := lines '\n' '\r' text

/-- The size that the buffer of the scanner may grow to. -/
def maxTokenSize : Nat := 1024 * 1024

/-- The tokens of a `bufio.Scanner`, and whether it stopped at a line that is too long.
A line has to leave room for one byte more. -/
def scanTokens (data : Bytes) : List Bytes × Bool :=
  let raw := rawLines 10 data
  ((raw.takeWhile fun line => line.length < maxTokenSize).map (Lines.dropCR 13),
    raw.any fun line => maxTokenSize ≤ line.length)

/-! ## Plain texts -/

/-- No line of the text holds a boundary of `splitlines`. -/
def PlainLines (text : List Char) : Prop :=
  ∀ line ∈ rustLines text, ∀ c ∈ line, isLineBoundary (CodePoint.ofChar c) = false

/-- That a line is free of them can be computed. -/
theorem plain_of_any {line : List Char}
    (h : (line.any fun c => isLineBoundary (CodePoint.ofChar c)) = false) :
    ∀ c ∈ line, isLineBoundary (CodePoint.ofChar c) = false := fun c hc =>
  Bool.eq_false_of_not_eq_true (List.any_eq_false.mp h c hc)

/-- Every line of the text is shorter than the buffer of the scanner. -/
def ShortLines (text : List Char) : Prop :=
  ∀ line ∈ rawLines '\n' text, (Utf8.encode line).length < maxTokenSize

theorem lineCode_ofChar : LineCode (fun c => [CodePoint.ofChar c]) '\n' '\r' Py.lf Py.cr where
  ne_nil _ := List.cons_ne_nil _ _
  lf_eq := rfl
  cr_eq := rfl
  eq_lf h := (CodePoint.ofChar_inj.mp (List.mem_singleton.mp h)).symm
  eq_cr h := (CodePoint.ofChar_inj.mp (List.mem_singleton.mp h)).symm

theorem ofChars_eq_flatMap (text : List Char) :
    Str.ofChars text = text.flatMap fun c => [CodePoint.ofChar c] :=
  List.map_eq_flatMap

/-- Python sees the code points of the lines. -/
theorem lines_ofChars (text : List Char) :
    lines Py.lf Py.cr (Str.ofChars text) = (rustLines text).map Str.ofChars := by
  rw [ofChars_eq_flatMap, lineCode_ofChar.lines_flatMap]
  exact List.map_congr_left fun line _ => (ofChars_eq_flatMap line).symm

/-- Python and Rust see the same lines exactly in plain texts. -/
theorem pythonQueries_eq_iff {text : List Char} :
    pythonQueries text = (rustLines text).map Str.ofChars ↔ PlainLines text := by
  rw [pythonQueries, ← lines_ofChars, Py.splitlines_eq_lines_iff, lines_ofChars]
  simp only [List.forall_mem_map, Str.ofChars, PlainLines]

/-! ## The bytes of a text -/

theorem lineCode_utf8 : LineCode String.utf8EncodeChar '\n' '\r' 10 13 where
  ne_nil _ := String.utf8EncodeChar_ne_nil
  lf_eq := by decide
  cr_eq := by decide
  eq_lf h := Char.ext (UInt32.toNat_inj.mp (Utf8.toNat_eq_of_mem_utf8EncodeChar (by decide) h))
  eq_cr h := Char.ext (UInt32.toNat_inj.mp (Utf8.toNat_eq_of_mem_utf8EncodeChar (by decide) h))

theorem rawLines_encode (text : List Char) :
    rawLines 10 (Utf8.encode text) = (rawLines '\n' text).map Utf8.encode :=
  lineCode_utf8.rawLines_flatMap text

/-- The lines of a plain text hold no carriage return, so where it is dropped is all the
same. -/
theorem scanLines_eq_rustLines {text : List Char} (h : PlainLines text) :
    scanLines '\n' '\r' text = rustLines text :=
  Lines.scanLines_eq_lines fun line hline hmem => absurd (h line hline '\r' hmem) (by decide)

/-- The lines of a plain text, encoded, are those that Go cuts. -/
theorem scanLines_encode {text : List Char} (h : PlainLines text) :
    scanLines 10 13 (Utf8.encode text) = (rustLines text).map Utf8.encode := by
  rw [← scanLines_eq_rustLines h]
  exact lineCode_utf8.scanLines_flatMap text

/-- The scanner gives up exactly if some line is too long. -/
theorem scanTokens_encode_snd (text : List Char) :
    (scanTokens (Utf8.encode text)).2 = false ↔ ShortLines text := by
  simp only [scanTokens, rawLines_encode, List.any_eq_false, List.forall_mem_map,
    decide_eq_true_iff, not_le, ShortLines]

/-- The tokens are lines. -/
theorem scanTokens_encode_initial {text : List Char} (h : PlainLines text) :
    (scanTokens (Utf8.encode text)).1 <+: (rustLines text).map Utf8.encode := by
  rw [← scanLines_encode h]
  exact (List.takeWhile_prefix _).map _

/-- If no line is too long they are all the lines. -/
theorem scanTokens_encode {text : List Char} (h : PlainLines text) (hshort : ShortLines text) :
    scanTokens (Utf8.encode text) = ((rustLines text).map Utf8.encode, false) := by
  refine Prod.ext ?_ ((scanTokens_encode_snd text).mpr hshort)
  rw [← scanLines_encode h]
  refine congrArg (List.map (Lines.dropCR 13)) (List.takeWhile_eq_self_iff.mpr ?_)
  rw [rawLines_encode, List.forall_mem_map]
  exact fun line hline => decide_eq_true (hshort line hline)

end Bench
