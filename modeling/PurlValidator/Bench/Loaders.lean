import PurlValidator.Bench.Lines
import PurlValidator.Index.Entry
import PurlValidator.Lib.Separators
import PurlValidator.Lib.SortedKeys

/-!
# The catalog loaders

Both benchmarks start from a directory of text files with one PURL a line.  The
Python loader is the same in `alternative_benchmark.py` and in
`go-rust-py_benchmark.py`; the Rust loader is that of `rust-fst-dawg-bench`.  A file
has a name and a text: it is valid UTF-8, and nothing is replaced when it is read.

They differ in what is a text file, in what ends a line and in whether a line is
stripped.  And the Python loader collects the lines in a set, with `append`, which
sets do not have.  So it raises at the first line that is not blank.
`loadersAgree_iff` says exactly when the two loaders agree nevertheless.
-/

namespace Bench

open Py (Str fileLines isSpace)
open Purl (Exn)
open Lines (OnlyLineEnds)

/-! ## Directories -/

/-- A file of the data directory, with what it holds. -/
structure DataFile where
  name : Str
  text : List Char

/-- The names that the glob `*.txt` matches. -/
def MatchesTxt (name : Str) : Prop := Str.lit ".txt" <:+ name

instance (name : Str) : Decidable (MatchesTxt name) :=
  inferInstanceAs (Decidable (Str.lit ".txt" <:+ name))

/-- Files in the order of their names. -/
def sortFiles (files : List DataFile) : List DataFile :=
  files.insertionSort fun f g => f.name ≤ g.name

/-! ## The Python loader -/

/-- `purls.append(purl)`, where `purls` is a set. -/
def setAppend (_purls : List Str) (_purl : Str) : Except Exn (List Str) :=
  .error (.attributeError (Str.lit "'set' object has no attribute 'append'"))

/-- The body of the inner loop. -/
def loadLine (purls : List Str) (line : Str) : Except Exn (List Str) :=
  let purl := line.strip
  if purl ≠ [] then setAppend purls purl else .ok purls

/-- `load_purls`.  A set is kept as the list of the insertions into it. -/
def loadPurls (w : SetWalk Str) (path : List DataFile) : Except Exn (List Str × Nat) := do
  let inputFiles := sortFiles (path.filter fun f => MatchesTxt f.name)
  let purls ← inputFiles.foldlM
    (fun purls f => (fileLines (Str.ofChars f.text)).foldlM loadLine purls) []
  return (w.sorted purls, inputFiles.length)

/-! ## The Rust loader -/

def dot : Py.CodePoint := Py.CodePoint.ofChar '.'

/-- `Path::extension`: what follows the last dot, unless nothing stands before it. -/
def extension (name : Str) : Option Str :=
  match name.rdropWhile (· != dot) with
  | [] => none
  | [_] => none
  | _ => some (name.rtakeWhile (· != dot))

/-- `purl_files`. -/
def purlFiles (path : List DataFile) : List DataFile :=
  sortFiles (path.filter fun f => extension f.name = some (Str.lit "txt"))

/-- The body of the inner loop, on the keys and `raw_count`. -/
def pushLine (acc : List (List Char) × Nat) (line : List Char) : List (List Char) × Nat :=
  if line.isEmpty then acc else (acc.1 ++ [line], acc.2 + 1)

/-- `load_purls` of the Rust benchmark.  Strings are compared by their bytes. -/
def rustLoadPurls (path : List DataFile) : List (List Char) × Nat :=
  let acc := (purlFiles path).foldl (fun acc f => (rustLines f.text).foldl pushLine acc) ([], 0)
  let keys := acc.1.insertionSort fun a b => Utf8.encode a ≤ Utf8.encode b
  (keys.destutter (· ≠ ·), acc.2)

/-! ## Which files are read -/

theorem extension_append_cons {s t : Str} (h : dot ∉ t) :
    extension (s ++ dot :: t) = if s = [] then none else some t := by
  obtain ⟨hdrop, htake⟩ := Separators.rdropWhile_rtakeWhile_append_cons s h
  rw [extension, hdrop, htake]
  match s with
  | [] => rfl
  | [_] => rfl
  | _ :: _ :: _ => rfl

theorem extension_of_notMem {name : Str} (h : dot ∉ name) : extension name = none := by
  have hnil : name.rdropWhile (· != dot) = [] :=
    List.rdropWhile_eq_nil_iff.mpr fun p hp => bne_iff_ne.mpr fun heq => h (heq ▸ hp)
  rw [extension, hnil]

/-- Rust passes over one of the names that Python matches. -/
theorem extension_eq_txt_iff {name : Str} :
    extension name = some (Str.lit "txt") ↔ MatchesTxt name ∧ name ≠ Str.lit ".txt" := by
  have hlit : Str.lit ".txt" = dot :: Str.lit "txt" := rfl
  have htxt : dot ∉ Str.lit "txt" := by decide
  rw [MatchesTxt, hlit]
  by_cases hmem : dot ∈ name
  · obtain ⟨s, t, rfl, ht⟩ := Separators.exists_append_cons_notMem hmem
    rw [extension_append_cons ht]
    constructor
    · intro h
      by_cases hs : s = []
      · rw [if_pos hs] at h
        cases h
      · rw [if_neg hs, Option.some.injEq] at h
        refine ⟨⟨s, by rw [h]⟩, fun heq => hs ?_⟩
        rw [h] at heq
        exact List.append_left_eq_self.mp heq
    · intro h
      obtain ⟨⟨u, hu⟩, hne⟩ := h
      have htake := (Separators.rdropWhile_rtakeWhile_append_cons u htxt).2
      rw [hu, (Separators.rdropWhile_rtakeWhile_append_cons s ht).2] at htake
      rw [htake] at hne ⊢
      rw [if_neg]
      intro hs
      rw [hs, List.nil_append] at hne
      exact hne rfl
  · rw [extension_of_notMem hmem]
    simp only [reduceCtorEq, false_iff]
    intro h
    exact hmem (h.1.subset List.mem_cons_self)

theorem mem_purlFiles {path : List DataFile} {f : DataFile} :
    f ∈ purlFiles path ↔ f ∈ path ∧ MatchesTxt f.name ∧ f.name ≠ Str.lit ".txt" := by
  rw [purlFiles, sortFiles, List.mem_insertionSort, List.mem_filter, decide_eq_true_iff,
    extension_eq_txt_iff]

/-! ## What the Rust loader returns -/

theorem foldl_pushLine (lines : List (List Char)) (acc : List (List Char) × Nat) :
    lines.foldl pushLine acc =
      (acc.1 ++ lines.filter (· ≠ []), acc.2 + (lines.filter (· ≠ [])).length) := by
  induction lines generalizing acc with
  | nil => simp
  | cons line lines ih =>
      rw [List.foldl_cons, ih]
      cases line with
      | nil => simp [pushLine]
      | cons c line => simp [pushLine, Nat.add_assoc, Nat.add_comm 1]

/-- The lines of all files one after the other. -/
theorem foldl_files (files : List DataFile) (acc : List (List Char) × Nat) :
    files.foldl (fun acc f => (rustLines f.text).foldl pushLine acc) acc =
      (files.flatMap fun f => rustLines f.text).foldl pushLine acc := by
  rw [List.foldl_flatMap]

/-- Sorting by bytes is sorting. -/
theorem sortedLE_insertionSort_encode (keys : List (List Char)) :
    (keys.insertionSort fun a b => Utf8.encode a ≤ Utf8.encode b).SortedLE := by
  have htotal : Std.Total fun a b : List Char => Utf8.encode a ≤ Utf8.encode b :=
    ⟨fun _ _ => le_total _ _⟩
  have htrans : IsTrans (List Char) fun a b => Utf8.encode a ≤ Utf8.encode b :=
    ⟨fun _ _ _ => le_trans⟩
  exact ((List.pairwise_insertionSort _ keys).imp Utf8.encode_le_iff.mp).sortedLE

theorem sortedLT_rustLoadPurls (path : List DataFile) : (rustLoadPurls path).1.SortedLT :=
  sortedLT_destutter_ne (sortedLE_insertionSort_encode _)

/-- The keys are the lines that are not empty. -/
theorem mem_rustLoadPurls {path : List DataFile} {key : List Char} :
    key ∈ (rustLoadPurls path).1 ↔
      key ≠ [] ∧ ∃ f ∈ purlFiles path, key ∈ rustLines f.text := by
  rw [rustLoadPurls, mem_destutter_ne, List.mem_insertionSort, foldl_files, foldl_pushLine,
    List.nil_append, List.mem_filter, List.mem_flatMap, decide_eq_true_iff, and_comm]

theorem rustLoadPurls_eq_nil_iff {path : List DataFile} :
    (rustLoadPurls path).1 = [] ↔ ∀ f ∈ purlFiles path, OnlyLineEnds '\n' '\r' f.text := by
  simp only [Lines.onlyLineEnds_iff (by decide : '\n' ≠ '\r'),
    List.eq_nil_iff_forall_not_mem (l := (rustLoadPurls path).1), mem_rustLoadPurls, not_and,
    not_exists]
  constructor
  · intro h f hf line hline
    by_contra hne
    exact h line hne f hf hline
  · intro h key hne f hf hkey
    exact hne (h f hf key hkey)

/-- The lines of all files that are not empty. -/
def keyLines (path : List DataFile) : List (List Char) :=
  ((purlFiles path).flatMap fun f => rustLines f.text).filter (· ≠ [])

/-- The keys depend only on which lines there are: not on their order, on the files they are in
or on how often they occur.  There are as many keys as lines were counted exactly if no line
occurs twice. -/
theorem rustLoadPurls_canonical (path path' : List DataFile) :
    ((rustLoadPurls path).1 = (rustLoadPurls path').1 ↔
        ∀ key, key ∈ keyLines path ↔ key ∈ keyLines path') ∧
      (rustLoadPurls path).1.length ≤ (rustLoadPurls path).2 ∧
      ((rustLoadPurls path).1.length = (rustLoadPurls path).2 ↔ (keyLines path).Nodup) := by
  have hmem : ∀ path key, key ∈ (rustLoadPurls path).1 ↔ key ∈ keyLines path := by
    intro path key
    rw [mem_rustLoadPurls, keyLines, List.mem_filter, List.mem_flatMap, decide_eq_true_iff,
      and_comm]
  have hcount : (rustLoadPurls path).2 = (keyLines path).length := by
    rw [rustLoadPurls, foldl_files, foldl_pushLine, Nat.zero_add, keyLines]
  refine ⟨⟨fun heq key => ?_, fun hsame => ?_⟩, ?_⟩
  · rw [← hmem, heq, hmem]
  · refine (sortedLT_rustLoadPurls path).eq_of_mem_iff (sortedLT_rustLoadPurls path') fun key => ?_
    rw [hmem, hmem, hsame]
  · rw [hcount]
    exact length_le_and_eq_iff_nodup (sortedLT_rustLoadPurls path).nodup (hmem path)

/-! ## What the Python loader returns -/

theorem loadLine_eq_ok_iff {purls purls' : List Str} {line : Str} :
    loadLine purls line = .ok purls' ↔ line.strip = [] ∧ purls' = purls := by
  rw [loadLine]
  by_cases h : line.strip = []
  · rw [if_neg (not_not.mpr h), Except.ok.injEq, eq_comm, and_iff_right h]
  · rw [if_pos h]
    simp [setAppend, h]

/-- It returns only if every line is blank, and then nothing. -/
theorem loadPurls_eq_ok_iff {w : SetWalk Str} {path : List DataFile} {purls : List Str} {n : Nat} :
    loadPurls w path = .ok (purls, n) ↔
      (∀ f ∈ path, MatchesTxt f.name → ∀ p ∈ Str.ofChars f.text, isSpace p = true) ∧
        purls = [] ∧ n = (path.filter fun f => MatchesTxt f.name).length := by
  have hloop : ∀ (purls : List Str) (f : DataFile) (purls' : List Str),
      (fileLines (Str.ofChars f.text)).foldlM loadLine purls = .ok purls' ↔
        (∀ p ∈ Str.ofChars f.text, isSpace p = true) ∧ purls' = purls := by
    intro purls f purls'
    rw [Results.foldlM_keep_eq_ok_iff (p := fun line : Str => line.strip = [])
      (fun _ _ _ => loadLine_eq_ok_iff), Py.forall_strip_eq_nil_iff]
  have hsorted : w.sorted [] = [] := List.eq_nil_iff_forall_not_mem.mpr fun p hp =>
    List.not_mem_nil (w.mem_sorted.mp hp)
  rw [loadPurls, Results.bind_eq_ok_iff]
  simp only [Results.foldlM_keep_eq_ok_iff hloop, sortFiles, List.mem_insertionSort,
    List.length_insertionSort, List.mem_filter, decide_eq_true_iff, and_imp]
  constructor
  · intro h
    obtain ⟨purls', ⟨hblank, hpurls'⟩, hret⟩ := h
    rw [hpurls', hsorted] at hret
    cases hret
    exact ⟨hblank, rfl, rfl⟩
  · intro h
    obtain ⟨hblank, hpurls, hn⟩ := h
    refine ⟨[], ⟨hblank, rfl⟩, ?_⟩
    rw [hsorted, hpurls, hn]
    rfl

/-! ## When they agree -/

/-- The Python loader returns the lines of all files, stripped and without the empty ones,
each once and in order, and the Rust loader has the same keys. -/
def LoadersAgree (w : SetWalk Str) (path : List DataFile) : Prop :=
  ∃ purls n, loadPurls w path = .ok (purls, n) ∧ purls.SortedLT ∧
    (∀ purl, purl ∈ purls ↔ purl ≠ [] ∧
      ∃ f ∈ path, MatchesTxt f.name ∧ ∃ line ∈ fileLines (Str.ofChars f.text), line.strip = purl) ∧
    purls = (rustLoadPurls path).1.map Str.ofChars

/-- They agree exactly where there is nothing to load.  Every text file consists of line
ends, and white space is allowed in the file that only Python reads. -/
theorem loadersAgree_iff {w : SetWalk Str} {path : List DataFile} :
    LoadersAgree w path ↔
      ∀ f ∈ path, MatchesTxt f.name → (∀ p ∈ Str.ofChars f.text, isSpace p = true) ∧
        (f.name ≠ Str.lit ".txt" → OnlyLineEnds '\n' '\r' f.text) := by
  have hrust : (rustLoadPurls path).1 = [] ↔
      ∀ f ∈ path, MatchesTxt f.name → f.name ≠ Str.lit ".txt" → OnlyLineEnds '\n' '\r' f.text := by
    simp only [rustLoadPurls_eq_nil_iff, mem_purlFiles, and_imp]
  constructor
  · intro h f hf htxt
    obtain ⟨purls, n, hload, -, -, hkeys⟩ := h
    obtain ⟨hblank, hpurls, -⟩ := loadPurls_eq_ok_iff.mp hload
    rw [hpurls] at hkeys
    exact ⟨hblank f hf htxt, hrust.mp (List.map_eq_nil_iff.mp hkeys.symm) f hf htxt⟩
  · intro h
    have hblank : ∀ f ∈ path, MatchesTxt f.name → ∀ p ∈ Str.ofChars f.text, isSpace p = true :=
      fun f hf htxt => (h f hf htxt).1
    refine ⟨[], _, loadPurls_eq_ok_iff.mpr ⟨hblank, rfl, rfl⟩, List.Pairwise.nil.sortedLT,
      fun purl => ?_, ?_⟩
    · simp only [List.not_mem_nil, false_iff]
      intro hline
      obtain ⟨hne, f, hf, htxt, line, hmem, hstrip⟩ := hline
      exact hne (hstrip ▸ Py.forall_strip_eq_nil_iff.mpr (hblank f hf htxt) line hmem)
    · rw [hrust.mpr fun f hf htxt => (h f hf htxt).2]
      rfl

/-- A directory with one file of one line. -/
def oneLine : List DataFile := [⟨Str.lit "npm.txt", "pkg:npm/foo\n".toList⟩]

/-- The Python loader raises on it. -/
theorem loadPurls_oneLine :
    loadPurls SetWalk.byInsertion oneLine =
        .error (.attributeError (Str.lit "'set' object has no attribute 'append'")) ∧
      (rustLoadPurls oneLine).1 = ["pkg:npm/foo".toList] ∧
      ¬ LoadersAgree SetWalk.byInsertion oneLine := by
  have hraise : loadPurls SetWalk.byInsertion oneLine =
      .error (.attributeError (Str.lit "'set' object has no attribute 'append'")) := by decide
  refine ⟨hraise, by decide, fun h => ?_⟩
  obtain ⟨purls, n, hload, -⟩ := h
  rw [hraise] at hload
  cases hload

end Bench
