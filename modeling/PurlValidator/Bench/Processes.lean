import PurlValidator.Bench.Queries
import PurlValidator.Python.Numerals

/-!
# The lookup programs as processes

`go-rust-py_benchmark.py` starts the Rust and the Go program and reads from their output how
many hits they counted.  Both print two lines and end with 0, or print an error and end with
1.  The script takes a status that is not 0 for a failure and otherwise looks for the lines,
by what they start with.

`parseLookupOutput_eq_ok_iff` says which outputs are understood: lines that it does not know
are passed over, and the last of several counts.  `runLookup_lookupMain` says that nothing
is lost on the way: the script has the count of the program, or raises with its error.

How long a lookup takes is up to the clock.  `elapsed` is the time in microseconds, and
`float` stands for the built-in function, on whose result nothing depends.  The output is
text that can be decoded.
-/

namespace Bench

open Py (CodePoint Str UnicodeData isLineBoundary universalNewlines)
open Utf8 (Bytes)
open Purl (Exn Path FileSystem MakesTempDir Ducer)

/-! ## The programs -/

/-- What the script sees of a process that has ended.  Errors go to the same stream. -/
structure CompletedProcess where
  returncode : Int
  stdout : List Char

def hitsStem : List Char := "hits=".toList

def secondsStem : List Char := "lookup_seconds=".toList

/-- The format `.6f` of a number of microseconds in seconds. -/
def fixed6 (micros : Nat) : List Char :=
  Nat.toDigits 10 (micros / 1000000) ++
    '.' :: (Nat.toDigits 10 (micros % 1000000)).leftpad 6 '0'

/-- The lines that are printed at the end of `run`. -/
def lookupLines (hits elapsed : Nat) : List (List Char) :=
  [hitsStem ++ Nat.toDigits 10 hits, secondsStem ++ fixed6 elapsed]

/-- `main` of the Rust and of the Go program, around what `run` returned. -/
def lookupMain (elapsed : Nat) : Except String Nat → CompletedProcess
  | .ok hits => ⟨0, (lookupLines hits elapsed).flatMap (· ++ ['\n'])⟩
  | .error error => ⟨1, error.toList ++ ['\n']⟩

/-! ## The script -/

/-- What the scripts raise. -/
inductive ScriptExn where
  /-- An error that the library raises as well. -/
  | exn (e : Exn)
  /-- `Exception`, with its message. -/
  | exception (msg : Str)
deriving DecidableEq

/-- The message of `run_command`, with the end of the output. -/
def commandFailed (returncode : Int) (command : List Str) (stdout : Str) : Str :=
  Str.lit "Command failed with exit code " ++ Str.lit (toString returncode) ++ Str.lit ": " ++
    (Str.lit " ").intercalate command ++ Str.lit "\n" ++ stdout.rtake 4000

/-- `run_command`, for a command that completes like this. -/
def runCommand (command : List Str) (results : CompletedProcess) : Except ScriptExn Str :=
  let stdout := universalNewlines (Str.ofChars results.stdout)
  if results.returncode ≠ 0 then
    .error (.exception (commandFailed results.returncode command stdout))
  else .ok stdout

/-- `line.split("=", 1)[1]`, where there is a `=`. -/
def valueOf (line : Str) : Str := (line.dropWhile (· ≠ CodePoint.ofChar '=')).tail

/-- The value of a line that starts with the key. -/
def assigned {β : Type} (key : Str) (convert : Str → Except ScriptExn β) (line : Str) :
    Option (Except ScriptExn β) :=
  if key <+: line then some (convert (valueOf line)) else none

section Parse

variable {α : Type} (u : UnicodeData) (float : Str → Except ScriptExn α)

/-- `int(s)`. -/
def toInt (s : Str) : Except ScriptExn Int :=
  match u.int s with
  | .ok n => .ok n
  | .error msg => .error (.exn (.valueError msg))

def hitsOf : Str → Option (Except ScriptExn Int) := assigned (Str.ofChars hitsStem) (toInt u)

def secondsOf : Str → Option (Except ScriptExn α) := assigned (Str.ofChars secondsStem) float

/-- The body of the loop in `parse_lookup_output`. -/
def parseLine (acc : Option Int × Option α) (line : Str) :
    Except ScriptExn (Option Int × Option α) := do
  return (← Results.keepLast (hitsOf u) acc.1 line, ← Results.keepLast (secondsOf float) acc.2 line)

/-- `parse_lookup_output`. -/
def parseLookupOutput (text : Str) : Except ScriptExn (Int × α) := do
  match ← text.splitlines.foldlM (parseLine u float) (none, none) with
  | (some hits, some seconds) => return (hits, seconds)
  | _ => .error (.exception (Str.lit "Cannot parse lookup output:\n" ++ text))

/-- The end of `benchmark_rust` and of `benchmark_go`. -/
def runLookup (command : List Str) (results : CompletedProcess) : Except ScriptExn (Int × α) := do
  let output ← runCommand command results
  parseLookupOutput u float output

end Parse

/-! ## Which outputs are understood -/

section Outputs

variable {α : Type} {u : UnicodeData} {float : Str → Except ScriptExn α}

/-- The output has lines for the hits and for the time, the last of which are these, and the
lines for the hits and for the time all hold numbers. -/
theorem parseLookupOutput_eq_ok_iff {text : Str} {hits : Int} {seconds : α} :
    parseLookupOutput u float text = .ok (hits, seconds) ↔
      (∀ line ∈ text.splitlines, ∀ e, hitsOf u line ≠ some (.error e)) ∧
      (∀ line ∈ text.splitlines, ∀ e, secondsOf float line ≠ some (.error e)) ∧
      (text.splitlines.filterMap fun line =>
        (hitsOf u line).bind Except.toOption).getLast? = some hits ∧
      (text.splitlines.filterMap fun line =>
        (secondsOf float line).bind Except.toOption).getLast? = some seconds := by
  have hloop : ∀ {acc : Option Int × Option α},
      text.splitlines.foldlM (parseLine u float) (none, none) = .ok acc ↔
        ((∀ line ∈ text.splitlines, ∀ e, hitsOf u line ≠ some (.error e)) ∧
          acc.1 = (text.splitlines.filterMap fun line =>
            (hitsOf u line).bind Except.toOption).getLast?) ∧
        (∀ line ∈ text.splitlines, ∀ e, secondsOf float line ≠ some (.error e)) ∧
          acc.2 = (text.splitlines.filterMap fun line =>
            (secondsOf float line).bind Except.toOption).getLast? := by
    intro acc
    have hprod : text.splitlines.foldlM (parseLine u float) (none, none) = .ok (acc.1, acc.2) ↔
        text.splitlines.foldlM (Results.keepLast (hitsOf u)) none = .ok acc.1 ∧
          text.splitlines.foldlM (Results.keepLast (secondsOf float)) none = .ok acc.2 :=
      Results.foldlM_prod_eq_ok_iff
    rw [Results.foldlM_keepLast_eq_ok_iff, Results.foldlM_keepLast_eq_ok_iff, Option.or_none,
      Option.or_none] at hprod
    exact hprod
  rw [parseLookupOutput, Results.bind_eq_ok_iff]
  constructor
  · rintro ⟨⟨hits', seconds'⟩, hacc, hret⟩
    obtain ⟨⟨hh, hhits⟩, hs, hseconds⟩ := hloop.mp hacc
    match hits', seconds' with
    | none, _ => cases hret
    | some _, none => cases hret
    | some hits', some seconds' =>
        cases hret
        exact ⟨hh, hs, hhits.symm, hseconds.symm⟩
  · rintro ⟨hh, hs, hhits, hseconds⟩
    exact ⟨(some hits, some seconds), hloop.mpr ⟨⟨hh, hhits.symm⟩, hs, hseconds.symm⟩, rfl⟩

/-! ### The output of the programs -/

theorem assigned_append {β : Type} {convert : Str → Except ScriptExn β} (key value : List Char) :
    assigned (Str.ofChars key) convert (Str.ofChars (key ++ value)) =
      some (convert (valueOf (Str.ofChars (key ++ value)))) := by
  refine if_pos ?_
  rw [Str.ofChars_append]
  exact List.prefix_append _ _

/-- A key does not start a line that starts with another letter. -/
theorem assigned_of_ne {β : Type} {convert : Str → Except ScriptExn β} {c c' : Char}
    {key line : List Char} (h : c ≠ c') :
    assigned (Str.ofChars (c :: key)) convert (Str.ofChars (c' :: line)) = none := by
  refine if_neg fun hpre => h ?_
  exact CodePoint.ofChar_inj.mp (List.cons_prefix_cons.mp hpre).1

/-- The line for the hits is read as the number that was printed. -/
theorem hitsOf_hits {hits : Nat} (h : hits < 18446744073709551616) :
    hitsOf u (Str.ofChars (hitsStem ++ Nat.toDigits 10 hits)) = some (.ok (hits : Int)) := by
  have hlength : (Nat.toDigits 10 hits).length ≤ Py.defaultMaxStrDigits := by
    have hle : (Nat.toDigits 10 hits).length ≤ 20 :=
      (Nat.length_toDigits_le_iff (by omega) (by omega)).mpr (h.trans (by omega))
    exact hle.trans (by decide)
  have hvalue : valueOf (Str.ofChars (hitsStem ++ Nat.toDigits 10 hits)) =
      Str.ofChars (Nat.toDigits 10 hits) := rfl
  rw [hitsOf, assigned_append, hvalue, toInt, UnicodeData.int_toDigits hlength]

theorem secondsOf_seconds (elapsed : Nat) :
    secondsOf float (Str.ofChars (secondsStem ++ fixed6 elapsed)) =
      some (float (Str.ofChars (fixed6 elapsed))) := by
  rw [secondsOf, assigned_append]
  rfl

theorem isLineBoundary_of_mem_fixed6 {elapsed : Nat} {c : Char} (h : c ∈ fixed6 elapsed) :
    isLineBoundary (CodePoint.ofChar c) = false := by
  rw [fixed6, List.mem_append, List.mem_cons, List.leftpad, List.mem_append] at h
  rcases h with h | rfl | h | h
  · exact isLineBoundary_of_isDigit (isDigit_of_mem_toDigits h)
  · decide
  · rw [List.eq_of_mem_replicate h]
    decide
  · exact isLineBoundary_of_isDigit (isDigit_of_mem_toDigits h)

/-- Each of the printed lines is one line to Python. -/
theorem lookupLines_plain (hits elapsed : Nat) :
    ∀ line ∈ lookupLines hits elapsed, ∀ c ∈ line, isLineBoundary (CodePoint.ofChar c) = false := by
  have hhits : (hitsStem.any fun c => isLineBoundary (CodePoint.ofChar c)) = false := by decide
  have hseconds : (secondsStem.any fun c => isLineBoundary (CodePoint.ofChar c)) = false := by
    decide
  refine List.forall_mem_cons.mpr ⟨fun c hc => ?_, List.forall_mem_singleton.mpr fun c hc => ?_⟩
  · rcases List.mem_append.mp hc with hc | hc
    · exact plain_of_any hhits c hc
    · exact isLineBoundary_of_isDigit (isDigit_of_mem_toDigits hc)
  · rcases List.mem_append.mp hc with hc | hc
    · exact plain_of_any hseconds c hc
    · exact isLineBoundary_of_mem_fixed6 hc

/-- The lines that were printed are the lines that are parsed. -/
theorem splitlines_lookupLines (hits elapsed : Nat) :
    (universalNewlines (Str.ofChars ((lookupLines hits elapsed).flatMap (· ++ ['\n'])))).splitlines =
      (lookupLines hits elapsed).map Str.ofChars := by
  have hplain := lookupLines_plain hits elapsed
  have hlines : rustLines ((lookupLines hits elapsed).flatMap (· ++ ['\n'])) =
      lookupLines hits elapsed := by
    refine Lines.lines_flatMap_concat_lf (fun line hline => ?_) (fun line hline hlast => ?_)
    · exact notMem_of_plain (hplain line hline) (by decide)
    · exact notMem_of_plain (hplain line hline) (by decide) (List.mem_of_getLast? hlast)
  rw [← pythonQueries, pythonQueries_eq_iff.mpr, hlines]
  rw [PlainLines, hlines]
  exact hplain

/-- The script has the number of hits that the program counted, or raises with its error. -/
theorem runLookup_lookupMain {elapsed : Nat} {seconds : α}
    (hfloat : float (Str.ofChars (fixed6 elapsed)) = .ok seconds) {result : Except String Nat}
    (hfit : ∀ hits, result = .ok hits → hits < 18446744073709551616) (command : List Str) :
    runLookup u float command (lookupMain elapsed result) =
      match result with
      | .ok hits => .ok ((hits : Int), seconds)
      | .error error => .error (.exception (commandFailed 1 command
          (universalNewlines (Str.ofChars (error.toList ++ ['\n']))))) := by
  cases result with
  | error error => rfl
  | ok hits =>
      have hhits := hitsOf_hits (u := u) (hfit hits rfl)
      have hseconds : secondsOf float (Str.ofChars (secondsStem ++ fixed6 elapsed)) =
          some (.ok seconds) := by
        rw [secondsOf_seconds, hfloat]
      have hother : hitsOf u (Str.ofChars (secondsStem ++ fixed6 elapsed)) = none :=
        assigned_of_ne (by decide : 'h' ≠ 'l')
      have hother' : secondsOf float (Str.ofChars (hitsStem ++ Nat.toDigits 10 hits)) = none :=
        assigned_of_ne (by decide : 'l' ≠ 'h')
      show parseLookupOutput u float (universalNewlines (Str.ofChars
        ((lookupLines hits elapsed).flatMap (· ++ ['\n'])))) = _
      rw [parseLookupOutput_eq_ok_iff, splitlines_lookupLines]
      simp [lookupLines, hhits, hseconds, hother, hother', Except.toOption]

/-! ## From the queries to the report -/

section Report

variable {parsers : Parsers} {w : SetWalk Bytes} {d : Ducer}
  {getTempDir : FileSystem d.Image → Path × FileSystem d.Image} {index : Path}
  {purls : List (List Char)} {fs : FileSystem d.Image}

/-- For generated queries the script counts half of them itself, and has the same number from
either program. -/
theorem report_writeQueries {contains : Bytes → Bool} {goContains : Bytes → Except String Bool}
    (hspec : FollowsSpec parsers.python) (hd : d.Exact)
    (hset : ∀ key, contains key = true ↔ key ∈ purls.map Utf8.encode)
    (hfst : ∀ key, goContains key = .ok (decide (key ∈ purls.map Utf8.encode)))
    (htemp : MakesTempDir getTempDir fs) (hplace : IndexPlace getTempDir index fs)
    (hclean : CleanCatalog parsers purls) (rng : Rng) {rustElapsed goElapsed : Nat}
    {rustSeconds goSeconds : α} (hrust : float (Str.ofChars (fixed6 rustElapsed)) = .ok rustSeconds)
    (hgo : float (Str.ofChars (fixed6 goElapsed)) = .ok goSeconds)
    (rustCommand goCommand : List Str) :
    ∃ text, writeQueries rng purls = .ok text ∧
      pythonHits parsers.python w d getTempDir index purls text fs = .ok (queryCount / 2) ∧
      runLookup u float rustCommand (lookupMain rustElapsed (rustRun parsers.rust contains text)) =
        .ok (((queryCount / 2 : Nat) : Int), rustSeconds) ∧
      runLookup u float goCommand
          (lookupMain goElapsed (goRun parsers.go goContains (Utf8.encode text))) =
        .ok (((queryCount / 2 : Nat) : Int), goSeconds) := by
  obtain ⟨text, hwrite, hpy, hrs, hg⟩ :=
    hits_writeQueries (w := w) hspec hd hset hfst htemp hplace hclean rng
  have hfit : ∀ hits, (Except.ok (queryCount / 2) : Except String Nat) = .ok hits →
      hits < 18446744073709551616 := by
    intro hits h
    rw [← Except.ok.inj h]
    decide
  refine ⟨text, hwrite, hpy, ?_, ?_⟩
  · rw [hrs, runLookup_lookupMain hrust hfit]
  · rw [hg, runLookup_lookupMain hgo hfit]

end Report

end Outputs

/-! ### A report

The catalog of two packages, and programs that take half a second. -/

section Npm

/-- The database below 128. -/
def asciiData : UnicodeData where
  decimal? p := if 48 ≤ p.val ∧ p.val ≤ 57 then some (p.val - 48) else none
  printable p := 32 ≤ p.val && p.val < 127
  decimal?_ascii _ := rfl

/-- Reads one numeral. -/
def halfSecond (s : Str) : Except ScriptExn Rat :=
  if s = Str.lit "0.500000" then .ok (1 / 2)
  else .error (.exn (.valueError (Str.lit "could not convert string to float")))

theorem report_writeQueries_catalog : ∃ text, writeQueries Rng.inOrder catalog = .ok text ∧
    pythonHits npmPurl SetWalk.byInsertion Ducer.listed (Purl.tempDirAt Purl.tmpDir) pythonIndex
      catalog text FileSystem.bare = .ok (queryCount / 2) ∧
    runLookup asciiData halfSecond []
        (lookupMain 500000 (rustRun npmParsers.rust catalogSet text)) =
      .ok (((queryCount / 2 : Nat) : Int), 1 / 2) ∧
    runLookup asciiData halfSecond []
        (lookupMain 500000 (goRun npmParsers.go catalogFst (Utf8.encode text))) =
      .ok (((queryCount / 2 : Nat) : Int), 1 / 2) := by
  have hfloat : halfSecond (Str.ofChars (fixed6 500000)) = .ok (1 / 2) := if_pos (by decide)
  exact report_writeQueries npmPurl_followsSpec Ducer.listed_exact
    (fun _ => List.contains_iff_mem) (fun _ => congrArg Except.ok (List.contains_eq_mem _ _))
    Purl.makesTempDir_bare indexPlace_bare cleanCatalog_npmParsers Rng.inOrder hfloat hfloat [] []

end Npm

end Bench
