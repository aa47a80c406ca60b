import PurlValidator.Bench.Lookups

/-!
# What the lookup programs refuse

`lookups_agree` compares the three programs on texts that all of them accept.  Here is what
they do on the others.  Each program has its own idea of a query to refuse, a function from
the query to an error.

* Python refuses what has no map entry.
* Rust refuses what is no PURL, and what is more than a base PURL.
* Go refuses that as well, and what its index fails on.

A loop ends at the first query that is refused, with its error, and what was counted until
then is lost.  `outcomes` says how each loop ends, for every text, and that
`benchmark_python` raises either way.
-/

namespace Bench

open Py (Str)
open Utf8 (Bytes)
open Purl (Exn PackageURL Path FileSystem Ducer PurlValidator MakesTempDir createPurlMapEntry)

/-! ## Refusals -/

def pythonRefusal (fromString : Str → Except Exn PackageURL) (query : Str) : Option Exn :=
  match createPurlMapEntry fromString (.str query) with
  | .error e => some e
  | .ok _ => none

def rustRefusal (fromStr : List Char → Except String RustPurl) (query : List Char) :
    Option String :=
  match fromStr query with
  | .error e => some e
  | .ok purl =>
      if purl.version.isSome || !purl.qualifiers.isEmpty || purl.subpath.isSome then
        some "only base PURL is supported"
      else none

def goRefusal (fromString : Bytes → Except String GoPurl) (contains : Bytes → Except String Bool)
    (query : Bytes) : Option String :=
  match fromString query with
  | .error e => some e
  | .ok purl =>
      if purl.version ≠ [] ∨ purl.qualifiers.length > 0 ∨ purl.subpath ≠ [] then
        some "only base PURL is supported"
      else
        match contains query with
        | .error e => some e
        | .ok _ => none

/-! ## The loop -/

/-- How a lookup ends. -/
def answerUnless {ε : Type} (refusal : Option ε) (answer : Bool) : Except ε Bool :=
  match refusal with
  | some e => .error e
  | none => .ok answer

/-- How a loop ends that refuses some queries and counts those of the others that satisfy
`p`. -/
def outcome {ε α : Type} (refusal : α → Option ε) (p : α → Bool) (queries : List α) :
    Except ε Nat :=
  match queries.findSome? refusal with
  | some e => .error e
  | none => .ok (queries.countP p)

/-- A loop over lookups that answer unless they refuse. -/
theorem countHits_eq_outcome {ε α : Type} {lookup : α → Except ε Bool} {refusal : α → Option ε}
    {p : α → Bool} {queries : List α}
    (h : ∀ q, lookup q = answerUnless (refusal q) (p q)) :
    countHits lookup queries = outcome refusal p queries := by
  have hloop : countHits lookup queries = (queries.findSome? refusal).elim
      (.ok (queries.foldl (fun hits q => if p q then hits + 1 else hits) 0)) .error := by
    refine Results.foldlM_eq_findSome? fun hits q => ?_
    rw [h]
    cases refusal q with
    | some e => rfl
    | none => rfl
  rw [outcome]
  cases hfind : queries.findSome? refusal with
  | some e =>
      rw [hloop, hfind]
      rfl
  | none =>
      refine countHits_eq fun q hq => ?_
      rw [h, List.findSome?_eq_none_iff.mp hfind q hq]
      rfl

/-! ## The lookups -/

section Lookups

variable {parsers : Parsers}

/-- Rust answers what it does not refuse. -/
theorem rustLookup_eq_refusal {contains : Bytes → Bool} (query : List Char) :
    rustLookup parsers.rust contains query =
      answerUnless (rustRefusal parsers.rust query)
        (contains (Utf8.encode (trimEndMatches query '/'))) := by
  rw [rustLookup, rustRefusal]
  cases parsers.rust query with
  | error e => rfl
  | ok purl =>
      show (if _ then _ else _) = _
      split
      · case isTrue hmore =>
          simp only [if_pos hmore]
          rfl
      · case isFalse hbase =>
          simp only [if_neg hbase]
          rfl

/-- The answer of the index, where it has one. -/
def answer (contains : Bytes → Except String Bool) (query : Bytes) : Bool :=
  (contains query).toOption.getD false

/-- Go refuses as well what its index fails on. -/
theorem goLookup_eq_refusal {contains : Bytes → Except String Bool} (query : Bytes) :
    goLookup parsers.go contains query =
      answerUnless (goRefusal parsers.go contains query) (answer contains query) := by
  rw [goLookup, goRefusal, answer]
  cases parsers.go query with
  | error e => rfl
  | ok purl =>
      show (if _ then _ else _) = _
      split
      · case isTrue hmore =>
          simp only [if_pos hmore]
          rfl
      · case isFalse hbase =>
          simp only [if_neg hbase]
          cases contains query with
          | error e => rfl
          | ok b => rfl

/-- The catalog has a PURL with the entry of the query. -/
def HasEntry (fromString : Str → Except Exn PackageURL) (purls : List (List Char)) (query : Str) :
    Prop :=
  ∃ purl ∈ purls, createPurlMapEntry fromString (.str (Str.ofChars purl)) =
    createPurlMapEntry fromString (.str query)

instance (fromString : Str → Except Exn PackageURL) (purls : List (List Char)) (query : Str) :
    Decidable (HasEntry fromString purls query) :=
  inferInstanceAs (Decidable (∃ purl ∈ purls, _ = _))

/-- Python answers whatever has a map entry. -/
theorem validatePurl_eq_refusal {d : Ducer} {fs : FileSystem d.Image} {v : PurlValidator}
    {image : d.Image} {purls : List (List Char)}
    (hfile : fs.files.lookup v.purlMap.location = some image)
    (hholds : Purl.Holds d image
      (Purl.keys parsers.python (purls.map fun s => .str (Str.ofChars s)))) (query : Str) :
    v.validatePurl parsers.python d (.str query) fs =
      answerUnless (pythonRefusal parsers.python query)
        (decide (HasEntry parsers.python purls query)) := by
  rw [pythonRefusal]
  cases hentry : createPurlMapEntry parsers.python (.str query) with
  | error e =>
      rw [PurlValidator.validatePurl, hentry]
      rfl
  | ok k =>
      obtain ⟨b, hb, hiff⟩ := Purl.validatePurl_eq hfile hholds hentry
      rw [mem_keys_strings, ← hentry] at hiff
      rw [hb, Bool.eq_iff_iff.mpr (hiff.trans decide_eq_true_iff.symm)]
      rfl

end Lookups

/-! ## How the programs end -/

/-- For every text, how the three loops end.  Python sees the lines of `splitlines`, Rust
those of `lines` and Go the tokens of its scanner, which may have stopped before the end.
`benchmark_python` raises what its loop raises, and otherwise over the field of `Result`. -/
theorem outcomes {parsers : Parsers} {w : SetWalk Bytes} {d : Ducer}
    {getTempDir : FileSystem d.Image → Path × FileSystem d.Image} {index : Path}
    {purls : List (List Char)} {fs : FileSystem d.Image} (hspec : FollowsSpec parsers.python)
    (hd : d.Exact) (htemp : MakesTempDir getTempDir fs) (hplace : IndexPlace getTempDir index fs)
    (hpurls : ∀ purl ∈ purls, ∃ p, parsers.python (Str.ofChars purl) = .ok p)
    (contains : Bytes → Bool) (goContains : Bytes → Except String Bool) (text : List Char)
    (file : Bytes) :
    pythonHits parsers.python w d getTempDir index purls text fs =
        outcome (pythonRefusal parsers.python)
          (fun q => decide (HasEntry parsers.python purls q)) (pythonQueries text) ∧
      benchmarkPython parsers.python w d getTempDir index purls text fs =
        .error (((pythonQueries text).findSome? (pythonRefusal parsers.python)).getD
          noHitsField) ∧
      rustRun parsers.rust contains text =
        outcome (rustRefusal parsers.rust)
          (fun q => contains (Utf8.encode (trimEndMatches q '/'))) (rustLines text) ∧
      goRun parsers.go goContains file =
        match outcome (goRefusal parsers.go goContains) (answer goContains)
            (scanTokens file).1 with
        | .error e => .error e
        | .ok hits =>
            if (scanTokens file).2 then .error "bufio.Scanner: token too long" else .ok hits := by
  have hhits : pythonHits parsers.python w d getTempDir index purls text fs =
      outcome (pythonRefusal parsers.python)
        (fun q => decide (HasEntry parsers.python purls q)) (pythonQueries text) := by
    obtain ⟨generated, fs₁, fs₂, image, hcreate, hcopy, hfile, hholds⟩ :=
      copy2_createPurlMap (w := w) hspec hd htemp hplace hpurls
    simp only [pythonHits, hcreate, hcopy, Purl.init_eq_ok hfile hholds]
    exact countHits_eq_outcome (validatePurl_eq_refusal hfile hholds)
  refine ⟨hhits, ?_, ?_, ?_⟩
  · rw [benchmarkPython, hhits, outcome]
    cases (pythonQueries text).findSome? (pythonRefusal parsers.python) with
    | some e => rfl
    | none => rfl
  · exact countHits_eq_outcome rustLookup_eq_refusal
  · rw [goRun, countHits_eq_outcome goLookup_eq_refusal]
    cases outcome (goRefusal parsers.go goContains) (answer goContains) (scanTokens file).1 with
    | error e => rfl
    | ok hits => rfl

/-- The second line is no PURL, and no program gets past it. -/
def refusedText : List Char := "pkg:npm/foo\nnpm/foo\n".toList

/-- What the line is refused with, and what `benchmark_python` raises where none is. -/
theorem outcomes_refusedText :
    hits refusedText =
        (.error (.valueError (Str.lit "purl is missing the required pkg scheme: npm/foo")),
          .error "invalid scheme", .error "purl scheme is not pkg") ∧
      benchmarkPython fooParsers.python SetWalk.byInsertion Ducer.listed
          (Purl.tempDirAt Purl.tmpDir) pythonIndex catalog spellings FileSystem.bare =
        .error noHitsField := by
  obtain ⟨hpy, -, hrs, hgo⟩ := outcomes (w := SetWalk.byInsertion) fooParsers_followsSpec
    Ducer.listed_exact Purl.makesTempDir_bare indexPlace_bare exists_python_catalog catalogSet
    catalogFst refusedText (Utf8.encode refusedText)
  obtain ⟨-, hraise, -, -⟩ := outcomes (w := SetWalk.byInsertion) fooParsers_followsSpec
    Ducer.listed_exact Purl.makesTempDir_bare indexPlace_bare exists_python_catalog catalogSet
    catalogFst spellings (Utf8.encode spellings)
  refine ⟨?_, hraise.trans (by decide)⟩
  exact Prod.ext (hpy.trans (by decide)) (Prod.ext (hrs.trans (by decide)) (hgo.trans (by decide)))

end Bench
