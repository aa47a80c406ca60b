import PurlValidator.Bench.Lines
import PurlValidator.Index.Store

/-!
# The lookup benchmarks in Python, Rust and Go

`go-rust-py_benchmark.py` runs one text of queries through the three libraries and
compares the numbers of hits.  The three loops are one loop, `countHits`, around
three lookups.  They do not ask the same question.

* Python asks for the entry of the query, that is for its package.
* Rust asks for the query as it is spelled, without the slashes at its end.
* Go asks for the query as it is spelled.

The indexes of Rust and Go hold the strings of the catalog as they are spelled.  So
a package that the catalog has under another spelling is a hit in Python only.
`lookups_agree` says what is left of the agreement: the two never find more than
Python does, and exactly when they find as much.

`benchmark_python` does not return.  After the loop it calls `Result` with the hits, for
which that has no field.  So the loop, `pythonHits`, is a definition of its own.

The three parsers and the two indexes are not in this repository.  `Parsers` is what
the loops see of the parsers, and `FollowsSpec` is what is used of the Python one.
-/

namespace Bench

open Py (CodePoint Str isLineBoundary)
open Utf8 (Bytes)
open Purl (Exn PackageURL PyObj Path FileSystem Ducer PurlValidator MakesTempDir createPurlMap
  slash createPurlMapEntry entryStr)

/-! ## The parsers -/

/-- What the Rust loop reads of a `PackageUrl`. -/
structure RustPurl where
  version : Option (List Char)
  qualifiers : List (List Char × List Char)
  subpath : Option (List Char)

/-- What the Go loop reads of a `PackageURL`.  A missing part is empty. -/
structure GoPurl where
  version : Bytes
  qualifiers : List (Bytes × Bytes)
  subpath : Bytes

/-- `PackageURL.from_string`, `PackageUrl::from_str` and `packageurl.FromString`. -/
structure Parsers where
  python : Str → Except Exn PackageURL
  rust : List Char → Except String RustPurl
  go : Bytes → Except String GoPurl

/-- No version, no qualifiers and no subpath. -/
def IsBase (p : PackageURL) : Prop := p.version = none ∧ p.qualifiers = [] ∧ p.subpath = none

/-- The Python parser decodes to text without surrogates, and a slash at the end of a base
PURL means nothing to it. -/
structure FollowsSpec (fromString : Str → Except Exn PackageURL) : Prop where
  scalar : ∀ {s p}, s.Scalar → fromString s = .ok p → (entryStr p).Scalar
  ignores_slash : ∀ {s p}, fromString (s ++ [slash]) = .ok p → IsBase p → fromString s = .ok p

/-- The three parsers take the query for a base PURL. -/
structure Accepts (parsers : Parsers) (query : List Char) : Prop where
  python : ∃ p, parsers.python (Str.ofChars query) = .ok p ∧ IsBase p
  rust : ∃ p, parsers.rust query = .ok p ∧
    p.version = none ∧ p.qualifiers = [] ∧ p.subpath = none
  go : ∃ p, parsers.go (Utf8.encode query) = .ok p ∧
    p.version = [] ∧ p.qualifiers = [] ∧ p.subpath = []

/-! ## The programs -/

/-- The lookup loop. -/
def countHits {ε α : Type} (lookup : α → Except ε Bool) (queries : List α) : Except ε Nat :=
  queries.foldlM (fun hits query => return if ← lookup query then hits + 1 else hits) 0

section Python

variable (fromString : Str → Except Exn PackageURL) (w : SetWalk Bytes) (d : Ducer)
  (getTempDir : FileSystem d.Image → Path × FileSystem d.Image) (index : Path)
  (purls : List (List Char)) (text : List Char) (fs : FileSystem d.Image)

/-- `benchmark_python` to the end of its loop: the hits. -/
def pythonHits : Except Exn Nat :=
  match createPurlMap fromString w d getTempDir (purls.map fun s => .str (Str.ofChars s)) fs with
  | (.error e, _) => .error e
  | (.ok generated, fs₁) =>
      match FileSystem.copy2 generated index fs₁ with
      | (.error e, _) => .error e
      | (.ok (), fs₂) => do
          let validator ← PurlValidator.init d index fs₂
          countHits (fun query => validator.validatePurl fromString d (.str query) fs₂)
            (pythonQueries text)

/-- `Result(..., hits=hits)`: the class has no such field. -/
def noHitsField : Exn :=
  .typeError (Str.lit "Result.__init__() got an unexpected keyword argument 'hits'")

/-- `benchmark_python`.  It returns nothing. -/
def benchmarkPython : Except Exn Empty := do
  -- the index was loaded, so that `index.stat()` finds it
  let _hits ← pythonHits fromString w d getTempDir index purls text fs
  .error noHitsField

end Python

/-- `s.trim_end_matches(c)`. -/
def trimEndMatches (s : List Char) (c : Char) : List Char := s.rdropWhile (· == c)

/-- The body of the Rust loop. -/
def rustLookup (fromStr : List Char → Except String RustPurl) (contains : Bytes → Bool)
    (query : List Char) : Except String Bool := do
  let purl ← fromStr query
  if purl.version.isSome || !purl.qualifiers.isEmpty || purl.subpath.isSome then
    .error "only base PURL is supported"
  else
    let key := trimEndMatches query '/'
    return contains (Utf8.encode key)

/-- `run` of the Rust program: the hits. -/
def rustRun (fromStr : List Char → Except String RustPurl) (contains : Bytes → Bool)
    (queries : List Char) : Except String Nat :=
  countHits (rustLookup fromStr contains) (rustLines queries)

/-- The body of the Go loop. -/
def goLookup (fromString : Bytes → Except String GoPurl) (contains : Bytes → Except String Bool)
    (query : Bytes) : Except String Bool := do
  let purl ← fromString query
  if purl.version ≠ [] ∨ purl.qualifiers.length > 0 ∨ purl.subpath ≠ [] then
    .error "only base PURL is supported"
  else contains query

/-- `run` of the Go program: the hits.  The error of the scanner is checked after the loop. -/
def goRun (fromString : Bytes → Except String GoPurl) (contains : Bytes → Except String Bool)
    (file : Bytes) : Except String Nat := do
  let hits ← countHits (goLookup fromString contains) (scanTokens file).1
  if (scanTokens file).2 then .error "bufio.Scanner: token too long" else return hits

/-! ## Counting -/

/-- A loop whose lookups all succeed counts the hits. -/
theorem countHits_eq {ε α : Type} {lookup : α → Except ε Bool} {queries : List α} {p : α → Bool}
    (h : ∀ q ∈ queries, lookup q = .ok (p q)) :
    countHits lookup queries = .ok (queries.countP p) := by
  have hloop : ∀ n, queries.foldlM
      (fun hits query => return if ← lookup query then hits + 1 else hits) n =
        .ok (n + queries.countP p) := by
    induction queries with
    | nil => exact fun _ => rfl
    | cons q queries ih =>
        intro n
        have hq := h q List.mem_cons_self
        have hrest := ih fun q' hq' => h q' (List.mem_cons_of_mem _ hq')
        rw [List.foldlM_cons, hq, List.countP_cons]
        show queries.foldlM _ (if p q = true then n + 1 else n) = _
        cases hpq : p q with
        | true => exact (hrest (n + 1)).trans (congrArg Except.ok (Nat.add_right_comm n 1 _))
        | false => exact hrest n
  rw [countHits, hloop, Nat.zero_add]

theorem countHits_map {ε α β : Type} {lookup : α → Except ε Bool} {queries : List β} {f : β → α} :
    countHits lookup (queries.map f) = countHits (fun q => lookup (f q)) queries :=
  List.foldlM_map

/-- Where one predicate implies the other, the counts are equal if the converse holds. -/
theorem countP_eq_countP_iff {α : Type} {l : List α} {p q : α → Bool}
    (h : ∀ a ∈ l, p a = true → q a = true) :
    l.countP p = l.countP q ↔ ∀ a ∈ l, q a = true → p a = true := by
  have hp : l.countP p = (l.filter q).countP p := by
    rw [List.countP_filter]
    refine List.countP_congr fun a ha => ?_
    rw [Bool.and_eq_true]
    exact ⟨fun hpa => ⟨hpa, h a ha hpa⟩, And.left⟩
  rw [hp, List.countP_eq_length_filter (p := q), List.countP_eq_length]
  simp only [List.mem_filter, and_imp]

/-! ## What the lookups answer -/

/-- An entry of the catalog has the same map entry as the query. -/
def SameEntry (fromString : Str → Except Exn PackageURL) (purls : List (List Char))
    (query : List Char) : Prop :=
  ∃ purl ∈ purls, createPurlMapEntry fromString (.str (Str.ofChars purl)) =
    createPurlMapEntry fromString (.str (Str.ofChars query))

instance (fromString : Str → Except Exn PackageURL) (purls : List (List Char))
    (query : List Char) : Decidable (SameEntry fromString purls query) :=
  inferInstanceAs (Decidable (∃ purl ∈ purls, _ = _))

section Lookups

variable {parsers : Parsers} {purls : List (List Char)} {query : List Char}

theorem acceptable_of_eq_ok (hspec : FollowsSpec parsers.python) {p : PackageURL}
    (h : parsers.python (Str.ofChars query) = .ok p) :
    Purl.Acceptable parsers.python (.str (Str.ofChars query)) :=
  ⟨p, .str h, hspec.scalar (Str.scalar_ofChars query) h⟩

/-- The keys of a catalog are the map entries of its PURLs. -/
theorem mem_keys_strings {fromString : Str → Except Exn PackageURL} {k : Bytes} :
    k ∈ Purl.keys fromString (purls.map fun s => .str (Str.ofChars s)) ↔
      ∃ purl ∈ purls, createPurlMapEntry fromString (.str (Str.ofChars purl)) = .ok k := by
  simp only [Purl.keys, Set.mem_ofPred_eq, List.mem_map, exists_exists_and_eq_and]

/-- Python answers by the entry. -/
theorem validatePurl_eq_sameEntry {d : Ducer} {fs : FileSystem d.Image} {v : PurlValidator}
    {image : d.Image} (hspec : FollowsSpec parsers.python)
    (hfile : fs.files.lookup v.purlMap.location = some image)
    (hholds : Purl.Holds d image
      (Purl.keys parsers.python (purls.map fun s => .str (Str.ofChars s))))
    (hquery : Accepts parsers query) :
    v.validatePurl parsers.python d (.str (Str.ofChars query)) fs =
      .ok (decide (SameEntry parsers.python purls query)) := by
  obtain ⟨p, hp, -⟩ := hquery.python
  obtain ⟨k, hk⟩ := Purl.exists_createPurlMapEntry_iff.mpr (acceptable_of_eq_ok hspec hp)
  obtain ⟨b, hb, hiff⟩ := Purl.validatePurl_eq hfile hholds hk
  rw [mem_keys_strings, ← hk] at hiff
  rw [hb, Bool.eq_iff_iff.mpr (hiff.trans decide_eq_true_iff.symm)]
  rfl

/-- Rust answers by the spelling without slashes at the end. -/
theorem rustLookup_eq {contains : Bytes → Bool}
    (hset : ∀ key, contains key = true ↔ key ∈ purls.map Utf8.encode)
    (hquery : Accepts parsers query) :
    rustLookup parsers.rust contains query = .ok (decide (trimEndMatches query '/' ∈ purls)) := by
  obtain ⟨p, hp, hversion, hqualifiers, hsubpath⟩ := hquery.rust
  have hcontains := hset (Utf8.encode (trimEndMatches query '/'))
  rw [List.mem_map_of_injective Utf8.encode_injective] at hcontains
  rw [rustLookup, hp, ← Bool.eq_iff_iff.mpr (hcontains.trans decide_eq_true_iff.symm)]
  simp [bind, Except.bind, pure, Except.pure, hversion, hqualifiers, hsubpath]

/-- Go answers by the spelling. -/
theorem goLookup_eq {contains : Bytes → Except String Bool}
    (hfst : ∀ key, contains key = .ok (decide (key ∈ purls.map Utf8.encode)))
    (hquery : Accepts parsers query) :
    goLookup parsers.go contains (Utf8.encode query) = .ok (decide (query ∈ purls)) := by
  obtain ⟨p, hp, hversion, hqualifiers, hsubpath⟩ := hquery.go
  rw [goLookup, hp, ← decide_eq_decide.mpr (List.mem_map_of_injective Utf8.encode_injective),
    ← hfst]
  simp [bind, Except.bind, hversion, hqualifiers, hsubpath]

/-- To the Python parser, slashes at the end of a base PURL mean nothing. -/
theorem python_trimEndMatches (hspec : FollowsSpec parsers.python) {p : PackageURL}
    (hbase : IsBase p) (h : parsers.python (Str.ofChars query) = .ok p) :
    parsers.python (Str.ofChars (trimEndMatches query '/')) = .ok p := by
  induction query using List.reverseRecOn with
  | nil => exact h
  | append_singleton query c ih =>
      by_cases hc : c = '/'
      · rw [trimEndMatches, List.rdropWhile_concat_pos (p := (· == '/')) _ _ (beq_iff_eq.mpr hc)]
        refine ih (hspec.ignores_slash ?_ hbase)
        rw [hc, Str.ofChars_append] at h
        exact h
      · rw [trimEndMatches,
          List.rdropWhile_concat_neg (p := (· == '/')) _ _ (beq_iff_eq.not.mpr hc)]
        exact h

/-- A hit in Rust is a hit in Python. -/
theorem sameEntry_of_trimEndMatches_mem (hspec : FollowsSpec parsers.python)
    (hquery : Accepts parsers query) (h : trimEndMatches query '/' ∈ purls) :
    SameEntry parsers.python purls query := by
  obtain ⟨p, hp, hbase⟩ := hquery.python
  refine ⟨_, h, ?_⟩
  simp only [createPurlMapEntry, Purl.toPackageURL, hp, python_trimEndMatches hspec hbase hp]

/-- Without a slash at the end, Rust asks for the spelling. -/
theorem trimEndMatches_eq_self (h : query.getLast? ≠ some '/') :
    trimEndMatches query '/' = query := by
  refine List.rdropWhile_eq_self_iff.mpr fun hne hlast => h ?_
  rw [List.getLast?_eq_some_getLast hne, beq_iff_eq.mp hlast]

end Lookups

/-! ## What the programs print -/

section Runs

variable {parsers : Parsers} {w : SetWalk Bytes} {d : Ducer}
  {getTempDir : FileSystem d.Image → Path × FileSystem d.Image} {index : Path}
  {purls : List (List Char)} {text : List Char} {fs : FileSystem d.Image}

/-- The index can be written, and `get_temp_dir` does not make a directory of it. -/
structure IndexPlace (getTempDir : FileSystem d.Image → Path × FileSystem d.Image) (index : Path)
    (fs : FileSystem d.Image) : Prop where
  writable : fs.Writable index
  not_temp : ¬ index <+: (getTempDir fs).1

/-- The copy of a new index holds the keys of the catalog. -/
theorem copy2_createPurlMap (hspec : FollowsSpec parsers.python) (hd : d.Exact)
    (htemp : MakesTempDir getTempDir fs) (hplace : IndexPlace getTempDir index fs)
    (hpurls : ∀ purl ∈ purls, ∃ p, parsers.python (Str.ofChars purl) = .ok p) :
    ∃ generated fs₁ fs₂ image,
      createPurlMap parsers.python w d getTempDir (purls.map fun s => .str (Str.ofChars s)) fs =
        (.ok generated, fs₁) ∧
      FileSystem.copy2 generated index fs₁ = (.ok (), fs₂) ∧
      fs₂.files.lookup index = some image ∧
      Purl.Holds d image (Purl.keys parsers.python (purls.map fun s => .str (Str.ofChars s))) := by
  have hacceptable : ∀ purl ∈ purls.map fun s => PyObj.str (Str.ofChars s),
      Purl.Acceptable parsers.python purl := by
    refine List.forall_mem_map.mpr fun s hs => ?_
    obtain ⟨p, hp⟩ := hpurls s hs
    exact acceptable_of_eq_ok hspec hp
  obtain ⟨image, fs₁, hcreate, hholds, hdirs, hfiles⟩ :=
    Purl.createPurlMap_ok (w := w) hd htemp hacceptable
  have hsrc : fs₁.files.lookup (Purl.purlsMap (getTempDir fs).1) = some image := by
    rw [hfiles, AList.lookup_insert]
  have hdst : fs₁.Writable index := by
    simp only [FileSystem.Writable, hdirs, htemp.made.mem_dirs]
    exact ⟨Or.inl hplace.writable.1,
      fun hmem => hmem.elim hplace.writable.2 hplace.not_temp⟩
  -- the directory of the index was there before, and that of the new map was not
  have hne : Purl.purlsMap (getTempDir fs).1 ≠ index := by
    intro heq
    have hparent := hplace.writable.1
    rw [← heq, Purl.dropLast_purlsMap] at hparent
    exact htemp.not_exists (Or.inl hparent)
  exact ⟨Purl.purlsMap (getTempDir fs).1, fs₁, fs₁.write index image hdst, image, hcreate,
    FileSystem.copy2_eq hsrc hne hdst, AList.lookup_insert _, hholds⟩

theorem pythonHits_eq (hspec : FollowsSpec parsers.python) (hd : d.Exact)
    (htemp : MakesTempDir getTempDir fs) (hplace : IndexPlace getTempDir index fs)
    (hpurls : ∀ purl ∈ purls, ∃ p, parsers.python (Str.ofChars purl) = .ok p)
    (hplain : PlainLines text) (hqueries : ∀ q ∈ rustLines text, Accepts parsers q) :
    pythonHits parsers.python w d getTempDir index purls text fs =
      .ok ((rustLines text).countP fun q => decide (SameEntry parsers.python purls q)) := by
  obtain ⟨generated, fs₁, fs₂, image, hcreate, hcopy, hfile, hholds⟩ :=
    copy2_createPurlMap (w := w) hspec hd htemp hplace hpurls
  simp only [pythonHits, hcreate, hcopy, Purl.init_eq_ok hfile hholds]
  rw [pythonQueries_eq_iff.mpr hplain]
  show countHits
    (fun query => PurlValidator.validatePurl parsers.python d ⟨⟨index⟩⟩ (.str query) fs₂)
    ((rustLines text).map Str.ofChars) = _
  rw [countHits_map]
  exact countHits_eq fun q hq => validatePurl_eq_sameEntry hspec hfile hholds (hqueries q hq)

theorem rustRun_eq {contains : Bytes → Bool}
    (hset : ∀ key, contains key = true ↔ key ∈ purls.map Utf8.encode)
    (hqueries : ∀ q ∈ rustLines text, Accepts parsers q) :
    rustRun parsers.rust contains text =
      .ok ((rustLines text).countP fun q => decide (trimEndMatches q '/' ∈ purls)) :=
  countHits_eq fun q hq => rustLookup_eq hset (hqueries q hq)

theorem goRun_eq {contains : Bytes → Except String Bool}
    (hfst : ∀ key, contains key = .ok (decide (key ∈ purls.map Utf8.encode)))
    (hplain : PlainLines text) (hqueries : ∀ q ∈ rustLines text, Accepts parsers q)
    (hshort : ShortLines text) :
    goRun parsers.go contains (Utf8.encode text) =
      .ok ((rustLines text).countP fun q => decide (q ∈ purls)) := by
  have hhits : countHits (goLookup parsers.go contains) ((rustLines text).map Utf8.encode) =
      .ok ((rustLines text).countP fun q => decide (q ∈ purls)) := by
    rw [countHits_map]
    exact countHits_eq fun q hq => goLookup_eq hfst (hqueries q hq)
  rw [goRun, scanTokens_encode hplain hshort, hhits]
  rfl

/-- Go looks up the queries before a line that is too long, and then fails. -/
theorem goRun_tooLong {contains : Bytes → Except String Bool}
    (hfst : ∀ key, contains key = .ok (decide (key ∈ purls.map Utf8.encode)))
    (hplain : PlainLines text) (hqueries : ∀ q ∈ rustLines text, Accepts parsers q)
    (hlong : ¬ ShortLines text) :
    goRun parsers.go contains (Utf8.encode text) = .error "bufio.Scanner: token too long" := by
  have hsnd : (scanTokens (Utf8.encode text)).2 = true := by
    rw [← Bool.not_eq_false, scanTokens_encode_snd]
    exact hlong
  have htokens := List.prefix_iff_eq_take.mp (scanTokens_encode_initial hplain)
  rw [← List.map_take] at htokens
  have hhits : ∃ hits, countHits (goLookup parsers.go contains)
      (scanTokens (Utf8.encode text)).1 = .ok hits := by
    rw [htokens, countHits_map]
    exact ⟨_, countHits_eq fun q hq => goLookup_eq hfst (hqueries q (List.mem_of_mem_take hq))⟩
  obtain ⟨hits, hhits⟩ := hhits
  rw [goRun, hhits, hsnd]
  rfl

/-- What is left of the agreement on a plain text of base PURLs.  Python and Rust count
their hits, and Go does unless a line is too long for it.  Rust and Go find no more than
Python.  Rust finds as much exactly if the catalog has every query, without slashes at its
end, whose entry it has.  Go finds what Rust finds if no query ends with a slash. -/
theorem lookups_agree {contains : Bytes → Bool} {goContains : Bytes → Except String Bool}
    (hspec : FollowsSpec parsers.python) (hd : d.Exact)
    (hset : ∀ key, contains key = true ↔ key ∈ purls.map Utf8.encode)
    (hfst : ∀ key, goContains key = .ok (decide (key ∈ purls.map Utf8.encode)))
    (htemp : MakesTempDir getTempDir fs) (hplace : IndexPlace getTempDir index fs)
    (hpurls : ∀ purl ∈ purls, ∃ p, parsers.python (Str.ofChars purl) = .ok p)
    (hplain : PlainLines text) (hqueries : ∀ q ∈ rustLines text, Accepts parsers q) :
    ∃ py rs, pythonHits parsers.python w d getTempDir index purls text fs = .ok py ∧
      rustRun parsers.rust contains text = .ok rs ∧ rs ≤ py ∧
      (rs = py ↔ ∀ q ∈ rustLines text,
        SameEntry parsers.python purls q → trimEndMatches q '/' ∈ purls) ∧
      ((∃ go, goRun parsers.go goContains (Utf8.encode text) = .ok go) ↔ ShortLines text) ∧
      ∀ go, goRun parsers.go goContains (Utf8.encode text) = .ok go → go ≤ py ∧
        ((∀ q ∈ rustLines text, q.getLast? ≠ some '/') → go = rs) := by
  have hpy := pythonHits_eq (w := w) hspec hd htemp hplace hpurls hplain hqueries
  have hrs := rustRun_eq hset hqueries
  have hhit : ∀ q ∈ rustLines text, decide (trimEndMatches q '/' ∈ purls) = true →
      decide (SameEntry parsers.python purls q) = true := fun q hq h =>
    decide_eq_true (sameEntry_of_trimEndMatches_mem hspec (hqueries q hq) (of_decide_eq_true h))
  refine ⟨_, _, hpy, hrs, List.countP_mono_left hhit, ?_, ?_, ?_⟩
  · rw [countP_eq_countP_iff hhit]
    simp only [decide_eq_true_iff]
  · constructor
    · intro h
      obtain ⟨go, hgo⟩ := h
      by_contra hlong
      rw [goRun_tooLong hfst hplain hqueries hlong] at hgo
      cases hgo
    · intro hshort
      exact ⟨_, goRun_eq hfst hplain hqueries hshort⟩
  · intro go hgo
    by_cases hshort : ShortLines text
    · rw [goRun_eq hfst hplain hqueries hshort] at hgo
      cases hgo
      refine ⟨List.countP_mono_left fun q _ h => ?_, fun hslash => ?_⟩
      · exact decide_eq_true ⟨q, of_decide_eq_true h, rfl⟩
      · refine List.countP_congr fun q hq => ?_
        rw [trimEndMatches_eq_self (hslash q hq)]
    · rw [goRun_tooLong hfst hplain hqueries hshort] at hgo
      cases hgo

end Runs

/-! ## A catalog of two packages

The catalog spells one of its packages `pkg:npm/foo`.  The texts ask for it with another
case, with a slash at the end, and twice with a line separator between. -/

section Catalog

def catalog : List (List Char) := ["pkg:npm/foo".toList, "pkg:npm/bar".toList]

def npmFoo : PackageURL :=
  ⟨Str.lit "npm", none, Str.lit "foo", none, [], none, Purl.npm_ne_nil, by decide⟩

def npmBar : PackageURL :=
  ⟨Str.lit "npm", none, Str.lit "bar", none, [], none, Purl.npm_ne_nil, by decide⟩

def npmBaz : PackageURL :=
  ⟨Str.lit "npm", none, Str.lit "baz", none, [], none, Purl.npm_ne_nil, by decide⟩

/-- What the line with the separator in its middle stands for. -/
def separatedFoo : PackageURL :=
  ⟨Str.lit "npm", some (Str.lit "foo\u2028pkg:npm"), Str.lit "foo", none, [], none,
    Purl.npm_ne_nil, by decide⟩

/-- What the parsers make of the queries. -/
def fooParsers : Parsers where
  python s := Purl.parserOf [(Str.lit "pkg:npm/foo", npmFoo), (Str.lit "pkg:NPM/foo", npmFoo),
    (Str.lit "pkg:npm/bar", npmBar), (Str.lit "pkg:npm/baz", npmBaz),
    (Str.lit "pkg:npm/foo\u2028pkg:npm/foo", separatedFoo)] (s.rdropWhile (· == slash))
  rust s := if "pkg:".toList.isPrefixOf s then .ok ⟨none, [], none⟩ else .error "invalid scheme"
  go s := if (Utf8.encode "pkg:".toList).isPrefixOf s then .ok ⟨[], [], []⟩
    else .error "purl scheme is not pkg"

theorem fooParsers_followsSpec : FollowsSpec fooParsers.python where
  scalar := by
    intro s p _ h
    have hmem := Purl.mem_of_parserOf_eq_ok h
    simp only [List.mem_cons, Prod.mk.injEq, List.not_mem_nil, or_false] at hmem
    rcases hmem with ⟨-, rfl⟩ | ⟨-, rfl⟩ | ⟨-, rfl⟩ | ⟨-, rfl⟩ | ⟨-, rfl⟩
    · exact Str.scalar_ofChars "npm/foo".toList
    · exact Str.scalar_ofChars "npm/foo".toList
    · exact Str.scalar_ofChars "npm/bar".toList
    · exact Str.scalar_ofChars "npm/baz".toList
    · exact Str.scalar_ofChars "npm/foo\u2028pkg:npm/foo".toList
  ignores_slash := by
    intro s p h _
    simp only [fooParsers] at h ⊢
    rwa [List.rdropWhile_concat_pos (p := (· == slash)) _ _ (beq_self_eq_true slash)] at h

theorem accepts_fooParsers {query : List Char} {p : PackageURL}
    (hpython : fooParsers.python (Str.ofChars query) = .ok p) (hbase : IsBase p)
    (hrust : fooParsers.rust query = .ok ⟨none, [], none⟩)
    (hgo : fooParsers.go (Utf8.encode query) = .ok ⟨[], [], []⟩) : Accepts fooParsers query :=
  ⟨⟨p, hpython, hbase⟩, ⟨_, hrust, rfl, rfl, rfl⟩, ⟨_, hgo, rfl, rfl, rfl⟩⟩

def catalogSet (key : Bytes) : Bool := (catalog.map Utf8.encode).contains key

def catalogFst (key : Bytes) : Except String Bool := .ok (catalogSet key)

/-- Where the index is copied to. -/
def pythonIndex : Path := [Str.lit "python-purls.map"]

theorem indexPlace_bare {d : Ducer} :
    IndexPlace (Purl.tempDirAt Purl.tmpDir) pythonIndex (FileSystem.bare : FileSystem d.Image) where
  writable :=
    ⟨(by decide : pythonIndex.dropLast ∈ [[Str.lit "tmp"], []]),
      (by decide : pythonIndex ∉ [[Str.lit "tmp"], []])⟩
  not_temp := by
    rw [Purl.tempDirAt_fst]
    decide

theorem exists_python_catalog :
    ∀ purl ∈ catalog, ∃ p, fooParsers.python (Str.ofChars purl) = .ok p :=
  List.forall_mem_cons.mpr ⟨⟨npmFoo, rfl⟩, List.forall_mem_singleton.mpr ⟨npmBar, rfl⟩⟩

/-- The hits of the three programs. -/
def hits (text : List Char) : Except Exn Nat × Except String Nat × Except String Nat :=
  (pythonHits fooParsers.python SetWalk.byInsertion Ducer.listed (Purl.tempDirAt Purl.tmpDir)
      pythonIndex catalog text FileSystem.bare,
    rustRun fooParsers.rust catalogSet text,
    goRun fooParsers.go catalogFst (Utf8.encode text))

/-- Three texts of one line on which the programs do not agree. -/
theorem lookups_disagree :
    (Accepts fooParsers "pkg:npm/foo".toList ∧ Accepts fooParsers "pkg:NPM/foo".toList ∧
      Accepts fooParsers "pkg:npm/foo/".toList ∧
      Accepts fooParsers "pkg:npm/foo\u2028pkg:npm/foo".toList) ∧
    hits "pkg:NPM/foo\n".toList = (.ok 1, .ok 0, .ok 0) ∧
    hits "pkg:npm/foo/\n".toList = (.ok 1, .ok 1, .ok 0) ∧
    hits "pkg:npm/foo\u2028pkg:npm/foo\n".toList = (.ok 2, .ok 0, .ok 0) := by
  refine ⟨⟨?_, ?_, ?_, ?_⟩, ?_, ?_, ?_⟩
  · exact accepts_fooParsers (p := npmFoo) rfl ⟨rfl, rfl, rfl⟩ rfl rfl
  · exact accepts_fooParsers (p := npmFoo) rfl ⟨rfl, rfl, rfl⟩ rfl rfl
  · exact accepts_fooParsers (p := npmFoo) rfl ⟨rfl, rfl, rfl⟩ rfl rfl
  · exact accepts_fooParsers (p := separatedFoo) rfl ⟨rfl, rfl, rfl⟩ rfl rfl
  · decide
  · decide
  · decide

/-- A query as the catalog spells it, the same with another case, and one that misses. -/
def spellings : List Char := "pkg:npm/foo\npkg:NPM/foo\npkg:npm/baz\n".toList

/-- `lookups_agree` for these queries, and the three numbers of hits. -/
theorem lookups_agree_spellings :
    (∃ py rs, pythonHits fooParsers.python SetWalk.byInsertion Ducer.listed
          (Purl.tempDirAt Purl.tmpDir) pythonIndex catalog spellings FileSystem.bare = .ok py ∧
      rustRun fooParsers.rust catalogSet spellings = .ok rs ∧ rs ≤ py ∧
      (rs = py ↔ ∀ q ∈ rustLines spellings,
        SameEntry fooParsers.python catalog q → trimEndMatches q '/' ∈ catalog) ∧
      ((∃ go, goRun fooParsers.go catalogFst (Utf8.encode spellings) = .ok go) ↔
        ShortLines spellings) ∧
      ∀ go, goRun fooParsers.go catalogFst (Utf8.encode spellings) = .ok go → go ≤ py ∧
        ((∀ q ∈ rustLines spellings, q.getLast? ≠ some '/') → go = rs)) ∧
    hits spellings = (.ok 2, .ok 1, .ok 1) := by
  have hlines : rustLines spellings =
      ["pkg:npm/foo".toList, "pkg:NPM/foo".toList, "pkg:npm/baz".toList] := by decide
  have hboundary : ∀ q ∈ rustLines spellings,
      (q.any fun c => isLineBoundary (CodePoint.ofChar c)) = false := by decide
  have hplain : PlainLines spellings := fun q hq => plain_of_any (hboundary q hq)
  have hqueries : ∀ q ∈ rustLines spellings, Accepts fooParsers q := by
    rw [hlines, List.forall_mem_cons, List.forall_mem_cons, List.forall_mem_singleton]
    refine ⟨?_, ?_, ?_⟩
    · exact accepts_fooParsers (p := npmFoo) rfl ⟨rfl, rfl, rfl⟩ rfl rfl
    · exact accepts_fooParsers (p := npmFoo) rfl ⟨rfl, rfl, rfl⟩ rfl rfl
    · exact accepts_fooParsers (p := npmBaz) rfl ⟨rfl, rfl, rfl⟩ rfl rfl
  refine ⟨?_, by decide⟩
  exact lookups_agree fooParsers_followsSpec Ducer.listed_exact (fun _ => List.contains_iff_mem)
    (fun _ => congrArg Except.ok (List.contains_eq_mem _ _)) Purl.makesTempDir_bare
    indexPlace_bare exists_python_catalog hplain hqueries

end Catalog

end Bench
