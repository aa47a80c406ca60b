import PurlValidator.Bench.Lookups
import PurlValidator.Bench.Structures

/-!
# The generated queries

The two Python benchmarks draw their queries at random.  Half of them are PURLs of the
catalog, and the other half are made up so that they are not found.  `Halves` is what
the generators have in common, and it reduces the number of hits to the question of which
made-up queries are found (`Halves.countP_eq_iff`).

* `make_queries` appends a suffix to PURLs of the catalog.  Nothing keeps a catalog from
  having such a PURL itself, so `answers_makeQueries` counts at least the half.
* `write_queries` numbers packages that should not exist, and writes all queries to a
  file, a line each.  `hits_writeQueries` says that the loops of the Python, the Rust and
  the Go program all count exactly the half, for a catalog whose PURLs are spelled without
  trouble (`CleanCatalog`).
-/

namespace Bench

open Py (CodePoint Str isLineBoundary)
open Utf8 (Bytes)
open Purl (Exn Path FileSystem MakesTempDir Ducer PackageURL slash entryStr createPurlMapEntry)
open Lines (rawLines)

/-! ## Halves -/

/-- The queries are `n` keys and the misses, in some order. -/
def Halves {α : Type} (keys misses : List α) (n : Nat) (queries : List α) : Prop :=
  ∃ hits : List α, queries.Perm (hits ++ misses) ∧ hits.length = n ∧ ∀ q ∈ hits, q ∈ keys

section Halves

variable {α : Type} {keys misses queries : List α} {n : Nat} {p : α → Bool}

/-- What holds of keys and misses holds of all queries. -/
theorem Halves.forall_mem (h : Halves keys misses n queries) {motive : α → Prop}
    (hkeys : ∀ q ∈ keys, motive q) (hmisses : ∀ q ∈ misses, motive q) :
    ∀ q ∈ queries, motive q := by
  obtain ⟨hits, hperm, -, hhits⟩ := h
  intro q hq
  cases List.mem_append.mp (hperm.mem_iff.mp hq) with
  | inl hq => exact hkeys q (hhits q hq)
  | inr hq => exact hmisses q hq

theorem Halves.ne_nil (h : Halves keys misses n queries) (hn : 0 < n) : queries ≠ [] := by
  obtain ⟨hits, hperm, hlength, -⟩ := h
  intro hnil
  rw [hnil] at hperm
  have hempty := List.append_eq_nil_iff.mp hperm.nil_eq.symm
  rw [← hlength, hempty.1] at hn
  exact Nat.lt_irrefl 0 hn

/-- If keys are found, then what is found beyond them are misses. -/
theorem Halves.countP_eq (h : Halves keys misses n queries) (hkeys : ∀ q ∈ keys, p q = true) :
    queries.countP p = n + misses.countP p := by
  obtain ⟨hits, hperm, hlength, hhits⟩ := h
  have hall : ∀ q ∈ hits, p q = true := fun q hq => hkeys q (hhits q hq)
  rw [hperm.countP_eq, List.countP_append, List.countP_eq_length.mpr hall, hlength]

/-- Where all keys are found, half the queries are exactly if no miss is found. -/
theorem Halves.countP_eq_iff (h : Halves keys misses n queries)
    (hkeys : ∀ q ∈ keys, p q = true) :
    queries.countP p = n ↔ ∀ q ∈ misses, ¬ p q = true := by
  rw [h.countP_eq hkeys, Nat.add_eq_left, List.countP_eq_zero]

end Halves

/-! ## Drawing -/

/-- What is used of a generator of the module `random`: the draws below a bound, by their
number, and a shuffle. -/
structure Rng where
  below : Nat → Nat → Nat
  shuffle : ∀ {α : Type}, List α → List α
  below_lt : ∀ i {n}, 0 < n → below i n < n
  shuffle_perm : ∀ {α : Type} (l : List α), (shuffle l).Perm l

/-- `rng.choice(seq)`, as the draw with the number `i`. -/
def Rng.choice {α : Type} (rng : Rng) (seq : List α) (i : Nat) : Except Exn α :=
  match seq[rng.below i seq.length]? with
  | some a => .ok a
  | none => .error .indexError

/-- A choice from a list that is not empty is one of its elements. -/
theorem Rng.exists_choice {α : Type} (rng : Rng) {seq : List α} (h : seq ≠ []) (i : Nat) :
    ∃ a ∈ seq, rng.choice seq i = .ok a := by
  have hlt := rng.below_lt i (List.length_pos_iff.mpr h)
  refine ⟨seq[rng.below i seq.length], List.getElem_mem hlt, ?_⟩
  rw [Rng.choice, List.getElem?_eq_getElem hlt]

/-- Draws from a list that is not empty give as many values of it. -/
theorem Rng.exists_mapM_choice {α : Type} (rng : Rng) {seq : List α} (h : seq ≠ []) (n : Nat) :
    ∃ hits, (List.range n).mapM (rng.choice seq) = .ok hits ∧ hits.length = n ∧
      ∀ q ∈ hits, q ∈ seq := by
  choose draw hmem hdraw using rng.exists_choice h
  refine ⟨(List.range n).map draw, Results.mapM_eq_ok_map fun i _ => hdraw i, ?_, ?_⟩
  · rw [List.length_map, List.length_range]
  · exact List.forall_mem_map.mpr fun i _ => hmem i

/-- Draws and shuffles in order. -/
def Rng.inOrder : Rng where
  below i n := i % n
  shuffle l := l
  below_lt i _ hn := Nat.mod_lt i hn
  shuffle_perm l := .refl l

/-! ## `make_queries` -/

def unknownStem : List Char := "pkg:npm/purl-validator-benchmark-unknown-".toList

/-- `f"pkg:npm/purl-validator-benchmark-unknown-{index:07}"`. -/
def unknownPurl (index : Nat) : List Char :=
  unknownStem ++ (Nat.toDigits 10 index).leftpad 7 '0'

/-- `known_lookup_purls`. -/
def knownLookupPurls (purls : List (List Char)) : List (List Char) :=
  let known := purls.filter fun purl => "pkg:pypi/".toList.isPrefixOf purl
  if known.isEmpty then purls else known

def queryCount : Nat := 1000000

/-- The queries of `write_queries`. -/
def shuffledQueries (rng : Rng) (purls : List (List Char)) : Except Exn (List (List Char)) := do
  let hitCount := queryCount / 2
  let missCount := queryCount - hitCount
  let hits ← (List.range hitCount).mapM (rng.choice (knownLookupPurls purls))
  let misses := (List.range missCount).map unknownPurl
  return rng.shuffle (hits ++ misses)

/-- `write_queries`: the text of the file. -/
def writeQueries (rng : Rng) (purls : List (List Char)) : Except Exn (List Char) := do
  let queries ← shuffledQueries rng purls
  return ['\n'].intercalate queries ++ ['\n']

/-! ### The queries -/

theorem knownLookupPurls_ne_nil {purls : List (List Char)} (h : purls ≠ []) :
    knownLookupPurls purls ≠ [] := by
  rw [knownLookupPurls]
  split
  · exact h
  · case isFalse hknown => exact List.isEmpty_iff.not.mp hknown

theorem mem_of_mem_knownLookupPurls {purls : List (List Char)} {purl : List Char}
    (h : purl ∈ knownLookupPurls purls) : purl ∈ purls := by
  rw [knownLookupPurls] at h
  split at h
  · exact h
  · exact List.mem_of_mem_filter h

/-- `write_queries` makes its misses from numbers. -/
theorem shuffledQueries_halves (rng : Rng) {purls : List (List Char)} (h : purls ≠ []) :
    ∃ queries, shuffledQueries rng purls = .ok queries ∧
      Halves purls ((List.range (queryCount - queryCount / 2)).map unknownPurl)
        (queryCount / 2) queries := by
  obtain ⟨hits, hrun, hlength, hhits⟩ :=
    rng.exists_mapM_choice (knownLookupPurls_ne_nil h) (queryCount / 2)
  refine ⟨_, Results.bind_eq_ok_iff.mpr ⟨hits, hrun, rfl⟩, hits, rng.shuffle_perm _, hlength, ?_⟩
  exact fun q hq => mem_of_mem_knownLookupPurls (hhits q hq)

theorem isLineBoundary_of_isDigit {c : Char} (h : c.isDigit = true) :
    isLineBoundary (CodePoint.ofChar c) = false := by
  obtain ⟨hlow, hhigh⟩ := Py.isDigit_iff.mp h
  have hval : (CodePoint.ofChar c).val = c.toNat := rfl
  simp only [isLineBoundary, hval, Bool.or_eq_false_iff, Bool.and_eq_false_iff,
    decide_eq_false_iff_not, beq_eq_false_iff_ne]
  omega

theorem isDigit_of_mem_toDigits {c : Char} {n : Nat} (h : c ∈ Nat.toDigits 10 n) :
    c.isDigit = true :=
  Nat.isDigit_of_mem_toDigits (by omega) (by omega) h

/-- A made-up PURL is one line. -/
theorem unknownPurl_plain (i : Nat) :
    ∀ c ∈ unknownPurl i, isLineBoundary (CodePoint.ofChar c) = false := by
  have hstem : (unknownStem.any fun c => isLineBoundary (CodePoint.ofChar c)) = false := by decide
  intro c hc
  rw [unknownPurl, List.leftpad, List.mem_append, List.mem_append] at hc
  rcases hc with hc | hc | hc
  · exact plain_of_any hstem c hc
  · rw [List.eq_of_mem_replicate hc]
    exact isLineBoundary_of_isDigit rfl
  · exact isLineBoundary_of_isDigit (isDigit_of_mem_toDigits hc)

/-- It ends with a digit. -/
theorem unknownPurl_no_slash (i : Nat) : (unknownPurl i).getLast? ≠ some '/' := by
  rw [unknownPurl, List.leftpad, ← List.append_assoc,
    List.getLast?_append_of_ne_nil _ Nat.toDigits_ne_nil]
  intro hlast
  have hdigit : '/'.isDigit = true := isDigit_of_mem_toDigits (List.mem_of_getLast? hlast)
  cases hdigit

/-- A made-up PURL is not too long for the scanner. -/
theorem unknownPurl_short {i : Nat} (hi : i < 10000000) :
    (Utf8.encode (unknownPurl i)).length < maxTokenSize := by
  have hdigits : (Nat.toDigits 10 i).length ≤ 7 :=
    (Nat.length_toDigits_le_iff (by omega) (by omega)).mpr hi
  have hstem : unknownStem.length = 41 := rfl
  have hlength : (unknownPurl i).length ≤ 48 := by
    rw [unknownPurl, List.length_append, List.length_leftpad, hstem]
    omega
  have hbytes := Utf8.length_encode_le (unknownPurl i)
  rw [maxTokenSize]
  omega

/-! ### The file -/

section File

variable {queries : List (List Char)}

theorem notMem_of_plain {line : List Char} {c : Char}
    (h : ∀ c ∈ line, isLineBoundary (CodePoint.ofChar c) = false)
    (hc : isLineBoundary (CodePoint.ofChar c) = true) : c ∉ line := by
  intro hmem
  rw [h c hmem] at hc
  cases hc

/-- The lines of the file are the queries. -/
theorem rustLines_intercalate (hne : queries ≠ [])
    (hplain : ∀ q ∈ queries, ∀ c ∈ q, isLineBoundary (CodePoint.ofChar c) = false) :
    rustLines (['\n'].intercalate queries ++ ['\n']) = queries := by
  rw [rustLines, Lines.intercalate_append_lf hne]
  refine Lines.lines_flatMap_concat_lf (fun q hq => ?_) (fun q hq hlast => ?_)
  · exact notMem_of_plain (hplain q hq) (by decide)
  · exact notMem_of_plain (hplain q hq) (by decide) (List.mem_of_getLast? hlast)

theorem rawLines_intercalate (hne : queries ≠ [])
    (hplain : ∀ q ∈ queries, ∀ c ∈ q, isLineBoundary (CodePoint.ofChar c) = false) :
    rawLines '\n' (['\n'].intercalate queries ++ ['\n']) = queries := by
  rw [Lines.intercalate_append_lf hne]
  exact Lines.rawLines_flatMap_concat_lf fun q hq => notMem_of_plain (hplain q hq) (by decide)

end File

/-! ### The hits -/

/-- A query that the three programs take as one line and as it is spelled. -/
structure CleanQuery (parsers : Parsers) (query : List Char) : Prop where
  accepts : Accepts parsers query
  plain : ∀ c ∈ query, isLineBoundary (CodePoint.ofChar c) = false
  no_slash : query.getLast? ≠ some '/'
  short : (Utf8.encode query).length < maxTokenSize

/-- A catalog of such queries, where the packages that should not exist do not exist. -/
structure CleanCatalog (parsers : Parsers) (purls : List (List Char)) : Prop where
  ne_nil : purls ≠ []
  clean : ∀ purl ∈ purls, CleanQuery parsers purl
  unknown_accepts : ∀ index, Accepts parsers (unknownPurl index)
  unknown_new : ∀ index, ¬ SameEntry parsers.python purls (unknownPurl index)

section Hits

variable {parsers : Parsers} {w : SetWalk Bytes} {d : Ducer}
  {getTempDir : FileSystem d.Image → Path × FileSystem d.Image} {index : Path}
  {purls : List (List Char)} {fs : FileSystem d.Image}

/-- The made-up queries are clean as well. -/
theorem CleanCatalog.unknown_clean (h : CleanCatalog parsers purls) {i : Nat}
    (hi : i < queryCount - queryCount / 2) : CleanQuery parsers (unknownPurl i) where
  accepts := h.unknown_accepts i
  plain := unknownPurl_plain i
  no_slash := unknownPurl_no_slash i
  short := unknownPurl_short (hi.trans (by decide))

/-- A made-up query is not spelled in the catalog. -/
theorem CleanCatalog.unknown_notMem (h : CleanCatalog parsers purls) (i : Nat) :
    unknownPurl i ∉ purls :=
  fun hmem => h.unknown_new i ⟨_, hmem, rfl⟩

/-- The three loops find the half of the queries that they are expected to find. -/
theorem hits_writeQueries {contains : Bytes → Bool} {goContains : Bytes → Except String Bool}
    (hspec : FollowsSpec parsers.python) (hd : d.Exact)
    (hset : ∀ key, contains key = true ↔ key ∈ purls.map Utf8.encode)
    (hfst : ∀ key, goContains key = .ok (decide (key ∈ purls.map Utf8.encode)))
    (htemp : MakesTempDir getTempDir fs) (hplace : IndexPlace getTempDir index fs)
    (hclean : CleanCatalog parsers purls) (rng : Rng) :
    ∃ text, writeQueries rng purls = .ok text ∧
      pythonHits parsers.python w d getTempDir index purls text fs = .ok (queryCount / 2) ∧
      rustRun parsers.rust contains text = .ok (queryCount / 2) ∧
      goRun parsers.go goContains (Utf8.encode text) = .ok (queryCount / 2) := by
  obtain ⟨queries, hshuffled, hhalves⟩ := shuffledQueries_halves rng hclean.ne_nil
  have hqueries : ∀ q ∈ queries, CleanQuery parsers q :=
    hhalves.forall_mem hclean.clean (List.forall_mem_map.mpr fun i hi =>
      hclean.unknown_clean (List.mem_range.mp hi))
  have hne : queries ≠ [] := hhalves.ne_nil (by decide)
  have hlines := rustLines_intercalate hne fun q hq => (hqueries q hq).plain
  have hraw := rawLines_intercalate hne fun q hq => (hqueries q hq).plain
  have hwrite : writeQueries rng purls = .ok (['\n'].intercalate queries ++ ['\n']) :=
    Results.bind_eq_ok_iff.mpr ⟨queries, hshuffled, rfl⟩
  generalize ['\n'].intercalate queries ++ ['\n'] = text at hlines hraw hwrite
  have haccepts : ∀ q ∈ rustLines text, Accepts parsers q := by
    rw [hlines]
    exact fun q hq => (hqueries q hq).accepts
  have hplain : PlainLines text := by
    rw [PlainLines, hlines]
    exact fun q hq => (hqueries q hq).plain
  have hshort : ShortLines text := by
    rw [ShortLines, hraw]
    exact fun q hq => (hqueries q hq).short
  have hpurls : ∀ purl ∈ purls, ∃ p, parsers.python (Str.ofChars purl) = .ok p := by
    intro purl hpurl
    obtain ⟨p, hp, -⟩ := (hclean.clean purl hpurl).accepts.python
    exact ⟨p, hp⟩
  refine ⟨text, hwrite, ?_, ?_, ?_⟩
  · rw [pythonHits_eq hspec hd htemp hplace hpurls hplain haccepts, hlines]
    refine congrArg Except.ok ((hhalves.countP_eq_iff fun q hq => ?_).mpr ?_)
    · exact decide_eq_true ⟨q, hq, rfl⟩
    · exact List.forall_mem_map.mpr fun i _ => decide_eq_true_iff.not.mpr (hclean.unknown_new i)
  · rw [rustRun_eq hset haccepts, hlines]
    refine congrArg Except.ok ((hhalves.countP_eq_iff fun q hq => ?_).mpr ?_)
    · rw [trimEndMatches_eq_self (hclean.clean q hq).no_slash]
      exact decide_eq_true hq
    · refine List.forall_mem_map.mpr fun i _ => decide_eq_true_iff.not.mpr ?_
      rw [trimEndMatches_eq_self (unknownPurl_no_slash i)]
      exact hclean.unknown_notMem i
  · rw [goRun_eq hfst hplain haccepts hshort, hlines]
    refine congrArg Except.ok ((hhalves.countP_eq_iff fun q hq => ?_).mpr ?_)
    · exact decide_eq_true hq
    · exact List.forall_mem_map.mpr fun i _ =>
        decide_eq_true_iff.not.mpr (hclean.unknown_notMem i)

end Hits

/-! ### A clean catalog

The catalog of two packages is clean, to a parser that knows npm packages without a scope. -/

section Npm

/-- What stands before the name in the PURL of an npm package without a scope. -/
def npmStem : List Char := "pkg:npm/".toList

/-- The PURLs of npm packages without a scope, none of whose letters need an encoding. -/
def npmPurl (s : Str) : Except Exn PackageURL :=
  match (Str.ofChars npmStem).isPrefixOf? s with
  | none => .error (.valueError (Str.lit "purl is missing the required type component"))
  | some rest =>
      let name := rest.rdropWhile (· == slash)
      if h : name ≠ [] then .ok ⟨Str.lit "npm", none, name, none, [], none, Purl.npm_ne_nil, h⟩
      else .error (.valueError (Str.lit "purl is missing the required name component"))

/-- The strings that are parsed, and what they are parsed to. -/
theorem npmPurl_eq_ok_iff {s : Str} {p : PackageURL} :
    npmPurl s = .ok p ↔ ∃ rest h, s = Str.ofChars npmStem ++ rest ∧
      p = ⟨Str.lit "npm", none, rest.rdropWhile (· == slash), none, [], none, Purl.npm_ne_nil,
        h⟩ := by
  rw [npmPurl]
  constructor
  · intro h
    split at h
    · cases h
    · case h_2 rest hrest =>
        by_cases hname : rest.rdropWhile (· == slash) ≠ []
        · rw [dif_pos hname] at h
          cases h
          exact ⟨rest, hname, (List.isPrefixOf?_eq_some_iff_append_eq.mp hrest).symm, rfl⟩
        · rw [dif_neg hname] at h
          cases h
  · intro h
    obtain ⟨rest, hname, hs, rfl⟩ := h
    rw [List.isPrefixOf?_eq_some_iff_append_eq.mpr hs.symm]
    exact dif_pos hname

theorem npmPurl_followsSpec : FollowsSpec npmPurl where
  scalar := by
    intro s p hs h
    obtain ⟨rest, hname, rfl, rfl⟩ := npmPurl_eq_ok_iff.mp h
    intro c hc
    simp only [entryStr, Option.getD_none, ne_eq, not_true_eq_false, if_false, List.append_assoc,
      List.mem_append] at hc
    rcases hc with hc | hc | hc
    · exact Str.scalar_ofChars "npm".toList c hc
    · exact Str.scalar_ofChars ['/'] c hc
    · exact hs c (List.mem_append_right _ ((List.rdropWhile_prefix (· == slash) _).subset hc))
  ignores_slash := by
    intro s p h hbase
    obtain ⟨rest, hname, hs, rfl⟩ := npmPurl_eq_ok_iff.mp h
    -- the slash stands in the rest, which has a name before its slashes
    have hrest : rest ≠ [] := by
      intro hnil
      rw [hnil] at hname
      exact hname rfl
    obtain ⟨rest, c, rfl⟩ := (List.eq_nil_or_concat' rest).resolve_left hrest
    rw [← List.append_assoc] at hs
    obtain ⟨rfl, hc⟩ := List.append_inj' hs rfl
    rw [List.singleton_inj] at hc
    subst hc
    have hdrop := List.rdropWhile_concat_pos (p := (· == slash)) rest slash (beq_self_eq_true slash)
    refine npmPurl_eq_ok_iff.mpr ⟨rest, hdrop ▸ hname, rfl, ?_⟩
    simp only [hdrop]

/-- A name without a slash at its end is the name of the package. -/
theorem npmPurl_append {name : List Char} (hne : name ≠ []) (hslash : name.getLast? ≠ some '/') :
    ∃ p, npmPurl (Str.ofChars (npmStem ++ name)) = .ok p ∧ IsBase p ∧
      entryStr p = Str.ofChars ("npm/".toList ++ name) := by
  have hname : (Str.ofChars name).rdropWhile (· == slash) = Str.ofChars name := by
    refine List.rdropWhile_eq_self_iff.mpr fun hne' hlast => hslash ?_
    simp only [Str.ofChars, List.getLast_map, beq_iff_eq] at hlast
    rw [List.getLast?_eq_some_getLast hne, CodePoint.ofChar_inj.mp hlast]
  have hne' : Str.ofChars name ≠ [] := fun h => hne (List.map_eq_nil_iff.mp h)
  have hparse := npmPurl_eq_ok_iff.mpr
    ⟨Str.ofChars name, hname.symm ▸ hne', Str.ofChars_append npmStem name, rfl⟩
  refine ⟨_, hparse, ⟨rfl, rfl, rfl⟩, ?_⟩
  simp only [entryStr, hname]
  rfl

def npmParsers : Parsers := ⟨npmPurl, fooParsers.rust, fooParsers.go⟩

theorem accepts_npmParsers {name : List Char} (hne : name ≠ [])
    (hslash : name.getLast? ≠ some '/') : Accepts npmParsers (npmStem ++ name) where
  python := by
    obtain ⟨p, hp, hbase, -⟩ := npmPurl_append hne hslash
    exact ⟨p, hp, hbase⟩
  rust := ⟨_, rfl, rfl, rfl, rfl⟩
  go := ⟨_, rfl, rfl, rfl, rfl⟩

/-- The entry of a package without a scope. -/
theorem createPurlMapEntry_npmPurl {name : List Char} (hne : name ≠ [])
    (hslash : name.getLast? ≠ some '/') :
    createPurlMapEntry npmPurl (.str (Str.ofChars (npmStem ++ name))) =
      .ok (Utf8.encode ("npm/".toList ++ name)) := by
  obtain ⟨p, hp, -, hentry⟩ := npmPurl_append hne hslash
  refine Purl.createPurlMapEntry_eq_ok_iff.mpr ⟨p, .str hp, ?_⟩
  rw [hentry, Str.encode_ofChars]

/-- The name of a made-up package. -/
theorem unknownPurl_eq (i : Nat) :
    ∃ name, unknownPurl i = npmStem ++ 'p' :: name ∧ ('p' :: name).getLast? ≠ some '/' := by
  have hslash := unknownPurl_no_slash i
  obtain ⟨name, hname⟩ : ∃ name, unknownPurl i = npmStem ++ 'p' :: name := ⟨_, rfl⟩
  rw [hname, List.getLast?_append_of_ne_nil _ (List.cons_ne_nil _ _)] at hslash
  exact ⟨name, hname, hslash⟩

theorem catalog_eq : catalog = ["foo".toList, "bar".toList].map (npmStem ++ ·) := rfl

/-- The catalog of two packages is clean. -/
theorem cleanCatalog_npmParsers : CleanCatalog npmParsers catalog where
  ne_nil := List.cons_ne_nil _ _
  clean := by
    have hnames : ∀ name ∈ ["foo".toList, "bar".toList], name ≠ [] ∧ name.getLast? ≠ some '/' := by
      decide
    have hboundary : ∀ purl ∈ catalog,
        (purl.any fun c => isLineBoundary (CodePoint.ofChar c)) = false := by decide
    have hslash : ∀ purl ∈ catalog, purl.getLast? ≠ some '/' := by decide
    have hshort : ∀ purl ∈ catalog, (Utf8.encode purl).length < maxTokenSize := by decide
    have haccepts : ∀ purl ∈ catalog, Accepts npmParsers purl := by
      rw [catalog_eq]
      exact List.forall_mem_map.mpr fun name hname =>
        accepts_npmParsers (hnames name hname).1 (hnames name hname).2
    exact fun purl hpurl => {
      accepts := haccepts purl hpurl
      plain := plain_of_any (hboundary purl hpurl)
      no_slash := hslash purl hpurl
      short := hshort purl hpurl }
  unknown_accepts := by
    intro i
    obtain ⟨name, hname, hslash⟩ := unknownPurl_eq i
    rw [hname]
    exact accepts_npmParsers (List.cons_ne_nil _ _) hslash
  unknown_new := by
    have hnames : ∀ name ∈ ["foo".toList, "bar".toList],
        name ≠ [] ∧ name.getLast? ≠ some '/' ∧ name.head? ≠ some 'p' := by decide
    intro i hsame
    obtain ⟨madeUp, hmadeUp, hslash⟩ := unknownPurl_eq i
    obtain ⟨purl, hpurl, heq⟩ := hsame
    rw [catalog_eq] at hpurl
    obtain ⟨name, hname, rfl⟩ := List.mem_map.mp hpurl
    obtain ⟨hne, hslash', hhead⟩ := hnames name hname
    have hkeys := (createPurlMapEntry_npmPurl hne hslash').symm.trans
      ((hmadeUp ▸ heq).trans (createPurlMapEntry_npmPurl (List.cons_ne_nil 'p' madeUp) hslash))
    rw [Except.ok.injEq, Utf8.encode_inj, List.append_cancel_left_eq] at hkeys
    exact hhead (congrArg List.head? hkeys)

end Npm

end Bench
