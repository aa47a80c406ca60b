import PurlValidator.Bench.Loaders
import PurlValidator.Bench.Queries

/-!
# The comparison of FST and DAWG

`rust-fst-dawg-bench` loads the catalog, generates queries and times the two crates on
them.  Before it prints a measurement it checks the number of hits, which is to be half
the number of queries.

Its queries are not random.  Every second one is a key, and every other one is a key with
a suffix and a number.  A catalog may hold such a PURL as well, and then it is found.
`rustMain_eq_ok_iff` says that the program ends without an error exactly if there is none and
both indexes can be written, and the one of `fst` read again.

The crates `fst` and `dawg` are not in this repository.  `FstCrate` and `DawgCrate` are what
the program sees of them, and `Exact` is what is used of them.  What the system does with its
files is up to the `Host`.
-/

namespace Bench

open Py (Str)
open Utf8 (Bytes)

/-! ## The program -/

def nLookups : Nat := 1000000

/-- `keys[i % n_keys]`.  The products that stand for `i` fit into a `usize`. -/
def keyAt (keys : List (List Char)) (h : keys ≠ []) (i : Nat) : List Char :=
  keys.get ⟨i % keys.length, Nat.mod_lt _ (List.length_pos_iff.mpr h)⟩

/-- `format!("{}-missing-{}", keys[(i * 15_485_863) % n_keys], i)`. -/
def missingPurl (keys : List (List Char)) (h : keys ≠ []) (i : Nat) : List Char :=
  keyAt keys h (i * 15485863) ++ ("-missing-".toList ++ Nat.toDigits 10 i)

/-- `build_queries`.  Without keys the remainder panics. -/
def buildQueries (keys : List (List Char)) (h : keys ≠ []) : List (List Char) :=
  let half := nLookups / 2
  (List.range half).flatMap fun i => [keyAt keys h (i * 9973), missingPurl keys h i]

/-- What the two benchmarks return, without the times. -/
structure BenchResult where
  name : String
  diskBytes : Nat
  hits : Nat

/-- The crate `fst`: what a `SetBuilder` writes for its keys, and `Fst::new` and `get`. -/
structure FstCrate where
  Image : Type
  Fst : Type
  build : List Bytes → Except String Image
  new : Image → Except String Fst
  get : Fst → Bytes → Option Nat

/-- The crate `dawg`: a `Dawg` after the inserts and `finish`, and whether `is_word` finds a
word, with attention to case. -/
structure DawgCrate where
  Dawg : Type
  build : List (List Char) → Dawg
  isWord : Dawg → List Char → Bool

/-- From keys in order and each once, an index is built that can be loaded and has these keys. -/
def FstCrate.Exact (fst : FstCrate) : Prop :=
  ∀ {keys : List Bytes}, keys.SortedLT → ∃ image index, fst.build keys = .ok image ∧
    fst.new image = .ok index ∧ ∀ key, (fst.get index key).isSome = true ↔ key ∈ keys

def DawgCrate.Exact (dawg : DawgCrate) : Prop :=
  ∀ {keys : List (List Char)}, keys.SortedLT →
    ∀ word, dawg.isWord (dawg.build keys) word = true ↔ word ∈ keys

/-- What the program asks of the system, by path: `fs::create_dir_all`, the files of a
directory, unless reading one of them fails, and then of each file that it writes itself
whether `File::create` succeeds, all writes do, `fs::metadata` does, with the size, and
`fs::read` does, which gives what was written. -/
structure Host where
  createDirAll : String → Except String Unit
  readDir : String → Except String (List DataFile)
  create : String → Except String Unit
  write : String → Except String Unit
  metadata : String → Except String Nat
  read : String → Except String Unit

/-- `dir.join(name)`. -/
def joinPath (dir name : String) : String :=
  if dir = "" ∨ dir.endsWith "/" then dir ++ name else dir ++ "/" ++ name

def fstPath (outDir : String) : String := joinPath outDir "real-purls.fst"

def dawgPath (outDir : String) : String := joinPath outDir "real-purls.dawg-bincode"

/-- `bench_fst`. -/
def benchFst (host : Host) (fst : FstCrate) (keys queries : List (List Char)) (outDir : String) :
    Except String BenchResult := do
  let path := fstPath outDir
  host.create path
  let image ← fst.build (keys.map Utf8.encode)
  -- the writes of `SetBuilder::new`, of the inserts and of `finish`
  host.write path
  let diskBytes ← host.metadata path
  host.read path
  let index ← fst.new image
  let hits := (queries.filter fun query => (fst.get index (Utf8.encode query)).isSome).length
  return ⟨"fst::Set", diskBytes, hits⟩

/-- `bench_dawg_crate`.  It asks the index in memory and not the file. -/
def benchDawgCrate (host : Host) (dawg : DawgCrate) (keys queries : List (List Char))
    (outDir : String) : Except String BenchResult := do
  let path := dawgPath outDir
  let index := dawg.build keys
  host.create path
  -- the writes of `bincode::serialize_into`; an error when the writer is dropped is lost
  host.write path
  let diskBytes ← host.metadata path
  let hits := (queries.filter fun query => dawg.isWord index query).length
  return ⟨"dawg::Dawg", diskBytes, hits⟩

/-- `check_hits`. -/
def checkHits (measurement : BenchResult) : Except String Unit :=
  let expectedHits := nLookups / 2
  if measurement.hits ≠ expectedHits then
    .error (measurement.name ++ " returned " ++ toString measurement.hits ++
      " hits; expected " ++ toString expectedHits)
  else .ok ()

/-- `main`, from the files of the catalog on and without what it prints. -/
def rustMain (host : Host) (fst : FstCrate) (dawg : DawgCrate) (dataDir outDir : String)
    (path : List DataFile) : Except String Unit :=
  let keys := (rustLoadPurls path).1
  if h : keys = [] then .error ("no PURLs in " ++ dataDir)
  else do
    let queries := buildQueries keys h
    let measurement ← benchFst host fst keys queries outDir
    checkHits measurement
    let measurement ← benchDawgCrate host dawg keys queries outDir
    checkHits measurement

/-! ## The queries -/

section Queries

variable {keys : List (List Char)} (h : keys ≠ [])

theorem flatMap_pair_perm {ι α : Type} (l : List ι) (f g : ι → α) :
    (l.flatMap fun i => [f i, g i]).Perm (l.map f ++ l.map g) := by
  rw [List.map_eq_flatMap, List.map_eq_flatMap]
  exact (List.flatMap_append_perm l (fun i => [f i]) (fun i => [g i])).symm

theorem keyAt_mem (i : Nat) : keyAt keys h i ∈ keys := List.get_mem _ _

/-- Half of the generated queries are keys. -/
theorem buildQueries_halves :
    Halves keys ((List.range (nLookups / 2)).map (missingPurl keys h)) (nLookups / 2)
      (buildQueries keys h) := by
  refine ⟨(List.range (nLookups / 2)).map fun i => keyAt keys h (i * 9973), ?_, ?_, ?_⟩
  · exact flatMap_pair_perm _ _ _
  · rw [List.length_map, List.length_range]
  · exact List.forall_mem_map.mpr fun i _ => keyAt_mem h _

end Queries

/-- Where the keys have one length, a made-up query is too long for a key. -/
theorem missingPurl_notMem {keys : List (List Char)} (h : keys ≠ []) {n : Nat}
    (hlength : ∀ key ∈ keys, key.length = n) (i : Nat) : missingPurl keys h i ∉ keys := by
  intro hmem
  have hkey := hlength _ (keyAt_mem h (i * 15485863))
  have hmissing := hlength _ hmem
  rw [missingPurl, List.length_append, hkey, List.length_append] at hmissing
  have hpos : "-missing-".toList.length = 9 := rfl
  omega

/-! ## The hits -/

/-- A file can be made, written, and measured. -/
structure Host.Writes (host : Host) (path : String) : Prop where
  create : host.create path = .ok ()
  write : host.write path = .ok ()
  metadata : ∃ diskBytes, host.metadata path = .ok diskBytes

/-- No operation on the files of the two benchmarks fails. -/
structure Host.Stores (host : Host) (outDir : String) : Prop where
  fst : host.Writes (fstPath outDir)
  fst_read : host.read (fstPath outDir) = .ok ()
  dawg : host.Writes (dawgPath outDir)

section Hits

variable {host : Host} {fst : FstCrate} {dawg : DawgCrate} {keys queries : List (List Char)}
  {outDir : String}

/-- The check wants half the number of queries. -/
theorem checkHits_eq_ok_iff {measurement : BenchResult} :
    checkHits measurement = .ok () ↔ measurement.hits = nLookups / 2 := by
  rw [checkHits]
  split
  · case isTrue hne => exact iff_of_false nofun hne
  · case isFalse heq => exact iff_of_true rfl (not_not.mp heq)

/-- `bench_fst` counts the queries that are keys, unless a file operation fails. -/
theorem benchFst_eq_ok_iff (hfst : fst.Exact) (hsorted : keys.SortedLT)
    {measurement : BenchResult} :
    benchFst host fst keys queries outDir = .ok measurement ↔
      host.create (fstPath outDir) = .ok () ∧ host.write (fstPath outDir) = .ok () ∧
      ∃ diskBytes, host.metadata (fstPath outDir) = .ok diskBytes ∧
        host.read (fstPath outDir) = .ok () ∧
        ⟨"fst::Set", diskBytes, queries.countP fun q => q ∈ keys⟩ = measurement := by
  obtain ⟨image, index, hbuild, hnew, hget⟩ := hfst (Utf8.sortedLT_map_encode hsorted)
  have hmem : ∀ q, (fst.get index (Utf8.encode q)).isSome = decide (q ∈ keys) := by
    intro q
    rw [Bool.eq_iff_iff, hget, List.mem_map_of_injective Utf8.encode_injective,
      decide_eq_true_iff]
  simp only [benchFst, Results.bind_eq_ok_iff, hbuild, hnew, Except.ok.injEq, exists_eq_left', hmem,
    ← List.countP_eq_length_filter, pure, Except.pure, Unique.exists_iff, PUnit.default_eq_unit]

/-- So does `bench_dawg_crate`. -/
theorem benchDawgCrate_eq_ok_iff (hdawg : dawg.Exact) (hsorted : keys.SortedLT)
    {measurement : BenchResult} :
    benchDawgCrate host dawg keys queries outDir = .ok measurement ↔
      host.create (dawgPath outDir) = .ok () ∧ host.write (dawgPath outDir) = .ok () ∧
      ∃ diskBytes, host.metadata (dawgPath outDir) = .ok diskBytes ∧
        ⟨"dawg::Dawg", diskBytes, queries.countP fun q => q ∈ keys⟩ = measurement := by
  have hmem : ∀ q, dawg.isWord (dawg.build keys) q = decide (q ∈ keys) := by
    intro q
    rw [Bool.eq_iff_iff, hdawg hsorted, decide_eq_true_iff]
  simp only [benchDawgCrate, Results.bind_eq_ok_iff, hmem, ← List.countP_eq_length_filter, pure,
    Except.pure, Except.ok.injEq, Unique.exists_iff, PUnit.default_eq_unit]

/-- The number of hits in the generated queries is right if no made-up query is a key. -/
theorem countP_buildQueries_iff (h : keys ≠ []) :
    ((buildQueries keys h).countP fun q => q ∈ keys) = nLookups / 2 ↔
      ∀ i < nLookups / 2, missingPurl keys h i ∉ keys := by
  rw [(buildQueries_halves h).countP_eq_iff fun q hq => decide_eq_true hq]
  simp only [List.forall_mem_map, List.mem_range, decide_eq_true_iff]

/-- The program ends without an error exactly if no file operation fails, the catalog has keys
and none of the made-up queries is one. -/
theorem rustMain_eq_ok_iff (hfst : fst.Exact) (hdawg : dawg.Exact) {dataDir : String}
    {path : List DataFile} :
    rustMain host fst dawg dataDir outDir path = .ok () ↔ host.Stores outDir ∧
      ∃ h : (rustLoadPurls path).1 ≠ [],
        ∀ i < nLookups / 2, missingPurl (rustLoadPurls path).1 h i ∉ (rustLoadPurls path).1 := by
  have hsorted := sortedLT_rustLoadPurls path
  rw [rustMain]
  by_cases h : (rustLoadPurls path).1 = []
  · rw [dif_pos h]
    exact iff_of_false nofun fun ⟨_, hne, _⟩ => hne h
  · have hqueries := countP_buildQueries_iff h
    rw [dif_neg h]
    generalize buildQueries (rustLoadPurls path).1 h = queries at hqueries ⊢
    simp only [Results.bind_eq_ok_iff, benchFst_eq_ok_iff hfst hsorted,
      benchDawgCrate_eq_ok_iff hdawg hsorted]
    constructor
    · rintro ⟨_, ⟨hcreate, hwrite, fstBytes, hmetadata, hread, rfl⟩, _, -,
        _, ⟨hcreate', hwrite', dawgBytes, hmetadata', rfl⟩, hhits⟩
      exact ⟨⟨⟨hcreate, hwrite, fstBytes, hmetadata⟩, hread,
        ⟨hcreate', hwrite', dawgBytes, hmetadata'⟩⟩, h, hqueries.mp (checkHits_eq_ok_iff.mp hhits)⟩
    · rintro ⟨⟨⟨hcreate, hwrite, fstBytes, hmetadata⟩, hread,
        ⟨hcreate', hwrite', dawgBytes, hmetadata'⟩⟩, _, hnew⟩
      have hhits := hqueries.mpr hnew
      exact ⟨_, ⟨hcreate, hwrite, fstBytes, hmetadata, hread, rfl⟩,
        (), checkHits_eq_ok_iff.mpr hhits,
        _, ⟨hcreate', hwrite', dawgBytes, hmetadata', rfl⟩, checkHits_eq_ok_iff.mpr hhits⟩

end Hits

/-- Indexes that keep the list of their keys. -/
def FstCrate.listed : FstCrate where
  Image := List Bytes
  Fst := List Bytes
  build := .ok
  new := .ok
  get keys key := if keys.contains key then some 0 else none

def DawgCrate.listed : DawgCrate where
  Dawg := List (List Char)
  build keys := keys
  isWord keys word := keys.contains word

theorem FstCrate.listed_exact : FstCrate.listed.Exact := by
  intro keys _
  refine ⟨keys, keys, rfl, rfl, fun key => ?_⟩
  simp only [listed]
  split
  · case isTrue hmem => exact iff_of_true rfl (List.contains_iff_mem.mp hmem)
  · case isFalse hnot => exact iff_of_false nofun fun hmem => hnot (List.contains_iff_mem.mpr hmem)

theorem DawgCrate.listed_exact : DawgCrate.listed.Exact :=
  fun _ _ => List.contains_iff_mem

/-- A catalog with a PURL that looks made up. -/
def missingFoo : List DataFile :=
  [⟨Str.lit "npm.txt", "pkg:npm/foo\npkg:npm/foo-missing-0\n".toList⟩]

example (host : Host) :
    rustMain host FstCrate.listed DawgCrate.listed "data" "target" missingFoo ≠ .ok () := by
  rw [ne_eq, rustMain_eq_ok_iff FstCrate.listed_exact DawgCrate.listed_exact]
  intro hrun
  obtain ⟨-, hne, hnew⟩ := hrun
  have hkeys : (rustLoadPurls missingFoo).1 =
      ["pkg:npm/foo".toList, "pkg:npm/foo-missing-0".toList] := by decide
  refine hnew 0 (by decide) ?_
  simp only [hkeys]
  exact List.mem_cons_of_mem _ (List.mem_singleton.mpr rfl)

end Bench
