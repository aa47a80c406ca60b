import PurlValidator.Index.Store
import PurlValidator.Lib.Bisect
import Mathlib.Data.Finset.Dedup

/-!
# The candidate structures of the evaluation

`alternative_benchmark.py` times five ways to keep a list of PURLs and to ask for
one: a set, a dict, the sorted list with `bisect_left`, a SQLite table and a
`ducer` map.  It throws the answers away.  Here each benchmark is what it computes,
the answers to the queries, without the clock and the size of the file.

The list comes sorted by code points and is handed to the builder of the map as it
is.  That works because UTF-8 keeps the order of strings
(`Utf8.sortedLT_map_encode`).  SQLite keeps a TEXT value as its bytes.

`benchmarks_agree` says that all five give the same answers.  A list or a query
with a lone surrogate is excluded: SQLite and the map raise on it, and the others do
not.
-/

namespace Bench

open Py (Str)
open Utf8 (Bytes)
open Purl (Exn Ducer toBytes truth)

/-! ## The benchmarks -/

/-- `time_purl_lookup`: the answers. -/
def timePurlLookup (lookupFun : Str → Except Exn Bool) (queries : List Str) :
    Except Exn (List Bool) :=
  queries.mapM lookupFun

/-- `benchmark_set`. -/
def benchmarkSet (purls queries : List Str) : Except Exn (List Bool) :=
  let values := purls.toFinset
  timePurlLookup (fun value => .ok (value ∈ values)) queries

/-- `dict.fromkeys(keys, value)`. -/
def fromkeys (keys : List Str) (value : Nat) : AList fun _ : Str => Nat :=
  keys.foldl (fun values key => values.insert key value) ∅

/-- `benchmark_dict`. -/
def benchmarkDict (purls queries : List Str) : Except Exn (List Bool) :=
  let values := fromkeys purls 1
  timePurlLookup (fun value => .ok (value ∈ values)) queries

/-- `contains` of `benchmark_sorted_list`. -/
def sortedListContains (values : List Str) (value : Str) : Except Exn Bool :=
  let index := Bisect.bisectLeft values value
  if index ≠ values.length then
    match values[index]? with
    | some v => .ok (v = value)
    | none => .error .indexError
  else .ok false

/-- `benchmark_sorted_list`. -/
def benchmarkSortedList (purls queries : List Str) : Except Exn (List Bool) :=
  timePurlLookup (sortedListContains purls) queries

/-- The table `purls`: the values of its column, which is the primary key. -/
structure PurlsTable where
  rows : List Bytes
  nodup : rows.Nodup

/-- `CREATE TABLE`. -/
def PurlsTable.create : PurlsTable := ⟨[], List.nodup_nil⟩

/-- `INSERT INTO purls (purl) VALUES (?)`. -/
def PurlsTable.insert (table : PurlsTable) (purl : Str) : Except Exn PurlsTable := do
  let text ← toBytes purl
  if h : text ∈ table.rows then .error .integrityError
  else .ok ⟨text :: table.rows, List.nodup_cons.mpr ⟨h, table.nodup⟩⟩

/-- `SELECT 1 FROM purls WHERE purl = ?`, the first row. -/
def PurlsTable.fetchone (table : PurlsTable) (value : Str) : Except Exn (Option Nat) := do
  let text ← toBytes value
  return if text ∈ table.rows then some 1 else none

/-- `benchmark_sqlite`. -/
def benchmarkSqlite (purls queries : List Str) : Except Exn (List Bool) := do
  let table ← purls.foldlM PurlsTable.insert PurlsTable.create
  timePurlLookup (fun value => return (← table.fetchone value).isSome) queries

/-- The entries of `benchmark_ducer_fst`, in the order of the list. -/
def ducerEntries (purls : List Str) : Except Exn (List (Bytes × Nat)) :=
  purls.mapM fun purl => return (← toBytes purl, 1)

/-- `benchmark_ducer_fst`.  An empty file cannot be mapped. -/
def benchmarkDucerFst (d : Ducer) (purls queries : List Str) : Except Exn (List Bool) := do
  let entries ← ducerEntries purls
  (d.build entries).2
  let mapped := (d.build entries).1
  if d.size mapped = 0 then .error (.valueError (Str.lit "cannot mmap an empty file"))
  else
    d.check mapped
    timePurlLookup (fun value => return truth (d.get mapped (← toBytes value))) queries

/-! ## What they answer -/

/-- Lookups that are membership give its answers. -/
theorem timePurlLookup_eq {lookupFun : Str → Except Exn Bool} {queries purls : List Str}
    (h : ∀ q ∈ queries, lookupFun q = .ok (q ∈ purls)) :
    timePurlLookup lookupFun queries = .ok (queries.map fun q => decide (q ∈ purls)) :=
  Results.mapM_eq_ok_map h

theorem benchmarkSet_eq {purls queries : List Str} :
    benchmarkSet purls queries = .ok (queries.map fun q => decide (q ∈ purls)) :=
  timePurlLookup_eq fun _ _ => by simp only [List.mem_toFinset]

theorem mem_foldl_insert {values : AList fun _ : Str => Nat} {keys : List Str} {value : Nat}
    {q : Str} : q ∈ keys.foldl (fun values key => values.insert key value) values ↔
      q ∈ keys ∨ q ∈ values := by
  induction keys generalizing values with
  | nil => simp
  | cons key keys ih =>
      rw [List.foldl_cons, ih, AList.mem_insert, List.mem_cons, ← or_assoc, or_comm (a := q ∈ keys)]

/-- The keys of the dictionary are those that it was made from. -/
theorem mem_fromkeys_iff {keys : List Str} {value : Nat} {q : Str} :
    q ∈ fromkeys keys value ↔ q ∈ keys := by
  rw [fromkeys, mem_foldl_insert]
  exact or_iff_left (AList.notMem_empty q)

theorem benchmarkDict_eq {purls queries : List Str} :
    benchmarkDict purls queries = .ok (queries.map fun q => decide (q ∈ purls)) :=
  timePurlLookup_eq fun _ _ => by simp only [mem_fromkeys_iff]

/-- The search lands in range or at the end of the list. -/
theorem sortedListContains_eq {purls : List Str} (h : purls.SortedLT) (q : Str) :
    sortedListContains purls q = .ok (q ∈ purls) := by
  have hle := (Bisect.splits_bisectLeft (x := q) h.sortedLE).le_length
  have hmem := Bisect.getElem?_bisectLeft_eq_some_iff (x := q) h.sortedLE
  rw [sortedListContains]
  by_cases hend : Bisect.bisectLeft purls q = purls.length
  · rw [if_neg (not_not.mpr hend)]
    rw [hend, List.getElem?_eq_none le_rfl] at hmem
    simp [← hmem]
  · have hlt : Bisect.bisectLeft purls q < purls.length := lt_of_le_of_ne hle hend
    rw [List.getElem?_eq_getElem hlt, Option.some.injEq] at hmem
    rw [if_pos hend, List.getElem?_eq_getElem hlt]
    simp [hmem]

/-- The bisection of a sorted list decides membership. -/
theorem benchmarkSortedList_eq {purls queries : List Str} (h : purls.SortedLT) :
    benchmarkSortedList purls queries = .ok (queries.map fun q => decide (q ∈ purls)) :=
  timePurlLookup_eq fun q _ => sortedListContains_eq h q

/-! ### With the encodings

From here on nothing has surrogates, so the strings are texts. -/

theorem toBytes_ofChars (cs : List Char) : toBytes (Str.ofChars cs) = .ok (Utf8.encode cs) := by
  rw [Purl.toBytes_eq_ok_iff, Str.encode_ofChars]

/-- The table takes rows that are new. -/
theorem foldlM_insert_eq {texts : List (List Char)} (table : PurlsTable)
    (hnodup : texts.Nodup) (hnew : ∀ text ∈ texts, Utf8.encode text ∉ table.rows) :
    ∃ table', (texts.map Str.ofChars).foldlM PurlsTable.insert table = .ok table' ∧
      ∀ row, row ∈ table'.rows ↔ row ∈ texts.map Utf8.encode ∨ row ∈ table.rows := by
  induction texts generalizing table with
  | nil => exact ⟨table, rfl, fun row => by simp⟩
  | cons text texts ih =>
      obtain ⟨hnot, hnodup⟩ := List.nodup_cons.mp hnodup
      have hfree : Utf8.encode text ∉ table.rows := hnew text List.mem_cons_self
      let inserted : PurlsTable :=
        ⟨Utf8.encode text :: table.rows, List.nodup_cons.mpr ⟨hfree, table.nodup⟩⟩
      have hinsert : table.insert (Str.ofChars text) = .ok inserted := by
        rw [PurlsTable.insert, toBytes_ofChars]
        exact dif_neg hfree
      have hnew' : ∀ t ∈ texts, Utf8.encode t ∉ inserted.rows := by
        intro t ht hmem
        cases List.mem_cons.mp hmem with
        | inl heq => exact hnot (Utf8.encode_inj.mp heq ▸ ht)
        | inr hmem => exact hnew t (List.mem_cons_of_mem _ ht) hmem
      obtain ⟨table', hfold, hrows⟩ := ih inserted hnodup hnew'
      refine ⟨table', ?_, fun row => ?_⟩
      · rw [List.map_cons, List.foldlM_cons, hinsert]
        exact hfold
      · rw [hrows, List.mem_cons, List.map_cons, List.mem_cons]
        exact or_left_comm.trans or_assoc.symm

/-- A row is found by its bytes. -/
theorem fetchone_ofChars {table : PurlsTable} (cs : List Char) :
    table.fetchone (Str.ofChars cs) =
      .ok (if Utf8.encode cs ∈ table.rows then some 1 else none) := by
  rw [PurlsTable.fetchone, toBytes_ofChars]
  rfl

theorem benchmarkSqlite_eq {purls queries : List Str} (hnodup : purls.Nodup)
    (hpurls : ∀ purl ∈ purls, purl.Scalar) (hqueries : ∀ q ∈ queries, q.Scalar) :
    benchmarkSqlite purls queries = .ok (queries.map fun q => decide (q ∈ purls)) := by
  lift purls to List (List Char) using hpurls with texts
  obtain ⟨table, hfold, hrows⟩ :=
    foldlM_insert_eq PurlsTable.create (hnodup.of_map _) fun _ _ => List.not_mem_nil
  rw [benchmarkSqlite, hfold]
  refine timePurlLookup_eq fun q hq => ?_
  lift q to List Char using hqueries q hq
  have hrow : Utf8.encode q ∈ table.rows ↔ Str.ofChars q ∈ texts.map Str.ofChars := by
    rw [hrows, List.mem_map_of_injective Utf8.encode_injective,
      List.mem_map_of_injective Str.ofChars_injective]
    exact or_iff_left List.not_mem_nil
  rw [fetchone_ofChars, ← decide_eq_decide.mpr hrow]
  show Except.ok (if Utf8.encode q ∈ table.rows then some 1 else none).isSome = _
  split
  · case isTrue h => rw [decide_eq_true h]; rfl
  · case isFalse h => rw [decide_eq_false h]; rfl

/-- The entries are in order and map each encoding to 1. -/
theorem ducerEntries_eq (texts : List (List Char)) :
    ducerEntries (texts.map Str.ofChars) = .ok ((texts.map Utf8.encode).map fun k => (k, 1)) := by
  rw [ducerEntries, List.mapM_map, List.map_map]
  refine Results.mapM_eq_ok_map fun cs _ => ?_
  show (do return (← toBytes (Str.ofChars cs), 1)) = _
  rw [toBytes_ofChars]
  rfl

/-- The order of the strings is the byte order of the encodings. -/
theorem enumerates_encode {texts : List (List Char)} (h : (texts.map Str.ofChars).SortedLT) :
    Purl.Enumerates ((texts.map Utf8.encode).map fun k => (k, 1))
      {k | k ∈ texts.map Utf8.encode} := by
  have hsorted : texts.SortedLT := Str.strictMono_ofChars.sortedLT_listMap.mp h
  exact Purl.enumerates_map (Utf8.sortedLT_map_encode hsorted) fun _ => Iff.rfl

/-- The builder takes the entries as they come, and the map is exact. -/
theorem benchmarkDucerFst_eq {d : Ducer} (hd : d.Exact) {purls queries : List Str}
    (hsorted : purls.SortedLT) (hpurls : ∀ purl ∈ purls, purl.Scalar)
    (hqueries : ∀ q ∈ queries, q.Scalar) :
    benchmarkDucerFst d purls queries = .ok (queries.map fun q => decide (q ∈ purls)) := by
  lift purls to List (List Char) using hpurls with texts
  have henum := enumerates_encode hsorted
  have hholds := Purl.holds_build hd henum
  have hsize := Nat.pos_iff_ne_zero.mp hholds.size_pos
  rw [benchmarkDucerFst, ducerEntries_eq]
  simp only [bind, Except.bind, hd.build_ok henum.buildable, if_neg hsize, hholds.check_ok]
  refine timePurlLookup_eq fun q hq => ?_
  lift q to List Char using hqueries q hq
  rw [toBytes_ofChars]
  refine congrArg Except.ok (Bool.eq_iff_iff.mpr ?_)
  rw [hholds.truth_get_iff, decide_eq_true_iff, Set.mem_ofPred_eq,
    List.mem_map_of_injective Utf8.encode_injective,
    List.mem_map_of_injective Str.ofChars_injective]

/-- The five structures are interchangeable on a sorted list: every benchmark answers each
query by whether it is in the list.  The keys handed to the builder of the map ascend. -/
theorem benchmarks_agree {d : Ducer} (hd : d.Exact) {purls queries : List Str}
    (hsorted : purls.SortedLT) (hpurls : ∀ purl ∈ purls, purl.Scalar)
    (hqueries : ∀ q ∈ queries, q.Scalar) :
    let answers : Except Exn (List Bool) := .ok (queries.map fun q => decide (q ∈ purls))
    benchmarkSet purls queries = answers ∧ benchmarkDict purls queries = answers ∧
      benchmarkSortedList purls queries = answers ∧ benchmarkSqlite purls queries = answers ∧
      benchmarkDucerFst d purls queries = answers ∧
      ∃ entries, ducerEntries purls = .ok entries ∧ (entries.map Prod.fst).SortedLT ∧
        Ducer.Buildable entries := by
  refine ⟨benchmarkSet_eq, benchmarkDict_eq, benchmarkSortedList_eq hsorted,
    benchmarkSqlite_eq hsorted.nodup hpurls hqueries,
    benchmarkDucerFst_eq hd hsorted hpurls hqueries, ?_⟩
  lift purls to List (List Char) using hpurls with texts
  have henum := enumerates_encode hsorted
  exact ⟨_, ducerEntries_eq texts, henum.sortedLT, henum.buildable⟩

def twoPurls : List Str := ["pkg:npm/z", "pkg:npm/é"].map Str.lit

def twoQueries : List Str := ["pkg:npm/é", "pkg:npm/é-invalid-0"].map Str.lit

theorem benchmarks_agree_twoPurls :
    let answers : Except Exn (List Bool) := .ok [true, false]
    benchmarkSet twoPurls twoQueries = answers ∧ benchmarkDict twoPurls twoQueries = answers ∧
      benchmarkSortedList twoPurls twoQueries = answers ∧
      benchmarkSqlite twoPurls twoQueries = answers ∧
      benchmarkDucerFst Ducer.listed twoPurls twoQueries = answers ∧
      ∃ entries, ducerEntries twoPurls = .ok entries ∧ (entries.map Prod.fst).SortedLT ∧
        Ducer.Buildable entries :=
  benchmarks_agree Ducer.listed_exact (by decide)
    (List.forall_mem_map.mpr fun s _ => Str.scalar_ofChars s.toList)
    (List.forall_mem_map.mpr fun s _ => Str.scalar_ofChars s.toList)

end Bench
