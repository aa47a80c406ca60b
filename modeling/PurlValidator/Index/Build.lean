import PurlValidator.Index.Entry
import PurlValidator.Lib.SortedKeys

/-!
# The list that the index is built from

`create_purl_map` encodes every PURL, collects the entries in a set, pairs each with
the value 1 and sorts the pairs.  The set is walked in an order the program does not
control, so the walk is a parameter.  The list goes to `ducer.Map.build`, which wants
strictly ascending keys.

`preparedPurlMapEntries_eq` computes the list and
`preparedPurlMapEntries_canonical` says what it is: the strictly ascending
enumeration of the set of keys, whatever the order and the repetitions of the
PURLs and whatever the walk.

`ducer` is a third-party library.  `Ducer` is the part of it that the code calls and
`Ducer.Exact` is what its documentation promises.
-/

namespace Purl

open Py (Str)
open Utf8 (Bytes)

/-! ## The map library -/

/-- `ducer.Map`: its files, the builder, what loading a file checks, and lookups. -/
structure Ducer where
  Image : Type
  size : Image → Nat
  /-- What the builder leaves in the file, and how it ends. -/
  build : List (Bytes × Nat) → Image × Except Exn Unit
  check : Image → Except Exn Unit
  get : Image → Bytes → Option Nat
  items : Image → List (Bytes × Nat)

/-- What the builder asks for: strictly ascending keys, and values of 64 bits. -/
def Ducer.Buildable (es : List (Bytes × Nat)) : Prop :=
  (es.map Prod.fst).SortedLT ∧ ∀ e ∈ es, e.2 < UInt64.size

/-- The library is an exact map on the lists that it builds. -/
structure Ducer.Exact (d : Ducer) : Prop where
  build_ok : ∀ {es}, Ducer.Buildable es → (d.build es).2 = .ok ()
  build_error : ∀ {es}, ¬ Ducer.Buildable es → ∃ e, (d.build es).2 = .error e
  size_pos : ∀ {es}, (d.build es).2 = .ok () → 0 < d.size (d.build es).1
  check_ok : ∀ {es}, (d.build es).2 = .ok () → d.check (d.build es).1 = .ok ()
  items_eq : ∀ {es}, (d.build es).2 = .ok () → d.items (d.build es).1 = es
  get_eq : ∀ {es}, (d.build es).2 = .ok () →
    ∀ k v, d.get (d.build es).1 k = some v ↔ (k, v) ∈ es

instance Ducer.decidableBuildable (es : List (Bytes × Nat)) : Decidable (Ducer.Buildable es) :=
  inferInstanceAs (Decidable ((es.map Prod.fst).SortedLT ∧ ∀ e ∈ es, e.2 < UInt64.size))

/-- An exact map that keeps the list itself in the file, after a header of one byte. -/
def Ducer.listed : Ducer where
  Image := List (Bytes × Nat)
  size es := es.length + 1
  build es := if Ducer.Buildable es then (es, .ok ()) else
    ([], .error (.ducerError (Str.lit "keys must be strictly ascending")))
  check _ := .ok ()
  get es k := es.lookup k
  items es := es

theorem Ducer.listed_exact : Ducer.listed.Exact := by
  have hbuild : ∀ {es}, (listed.build es).2 = .ok () →
      Ducer.Buildable es ∧ (listed.build es).1 = es := by
    intro es h
    by_cases hes : Ducer.Buildable es
    · exact ⟨hes, by simp [listed, hes]⟩
    · simp [listed, hes] at h
  refine ⟨fun h => by simp [listed, h], fun h => ⟨_, by simp [listed, h]; rfl⟩,
    fun _ => Nat.succ_pos _, fun _ => rfl, fun h => (hbuild h).2, fun h k v => ?_⟩
  obtain ⟨hes, heq⟩ := hbuild h
  rw [heq]
  exact lookup_eq_some_iff_mem hes.1.nodup

/-! ## The prepared entries -/

section Prepared

variable (fromString : Str → Except Exn PackageURL) (w : SetWalk Bytes)

/-- The two lines of `create_purl_map` before any side effect: the set of entries, and
the sorted list of its elements paired with 1. -/
def preparedPurlMapEntries (purls : List PyObj) : Except Exn (List (Bytes × Nat)) := do
  let purlMapEntries ← purls.mapM (createPurlMapEntry fromString)
  return ((w.walk purlMapEntries).map fun entry => (entry, 1)).insertionSort pairLe

/-- The keys of a collection of PURLs. -/
def keys (purls : List PyObj) : Set Bytes :=
  {k | ∃ purl ∈ purls, createPurlMapEntry fromString purl = .ok k}

end Prepared

/-- `items` enumerates the keys `K` in ascending byte order, each once and with value 1. -/
structure Enumerates (items : List (Bytes × Nat)) (K : Set Bytes) : Prop where
  sortedLT : (items.map Prod.fst).SortedLT
  value : ∀ e ∈ items, e.2 = 1
  mem_iff : ∀ k, k ∈ items.map Prod.fst ↔ k ∈ K

theorem Enumerates.buildable {items : List (Bytes × Nat)} {K : Set Bytes}
    (h : Enumerates items K) : Ducer.Buildable items := by
  refine ⟨h.sortedLT, fun e he => ?_⟩
  rw [h.value e he]
  decide

theorem Enumerates.mk_mem_iff {items : List (Bytes × Nat)} {K : Set Bytes}
    (h : Enumerates items K) {k : Bytes} {v : Nat} : (k, v) ∈ items ↔ v = 1 ∧ k ∈ K := by
  rw [← h.mem_iff, List.mem_map]
  constructor
  · intro hm
    exact ⟨h.value _ hm, (k, v), hm, rfl⟩
  · rintro ⟨rfl, ⟨k', v'⟩, hm, rfl⟩
    have hv : v' = 1 := h.value _ hm
    exact hv ▸ hm

/-- A set of keys has one enumeration. -/
theorem Enumerates.eq_iff {items items' : List (Bytes × Nat)} {K K' : Set Bytes}
    (h : Enumerates items K) (h' : Enumerates items' K') : items = items' ↔ K = K' := by
  constructor
  · rintro rfl
    ext k
    rw [← h.mem_iff, h'.mem_iff]
  · rintro rfl
    have hkeys : items.map Prod.fst = items'.map Prod.fst :=
      h.sortedLT.eq_of_mem_iff h'.sortedLT fun k => (h.mem_iff k).trans (h'.mem_iff k).symm
    have hpairs : ∀ {l : List (Bytes × Nat)}, (∀ e ∈ l, e.2 = 1) →
        (l.map Prod.fst).map (fun k => (k, 1)) = l := by
      intro l hl
      have hid : ∀ e ∈ l, ((fun k => (k, 1)) ∘ Prod.fst) e = id e := fun e he =>
        Prod.ext rfl (hl e he).symm
      rw [List.map_map, List.map_congr_left hid, List.map_id]
    rw [← hpairs h.value, hkeys, hpairs h'.value]

/-- Ascending keys, each paired with 1. -/
theorem enumerates_map {ks : List Bytes} {K : Set Bytes} (h : ks.SortedLT)
    (hmem : ∀ k, k ∈ ks ↔ k ∈ K) : Enumerates (ks.map fun k => (k, 1)) K := by
  have hfst : (ks.map fun k => (k, 1)).map Prod.fst = ks := by
    rw [List.map_map]
    exact List.map_id _
  refine ⟨?_, fun e he => ?_, fun k => ?_⟩
  · rw [hfst]
    exact h
  · obtain ⟨k, -, rfl⟩ := List.mem_map.mp he
    rfl
  · rw [hfst]
    exact hmem k

variable {fromString : Str → Except Exn PackageURL} {w w' : SetWalk Bytes}
  {purls purls' : List PyObj}

/-- The sort of the pairs is the sort of the entries. -/
theorem preparedPurlMapEntries_eq {entries : List Bytes}
    (h : purls.mapM (createPurlMapEntry fromString) = .ok entries) :
    preparedPurlMapEntries fromString w purls =
      .ok ((w.sorted entries).map fun entry => (entry, 1)) := by
  rw [preparedPurlMapEntries, h, SetWalk.sorted, ← insertionSort_pairLe_map]
  rfl

theorem enumerates_of_prepared {items : List (Bytes × Nat)}
    (h : preparedPurlMapEntries fromString w purls = .ok items) :
    Enumerates items (keys fromString purls) := by
  obtain ⟨entries, hentries, -⟩ := Results.bind_eq_ok_iff.mp h
  rw [preparedPurlMapEntries_eq hentries] at h
  cases h
  refine enumerates_map (w.sortedLT_sorted entries) fun k => ?_
  rw [w.mem_sorted]
  exact Results.mem_of_mapM_eq_ok hentries k

/-- The list is prepared exactly when every PURL is acceptable. -/
theorem exists_prepared_iff :
    (∃ items, preparedPurlMapEntries fromString w purls = .ok items) ↔
      ∀ purl ∈ purls, Acceptable fromString purl := by
  simp only [← exists_createPurlMapEntry_iff, ← Results.exists_mapM_eq_ok_iff]
  constructor
  · rintro ⟨items, h⟩
    obtain ⟨entries, hentries, -⟩ := Results.bind_eq_ok_iff.mp h
    exact ⟨entries, hentries⟩
  · rintro ⟨entries, h⟩
    exact ⟨_, preparedPurlMapEntries_eq h⟩

/-- The index build is canonical.  The list passed to the builder enumerates the keys of
the PURLs, so the builder takes it, and two collections give the same list, and maps with
the same items, exactly when they have the same keys. -/
theorem preparedPurlMapEntries_canonical {d : Ducer} (hd : d.Exact)
    (hpurls : ∀ purl ∈ purls, Acceptable fromString purl)
    (hpurls' : ∀ purl ∈ purls', Acceptable fromString purl) :
    ∃ items items', preparedPurlMapEntries fromString w purls = .ok items ∧
      preparedPurlMapEntries fromString w' purls' = .ok items' ∧
      Enumerates items (keys fromString purls) ∧ (d.build items).2 = .ok () ∧
      (items = items' ↔ keys fromString purls = keys fromString purls') ∧
      (d.items (d.build items).1 = d.items (d.build items').1 ↔
        keys fromString purls = keys fromString purls') := by
  obtain ⟨items, h⟩ := (exists_prepared_iff (w := w)).mpr hpurls
  obtain ⟨items', h'⟩ := (exists_prepared_iff (w := w')).mpr hpurls'
  have he := enumerates_of_prepared h
  have he' := enumerates_of_prepared h'
  have hb := hd.build_ok he.buildable
  have hb' := hd.build_ok he'.buildable
  refine ⟨items, items', h, h', he, hb, he.eq_iff he', ?_⟩
  rw [hd.items_eq hb, hd.items_eq hb']
  exact he.eq_iff he'

/-- The scoped package as a string and as an object, and as an object alone. -/
theorem preparedPurlMapEntries_canonical_scopedCore :
    ∃ items items',
      preparedPurlMapEntries npmParser SetWalk.byInsertion
          [.str (Str.lit "pkg:npm/%40angular/core"), .packageURL scopedCore] = .ok items ∧
        preparedPurlMapEntries npmParser SetWalk.byInsertion [.packageURL scopedCore] =
          .ok items' ∧
        Enumerates items
          (keys npmParser [.str (Str.lit "pkg:npm/%40angular/core"), .packageURL scopedCore]) ∧
        (Ducer.listed.build items).2 = .ok () ∧
        (items = items' ↔
          keys npmParser [.str (Str.lit "pkg:npm/%40angular/core"), .packageURL scopedCore] =
            keys npmParser [.packageURL scopedCore]) ∧
        (Ducer.listed.items (Ducer.listed.build items).1 =
            Ducer.listed.items (Ducer.listed.build items').1 ↔
          keys npmParser [.str (Str.lit "pkg:npm/%40angular/core"), .packageURL scopedCore] =
            keys npmParser [.packageURL scopedCore]) :=
  preparedPurlMapEntries_canonical Ducer.listed_exact
    (List.forall_mem_cons.mpr ⟨acceptable_scopedCore,
      List.forall_mem_singleton.mpr acceptable_scopedCore_object⟩)
    (List.forall_mem_singleton.mpr acceptable_scopedCore_object)

end Purl
