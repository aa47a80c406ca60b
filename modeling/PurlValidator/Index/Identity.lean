import PurlValidator.Index.Store
import PurlValidator.Lib.Separators

/-!
# Which packages an entry tells apart

The index answers for entries, and is asked about packages.  A package is given by
type, namespace and name (`SameIdentity`).  Its entry joins the three with slashes,
and each of them may hold slashes: a namespace has several segments, and
percent-decoding may put a slash into a name.  So the entry is as good as the list
of segments (`entryStr_eq_iff`), and two packages with the same segments are told
apart only by where the type ends and where the name begins
(`sameIdentity_iff`).

`existsIn` builds an index, loads it and asks it.  Its answer is right for a
package exactly when no other package with the same segments is taken for it
(`existsIn_exact_iff`).
-/

namespace Purl

open Py (Str)
open Utf8 (Bytes)
open Separators (segments)

/-! ## Components and segments -/

/-- The namespace as a string, empty if there is none. -/
def nsStr (p : PackageURL) : Str := p.namespace.getD []

/-- The components of an entry, joined by slashes. -/
def components (p : PackageURL) : List Str :=
  if nsStr p ≠ [] then [p.type, nsStr p, p.name] else [p.type, p.name]

/-- Same type, same namespace and same name; the rest of a PURL plays no part. -/
def SameIdentity (p q : PackageURL) : Prop :=
  p.type = q.type ∧ nsStr p = nsStr q ∧ p.name = q.name

instance (p q : PackageURL) : Decidable (SameIdentity p q) :=
  inferInstanceAs (Decidable (p.type = q.type ∧ nsStr p = nsStr q ∧ p.name = q.name))

theorem entryStr_eq_intercalate (p : PackageURL) :
    entryStr p = [slash].intercalate (components p) := by
  by_cases h : p.namespace.getD [] = []
  · simp [entryStr, components, nsStr, h]
  · simp [entryStr, components, nsStr, h]

theorem components_ne_nil (p : PackageURL) : components p ≠ [] := by
  unfold components
  split <;> exact List.cons_ne_nil _ _

/-- The entry tells as much as the segments. -/
theorem entryStr_eq_iff {p q : PackageURL} :
    entryStr p = entryStr q ↔ segments slash (components p) = segments slash (components q) := by
  rw [entryStr_eq_intercalate, entryStr_eq_intercalate]
  exact Separators.intercalate_eq_intercalate_iff slash (components_ne_nil p) (components_ne_nil q)

/-- The segments of the namespace: none if there is no namespace. -/
def nsSegments (p : PackageURL) : List Str :=
  if nsStr p ≠ [] then (nsStr p).splitOn slash else []

theorem segments_components (p : PackageURL) :
    segments slash (components p) =
      p.type.splitOn slash ++ (nsSegments p ++ p.name.splitOn slash) := by
  by_cases h : nsStr p = []
  · simp [components, nsSegments, segments, h]
  · simp [components, nsSegments, segments, h]

theorem nsSegments_inj {p q : PackageURL} (h : nsSegments p = nsSegments q) :
    nsStr p = nsStr q := by
  unfold nsSegments at h
  by_cases hp : nsStr p = [] <;> by_cases hq : nsStr q = []
  · rw [hp, hq]
  · rw [if_neg (not_not.mpr hp), if_pos hq] at h
    exact absurd h.symm (List.splitOn_ne_nil _ _)
  · rw [if_pos hp, if_neg (not_not.mpr hq)] at h
    exact absurd h (List.splitOn_ne_nil _ _)
  · rw [if_pos hp, if_pos hq] at h
    exact Separators.splitOn_injective slash h

/-- A package is its entry, where the type ends and where the name begins. -/
theorem sameIdentity_iff {p q : PackageURL} :
    SameIdentity p q ↔ entryStr p = entryStr q ∧
      p.type.count slash = q.type.count slash ∧ p.name.count slash = q.name.count slash := by
  rw [entryStr_eq_iff, segments_components, segments_components]
  constructor
  · intro h
    obtain ⟨ht, hns, hn⟩ := h
    have hsegs : nsSegments p = nsSegments q := by rw [nsSegments, nsSegments, hns]
    rw [ht, hsegs, hn]
    exact ⟨rfl, rfl, rfl⟩
  · intro h
    obtain ⟨hsegs, ht, hn⟩ := h
    have hlen : (p.type.splitOn slash).length = (q.type.splitOn slash).length := by
      rw [Separators.length_splitOn, Separators.length_splitOn, ht]
    have hlen' : (p.name.splitOn slash).length = (q.name.splitOn slash).length := by
      rw [Separators.length_splitOn, Separators.length_splitOn, hn]
    obtain ⟨htype, hrest⟩ := List.append_inj hsegs hlen
    obtain ⟨hns, hname⟩ := List.append_inj' hrest hlen'
    exact ⟨Separators.splitOn_injective slash htype, nsSegments_inj hns,
      Separators.splitOn_injective slash hname⟩

/-- `p` and `q` have the same segments, but another type ends or another name begins
there. -/
def Resplit (p q : PackageURL) : Prop :=
  segments slash (components p) = segments slash (components q) ∧
    (p.type.count slash ≠ q.type.count slash ∨ p.name.count slash ≠ q.name.count slash)

/-- Two packages with one entry are the same package or split the same segments in two
ways. -/
theorem entryStr_eq_iff_or {p q : PackageURL} :
    entryStr p = entryStr q ↔ SameIdentity p q ∨ Resplit p q := by
  rw [sameIdentity_iff, Resplit, ← entryStr_eq_iff, ← and_or_left]
  refine (and_iff_left ?_).symm
  by_cases ht : p.type.count slash = q.type.count slash
  · by_cases hn : p.name.count slash = q.name.count slash
    · exact Or.inl ⟨ht, hn⟩
    · exact Or.inr (Or.inr hn)
  · exact Or.inr (Or.inl ht)

/-- Packages without slashes in type and name are never confused. -/
theorem Resplit.slash_mem {p q : PackageURL} (h : Resplit p q) :
    slash ∈ p.type ∨ slash ∈ q.type ∨ slash ∈ p.name ∨ slash ∈ q.name := by
  by_contra hnone
  simp only [not_or, ← List.count_eq_zero] at hnone
  obtain ⟨hp, hq, hp', hq'⟩ := hnone
  cases h.2 with
  | inl hne => exact hne (hp.trans hq.symm)
  | inr hne => exact hne (hp'.trans hq'.symm)

/-! ## Asking a new index -/

section Ask

variable (fromString : Str → Except Exn PackageURL)

/-- Two arguments denote the same package. -/
def SamePackage (purl purl' : PyObj) : Prop :=
  ∃ p q, Denotes fromString purl p ∧ Denotes fromString purl' q ∧ SameIdentity p q

/-- Two arguments denote packages that split the same segments in two ways. -/
def Resplits (purl purl' : PyObj) : Prop :=
  ∃ p q, Denotes fromString purl p ∧ Denotes fromString purl' q ∧ Resplit p q

/-- `PurlValidator(create_purl_map(purls)).validate_purl(purl)`. -/
def existsIn (w : SetWalk Bytes) (d : Ducer)
    (getTempDir : FileSystem d.Image → Path × FileSystem d.Image) (purls : List PyObj)
    (purl : PyObj) (fs : FileSystem d.Image) : Except Exn Bool :=
  match createPurlMap fromString w d getTempDir purls fs with
  | (.error e, _) => .error e
  | (.ok mapLoc, fs₁) => do
      let v ← PurlValidator.init d mapLoc fs₁
      v.validatePurl fromString d purl fs₁

end Ask

variable {fromString : Str → Except Exn PackageURL} {w : SetWalk Bytes} {d : Ducer}
  {getTempDir : FileSystem d.Image → Path × FileSystem d.Image} {purls : List PyObj}
  {purl : PyObj} {fs : FileSystem d.Image}

/-- The answer is whether the entry of the PURL is among the keys. -/
theorem existsIn_eq_ok {k : Bytes} (hd : d.Exact) (htemp : MakesTempDir getTempDir fs)
    (hpurls : ∀ purl ∈ purls, Acceptable fromString purl)
    (hk : createPurlMapEntry fromString purl = .ok k) :
    ∃ b, existsIn fromString w d getTempDir purls purl fs = .ok b ∧
      (b = true ↔ k ∈ keys fromString purls) := by
  obtain ⟨image, fs₁, hcall, hholds, -, hfiles⟩ := createPurlMap_ok (w := w) hd htemp hpurls
  have hfile : fs₁.files.lookup (purlsMap (getTempDir fs).1) = some image := by
    rw [hfiles, AList.lookup_insert]
  obtain ⟨b, hb, hiff⟩ := validatePurl_eq (v := ⟨⟨purlsMap (getTempDir fs).1⟩⟩) hfile hholds hk
  refine ⟨b, ?_, hiff⟩
  simp only [existsIn, hcall, init_eq_ok hfile hholds]
  exact hb

/-- An argument has the entry of another exactly when both denote one package or resplit
each other. -/
theorem mem_keys_iff {k : Bytes} (hpurls : ∀ purl ∈ purls, Acceptable fromString purl)
    (hk : createPurlMapEntry fromString purl = .ok k) :
    k ∈ keys fromString purls ↔
      ∃ purl' ∈ purls, SamePackage fromString purl' purl ∨ Resplits fromString purl' purl := by
  obtain ⟨q, hq, -⟩ := createPurlMapEntry_eq_ok_iff.mp hk
  refine exists_congr fun purl' => and_congr_right fun hmem => ?_
  obtain ⟨p, hp, -⟩ := hpurls purl' hmem
  rw [createPurlMapEntry_eq_iff hp hq hk, entryStr_eq_iff_or]
  constructor
  · intro h
    cases h with
    | inl h => exact Or.inl ⟨p, q, hp, hq, h⟩
    | inr h => exact Or.inr ⟨p, q, hp, hq, h⟩
  · intro h
    cases h with
    | inl h =>
        obtain ⟨p', q', hp', hq', h⟩ := h
        rw [hp.unique hp', hq.unique hq']
        exact Or.inl h
    | inr h =>
        obtain ⟨p', q', hp', hq', h⟩ := h
        rw [hp.unique hp', hq.unique hq']
        exact Or.inr h

/-- The answer for a PURL is exact, true if and only if the collection has its package,
unless the collection has a package that splits the same segments elsewhere and does not
have the package itself. -/
theorem existsIn_exact_iff (hd : d.Exact) (htemp : MakesTempDir getTempDir fs)
    (hpurls : ∀ purl ∈ purls, Acceptable fromString purl) (hpurl : Acceptable fromString purl) :
    (existsIn fromString w d getTempDir purls purl fs = .ok true ↔
        ∃ purl' ∈ purls, SamePackage fromString purl' purl) ↔
      ((∃ purl' ∈ purls, Resplits fromString purl' purl) →
        ∃ purl' ∈ purls, SamePackage fromString purl' purl) := by
  obtain ⟨k, hk⟩ := exists_createPurlMapEntry_iff.mpr hpurl
  obtain ⟨b, hb, hiff⟩ := existsIn_eq_ok (w := w) hd htemp hpurls hk
  rw [hb, Except.ok.injEq, hiff, mem_keys_iff hpurls hk]
  constructor
  · intro h hr
    obtain ⟨purl', hmem, hr⟩ := hr
    exact h.mp ⟨purl', hmem, Or.inr hr⟩
  · intro h
    refine ⟨fun hhit => ?_, fun hsame => ?_⟩
    · obtain ⟨purl', hmem, hsame | hr⟩ := hhit
      · exact ⟨purl', hmem, hsame⟩
      · exact h ⟨purl', hmem, hr⟩
    · obtain ⟨purl', hmem, hsame⟩ := hsame
      exact ⟨purl', hmem, Or.inl hsame⟩

/-! ## An npm scope

An index of `pkg:npm/%40angular/core` alone is asked for `pkg:npm/%40angular%2Fcore`.  An index
of three PURLs is asked for one of its packages with a version, and for another package. -/

/-- An index of the scoped package alone says that the other package exists. -/
theorem existsIn_slashCore :
    existsIn npmParser SetWalk.byInsertion Ducer.listed (tempDirAt tmpDir)
        [.str (Str.lit "pkg:npm/%40angular/core")] (.str (Str.lit "pkg:npm/%40angular%2Fcore"))
        FileSystem.bare = .ok true ∧
      ¬ ∃ purl' ∈ [PyObj.str (Str.lit "pkg:npm/%40angular/core")],
        SamePackage npmParser purl' (.str (Str.lit "pkg:npm/%40angular%2Fcore")) := by
  refine ⟨by decide, fun h => ?_⟩
  obtain ⟨purl', hmem, p, q, hp, hq, hsame⟩ := h
  rw [List.mem_singleton.mp hmem] at hp
  rw [hp.unique (.str npmParser_scopedCore), hq.unique (.str npmParser_slashCore)] at hsame
  exact absurd hsame (by decide)

def npmPurls : List PyObj :=
  [.str (Str.lit "pkg:npm/%40angular/core"), .str (Str.lit "pkg:npm/lodash"),
    .packageURL scopedCore]

def npmAnswer (purl : PyObj) : Except Exn Bool :=
  existsIn npmParser SetWalk.byInsertion Ducer.listed (tempDirAt tmpDir) npmPurls purl
    FileSystem.bare

/-- `existsIn_exact_iff` for a package that is found under another spelling, and for one that is
not found. -/
theorem existsIn_npmPurls_exact :
    npmAnswer (.str (Str.lit "pkg:npm/%40angular/core@17.0.0")) = .ok true ∧
      npmAnswer (.str (Str.lit "pkg:npm/left-pad")) = .ok false ∧
      ((npmAnswer (.str (Str.lit "pkg:npm/%40angular/core@17.0.0")) = .ok true ↔
          ∃ purl' ∈ npmPurls,
            SamePackage npmParser purl' (.str (Str.lit "pkg:npm/%40angular/core@17.0.0"))) ↔
        ((∃ purl' ∈ npmPurls,
            Resplits npmParser purl' (.str (Str.lit "pkg:npm/%40angular/core@17.0.0"))) →
          ∃ purl' ∈ npmPurls,
            SamePackage npmParser purl' (.str (Str.lit "pkg:npm/%40angular/core@17.0.0")))) ∧
      ((npmAnswer (.str (Str.lit "pkg:npm/left-pad")) = .ok true ↔
          ∃ purl' ∈ npmPurls,
            SamePackage npmParser purl' (.str (Str.lit "pkg:npm/left-pad"))) ↔
        ((∃ purl' ∈ npmPurls, Resplits npmParser purl' (.str (Str.lit "pkg:npm/left-pad"))) →
          ∃ purl' ∈ npmPurls,
            SamePackage npmParser purl' (.str (Str.lit "pkg:npm/left-pad")))) := by
  have hpurls : ∀ purl ∈ npmPurls, Acceptable npmParser purl := by
    rw [npmPurls, List.forall_mem_cons, List.forall_mem_cons, List.forall_mem_singleton]
    exact ⟨acceptable_scopedCore, acceptable_lodash, acceptable_scopedCore_object⟩
  refine ⟨by decide, by decide, ?_, ?_⟩
  · exact existsIn_exact_iff Ducer.listed_exact makesTempDir_bare hpurls acceptable_versionedCore
  · exact existsIn_exact_iff Ducer.listed_exact makesTempDir_bare hpurls acceptable_leftPad

end Purl
