import PurlValidator.Index.History
import PurlValidator.Index.Identity

/-!
# The answers of a history

`StoreInvariant` is about the world that a history leads to.  Here are the answers that
were given on the way.  `result_of_run` says what each of them was: whether the entry of the
PURL is among the keys of the collection that the validator's file was built from.  So where
no type and no name holds a slash, it was about packages (`answers_exact_of_slashFree`).

The other question is what the answers tell about the index.  They tell everything: two
collections are told apart by some PURL exactly if their files list different items
(`existsIn_eq_iff`).
-/

namespace Purl

open Py (Str)
open Utf8 (Bytes)

/-! ## What was answered -/

section Histories

variable {fromString : Str → Except Exn PackageURL} {d : Ducer} {fs₀ : FileSystem d.Image}
  {world : World d} {es es' : List Event}

theorem built_subset (h : es' <+: es) : built es' ⊆ built es := (h.filterMap _).subset

/-- Everything in a collection that was built is acceptable. -/
theorem acceptable_of_built (hd : d.Exact)
    (hrun : Run (Step fromString d) (World.start fs₀) es world) {loc : Path}
    {purls : List PyObj} (h : (loc, purls) ∈ built es) :
    ∀ purl ∈ purls, Acceptable fromString purl := by
  obtain ⟨e, he, hpub⟩ := List.mem_filterMap.mp h
  cases e with
  | createPurlMap purls' result =>
      cases result with
      | error e => cases hpub
      | ok loc' =>
          cases hpub
          obtain ⟨es₁, world₁, world₂, -, -, hstep⟩ := hrun.exists_step_of_mem he
          cases hstep with
          | @createPurlMap w getTempDir _ _ fs htemp hcall =>
              by_contra hnot
              simp only [not_forall, exists_prop] at hnot
              obtain ⟨e, herr⟩ := (createPurlMap_error_iff (w := w) hd htemp).mpr hnot
              rw [hcall] at herr
              cases herr
  | purlValidator _ _ => cases hpub
  | validatePurl _ _ _ => cases hpub

/-- What was answered: whether the entry is among the keys of the collection that the
validator's file was built from.  Where there is no entry, the same exception was raised. -/
theorem result_of_run (hd : d.Exact)
    (hrun : Run (Step fromString d) (World.start fs₀) es world) {v : PurlValidator} {purl : PyObj}
    {result : Except Exn Bool} (h : .validatePurl v purl result ∈ es) :
    ∃ purls, (v.purlMap.location, purls) ∈ built es ∧
      (∀ k, createPurlMapEntry fromString purl = .ok k →
        ∃ b, result = .ok b ∧ (b = true ↔ k ∈ keys fromString purls)) ∧
      ∀ e, createPurlMapEntry fromString purl = .error e → result = .error e := by
  obtain ⟨es₁, world₁, world₂, hpre, hrun₁, hstep⟩ := hrun.exists_step_of_mem h
  cases hstep with
  | validatePurl hv hask =>
      obtain ⟨t, hfollows, -, hbuilt⟩ := follows_run hd hrun₁
      obtain ⟨purls, ht⟩ := (hfollows.mem_locations _).mp (hfollows.location_mem v hv)
      obtain ⟨-, image, hfile, hholds⟩ := hfollows.holds ht
      have hmem : (v.purlMap.location, purls) ∈ built es :=
        built_subset ((List.prefix_append _ _).trans hpre) ((hbuilt _ _).mp ht)
      refine ⟨purls, hmem, fun k hk => ?_, fun e he => ?_⟩
      · obtain ⟨b, hb, hiff⟩ := validatePurl_eq hfile hholds hk
        exact ⟨b, hask.symm.trans hb, hiff⟩
      · rw [← hask, PurlValidator.validatePurl, he]
        rfl

/-- No slash is part of the type or of the name that the argument denotes. -/
def SlashFree (fromString : Str → Except Exn PackageURL) (purl : PyObj) : Prop :=
  ∀ p, Denotes fromString purl p → slash ∉ p.type ∧ slash ∉ p.name

theorem SlashFree.not_resplits {purl purl' : PyObj} (h : SlashFree fromString purl)
    (h' : SlashFree fromString purl') : ¬ Resplits fromString purl purl' := by
  intro hresplits
  obtain ⟨p, q, hp, hq, hresplit⟩ := hresplits
  obtain ⟨ht, hn⟩ := h p hp
  obtain ⟨ht', hn'⟩ := h' q hq
  rcases hresplit.slash_mem with hmem | hmem | hmem | hmem
  · exact ht hmem
  · exact ht' hmem
  · exact hn hmem
  · exact hn' hmem

/-- The answers of a history are about packages.  There is no false negative.  A false
positive splits the segments of another package in two ways, and there is none if neither
the query nor the collections have slashes in types and names. -/
theorem answers_exact_of_slashFree (hd : d.Exact)
    (hrun : Run (Step fromString d) (World.start fs₀) es world) {v : PurlValidator} {purl : PyObj}
    {result : Except Exn Bool} (hpurl : Acceptable fromString purl)
    (h : .validatePurl v purl result ∈ es) :
    ∃ purls, (v.purlMap.location, purls) ∈ built es ∧
      ((∃ purl' ∈ purls, SamePackage fromString purl' purl) → result = .ok true) ∧
      (result = .ok true → ∃ purl' ∈ purls,
        SamePackage fromString purl' purl ∨ Resplits fromString purl' purl) ∧
      (SlashFree fromString purl → (∀ purl' ∈ purls, SlashFree fromString purl') →
        (result = .ok true ↔ ∃ purl' ∈ purls, SamePackage fromString purl' purl)) := by
  obtain ⟨purls, hmem, hok, -⟩ := result_of_run hd hrun h
  obtain ⟨k, hk⟩ := exists_createPurlMapEntry_iff.mpr hpurl
  obtain ⟨b, hb, hiff⟩ := hok k hk
  have hanswer : result = .ok true ↔ ∃ purl' ∈ purls,
      SamePackage fromString purl' purl ∨ Resplits fromString purl' purl := by
    rw [hb, Except.ok.injEq, hiff, mem_keys_iff (acceptable_of_built hd hrun hmem) hk]
  refine ⟨purls, hmem, fun hsame => ?_, hanswer.mp, fun hfree hfrees => ?_⟩
  · obtain ⟨purl', hpurl', hsame⟩ := hsame
    exact hanswer.mpr ⟨purl', hpurl', Or.inl hsame⟩
  · rw [hanswer]
    refine exists_congr fun purl' => and_congr_right fun hpurl' => or_iff_left ?_
    exact (hfrees purl' hpurl').not_resplits hfree

end Histories

/-! ### Asked twice

The validator of the short history is asked for the scoped package as a string and then
as an object. -/

def askedTwice : List Event :=
  shortHistory ++ [.validatePurl ⟨⟨purlsMap tmpDir⟩⟩ (.packageURL scopedCore) (.ok true)]

theorem askedTwice_run :
    Run (Step npmParser Ducer.listed) (World.start FileSystem.bare) askedTwice shortWorld :=
  shortHistory_run.snoc (.validatePurl List.mem_cons_self (by decide))

theorem mem_askedTwice_packageURL :
    .validatePurl ⟨⟨purlsMap tmpDir⟩⟩ (.packageURL scopedCore) (.ok true) ∈ askedTwice :=
  List.mem_append_right _ List.mem_cons_self

theorem answers_exact_of_slashFree_askedTwice :
    ∃ purls, (purlsMap tmpDir, purls) ∈ built askedTwice ∧
      (SlashFree npmParser (.packageURL scopedCore) →
        (∀ purl' ∈ purls, SlashFree npmParser purl') →
        ((.ok true : Except Exn Bool) = .ok true ↔
          ∃ purl' ∈ purls, SamePackage npmParser purl' (.packageURL scopedCore))) := by
  obtain ⟨purls, hmem, -, -, hexact⟩ := answers_exact_of_slashFree Ducer.listed_exact
    askedTwice_run acceptable_scopedCore_object mem_askedTwice_packageURL
  exact ⟨purls, hmem, hexact⟩

/-! ## What the answers tell -/

section Listings

variable (d : Ducer)

/-- `purl_map.items()`. -/
def LoadedMap.items (m : LoadedMap) (fs : FileSystem d.Image) :
    Except Exn (List (Bytes × Nat)) :=
  match fs.files.lookup m.location with
  | none => .error (.fileNotFoundError m.location)
  | some image => .ok (d.items image)

/-- The items of `PurlValidator.load_map(create_purl_map(purls))`. -/
def itemsIn (fromString : Str → Except Exn PackageURL) (w : SetWalk Bytes)
    (getTempDir : FileSystem d.Image → Path × FileSystem d.Image) (purls : List PyObj)
    (fs : FileSystem d.Image) : Except Exn (List (Bytes × Nat)) :=
  match createPurlMap fromString w d getTempDir purls fs with
  | (.error e, _) => .error e
  | (.ok mapLoc, fs₁) => do
      let purlMap ← loadMap d mapLoc fs₁
      purlMap.items d fs₁

end Listings

section Tell

variable {fromString : Str → Except Exn PackageURL} {w w' : SetWalk Bytes} {d : Ducer}
  {getTempDir getTempDir' : FileSystem d.Image → Path × FileSystem d.Image}
  {purls purls' : List PyObj} {fs fs' : FileSystem d.Image}

/-- The items of a new index enumerate the keys of the collection. -/
theorem itemsIn_eq_ok (hd : d.Exact) (htemp : MakesTempDir getTempDir fs)
    (hpurls : ∀ purl ∈ purls, Acceptable fromString purl) :
    ∃ items, itemsIn d fromString w getTempDir purls fs = .ok items ∧
      Enumerates items (keys fromString purls) := by
  obtain ⟨image, fs₁, hcall, hholds, -, hfiles⟩ := createPurlMap_ok (w := w) hd htemp hpurls
  have hfile : fs₁.files.lookup (purlsMap (getTempDir fs).1) = some image := by
    rw [hfiles, AList.lookup_insert]
  refine ⟨d.items image, ?_, hholds.items⟩
  simp only [itemsIn, hcall, loadMap_eq_ok hfile hholds]
  show LoadedMap.items d ⟨purlsMap (getTempDir fs).1⟩ fs₁ = _
  rw [LoadedMap.items, hfile]

/-- No PURL tells two indexes apart exactly if they list the same items. -/
theorem existsIn_eq_iff (hd : d.Exact) (htemp : MakesTempDir getTempDir fs)
    (htemp' : MakesTempDir getTempDir' fs')
    (hpurls : ∀ purl ∈ purls, Acceptable fromString purl)
    (hpurls' : ∀ purl ∈ purls', Acceptable fromString purl) :
    (∀ purl, Acceptable fromString purl →
        existsIn fromString w d getTempDir purls purl fs =
          existsIn fromString w' d getTempDir' purls' purl fs') ↔
      itemsIn d fromString w getTempDir purls fs =
        itemsIn d fromString w' getTempDir' purls' fs' := by
  obtain ⟨items, hitems, henum⟩ := itemsIn_eq_ok (w := w) hd htemp hpurls
  obtain ⟨items', hitems', henum'⟩ := itemsIn_eq_ok (w := w') hd htemp' hpurls'
  rw [hitems, hitems', Except.ok.injEq, henum.eq_iff henum']
  have hanswer : ∀ {purl k}, createPurlMapEntry fromString purl = .ok k →
      (existsIn fromString w d getTempDir purls purl fs =
          existsIn fromString w' d getTempDir' purls' purl fs' ↔
        (k ∈ keys fromString purls ↔ k ∈ keys fromString purls')) := by
    intro purl k hk
    obtain ⟨b, hb, hiff⟩ := existsIn_eq_ok (w := w) hd htemp hpurls hk
    obtain ⟨b', hb', hiff'⟩ := existsIn_eq_ok (w := w') hd htemp' hpurls' hk
    rw [hb, hb', Except.ok.injEq, Bool.eq_iff_iff, hiff, hiff']
  constructor
  · intro hsame
    -- a key on one side is the entry of a PURL, and that PURL tells whether the other has it
    ext k
    constructor
    · intro hmem
      obtain ⟨purl, hpurl, hk⟩ := hmem
      exact ((hanswer hk).mp (hsame purl (hpurls purl hpurl))).mp ⟨purl, hpurl, hk⟩
    · intro hmem
      obtain ⟨purl, hpurl, hk⟩ := hmem
      exact ((hanswer hk).mp (hsame purl (hpurls' purl hpurl))).mpr ⟨purl, hpurl, hk⟩
  · intro hkeys purl hpurl
    obtain ⟨k, hk⟩ := exists_createPurlMapEntry_iff.mpr hpurl
    exact (hanswer hk).mpr (by rw [hkeys])

end Tell

/-- The scoped package as a string and as an object make indexes that nothing tells apart. -/
theorem existsIn_eq_iff_scopedCore :
    (∀ purl, Acceptable npmParser purl →
        existsIn npmParser SetWalk.byInsertion Ducer.listed (tempDirAt tmpDir) scopedPurls purl
            FileSystem.bare =
          existsIn npmParser SetWalk.byInsertion Ducer.listed (tempDirAt tmpDir)
            [.packageURL scopedCore] purl FileSystem.bare) ↔
      itemsIn Ducer.listed npmParser SetWalk.byInsertion (tempDirAt tmpDir) scopedPurls
          FileSystem.bare =
        itemsIn Ducer.listed npmParser SetWalk.byInsertion (tempDirAt tmpDir)
          [.packageURL scopedCore] FileSystem.bare :=
  existsIn_eq_iff Ducer.listed_exact makesTempDir_bare makesTempDir_bare
    (List.forall_mem_singleton.mpr acceptable_scopedCore)
    (List.forall_mem_singleton.mpr acceptable_scopedCore_object)

end Purl
