import PurlValidator.Index.Build
import Mathlib.Data.List.AList
import Mathlib.Data.List.Infix

/-!
# Building, loading and asking an index

`create_purl_map` writes the index into a new temporary directory,
`PurlValidator` maps the file into memory and `validate_purl` looks a PURL up.

The state is a `FileSystem`, its directories and its files.  `fileutils.get_temp_dir`
of `commoncode` is not in this repository.  It is an argument, `getTempDir`, and
`MakesTempDir` is what it documents: it makes a directory that is new, with the parents
that are missing.  A mapping of a file is a reference to it: a lookup reads what the file
holds at that time.  `create_purl_map` is given as a function from the file system before
the call to its result and the file system after, whether it returns or raises.

`createPurlMap_ok` and `createPurlMap_error` are all that a call can do.
`validatePurl_eq` is what an answer means.
-/

namespace Purl

open Py (Str)
open Utf8 (Bytes)

/-! ## The file system -/

/-- Directories, and files with their contents.  What a directory or a file is in, is a
directory. -/
structure FileSystem (χ : Type) where
  dirs : List Path
  files : AList fun _ : Path => χ
  nodup : dirs.Nodup
  dir_parent : ∀ {dir}, dir ∈ dirs → dir.dropLast ∈ dirs
  file_parent : ∀ {loc}, loc ∈ files → loc.dropLast ∈ dirs
  file_not_dir : ∀ {loc}, loc ∈ files → loc ∉ dirs

namespace FileSystem

variable {χ : Type} {fs : FileSystem χ} {dir loc : Path}

/-- A directory exists at the location. -/
def IsDir (fs : FileSystem χ) (loc : Path) : Prop := loc ∈ fs.dirs

instance (fs : FileSystem χ) (loc : Path) : Decidable (fs.IsDir loc) :=
  inferInstanceAs (Decidable (loc ∈ fs.dirs))

/-- A file or directory exists at the location. -/
def Exists (fs : FileSystem χ) (loc : Path) : Prop := loc ∈ fs.dirs ∨ loc ∈ fs.files

instance (fs : FileSystem χ) (loc : Path) : Decidable (fs.Exists loc) :=
  inferInstanceAs (Decidable (loc ∈ fs.dirs ∨ loc ∈ fs.files))

/-- A file can be opened for writing: its directory exists and it is none itself. -/
def Writable (fs : FileSystem χ) (loc : Path) : Prop := loc.dropLast ∈ fs.dirs ∧ loc ∉ fs.dirs

instance (fs : FileSystem χ) (loc : Path) : Decidable (fs.Writable loc) :=
  inferInstanceAs (Decidable (loc.dropLast ∈ fs.dirs ∧ loc ∉ fs.dirs))

theorem mem_files_iff : loc ∈ fs.files ↔ ∃ content, fs.files.lookup loc = some content := by
  rw [← AList.lookup_isSome, Option.isSome_iff_exists]

theorem mem_files_congr {fs' : FileSystem χ} (h : fs'.files.lookup loc = fs.files.lookup loc) :
    loc ∈ fs'.files ↔ loc ∈ fs.files := by
  rw [mem_files_iff, mem_files_iff, h]

/-! ### Trees -/

/-- What is in a directory is not on the way to it. -/
theorem not_concat_prefix (dir : Path) (s : Str) : ¬ dir ++ [s] <+: dir := by
  intro hpre
  have hlength := hpre.length_le
  rw [List.length_append, List.length_singleton] at hlength
  omega

theorem root_not_file : [] ∉ fs.files := fun h => fs.file_not_dir h (fs.file_parent h)

/-- A directory with something below it exists. -/
theorem mem_dirs_of_prefix_of_mem (hpre : dir <+: loc) (hloc : loc ∈ fs.dirs) : dir ∈ fs.dirs := by
  induction loc using List.reverseRecOn with
  | nil =>
      rw [List.prefix_nil.mp hpre]
      exact hloc
  | append_singleton loc s ih =>
      rcases List.prefix_concat_iff.mp hpre with heq | hpre
      · rw [heq]
        exact hloc
      · refine ih hpre ?_
        have hparent := fs.dir_parent hloc
        rwa [List.dropLast_concat] at hparent

theorem prefix_dropLast_of_ne (hpre : dir <+: loc) (hne : dir ≠ loc) : dir <+: loc.dropLast := by
  obtain ⟨rest, rfl⟩ := hpre
  have hrest : rest ≠ [] := fun hnil => hne (by rw [hnil, List.append_nil])
  rw [List.dropLast_append_of_ne_nil hrest]
  exact List.prefix_append _ _

/-- Below a free name there is nothing. -/
theorem exists_of_prefix_of_exists (hpre : dir <+: loc) (hloc : fs.Exists loc) : fs.Exists dir := by
  by_cases heq : dir = loc
  · exact heq ▸ hloc
  · cases hloc with
    | inl hloc => exact Or.inl (mem_dirs_of_prefix_of_mem hpre hloc)
    | inr hloc =>
        exact Or.inl (mem_dirs_of_prefix_of_mem (prefix_dropLast_of_ne hpre heq) (fs.file_parent hloc))

/-! ### Making directories -/

theorem nodup_inits (path : Path) : path.inits.Nodup := by
  induction path with
  | nil => exact List.nodup_singleton _
  | cons s path ih =>
      rw [List.inits_cons]
      refine List.nodup_cons.mpr ⟨by simp, ih.map fun _ _ h => (List.cons.inj h).2⟩

/-- Make a directory with the parents that are missing, where no file is in the way. -/
def makeDirs (fs : FileSystem χ) (dir : Path) (h : ∀ p ∈ dir.inits, p ∉ fs.files) :
    FileSystem χ where
  dirs := (dir.inits.filter fun p => ¬ fs.IsDir p) ++ fs.dirs
  files := fs.files
  nodup := by
    refine ((nodup_inits dir).filter _).append fs.nodup fun p hp hmem => ?_
    exact of_decide_eq_true (List.mem_filter.mp hp).2 hmem
  dir_parent := by
    intro d hd
    by_cases hparent : d.dropLast ∈ fs.dirs
    · exact List.mem_append_right _ hparent
    · rcases List.mem_append.mp hd with hd | hd
      · have hpre := (List.mem_inits _ _).mp (List.mem_of_mem_filter hd)
        exact List.mem_append_left _ (List.mem_filter.mpr
          ⟨(List.mem_inits _ _).mpr ((List.dropLast_prefix d).trans hpre),
            decide_eq_true hparent⟩)
      · exact absurd (fs.dir_parent hd) hparent
  file_parent hloc := List.mem_append_right _ (fs.file_parent hloc)
  file_not_dir := by
    intro loc hloc hmem
    rcases List.mem_append.mp hmem with hmem | hmem
    · exact h loc (List.mem_of_mem_filter hmem) hloc
    · exact fs.file_not_dir hloc hmem

/-- The directory exists, with its parents, and no more has changed than that. -/
structure Made (dir : Path) (fs fs' : FileSystem χ) : Prop where
  mem_dirs : ∀ p, p ∈ fs'.dirs ↔ p ∈ fs.dirs ∨ p <+: dir
  files_eq : fs'.files = fs.files

/-- Making directories adds those that were missing. -/
theorem made_makeDirs (h : ∀ p ∈ dir.inits, p ∉ fs.files) : Made dir fs (fs.makeDirs dir h) where
  mem_dirs p := by
    rw [makeDirs, List.mem_append, List.mem_filter, List.mem_inits, decide_eq_true_iff]
    constructor
    · rintro (⟨hpre, -⟩ | hp)
      · exact Or.inr hpre
      · exact Or.inl hp
    · intro hp
      by_cases hmem : p ∈ fs.dirs
      · exact Or.inr hmem
      · exact Or.inl ⟨hp.resolve_left hmem, hmem⟩
  files_eq := rfl

theorem Made.dir_mem {fs' : FileSystem χ} (h : Made dir fs fs') : dir ∈ fs'.dirs :=
  (h.mem_dirs dir).mpr (Or.inr List.prefix_rfl)

/-! ### Reading and writing -/

/-- Write a file. -/
def write (fs : FileSystem χ) (loc : Path) (content : χ) (h : fs.Writable loc) :
    FileSystem χ where
  dirs := fs.dirs
  files := fs.files.insert loc content
  nodup := fs.nodup
  dir_parent := fs.dir_parent
  file_parent hloc := by
    cases (AList.mem_insert _).mp hloc with
    | inl heq => exact heq ▸ h.1
    | inr hmem => exact fs.file_parent hmem
  file_not_dir hloc := by
    cases (AList.mem_insert _).mp hloc with
    | inl heq => exact heq ▸ h.2
    | inr hmem => exact fs.file_not_dir hmem

/-- Why a file cannot be opened. -/
def openError (fs : FileSystem χ) (loc : Path) : Exn :=
  if fs.IsDir loc then .isADirectoryError loc
  else if ∃ p ∈ loc.dropLast.inits, p ∈ fs.files then .notADirectoryError loc
  else .fileNotFoundError loc

/-- Open a file and read it. -/
def readFile (fs : FileSystem χ) (loc : Path) : Except Exn χ :=
  match fs.files.lookup loc with
  | some content => .ok content
  | none => .error (fs.openError loc)

/-- Open a file for writing and write it. -/
def writeFile (loc : Path) (content : χ) (fs : FileSystem χ) : Except Exn Unit × FileSystem χ :=
  if h : fs.Writable loc then (.ok (), fs.write loc content h) else (.error (fs.openError loc), fs)

/-- Where `shutil.copy2` copies to: into a directory, under the name of the source. -/
def copyTarget (fs : FileSystem χ) (src dst : Path) : Path :=
  if fs.IsDir dst then dst ++ src.getLast?.toList else dst

/-- `shutil.copy2(src, dst)`. -/
def copy2 (src dst : Path) (fs : FileSystem χ) : Except Exn Unit × FileSystem χ :=
  if fs.Exists src ∧ src = fs.copyTarget src dst then (.error (.sameFileError src), fs)
  else
    match fs.readFile src with
    | .error e => (.error e, fs)
    | .ok content => writeFile (fs.copyTarget src dst) content fs

theorem writeFile_eq {content : χ} (h : fs.Writable loc) :
    writeFile loc content fs = (.ok (), fs.write loc content h) :=
  dif_pos h

theorem copyTarget_eq {src dst : Path} (h : dst ∉ fs.dirs) : fs.copyTarget src dst = dst :=
  if_neg h

theorem prefix_copyTarget {src dst : Path} : dst <+: fs.copyTarget src dst := by
  rw [copyTarget]
  split
  · exact List.prefix_append _ _
  · exact List.prefix_rfl

/-- A copy that is not into a directory. -/
theorem copy2_eq {src dst : Path} {content : χ} (hsrc : fs.files.lookup src = some content)
    (hne : src ≠ dst) (hdst : fs.Writable dst) :
    copy2 src dst fs = (.ok (), fs.write dst content hdst) := by
  rw [copy2, copyTarget_eq hdst.2, if_neg fun h => hne h.2, readFile, hsrc]
  exact writeFile_eq hdst

/-- A copy that returned has read a file and written it. -/
theorem exists_of_copy2_eq_ok {src dst : Path} {fs' : FileSystem χ}
    (h : copy2 src dst fs = (.ok (), fs')) :
    ∃ content, ∃ hdst : fs.Writable (fs.copyTarget src dst),
      fs.files.lookup src = some content ∧ fs' = fs.write (fs.copyTarget src dst) content hdst := by
  rw [copy2, readFile] at h
  split at h
  · cases h
  · cases hsrc : fs.files.lookup src with
    | none =>
        rw [hsrc] at h
        cases h
    | some content =>
        simp only [hsrc, writeFile] at h
        split at h
        · case isTrue hdst =>
            cases h
            exact ⟨content, hdst, rfl, rfl⟩
        · cases h

/-- A new machine, with a root directory and `/tmp`. -/
def bare : FileSystem χ where
  dirs := [[Str.lit "tmp"], []]
  files := ∅
  nodup := by decide
  dir_parent := by decide
  file_parent h := absurd h (AList.notMem_empty _)
  file_not_dir h := absurd h (AList.notMem_empty _)

end FileSystem

/-! ## Temporary directories -/

section TempDir

variable {χ : Type} {getTempDir : FileSystem χ → Path × FileSystem χ} {fs : FileSystem χ}

/-- What `fileutils.get_temp_dir` does: it makes a directory that is new, with the parents that
are missing, and returns it. -/
structure MakesTempDir (getTempDir : FileSystem χ → Path × FileSystem χ) (fs : FileSystem χ) :
    Prop where
  not_exists : ¬ fs.Exists (getTempDir fs).1
  made : FileSystem.Made (getTempDir fs).1 fs (getTempDir fs).2

/-- The one that makes the directory `tmp`. -/
def tempDirAt (tmp : Path) (fs : FileSystem χ) : Path × FileSystem χ :=
  if h : ∀ p ∈ tmp.inits, p ∉ fs.files then (tmp, fs.makeDirs tmp h) else (tmp, fs)

theorem tempDirAt_fst (tmp : Path) (fs : FileSystem χ) : (tempDirAt tmp fs).1 = tmp := by
  rw [tempDirAt]
  split
  · rfl
  · rfl

/-- A name that is free may be the one that is chosen. -/
theorem makesTempDir_tempDirAt {tmp : Path} (hnew : ¬ fs.Exists tmp)
    (hfiles : ∀ p ∈ tmp.inits, p ∉ fs.files) : MakesTempDir (tempDirAt tmp) fs := by
  refine ⟨(tempDirAt_fst tmp fs).symm ▸ hnew, ?_⟩
  rw [tempDirAt, dif_pos hfiles]
  exact FileSystem.made_makeDirs hfiles

/-- A name that `get_temp_dir` may choose. -/
def tmpDir : Path := [Str.lit "tmp", Str.lit "scancode-tk-0"]

theorem makesTempDir_bare : MakesTempDir (tempDirAt tmpDir) (FileSystem.bare : FileSystem χ) := by
  have hdirs : tmpDir ∉ [[Str.lit "tmp"], []] := by decide
  have hfiles : ∀ p, p ∉ (FileSystem.bare : FileSystem χ).files := fun p => AList.notMem_empty p
  exact makesTempDir_tempDirAt (fun hex => hex.elim hdirs (hfiles _)) fun p _ => hfiles p

/-- `directory / "purls.map"`. -/
def purlsMap (dir : Path) : Path := dir ++ [Str.lit "purls.map"]

@[simp] theorem dropLast_purlsMap (dir : Path) : (purlsMap dir).dropLast = dir :=
  List.dropLast_concat

/-- There is no map file in a directory that is new. -/
theorem not_exists_purlsMap {dir : Path} (hnew : ¬ fs.Exists dir) : ¬ fs.Exists (purlsMap dir) :=
  fun hex => hnew (FileSystem.exists_of_prefix_of_exists (List.prefix_append _ _) hex)

/-- The map file can be written into the directory. -/
theorem MakesTempDir.writable (h : MakesTempDir getTempDir fs) :
    (getTempDir fs).2.Writable (purlsMap (getTempDir fs).1) := by
  refine ⟨(dropLast_purlsMap _).symm ▸ h.made.dir_mem, fun hmem => ?_⟩
  rcases (h.made.mem_dirs _).mp hmem with hmem | hpre
  · exact not_exists_purlsMap h.not_exists (Or.inl hmem)
  · exact FileSystem.not_concat_prefix _ _ hpre

end TempDir

/-- `PURL_MAP_LOCATION`, the index shipped in the directory of the package. -/
def purlMapLocation (packageDir : Path) : Path := purlsMap packageDir

/-! ## The program -/

section Program

variable (fromString : Str → Except Exn PackageURL) (w : SetWalk Bytes) (d : Ducer)
  (getTempDir : FileSystem d.Image → Path × FileSystem d.Image)

/-- `ducer.Map.build(loc, items)`. -/
def Ducer.buildMap (loc : Path) (items : List (Bytes × Nat)) (fs : FileSystem d.Image) :
    Except Exn Unit × FileSystem d.Image :=
  match FileSystem.writeFile loc (d.build items).1 fs with
  | (.error e, fs₁) => (.error e, fs₁)
  | (.ok (), fs₁) => ((d.build items).2, fs₁)

/-- `create_purl_map`.  An exception does not undo the side effects before it. -/
def createPurlMap (purls : List PyObj) (fs : FileSystem d.Image) :
    Except Exn Path × FileSystem d.Image :=
  match preparedPurlMapEntries fromString w purls with
  | .error e => (.error e, fs)
  | .ok prepared =>
      let (tempDir, fs₁) := getTempDir fs
      let mapLoc := purlsMap tempDir
      match d.buildMap mapLoc prepared fs₁ with
      | (.error e, fs₂) => (.error e, fs₂)
      | (.ok (), fs₂) => (.ok mapLoc, fs₂)

/-- A `ducer.Map` on a file mapped into memory. -/
structure LoadedMap where
  location : Path
deriving DecidableEq

/-- `PurlValidator.load_map`.  An empty file cannot be mapped. -/
def loadMap (location : Path) (fs : FileSystem d.Image) : Except Exn LoadedMap := do
  let image ← fs.readFile location
  if d.size image = 0 then .error (.valueError (Str.lit "cannot mmap an empty file"))
  else
    d.check image
    return ⟨location⟩

/-- A `PurlValidator`. -/
structure PurlValidator where
  purlMap : LoadedMap
deriving DecidableEq

/-- `PurlValidator(purl_map_loc)`. -/
def PurlValidator.init (purlMapLoc : Path) (fs : FileSystem d.Image) : Except Exn PurlValidator :=
  (loadMap d purlMapLoc fs).map PurlValidator.mk

/-- `bool(value)` of the value that a lookup found, or of `None`. -/
def truth : Option Nat → Bool
  | none => false
  | some v => v != 0

/-- `validate_purl`. -/
def PurlValidator.validatePurl (v : PurlValidator) (purl : PyObj) (fs : FileSystem d.Image) :
    Except Exn Bool := do
  let purlMapEntry ← createPurlMapEntry fromString purl
  match fs.files.lookup v.purlMap.location with
  | none => .error (.fileNotFoundError v.purlMap.location)
  | some image => .ok (truth (d.get image purlMapEntry))

end Program

/-! ## What a map file holds -/

/-- The file can be loaded and is an exact map that sends the keys `K` to 1. -/
structure Holds (d : Ducer) (image : d.Image) (K : Set Bytes) : Prop where
  size_pos : 0 < d.size image
  check_ok : d.check image = .ok ()
  items : Enumerates (d.items image) K
  get_iff : ∀ k v, d.get image k = some v ↔ v = 1 ∧ k ∈ K

theorem holds_build {d : Ducer} (hd : d.Exact) {items : List (Bytes × Nat)} {K : Set Bytes}
    (h : Enumerates items K) : Holds d (d.build items).1 K := by
  have hb := hd.build_ok h.buildable
  refine ⟨hd.size_pos hb, hd.check_ok hb, ?_, fun k v => ?_⟩
  · rw [hd.items_eq hb]
    exact h
  · rw [hd.get_eq hb]
    exact h.mk_mem_iff

variable {fromString : Str → Except Exn PackageURL} {w : SetWalk Bytes} {d : Ducer}

/-- A lookup is true exactly on the keys. -/
theorem Holds.truth_get_iff {image : d.Image} {K : Set Bytes} (h : Holds d image K) {k : Bytes} :
    truth (d.get image k) = true ↔ k ∈ K := by
  cases hget : d.get image k with
  | none =>
      have hnot : k ∉ K := fun hk => by
        have hsome := (h.get_iff k 1).mpr ⟨rfl, hk⟩
        rw [hget] at hsome
        cases hsome
      simp [truth, hnot]
  | some v =>
      obtain ⟨hv, hk⟩ := (h.get_iff k v).mp hget
      subst hv
      simp [truth, hk]

/-! ## What the calls do -/

theorem buildMap_eq {fs : FileSystem d.Image} {loc : Path} {items : List (Bytes × Nat)}
    (h : fs.Writable loc) :
    d.buildMap loc items fs = ((d.build items).2, fs.write loc (d.build items).1 h) := by
  rw [Ducer.buildMap, FileSystem.writeFile_eq h]

section Calls

variable {getTempDir : FileSystem d.Image → Path × FileSystem d.Image} {purls : List PyObj}
  {fs : FileSystem d.Image}

/-- If some PURL is not acceptable, the call raises before it touches the file system. -/
theorem createPurlMap_error (h : ∃ purl ∈ purls, ¬ Acceptable fromString purl) :
    ∃ e, createPurlMap fromString w d getTempDir purls fs = (.error e, fs) := by
  cases hp : preparedPurlMapEntries fromString w purls with
  | error e => exact ⟨e, by simp only [createPurlMap, hp]⟩
  | ok items =>
      obtain ⟨purl, hmem, hnot⟩ := h
      exact absurd ((exists_prepared_iff (w := w)).mp ⟨items, hp⟩ purl hmem) hnot

/-- Otherwise it makes a directory and has the builder write a file into it. -/
theorem createPurlMap_eq {items : List (Bytes × Nat)} (htemp : MakesTempDir getTempDir fs)
    (hprep : preparedPurlMapEntries fromString w purls = .ok items) :
    ∃ fs', createPurlMap fromString w d getTempDir purls fs =
        ((d.build items).2.map fun _ => purlsMap (getTempDir fs).1, fs') ∧
      fs'.dirs = (getTempDir fs).2.dirs ∧
      fs'.files = fs.files.insert (purlsMap (getTempDir fs).1) (d.build items).1 := by
  refine ⟨(getTempDir fs).2.write _ (d.build items).1 htemp.writable, ?_, rfl, ?_⟩
  · simp only [createPurlMap, hprep, buildMap_eq htemp.writable]
    cases (d.build items).2 with
    | error e => rfl
    | ok _ => rfl
  · rw [← htemp.made.files_eq]
    rfl

/-- If every PURL is acceptable, the call makes one directory, writes one file into it
that holds the keys of the PURLs, and returns the location of the file. -/
theorem createPurlMap_ok (hd : d.Exact) (htemp : MakesTempDir getTempDir fs)
    (h : ∀ purl ∈ purls, Acceptable fromString purl) :
    ∃ image fs', createPurlMap fromString w d getTempDir purls fs =
        (.ok (purlsMap (getTempDir fs).1), fs') ∧
      Holds d image (keys fromString purls) ∧ fs'.dirs = (getTempDir fs).2.dirs ∧
      fs'.files = fs.files.insert (purlsMap (getTempDir fs).1) image := by
  obtain ⟨items, hprep⟩ := (exists_prepared_iff (w := w)).mpr h
  have henum := enumerates_of_prepared hprep
  obtain ⟨fs', hcall, hdirs, hfiles⟩ := createPurlMap_eq (d := d) htemp hprep
  rw [hd.build_ok henum.buildable] at hcall
  exact ⟨(d.build items).1, fs', hcall, holds_build hd henum, hdirs, hfiles⟩

/-- A call raises exactly when some PURL is not acceptable. -/
theorem createPurlMap_error_iff (hd : d.Exact) (htemp : MakesTempDir getTempDir fs) :
    (∃ e, (createPurlMap fromString w d getTempDir purls fs).1 = .error e) ↔
      ∃ purl ∈ purls, ¬ Acceptable fromString purl := by
  by_cases h : ∀ purl ∈ purls, Acceptable fromString purl
  · obtain ⟨image, fs', hcall, -⟩ := createPurlMap_ok (w := w) hd htemp h
    rw [hcall]
    simp only [reduceCtorEq, exists_false, false_iff, not_exists, not_and, not_not]
    exact h
  · simp only [not_forall, exists_prop] at h
    obtain ⟨e, hcall⟩ : ∃ e, createPurlMap fromString w d getTempDir purls fs = (.error e, fs) :=
      createPurlMap_error h
    rw [hcall]
    exact ⟨fun _ => h, fun _ => ⟨e, rfl⟩⟩

/-- A file that holds keys can be loaded. -/
theorem loadMap_eq_ok {loc : Path} {image : d.Image} {K : Set Bytes}
    (hfile : fs.files.lookup loc = some image) (h : Holds d image K) :
    loadMap d loc fs = .ok ⟨loc⟩ := by
  have hsize : d.size image ≠ 0 := Nat.pos_iff_ne_zero.mp h.size_pos
  simp only [loadMap, FileSystem.readFile, hfile]
  show (if _ then _ else _) = _
  rw [if_neg hsize, h.check_ok]
  rfl

theorem init_eq_ok {loc : Path} {image : d.Image} {K : Set Bytes}
    (hfile : fs.files.lookup loc = some image) (h : Holds d image K) :
    PurlValidator.init d loc fs = .ok ⟨⟨loc⟩⟩ := by
  rw [PurlValidator.init, loadMap_eq_ok hfile h]
  rfl

/-- Loading depends on nothing but the file. -/
theorem init_congr {fs' : FileSystem d.Image} {loc : Path} (hloc : loc ∈ fs.files)
    (h : fs'.files.lookup loc = fs.files.lookup loc) :
    PurlValidator.init d loc fs' = PurlValidator.init d loc fs := by
  obtain ⟨image, himage⟩ := FileSystem.mem_files_iff.mp hloc
  simp only [PurlValidator.init, loadMap, FileSystem.readFile, h, himage]

/-- An acceptable PURL is answered by whether its entry is among the keys of the file. -/
theorem validatePurl_eq {v : PurlValidator} {image : d.Image} {K : Set Bytes} {purl : PyObj}
    {k : Bytes} (hfile : fs.files.lookup v.purlMap.location = some image) (h : Holds d image K)
    (hk : createPurlMapEntry fromString purl = .ok k) :
    ∃ b, v.validatePurl fromString d purl fs = .ok b ∧ (b = true ↔ k ∈ K) := by
  refine ⟨truth (d.get image k), ?_, h.truth_get_iff⟩
  simp only [PurlValidator.validatePurl, hk, hfile]
  rfl

/-- Any other argument raises. -/
theorem validatePurl_error {v : PurlValidator} {purl : PyObj}
    (h : ¬ Acceptable fromString purl) : ∃ e, v.validatePurl fromString d purl fs = .error e := by
  obtain ⟨e, he⟩ := exists_createPurlMapEntry_error_iff.mpr h
  refine ⟨e, ?_⟩
  simp only [PurlValidator.validatePurl, he]
  rfl

end Calls

end Purl
