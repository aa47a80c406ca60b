import PurlValidator.Bench.Loaders
import PurlValidator.Bench.Processes
import PurlValidator.Index.Cleanup
import PurlValidator.Lib.Scripts

/-!
# Copying the data files

The Rust and the Go library build their indexes from a directory below their own, so
`go-rust-py_benchmark.py` copies the text files of the catalog there first.  It removes the
target with all that is in it, makes it again with its parents, and copies the files one by
one.

`catalogs_copyDataFiles` says that the loaders find in the copy what they find in the catalog,
and that outside of the target no file is touched.  This asks that the catalog is not below
the target: if it is, it is removed before it is copied, and no error is raised
(`copyDataFiles_removes`).

Locations are absolute and have no links in them, so `resolve` is the identity.
-/

namespace Bench

open Py (Str)
open Purl (Exn Path FileSystem)

/-! ## The program -/

section Program

variable {χ : Type}

/-- `if dir.exists(): shutil.rmtree(dir)`. -/
def removeExisting (dir : Path) (fs : FileSystem χ) : Except ScriptExn Unit × FileSystem χ :=
  if ¬ fs.Exists dir then (.ok (), fs)
  else if dir ∈ fs.files then (.error (.exn (.notADirectoryError dir)), fs)
  else (.ok (), fs.rmtree dir)

/-- `dir.mkdir(parents=True)`. -/
def mkdirParents (dir : Path) (fs : FileSystem χ) : Except ScriptExn Unit × FileSystem χ :=
  if fs.Exists dir then (.error (.exn (.fileExistsError dir)), fs)
  else if h : ∀ p ∈ dir.inits, p ∉ fs.files then (.ok (), fs.makeDirs dir h)
  else (.error (.exn (.notADirectoryError dir)), fs)

/-- The name of a path in a directory. -/
def nameIn (dir p : Path) : Option Str := if p.dropLast = dir then p.getLast? else none

/-- The names of `sorted(dir.glob("*.txt"))`, also of directories. -/
def globTxt (dir : Path) (fs : FileSystem χ) : List Str :=
  (((fs.dirs ++ fs.files.keys).filterMap (nameIn dir)).filter fun name =>
    MatchesTxt name).insertionSort (· ≤ ·)

/-- `shutil.copy2(source, target)`. -/
def copyFile (source target : Path) (fs : FileSystem χ) : Except ScriptExn Unit × FileSystem χ :=
  ((FileSystem.copy2 source target fs).1.mapError .exn, (FileSystem.copy2 source target fs).2)

/-- The loop of `copy_data_files`. -/
def copyFiles (dataDir targetDir : Path) :
    List Str → FileSystem χ → Except ScriptExn Unit × FileSystem χ
  | [], fs => (.ok (), fs)
  | name :: names, fs =>
      match copyFile (dataDir ++ [name]) (targetDir ++ [name]) fs with
      | (.error e, fs₁) => (.error e, fs₁)
      | (.ok (), fs₁) => copyFiles dataDir targetDir names fs₁

/-- `copy_data_files`. -/
def copyDataFiles (dataDir targetDir : Path) (fs : FileSystem χ) :
    Except ScriptExn Unit × FileSystem χ :=
  if dataDir = targetDir then (.ok (), fs)
  else
    match removeExisting targetDir fs with
    | (.error e, fs₁) => (.error e, fs₁)
    | (.ok (), fs₁) =>
        match mkdirParents targetDir fs₁ with
        | (.error e, fs₂) => (.error e, fs₂)
        | (.ok (), fs₂) => copyFiles dataDir targetDir (globTxt dataDir fs₂) fs₂

/-- The text files of a directory, by their names. -/
def textFiles (dir : Path) (fs : FileSystem χ) (name : Str) : Option χ :=
  if MatchesTxt name then fs.files.lookup (dir ++ [name]) else none

/-- The files that a loader finds in a directory. -/
def dataFiles (dir : Path) (fs : FileSystem (List Char)) : List DataFile :=
  fs.files.entries.filterMap fun f => (nameIn dir f.1).map fun name => ⟨name, f.2⟩

end Program

/-- The target is emptied, and then the files are copied. -/
def replaceTarget {χ : Type} (dataDir targetDir : Path) :
    Script (FileSystem χ) ScriptExn Unit := do
  removeExisting targetDir
  mkdirParents targetDir
  fun fs => copyFiles dataDir targetDir (globTxt dataDir fs) fs

theorem copyDataFiles_eq_replaceTarget {χ : Type} {dataDir targetDir : Path} {fs : FileSystem χ} :
    copyDataFiles dataDir targetDir fs =
      if dataDir = targetDir then (.ok (), fs) else replaceTarget dataDir targetDir fs := by
  rw [copyDataFiles]
  split
  · rfl
  · rw [replaceTarget, Script.bind_apply]
    cases removeExisting targetDir fs with
    | mk result fs₁ =>
        cases result with
        | error e => rfl
        | ok _ =>
            simp only [Script.bind_apply]
            cases mkdirParents targetDir fs₁ with
            | mk result fs₂ =>
                cases result with
                | error e => rfl
                | ok _ => rfl

/-! ## What the operations do -/

section Operations

variable {χ : Type} {fs : FileSystem χ} {dir loc : Path}

theorem nameIn_eq_some_iff {p : Path} {name : Str} : nameIn dir p = some name ↔ p = dir ++ [name] := by
  rw [nameIn]
  constructor
  · intro h
    split at h
    · case isTrue hdir => rw [← hdir, List.dropLast_append_getLast? name h]
    · cases h
  · intro h
    rw [h, List.dropLast_concat, if_pos rfl, List.getLast?_concat]

/-- The glob finds whatever exists under such a name. -/
theorem mem_globTxt {name : Str} :
    name ∈ globTxt dir fs ↔ MatchesTxt name ∧ fs.Exists (dir ++ [name]) := by
  rw [globTxt, List.mem_insertionSort, List.mem_filter, decide_eq_true_iff, and_comm]
  simp only [List.mem_filterMap, nameIn_eq_some_iff, exists_eq_right, List.mem_append,
    ← AList.mem_keys, FileSystem.Exists]

/-- What was below the directory is gone, whether the directory existed or not. -/
theorem removeExisting_eq (hfile : dir ∉ fs.files) :
    removeExisting dir fs = (.ok (), fs.rmtree dir) := by
  rw [removeExisting]
  by_cases hex : fs.Exists dir
  · rw [if_neg (not_not.mpr hex), if_neg hfile]
  · rw [if_pos hex, FileSystem.rmtree_eq_self fun p hpre hp =>
      hex (FileSystem.exists_of_prefix_of_exists hpre hp)]

/-- Where no file is in the way, a directory that is missing is made, with its parents. -/
theorem mkdirParents_eq (hfiles : ∀ p ∈ dir.inits, p ∉ fs.files) (hdir : dir ∉ fs.dirs) :
    mkdirParents dir fs = (.ok (), fs.makeDirs dir hfiles) := by
  have hnew : ¬ fs.Exists dir := fun h =>
    h.elim hdir (hfiles dir ((List.mem_inits _ _).mpr List.prefix_rfl))
  rw [mkdirParents, if_neg hnew, dif_pos hfiles]

section Copy

variable {dataDir targetDir : Path} {names : List Str}

/-- A copy that returned, and not into a directory, has written the file that was there. -/
theorem copyFile_eq_ok {source target : Path} {fs' : FileSystem χ} (hclear : target ∉ fs.dirs)
    (h : copyFile source target fs = (.ok (), fs')) :
    ∃ content, ∃ htarget : fs.Writable target,
      fs.files.lookup source = some content ∧ fs' = fs.write target content htarget := by
  have hcopy : FileSystem.copy2 source target fs = (.ok (), fs') := by
    rw [copyFile] at h
    cases hrun : FileSystem.copy2 source target fs with
    | mk result fs₁ =>
        rw [hrun] at h
        cases result with
        | error e => cases h
        | ok _ =>
            cases h
            rfl
  obtain ⟨content, htarget, hsource, heq⟩ := FileSystem.exists_of_copy2_eq_ok hcopy
  simp only [FileSystem.copyTarget_eq hclear] at htarget heq
  exact ⟨content, htarget, hsource, heq⟩

theorem copyFile_eq {source target : Path} {content : χ}
    (hsource : fs.files.lookup source = some content) (hne : source ≠ target)
    (htarget : fs.Writable target) :
    copyFile source target fs = (.ok (), fs.write target content htarget) := by
  rw [copyFile, FileSystem.copy2_eq hsource hne htarget]
  rfl

/-- The loop copies the files with these names and touches no other location. -/
theorem copyFiles_eq (hne : dataDir ≠ targetDir) (htarget : targetDir ∈ fs.dirs)
    (hclear : ∀ name, targetDir ++ [name] ∉ fs.dirs)
    (hnames : ∀ name ∈ names, dataDir ++ [name] ∈ fs.files) :
    ∃ fs', copyFiles dataDir targetDir names fs = (.ok (), fs') ∧ fs'.dirs = fs.dirs ∧
      (∀ name, fs'.files.lookup (targetDir ++ [name]) = if name ∈ names then
        fs.files.lookup (dataDir ++ [name]) else fs.files.lookup (targetDir ++ [name])) ∧
      ∀ loc, loc.dropLast ≠ targetDir → fs'.files.lookup loc = fs.files.lookup loc := by
  induction names generalizing fs with
  | nil => exact ⟨fs, rfl, rfl, fun name => by simp, fun loc _ => rfl⟩
  | cons name names ih =>
      obtain ⟨hfile, hnames⟩ := List.forall_mem_cons.mp hnames
      obtain ⟨content, hcontent⟩ := FileSystem.mem_files_iff.mp hfile
      have hwritable : fs.Writable (targetDir ++ [name]) := by
        refine ⟨?_, hclear name⟩
        rw [List.dropLast_concat]
        exact htarget
      have hnames_ne : ∀ name', dataDir ++ [name'] ≠ targetDir ++ [name] := fun name' heq =>
        hne (List.append_inj_left' heq rfl)
      let fs₁ := fs.write (targetDir ++ [name]) content hwritable
      have hother : ∀ loc, loc ≠ targetDir ++ [name] →
          fs₁.files.lookup loc = fs.files.lookup loc := fun loc h => AList.lookup_insert_ne h
      have hkept : ∀ name', fs₁.files.lookup (dataDir ++ [name']) =
          fs.files.lookup (dataDir ++ [name']) := fun name' => hother _ (hnames_ne name')
      have hrest : ∀ name' ∈ names, dataDir ++ [name'] ∈ fs₁.files := fun name' hmem =>
        (FileSystem.mem_files_congr (hkept name')).mpr (hnames name' hmem)
      obtain ⟨fs', hrun, hdirs, hcopies, hframe⟩ :=
        ih (show targetDir ∈ fs₁.dirs from htarget) hclear hrest
      refine ⟨fs', ?_, hdirs, fun name' => ?_, fun loc hloc => ?_⟩
      · rw [copyFiles, copyFile_eq hcontent (hnames_ne name) hwritable]
        exact hrun
      · rw [hcopies, hkept]
        by_cases hname : name' = name
        · subst hname
          have hlast : fs₁.files.lookup (targetDir ++ [name']) = some content :=
            AList.lookup_insert _
          simp [hlast, hcontent]
        · rw [hother _ fun heq => hname (List.singleton_inj.mp (List.append_cancel_left heq))]
          simp [hname]
      · rw [hframe loc hloc, hother]
        rintro rfl
        exact hloc List.dropLast_concat

/-- A loop that returned has found a file under every name. -/
theorem mem_files_of_copyFiles {fs' : FileSystem χ} (hne : dataDir ≠ targetDir)
    (hclear : ∀ name, targetDir ++ [name] ∉ fs.dirs)
    (h : copyFiles dataDir targetDir names fs = (.ok (), fs')) :
    ∀ name ∈ names, dataDir ++ [name] ∈ fs.files := by
  induction names generalizing fs with
  | nil => exact fun _ hname => absurd hname List.not_mem_nil
  | cons name names ih =>
      rw [copyFiles] at h
      cases hcopy : copyFile (dataDir ++ [name]) (targetDir ++ [name]) fs with
      | mk result fs₁ =>
          rw [hcopy] at h
          cases result with
          | error e => cases h
          | ok _ =>
              obtain ⟨content, htarget, hsource, rfl⟩ := copyFile_eq_ok (hclear name) hcopy
              have hclear' : ∀ name',
                  targetDir ++ [name'] ∉ (fs.write (targetDir ++ [name]) content htarget).dirs :=
                hclear
              refine List.forall_mem_cons.mpr ⟨FileSystem.mem_files_iff.mpr ⟨_, hsource⟩, ?_⟩
              intro name' hname
              refine ((AList.mem_insert _).mp (ih hclear' h name' hname)).resolve_left fun heq => ?_
              exact hne (List.append_inj_left' heq rfl)

end Copy

/-- A target that was removed, or was not there, was no file. -/
theorem notMem_of_removeExisting {fs' : FileSystem χ}
    (h : removeExisting dir fs = (.ok (), fs')) : dir ∉ fs.files := by
  rw [removeExisting] at h
  split at h
  · case isTrue hnew => exact fun hmem => hnew (Or.inr hmem)
  · split at h
    · cases h
    · assumption

/-- What the target was made in were directories. -/
theorem no_file_of_mkdirParents {fs' : FileSystem χ} (hdir : dir ∉ fs.files)
    (h : mkdirParents dir (fs.rmtree dir) = (.ok (), fs')) : ∀ p, p <+: dir → p ∉ fs.files := by
  intro p hpre hp
  have hne : p ≠ dir := fun heq => hdir (heq ▸ hp)
  rw [mkdirParents] at h
  split at h
  · cases h
  · split at h
    · case isTrue hfiles =>
        refine hfiles p ((List.mem_inits _ _).mpr hpre) (FileSystem.mem_files_rmtree.mpr ⟨hp, ?_⟩)
        exact fun hle => hne (hpre.eq_of_length_le hle.length_le)
    · cases h

end Operations

/-! ## The copy -/

section Copied

variable {χ : Type} {fs : FileSystem χ} {dataDir targetDir : Path}

/-- The target is not in the way of the catalog, and nothing is in the way of the target. -/
structure Copyable (fs : FileSystem χ) (dataDir targetDir : Path) : Prop where
  outside : ¬ targetDir <+: dataDir
  no_file : ∀ p, p <+: targetDir → p ∉ fs.files
  /-- What the glob matches are not directories, also not those that are made. -/
  no_dir : ∀ name, MatchesTxt name →
    dataDir ++ [name] ∉ fs.dirs ∧ ¬ dataDir ++ [name] <+: targetDir

/-- The target holds the text files of the catalog and nothing else, and outside of it there
are no changes but the missing parents. -/
structure Copied (dataDir targetDir : Path) (fs fs' : FileSystem χ) : Prop where
  mem_dirs : ∀ p, p ∈ fs'.dirs ↔ p <+: targetDir ∨ p ∈ fs.dirs ∧ ¬ targetDir <+: p
  lookup_target : ∀ name, fs'.files.lookup (targetDir ++ [name]) = textFiles dataDir fs name
  lookup_deeper : ∀ loc, targetDir <+: loc → loc.dropLast ≠ targetDir →
    fs'.files.lookup loc = none
  lookup_outside : ∀ loc, ¬ targetDir <+: loc → fs'.files.lookup loc = fs.files.lookup loc

/-- Below the target there is nothing but the text files in it. -/
theorem Copied.below {fs' : FileSystem χ} (h : Copied dataDir targetDir fs fs') {p : Path}
    (hpre : targetDir <+: p) (hp : fs'.Exists p) :
    p = targetDir ∨ p ∈ fs'.files ∧ ∃ name, p = targetDir ++ [name] ∧ MatchesTxt name := by
  cases hp with
  | inl hmem =>
      cases (h.mem_dirs p).mp hmem with
      | inl hpre' => exact Or.inl (hpre'.eq_of_length_le hpre.length_le)
      | inr hmem => exact absurd hpre hmem.2
  | inr hmem =>
      refine Or.inr ⟨hmem, ?_⟩
      obtain ⟨content, hcontent⟩ := FileSystem.mem_files_iff.mp hmem
      have hparent : p.dropLast = targetDir := by
        by_contra hne
        rw [h.lookup_deeper p hpre hne] at hcontent
        cases hcontent
      have hnil : p ≠ [] := fun hnil => FileSystem.root_not_file (hnil ▸ hmem)
      obtain ⟨dir, name, rfl⟩ := (List.eq_nil_or_concat' p).resolve_left hnil
      rw [List.dropLast_concat] at hparent
      subst hparent
      refine ⟨name, rfl, ?_⟩
      by_contra htxt
      rw [h.lookup_target, textFiles, if_neg htxt] at hcontent
      cases hcontent

theorem no_file_rmtree (hfile : ∀ p, p <+: targetDir → p ∉ fs.files) :
    ∀ p ∈ targetDir.inits, p ∉ (fs.rmtree targetDir).files := fun p hp hmem =>
  hfile p ((List.mem_inits _ _).mp hp) (FileSystem.mem_files_rmtree.mp hmem).1

/-- The empty target, before anything is copied. -/
def emptied (targetDir : Path) (fs : FileSystem χ)
    (hfile : ∀ p, p <+: targetDir → p ∉ fs.files) : FileSystem χ :=
  (fs.rmtree targetDir).makeDirs targetDir (no_file_rmtree hfile)

section Emptied

variable {hfile : ∀ p, p <+: targetDir → p ∉ fs.files}

theorem lookup_emptied {loc : Path} : (emptied targetDir fs hfile).files.lookup loc =
    if targetDir <+: loc then none else fs.files.lookup loc :=
  FileSystem.lookup_rmtree

theorem mem_files_emptied {p : Path} :
    p ∈ (emptied targetDir fs hfile).files ↔ p ∈ fs.files ∧ ¬ targetDir <+: p :=
  FileSystem.mem_files_rmtree

/-- Of the directories below the target none is left, and its parents exist. -/
theorem mem_dirs_emptied {p : Path} : p ∈ (emptied targetDir fs hfile).dirs ↔
    p <+: targetDir ∨ p ∈ fs.dirs ∧ ¬ targetDir <+: p := by
  rw [emptied, (FileSystem.made_makeDirs _).mem_dirs, FileSystem.mem_dirs_rmtree, or_comm]

theorem targetDir_mem_emptied : targetDir ∈ (emptied targetDir fs hfile).dirs :=
  mem_dirs_emptied.mpr (Or.inl List.prefix_rfl)

/-- Nothing is in the target. -/
theorem notMem_dirs_emptied (name : Str) :
    targetDir ++ [name] ∉ (emptied targetDir fs hfile).dirs := by
  intro hmem
  cases mem_dirs_emptied.mp hmem with
  | inl hpre => exact FileSystem.not_concat_prefix _ _ hpre
  | inr hmem => exact hmem.2 (List.prefix_append _ _)

end Emptied

/-- After the target was removed, it is made again. -/
theorem mkdirParents_rmtree (hfile : ∀ p, p <+: targetDir → p ∉ fs.files) :
    mkdirParents targetDir (fs.rmtree targetDir) = (.ok (), emptied targetDir fs hfile) :=
  mkdirParents_eq (no_file_rmtree hfile) fun hmem =>
    (FileSystem.mem_dirs_rmtree.mp hmem).2 List.prefix_rfl

theorem copyDataFiles_of_ne (hfile : ∀ p, p <+: targetDir → p ∉ fs.files)
    (hne : dataDir ≠ targetDir) :
    copyDataFiles dataDir targetDir fs =
      copyFiles dataDir targetDir (globTxt dataDir (emptied targetDir fs hfile))
        (emptied targetDir fs hfile) := by
  rw [copyDataFiles, if_neg hne, removeExisting_eq (hfile _ List.prefix_rfl)]
  simp only [mkdirParents_rmtree hfile]

/-- What is in the target is what was in the catalog, if what the glob finds are files. -/
theorem copied_of_names (houtside : ¬ targetDir <+: dataDir)
    (hfile : ∀ p, p <+: targetDir → p ∉ fs.files)
    (hnames : ∀ name ∈ globTxt dataDir (emptied targetDir fs hfile),
      dataDir ++ [name] ∈ (emptied targetDir fs hfile).files) :
    ∃ fs', copyDataFiles dataDir targetDir fs = (.ok (), fs') ∧
      Copied dataDir targetDir fs fs' := by
  have hne : dataDir ≠ targetDir := fun heq => houtside (heq ▸ List.prefix_rfl)
  obtain ⟨fs', hrun, hdirs, hcopies, hframe⟩ :=
    copyFiles_eq hne targetDir_mem_emptied notMem_dirs_emptied hnames
  refine ⟨fs', (copyDataFiles_of_ne hfile hne).trans hrun, fun p => ?_, fun name => ?_,
    fun loc hpre hparent => ?_, fun loc hloc => ?_⟩
  · rw [hdirs, mem_dirs_emptied]
  · have hnone : (emptied targetDir fs hfile).files.lookup (targetDir ++ [name]) = none := by
      rw [lookup_emptied, if_pos (List.prefix_append _ _)]
    rw [hcopies, hnone, textFiles]
    by_cases hname : name ∈ globTxt dataDir (emptied targetDir fs hfile)
    · have hmem := mem_files_emptied.mp (hnames name hname)
      rw [if_pos hname, if_pos (mem_globTxt.mp hname).1, lookup_emptied, if_neg hmem.2]
    · rw [if_neg hname]
      split
      · case isTrue htxt =>
          have hnew : ¬ (emptied targetDir fs hfile).Exists (dataDir ++ [name]) := fun hex =>
            hname (mem_globTxt.mpr ⟨htxt, hex⟩)
          have hout : ¬ targetDir <+: dataDir ++ [name] := by
            intro hpre
            rcases List.prefix_concat_iff.mp hpre with heq | hpre
            · exact hnew (Or.inl (heq ▸ targetDir_mem_emptied))
            · exact houtside hpre
          have hlookup := AList.lookup_eq_none.mpr fun hmem => hnew (Or.inr hmem)
          rw [lookup_emptied, if_neg hout] at hlookup
          exact hlookup.symm
      · rfl
  · rw [hframe loc hparent, lookup_emptied, if_pos hpre]
  · have hparent : loc.dropLast ≠ targetDir := fun heq => hloc (heq ▸ List.dropLast_prefix loc)
    rw [hframe loc hparent, lookup_emptied, if_neg hloc]

/-- Where nothing is in the way, the call returns and has copied the catalog. -/
theorem copyDataFiles_eq (h : Copyable fs dataDir targetDir) :
    ∃ fs', copyDataFiles dataDir targetDir fs = (.ok (), fs') ∧
      Copied dataDir targetDir fs fs' := by
  refine copied_of_names h.outside h.no_file fun name hname => ?_
  obtain ⟨htxt, hex⟩ := mem_globTxt.mp hname
  refine hex.resolve_left fun hmem => ?_
  cases mem_dirs_emptied.mp hmem with
  | inl hpre => exact (h.no_dir name htxt).2 hpre
  | inr hmem => exact (h.no_dir name htxt).1 hmem.1

/-- A copy that returned has copied all files of the catalog. -/
theorem copied_of_copyDataFiles {fs' : FileSystem χ} (houtside : ¬ targetDir <+: dataDir)
    (h : copyDataFiles dataDir targetDir fs = (.ok (), fs')) :
    Copied dataDir targetDir fs fs' := by
  have hne : dataDir ≠ targetDir := fun heq => houtside (heq ▸ List.prefix_rfl)
  have hrun := h
  rw [copyDataFiles_eq_replaceTarget, if_neg hne, replaceTarget] at h
  obtain ⟨_, fs₁, hremove, h⟩ := Script.bind_eq_ok_iff.mp h
  obtain ⟨_, fs₂, hmkdir, h⟩ := Script.bind_eq_ok_iff.mp h
  have htarget := notMem_of_removeExisting hremove
  rw [removeExisting_eq htarget] at hremove
  cases hremove
  have hfile := no_file_of_mkdirParents htarget hmkdir
  rw [mkdirParents_rmtree hfile] at hmkdir
  cases hmkdir
  obtain ⟨fs'', hrun', hcopied⟩ :=
    copied_of_names houtside hfile (mem_files_of_copyFiles hne notMem_dirs_emptied h)
  rw [hrun] at hrun'
  cases hrun'
  exact hcopied

/-- A catalog below the target is removed, and the copy is empty.  Outside of the target
nothing changes. -/
theorem copyDataFiles_removes (hdata : dataDir ∈ fs.dirs) (hbelow : targetDir <+: dataDir)
    (hne : dataDir ≠ targetDir) :
    ∃ fs', copyDataFiles dataDir targetDir fs = (.ok (), fs') ∧
      (∀ p, targetDir <+: p → (fs'.Exists p ↔ p = targetDir)) ∧
      (∀ p, ¬ targetDir <+: p → (p ∈ fs'.dirs ↔ p ∈ fs.dirs)) ∧
      ∀ loc, ¬ targetDir <+: loc → fs'.files.lookup loc = fs.files.lookup loc := by
  have hparents : ∀ p, p <+: targetDir → p ∈ fs.dirs := fun p hpre =>
    FileSystem.mem_dirs_of_prefix_of_mem (hpre.trans hbelow) hdata
  have hfile : ∀ p, p <+: targetDir → p ∉ fs.files := fun p hpre hmem =>
    fs.file_not_dir hmem (hparents p hpre)
  have hexists : ∀ p, targetDir <+: p →
      ((emptied targetDir fs hfile).Exists p ↔ p = targetDir) := by
    intro p hpre
    constructor
    · rintro (hmem | hmem)
      · cases mem_dirs_emptied.mp hmem with
        | inl hpre' => exact hpre'.eq_of_length_le hpre.length_le
        | inr hmem => exact absurd hpre hmem.2
      · exact absurd hpre (mem_files_emptied.mp hmem).2
    · intro heq
      exact Or.inl (heq ▸ targetDir_mem_emptied)
  have hglob : globTxt dataDir (emptied targetDir fs hfile) = [] := by
    refine List.eq_nil_iff_forall_not_mem.mpr fun name hname => ?_
    have heq := (hexists _ (hbelow.trans (List.prefix_append _ _))).mp (mem_globTxt.mp hname).2
    exact FileSystem.not_concat_prefix _ _ (heq ▸ hbelow)
  refine ⟨emptied targetDir fs hfile, ?_, hexists, fun p hp => ?_, fun loc hloc => ?_⟩
  · rw [copyDataFiles_of_ne hfile hne, hglob]
    rfl
  · rw [mem_dirs_emptied]
    constructor
    · rintro (hpre | hmem)
      · exact hparents p hpre
      · exact hmem.1
    · exact fun hmem => Or.inr ⟨hmem, hp⟩
  · rw [lookup_emptied, if_neg hloc]

end Copied

/-! ## What the loaders find -/

section Loaded

variable {fs fs' : FileSystem (List Char)} {dir dir' : Path}

theorem mem_dataFiles {f : DataFile} :
    f ∈ dataFiles dir fs ↔ fs.files.lookup (dir ++ [f.name]) = some f.text := by
  rw [FileSystem.lookup_eq_some_iff, dataFiles, List.mem_filterMap]
  simp only [Option.map_eq_some_iff, nameIn_eq_some_iff]
  constructor
  · rintro ⟨⟨loc, text⟩, hentry, name, rfl, rfl⟩
    exact hentry
  · exact fun hentry => ⟨_, hentry, f.name, rfl, rfl⟩

theorem nodup_dataFiles : (dataFiles dir fs).Nodup := by
  refine fs.files.nodupKeys.nodup.filterMap ?_
  rintro ⟨loc, text⟩ ⟨loc', text'⟩ f hf hf'
  simp only [Option.mem_def, Option.map_eq_some_iff, nameIn_eq_some_iff] at hf hf'
  obtain ⟨name, rfl, rfl⟩ := hf
  obtain ⟨name', rfl, heq⟩ := hf'
  cases heq
  rfl

/-- Directories with the same files under the names that count are sorted into the same list. -/
theorem sortFiles_filter_eq {p : Str → Bool}
    (h : ∀ name, p name = true →
      fs'.files.lookup (dir' ++ [name]) = fs.files.lookup (dir ++ [name])) :
    sortFiles ((dataFiles dir' fs').filter fun f => p f.name) =
      sortFiles ((dataFiles dir fs).filter fun f => p f.name) := by
  have hperm : ((dataFiles dir' fs').filter fun f => p f.name).Perm
      ((dataFiles dir fs).filter fun f => p f.name) := by
    refine (List.perm_ext_iff_of_nodup (nodup_dataFiles.filter _) (nodup_dataFiles.filter _)).mpr
      fun f => ?_
    simp only [List.mem_filter, mem_dataFiles]
    exact and_congr_left fun hp => by rw [h f.name hp]
  have hsorted : ∀ files : List DataFile, (sortFiles files).Pairwise fun f g => f.name ≤ g.name :=
    fun files => by
      have htotal : Std.Total fun f g : DataFile => f.name ≤ g.name := ⟨fun _ _ => le_total _ _⟩
      have htrans : IsTrans DataFile fun f g => f.name ≤ g.name := ⟨fun _ _ _ => le_trans⟩
      exact List.pairwise_insertionSort _ files
  refine List.Perm.eq_of_pairwise ?_ (hsorted _) (hsorted _) ?_
  · -- in a directory a name stands for one file
    intro f g hf hg hle hge
    rw [sortFiles, List.mem_insertionSort, List.mem_filter, mem_dataFiles] at hf hg
    have hname : f.name = g.name := le_antisymm hle hge
    have htext := hf.1.symm.trans ((h f.name hf.2).trans (hname ▸ hg.1))
    cases f
    cases g
    cases hname
    cases htext
    rfl
  · exact (List.perm_insertionSort _ _).trans (hperm.trans (List.perm_insertionSort _ _).symm)

/-- The loaders find in the copy what they find in the catalog, and the target holds nothing
but text files.  Outside of the target no file is touched. -/
theorem catalogs_copyDataFiles {dataDir targetDir : Path} (h : Copyable fs dataDir targetDir) :
    ∃ fs', copyDataFiles dataDir targetDir fs = (.ok (), fs') ∧
      (∀ w, loadPurls w (dataFiles targetDir fs') = loadPurls w (dataFiles dataDir fs)) ∧
      rustLoadPurls (dataFiles targetDir fs') = rustLoadPurls (dataFiles dataDir fs) ∧
      (∀ p, targetDir <+: p → fs'.Exists p → p = targetDir ∨
        p ∈ fs'.files ∧ ∃ name, p = targetDir ++ [name] ∧ MatchesTxt name) ∧
      ∀ loc, ¬ targetDir <+: loc → fs'.files.lookup loc = fs.files.lookup loc := by
  obtain ⟨fs', hrun, hcopied⟩ := copyDataFiles_eq h
  have hsame : ∀ name, MatchesTxt name →
      fs'.files.lookup (targetDir ++ [name]) = fs.files.lookup (dataDir ++ [name]) :=
    fun name htxt => by rw [hcopied.lookup_target, textFiles, if_pos htxt]
  refine ⟨fs', hrun, fun w => ?_, ?_, fun p => hcopied.below, hcopied.lookup_outside⟩
  · have hfiles := sortFiles_filter_eq (p := fun name => decide (MatchesTxt name))
      fun name hp => hsame name (of_decide_eq_true hp)
    simp only [loadPurls, hfiles]
  · have hfiles := sortFiles_filter_eq
      (p := fun name => decide (extension name = some (Str.lit "txt")))
      fun name hp => hsame name (extension_eq_txt_iff.mp (of_decide_eq_true hp)).1
    simp only [rustLoadPurls, purlFiles, hfiles]

end Loaded

/-! ## A catalog of one file -/

section Example

def workDir : Path := [Str.lit "work"]

def dataDir : Path := workDir ++ [Str.lit "data"]

/-- A target in a directory that does not exist. -/
def buildDataDir : Path := [Str.lit "rust-builder", Str.lit "data"]

def benchDirs : FileSystem (List Char) :=
  FileSystem.bare.makeDirs dataDir fun p _ => AList.notMem_empty p

def benchFs : FileSystem (List Char) :=
  benchDirs.write (dataDir ++ [Str.lit "npm.txt"]) "pkg:npm/foo\n".toList (by decide)

theorem benchFs_no_file {dir : Path} (h : ¬ dataDir ++ [Str.lit "npm.txt"] <+: dir) :
    ∀ p, p <+: dir → p ∉ benchFs.files := by
  intro p hp hmem
  cases (AList.mem_insert _).mp hmem with
  | inl heq => exact h (heq ▸ hp)
  | inr hmem => exact AList.notMem_empty _ hmem

theorem benchFs_no_dir {dir : Path} (h : ¬ dataDir <+: dir) (name : Str) :
    dataDir ++ [name] ∉ benchFs.dirs ∧ ¬ dataDir ++ [name] <+: dir := by
  refine ⟨fun hmem => ?_, fun hpre => h ((List.prefix_append _ _).trans hpre)⟩
  have hlength : ∀ p ∈ benchFs.dirs, p.length ≤ 2 := by decide
  have hle := hlength _ hmem
  rw [List.length_append, List.length_singleton] at hle
  exact absurd hle (by decide)

theorem catalogs_copyDataFiles_benchFs :
    ∃ fs', copyDataFiles dataDir buildDataDir benchFs = (.ok (), fs') ∧
      (∀ w, loadPurls w (dataFiles buildDataDir fs') = loadPurls w (dataFiles dataDir benchFs)) ∧
      rustLoadPurls (dataFiles buildDataDir fs') = rustLoadPurls (dataFiles dataDir benchFs) ∧
      (∀ p, buildDataDir <+: p → fs'.Exists p → p = buildDataDir ∨
        p ∈ fs'.files ∧ ∃ name, p = buildDataDir ++ [name] ∧ MatchesTxt name) ∧
      ∀ loc, ¬ buildDataDir <+: loc → fs'.files.lookup loc = benchFs.files.lookup loc :=
  catalogs_copyDataFiles ⟨by decide, benchFs_no_file (by decide),
    fun name _ => benchFs_no_dir (by decide) name⟩

/-- The catalog is in the directory that it is copied to. -/
theorem copyDataFiles_removes_benchFs :
    ∃ fs', copyDataFiles dataDir workDir benchFs = (.ok (), fs') ∧
      (∀ p, workDir <+: p → (fs'.Exists p ↔ p = workDir)) ∧
      (∀ p, ¬ workDir <+: p → (p ∈ fs'.dirs ↔ p ∈ benchFs.dirs)) ∧
      ∀ loc, ¬ workDir <+: loc → fs'.files.lookup loc = benchFs.files.lookup loc :=
  copyDataFiles_removes (by decide) (by decide) (by decide)

end Example

end Bench
