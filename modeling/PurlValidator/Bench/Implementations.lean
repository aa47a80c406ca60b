import PurlValidator.Bench.Mains
import PurlValidator.Lib.Run

/-!
# Measuring the other implementations

`benchmark_rust` and `benchmark_go` do the same.  They copy the catalog to where the builder
of the library looks for it, remove the index of an earlier run, compile the builder and run
it, and keep a copy of the index that it has written.  Then they compile the lookup program,
run it on that copy and on the queries, and read its output.

The work directory is not emptied, so a run finds there what earlier runs have left behind,
also those that have failed half-way.  `measurements_of_run` says that this does not matter:
the hits that a benchmark reads from the output of its lookup program were counted in an
index of the catalog as it is, and in no other.  `hitsAndSeconds_eq_ok` says when it gets there.

The commands are those of the machine, `exec`.  What the two libraries and the compilers do
is not in this repository.  `Follows` says what the script relies on: they write where they
are told to, and an index is either written, from the text files in its place, or not touched.

Neither function returns.  They give the hits to a `Result`, which has no field for them
(`benchmark_raises`).  What is before that, to the hits and the seconds, is `hitsAndSeconds`.
-/

namespace Bench

open Py (Str UnicodeData universalNewlines)
open Purl (Exn Path FileSystem)

/-! ## The program -/

section Program

variable {χ : Type}

/-- `path.unlink()`, for a file. -/
def unlink (loc : Path) (fs : FileSystem χ) : FileSystem χ where
  dirs := fs.dirs
  files := fs.files.erase loc
  nodup := fs.nodup
  dir_parent := fs.dir_parent
  file_parent h := fs.file_parent (AList.mem_erase.mp h).2
  file_not_dir h := fs.file_not_dir (AList.mem_erase.mp h).2

/-- `if index.exists(): index.unlink()`. -/
def unlinkExisting (loc : Path) : Script (FileSystem χ) ScriptExn Unit := fun fs =>
  if ¬ fs.Exists loc then (.ok (), fs)
  else if loc ∈ fs.files then (.ok (), unlink loc fs)
  else (.error (.exn (.isADirectoryError loc)), fs)

/-- What happens when a command is started in a directory. -/
abbrev Exec (χ : Type) := List Str → Path → FileSystem χ → CompletedProcess × FileSystem χ

/-- `run_command`, with the command. -/
def runCommandIn (exec : Exec χ) (command : List Str) (cwd : Path) :
    Script (FileSystem χ) ScriptExn Str := fun fs =>
  (runCommand command (exec command cwd fs).1, (exec command cwd fs).2)

/-- What is different between the two benchmarks. -/
structure Implementation where
  buildDir : Path
  /-- Where the builder looks for the catalog, from there. -/
  dataDir : List Str
  copiedIndex : Path
  buildBuilder : List Str
  /-- Where it is started. -/
  builderRepo : Path
  builder : Path
  buildLookup : List Str
  lookupRepo : Path
  lookup : Path

namespace Implementation

def target (i : Implementation) : Path := i.buildDir ++ i.dataDir

def index (i : Implementation) : Path := i.buildDir ++ [Str.lit "purls.fst"]

end Implementation

def rustImplementation (layout : Layout) : Implementation where
  buildDir := layout.workDir ++ [Str.lit "rust-builder"]
  dataDir := [Str.lit "fst_builder", Str.lit "data"]
  copiedIndex := layout.workDir ++ [Str.lit "rust-purls.fst"]
  buildBuilder := ["cargo", "build", "--release", "--bin", "fst_builder"].map Str.lit
  builderRepo := layout.rustRepo
  builder := layout.rustRepo ++ ["target", "release", "fst_builder"].map Str.lit
  buildLookup := ["cargo", "build", "--release", "--manifest-path"].map Str.lit ++
    [pathStr (layout.rustLookupProject ++ [Str.lit "Cargo.toml"])]
  lookupRepo := layout.workspace
  lookup := layout.rustLookupProject ++
    ["target", "release", "purl-validator-rust-lookup-bench"].map Str.lit

def goImplementation (layout : Layout) : Implementation where
  buildDir := layout.workDir ++ [Str.lit "go-builder"]
  dataDir := [Str.lit "cmd", Str.lit "data"]
  copiedIndex := layout.workDir ++ [Str.lit "go-purls.fst"]
  buildBuilder := ["go", "build", "-o"].map Str.lit ++
    [pathStr (layout.workDir ++ [Str.lit "go-fst-builder"]), Str.lit "./cmd"]
  builderRepo := layout.goRepo
  builder := layout.workDir ++ [Str.lit "go-fst-builder"]
  buildLookup := ["go", "build", "-o"].map Str.lit ++
    [pathStr (layout.workDir ++ [Str.lit "go-lookup-bench"]), Str.lit "."]
  lookupRepo := layout.goLookupProject
  lookup := layout.workDir ++ [Str.lit "go-lookup-bench"]

def implementations (layout : Layout) : List Implementation :=
  [rustImplementation layout, goImplementation layout]

section Measure

variable {α : Type} (exec : Exec χ) (u : UnicodeData) (float : Str → Except ScriptExn α)
  (layout : Layout) (queryPath : Path)

/-- The first half of the two benchmarks. -/
def buildIndex (i : Implementation) : Script (FileSystem χ) ScriptExn Unit := do
  copyDataFiles layout.dataDir i.target
  unlinkExisting i.index
  let _ ← runCommandIn exec i.buildBuilder i.builderRepo
  let _ ← runCommandIn exec [pathStr i.builder] i.buildDir
  copyFile i.index i.copiedIndex

/-- The two benchmarks to where they have parsed the output of the lookup program: the hits
and the seconds. -/
def hitsAndSeconds (i : Implementation) : Script (FileSystem χ) ScriptExn (Int × α) := do
  buildIndex exec layout i
  let _ ← runCommandIn exec i.buildLookup i.lookupRepo
  let output ← runCommandIn exec [pathStr i.lookup, pathStr i.copiedIndex, pathStr queryPath]
    layout.workspace
  Script.read fun _ => parseLookupOutput u float output

/-- `Result(..., storage=copied_index.stat().st_size, hits=hits)`. -/
def makeResult (i : Implementation) : Script (FileSystem χ) ScriptExn Empty :=
  Script.read fun fs =>
    if fs.Exists i.copiedIndex then .error (.exn noHitsField)
    else .error (.exn (fs.openError i.copiedIndex))

/-- The two benchmarks.  They return nothing. -/
def benchmark (i : Implementation) : Script (FileSystem χ) ScriptExn Empty := do
  let _hits ← hitsAndSeconds exec u float layout queryPath i
  makeResult i

/-- `benchmark_rust`. -/
def benchmarkRust : Script (FileSystem χ) ScriptExn Empty :=
  benchmark exec u float layout queryPath (rustImplementation layout)

/-- `benchmark_go`. -/
def benchmarkGo : Script (FileSystem χ) ScriptExn Empty :=
  benchmark exec u float layout queryPath (goImplementation layout)

end Measure

end Program

/-! ## What the script relies on -/

section Spec

variable {χ : Type} {layout : Layout} {p q : Path → Prop} {fs fs₁ fs₂ : FileSystem χ}

/-- No directory is where an index is copied to. -/
def Free (layout : Layout) (fs : FileSystem χ) : Prop :=
  ∀ i ∈ implementations layout, i.copiedIndex ∉ fs.dirs

/-- From where no directory is in the way of an index, none gets in the way, and the files at
these locations are as they were. -/
structure Undisturbed (layout : Layout) (p : Path → Prop) (fs fs' : FileSystem χ) : Prop where
  free : Free layout fs → Free layout fs'
  lookup_eq : Free layout fs → ∀ loc, p loc → fs'.files.lookup loc = fs.files.lookup loc

namespace Undisturbed

theorem refl (fs : FileSystem χ) : Undisturbed layout p fs fs := ⟨id, fun _ _ _ => rfl⟩

theorem trans (h : Undisturbed layout p fs fs₁) (h' : Undisturbed layout p fs₁ fs₂) :
    Undisturbed layout p fs fs₂ :=
  ⟨fun hfree => h'.free (h.free hfree), fun hfree loc hloc =>
    (h'.lookup_eq (h.free hfree) loc hloc).trans (h.lookup_eq hfree loc hloc)⟩

theorem mono (h : Undisturbed layout q fs fs₁) (hle : ∀ loc, p loc → q loc) :
    Undisturbed layout p fs fs₁ :=
  ⟨h.free, fun hfree loc hloc => h.lookup_eq hfree loc (hle loc hloc)⟩

/-- Where no directory is made, only the files matter. -/
theorem of_dirs (hdirs : ∀ dir ∈ fs₁.dirs, dir ∈ fs.dirs)
    (h : ∀ loc, p loc → fs₁.files.lookup loc = fs.files.lookup loc) :
    Undisturbed layout p fs fs₁ :=
  ⟨fun hfree i hi hmem => hfree i hi (hdirs _ hmem), fun _ => h⟩

end Undisturbed

/-- The catalog and the queries. -/
def Shared (layout : Layout) (queryPath loc : Path) : Prop :=
  (∃ name, MatchesTxt name ∧ loc = layout.dataDir ++ [name]) ∨ loc = queryPath

namespace Implementation

/-- What a benchmark needs of what it has made. -/
def Kept (i : Implementation) (layout : Layout) (queryPath loc : Path) : Prop :=
  Shared layout queryPath loc ∨ i.target <+: loc ∨ loc = i.index ∨ loc = i.copiedIndex

/-- The commands of a benchmark do what the script relies on.  `build` is the index of a
catalog, and `hits` what the lookup program counts. -/
structure Follows (i : Implementation) (exec : Exec χ) (layout : Layout) (queryPath : Path)
    (build : (Str → Option χ) → χ) (hits : χ → χ → Except String Nat) : Prop where
  buildBuilder : ∀ fs, Undisturbed layout (i.Kept layout queryPath) fs
    (exec i.buildBuilder i.builderRepo fs).2
  builder : ∀ fs, Undisturbed layout (fun loc => i.Kept layout queryPath loc ∧ loc ≠ i.index) fs
    (exec [pathStr i.builder] i.buildDir fs).2
  /-- The builder writes the index of what is in its place, or none. -/
  index : ∀ fs, (exec [pathStr i.builder] i.buildDir fs).2.files.lookup i.index =
      some (build (textFiles i.target fs)) ∨
    (exec [pathStr i.builder] i.buildDir fs).2.files.lookup i.index = fs.files.lookup i.index
  buildLookup : ∀ fs, Undisturbed layout (i.Kept layout queryPath) fs
    (exec i.buildLookup i.lookupRepo fs).2
  lookup : ∀ fs, Undisturbed layout (i.Kept layout queryPath) fs
    (exec [pathStr i.lookup, pathStr i.copiedIndex, pathStr queryPath] layout.workspace fs).2
  /-- Where it has been compiled, the lookup program counts. -/
  output : ∀ fs image queries, (exec i.buildLookup i.lookupRepo fs).1.returncode = 0 →
    fs.files.lookup i.copiedIndex = some image → fs.files.lookup queryPath = some queries →
      ∃ elapsed, (exec [pathStr i.lookup, pathStr i.copiedIndex, pathStr queryPath]
        layout.workspace (exec i.buildLookup i.lookupRepo fs).2).1 =
          lookupMain elapsed (hits image queries)

/-- The commands do not fail, and the builder writes an index. -/
structure Succeeds (i : Implementation) (exec : Exec χ) (build : (Str → Option χ) → χ) :
    Prop where
  buildBuilder : ∀ fs, (exec i.buildBuilder i.builderRepo fs).1.returncode = 0
  /-- Where it has been compiled, the builder writes if it can. -/
  builder : ∀ fs fs', (exec i.buildBuilder i.builderRepo fs).2 = fs' → fs'.Writable i.index →
    (exec [pathStr i.builder] i.buildDir fs').1.returncode = 0 ∧
      (exec [pathStr i.builder] i.buildDir fs').2.files.lookup i.index =
        some (build (textFiles i.target fs'))
  buildLookup : ∀ fs, (exec i.buildLookup i.lookupRepo fs).1.returncode = 0
  dirs : ∀ command cwd fs, fs.dirs ⊆ (exec command cwd fs).2.dirs
  not_dir : ∀ command cwd fs, i.index ∉ fs.dirs → i.index ∉ (exec command cwd fs).2.dirs

/-- What the benchmark makes is not in the way of the catalog and the queries. -/
structure Apart (i : Implementation) (layout : Layout) (queryPath : Path) : Prop where
  outside : ¬ i.target <+: layout.dataDir
  target : ∀ loc, Shared layout queryPath loc → ¬ i.target <+: loc
  index : ¬ Shared layout queryPath i.index
  copiedIndex : ¬ Shared layout queryPath i.copiedIndex
  target_index : ¬ i.target <+: i.index
  index_target : ¬ i.index <+: i.target
  copiedIndex_parent : i.copiedIndex.dropLast <+: i.target
  index_ne : i.index ≠ i.copiedIndex
  copiedIndexes : ∀ j ∈ implementations layout, ¬ j.copiedIndex <+: i.target

end Implementation

/-! ## What the parts keep -/

theorem undisturbed_bind {α β : Type} {x : Script (FileSystem χ) ScriptExn α}
    {f : α → Script (FileSystem χ) ScriptExn β} (hx : Script.Keeps (Undisturbed layout p) x)
    (hf : ∀ a, Script.Keeps (Undisturbed layout p) (f a)) :
    Script.Keeps (Undisturbed layout p) (x >>= f) :=
  Script.Keeps.bind (fun _ _ _ => .trans) hx hf

theorem undisturbed_rmtree {dir : Path} (h : ∀ loc, p loc → ¬ dir <+: loc) :
    Undisturbed layout p fs (fs.rmtree dir) :=
  .of_dirs (fun _ hmem => (FileSystem.mem_dirs_rmtree.mp hmem).1) fun loc hloc => by
    rw [FileSystem.lookup_rmtree, if_neg (h loc hloc)]

theorem undisturbed_write {loc : Path} {content : χ} (h : ¬ p loc) (hwritable : fs.Writable loc) :
    Undisturbed layout p fs (fs.write loc content hwritable) :=
  .of_dirs (fun _ hmem => hmem) fun _ hloc => AList.lookup_insert_ne fun heq => h (heq ▸ hloc)

theorem undisturbed_removeExisting {dir : Path} (h : ∀ loc, p loc → ¬ dir <+: loc) :
    Script.Keeps (Undisturbed layout p)
      (removeExisting dir : Script (FileSystem χ) ScriptExn Unit) := by
  intro fs
  rw [removeExisting]
  split
  · exact .refl fs
  · split
    · exact .refl fs
    · exact undisturbed_rmtree h

/-- Making directories is harmless where no index is copied to. -/
theorem undisturbed_mkdirParents {dir : Path}
    (h : ∀ i ∈ implementations layout, ¬ i.copiedIndex <+: dir) :
    Script.Keeps (Undisturbed layout p)
      (mkdirParents dir : Script (FileSystem χ) ScriptExn Unit) := by
  intro fs
  rw [mkdirParents]
  split
  · exact .refl fs
  · split
    · case isTrue hfiles =>
        refine ⟨fun hfree i hi hmem => ?_, fun _ _ _ => rfl⟩
        cases ((FileSystem.made_makeDirs hfiles).mem_dirs _).mp hmem with
        | inl hmem => exact hfree i hi hmem
        | inr hpre => exact h i hi hpre
    · exact .refl fs

/-- A copy touches no other file than its target. -/
theorem undisturbed_copyFile {source target : Path}
    (h : ∀ fs : FileSystem χ, Free layout fs → ¬ p (fs.copyTarget source target)) :
    Script.Keeps (Undisturbed layout p)
      (copyFile source target : Script (FileSystem χ) ScriptExn Unit) := by
  intro fs
  rw [copyFile, FileSystem.copy2]
  split
  · exact .refl fs
  · cases fs.readFile source with
    | error e => exact .refl fs
    | ok content =>
        simp only [FileSystem.writeFile]
        split
        · case isTrue hwritable =>
            refine ⟨id, fun hfree => ?_⟩
            exact (undisturbed_write (h fs hfree) hwritable).lookup_eq hfree
        · exact .refl fs

/-- The loop writes into the target only. -/
theorem undisturbed_copyFiles {dataDir target : Path} (h : ∀ loc, p loc → ¬ target <+: loc)
    (names : List Str) : Script.Keeps (Undisturbed layout p)
      (copyFiles dataDir target names : Script (FileSystem χ) ScriptExn Unit) := by
  induction names with
  | nil => exact fun fs => .refl fs
  | cons name names ih =>
      intro fs
      have hbelow : ∀ fs : FileSystem χ, Free layout fs →
          ¬ p (fs.copyTarget (dataDir ++ [name]) (target ++ [name])) := fun fs _ hp =>
        h _ hp ((List.prefix_append target [name]).trans FileSystem.prefix_copyTarget)
      have hcopy : Undisturbed layout p fs
          (copyFile (dataDir ++ [name]) (target ++ [name]) fs).2 := undisturbed_copyFile hbelow fs
      rw [copyFiles]
      cases hrun : copyFile (dataDir ++ [name]) (target ++ [name]) fs with
      | mk result fs₁ =>
          rw [hrun] at hcopy
          cases result with
          | error e => exact hcopy
          | ok _ => exact hcopy.trans (ih fs₁)

/-- However the copy of the catalog ends, it touches no file outside of the target. -/
theorem undisturbed_copyDataFiles {dataDir target : Path} (h : ∀ loc, p loc → ¬ target <+: loc)
    (hindexes : ∀ i ∈ implementations layout, ¬ i.copiedIndex <+: target) :
    Script.Keeps (Undisturbed layout p)
      (copyDataFiles dataDir target : Script (FileSystem χ) ScriptExn Unit) := by
  intro fs
  rw [copyDataFiles_eq_replaceTarget]
  split
  · exact .refl fs
  · refine undisturbed_bind (undisturbed_removeExisting h) (fun _ => ?_) fs
    exact undisturbed_bind (undisturbed_mkdirParents hindexes) fun _ fs₂ =>
      undisturbed_copyFiles h _ fs₂

/-- Removing an index disturbs nothing else. -/
theorem undisturbed_unlinkExisting {loc : Path} (h : ¬ p loc) :
    Script.Keeps (Undisturbed layout p)
      (unlinkExisting loc : Script (FileSystem χ) ScriptExn Unit) := by
  intro fs
  rw [unlinkExisting]
  split
  · exact .refl fs
  · split
    · exact .of_dirs (fun _ hmem => hmem) fun _ hloc =>
        AList.lookup_erase_ne fun heq => h (heq ▸ hloc)
    · exact .refl fs

end Spec

/-! ## One benchmark -/

section Measure

variable {χ α : Type} {exec : Exec χ} {u : UnicodeData} {float : Str → Except ScriptExn α}
  {layout : Layout} {queryPath : Path} {i : Implementation} {build : (Str → Option χ) → χ}
  {hits : χ → χ → Except String Nat}

/-- However the first half ends, the catalog and the queries are as they were. -/
theorem keeps_buildIndex (hfollows : i.Follows exec layout queryPath build hits)
    (hapart : i.Apart layout queryPath) (hi : i ∈ implementations layout) :
    Script.Keeps (Undisturbed layout (Shared layout queryPath)) (buildIndex exec layout i) := by
  refine undisturbed_bind
    (undisturbed_copyDataFiles hapart.target hapart.copiedIndexes) fun _ => ?_
  refine undisturbed_bind (undisturbed_unlinkExisting hapart.index) fun _ => ?_
  refine undisturbed_bind
    (fun fs => (hfollows.buildBuilder fs).mono fun _ hloc => Or.inl hloc) fun _ => ?_
  refine undisturbed_bind (fun fs => (hfollows.builder fs).mono
    fun loc hloc => ⟨Or.inl hloc, fun heq => hapart.index (heq ▸ hloc)⟩) fun _ => ?_
  refine undisturbed_copyFile fun fs hfree => ?_
  rw [FileSystem.copyTarget_eq (hfree i hi)]
  exact hapart.copiedIndex

/-- However a benchmark ends, the catalog and the queries are as they were. -/
theorem keeps_hitsAndSeconds (hfollows : i.Follows exec layout queryPath build hits)
    (hapart : i.Apart layout queryPath) (hi : i ∈ implementations layout) :
    Script.Keeps (Undisturbed layout (Shared layout queryPath))
      (hitsAndSeconds exec u float layout queryPath i) := by
  refine undisturbed_bind (keeps_buildIndex hfollows hapart hi) fun _ => ?_
  refine undisturbed_bind
    (fun fs => (hfollows.buildLookup fs).mono fun _ hloc => Or.inl hloc) fun _ => ?_
  refine undisturbed_bind
    (fun fs => (hfollows.lookup fs).mono fun _ hloc => Or.inl hloc) fun _ => ?_
  exact Script.keeps_read .refl _

/-- A benchmark raises, also one that has the hits, and then it changes nothing more. -/
theorem benchmark_raises (fs : FileSystem χ) : ∃ e,
    benchmark exec u float layout queryPath i fs =
      (.error e, (hitsAndSeconds exec u float layout queryPath i fs).2) := by
  cases hrun : hitsAndSeconds exec u float layout queryPath i fs with
  | mk result fs₁ =>
      cases result with
      | error e => exact ⟨e, Script.bind_of_eq_error hrun⟩
      | ok _ =>
          have hmake : ∃ e, makeResult i fs₁ = (.error e, fs₁) := by
            simp only [makeResult, Script.read]
            split
            · exact ⟨_, rfl⟩
            · exact ⟨_, rfl⟩
          obtain ⟨e, hmake⟩ := hmake
          exact ⟨e, (Script.bind_of_eq_ok hrun).trans hmake⟩

/-- A command that succeeded has ended with 0. -/
theorem runCommandIn_eq_ok {command : List Str} {cwd : Path} {output : Str}
    {fs fs' : FileSystem χ} (h : runCommandIn exec command cwd fs = (.ok output, fs')) :
    fs' = (exec command cwd fs).2 ∧ (exec command cwd fs).1.returncode = 0 ∧
      runCommand command (exec command cwd fs).1 = .ok output := by
  have hrun : runCommand command (exec command cwd fs).1 = .ok output := congrArg Prod.fst h
  refine ⟨(congrArg Prod.snd h).symm, ?_, hrun⟩
  rw [runCommand] at hrun
  split at hrun
  · cases hrun
  · case isFalse hcode => exact not_not.mp hcode

/-- After `unlink` there is no index. -/
theorem lookup_of_unlinkExisting {loc : Path} {fs fs' : FileSystem χ}
    (h : unlinkExisting loc fs = (.ok (), fs')) : fs'.files.lookup loc = none := by
  rw [unlinkExisting] at h
  split at h
  · case isTrue hnew =>
      cases h
      exact AList.lookup_eq_none.mpr fun hmem => hnew (Or.inr hmem)
  · split at h
    · cases h
      exact AList.lookup_erase loc fs.files
    · cases h

theorem textFiles_congr {dir dir' : Path} {fs fs' : FileSystem χ}
    (h : ∀ name, MatchesTxt name →
      fs'.files.lookup (dir' ++ [name]) = fs.files.lookup (dir ++ [name])) :
    textFiles dir' fs' = textFiles dir fs := by
  funext name
  rw [textFiles, textFiles]
  split
  · case isTrue htxt => exact h name htxt
  · rfl

/-- The script has the number of hits that the program counted. -/
theorem hits_of_runLookup {command : List Str} {elapsed : Nat} {result : Except String Nat}
    {n : Int} {seconds : α} (hfit : ∀ m, result = .ok m → m < 18446744073709551616)
    (h : runLookup u float command (lookupMain elapsed result) = .ok (n, seconds)) :
    ∃ m : Nat, result = .ok m ∧ n = m := by
  cases result with
  | error e => cases h
  | ok m =>
      cases hfloat : float (Str.ofChars (fixed6 elapsed)) with
      | ok seconds' =>
          rw [runLookup_lookupMain hfloat hfit] at h
          cases h
          exact ⟨m, rfl, rfl⟩
      | error e =>
          obtain ⟨-, hseconds, -⟩ := parseLookupOutput_eq_ok_iff.mp (show parseLookupOutput u float
            (universalNewlines (Str.ofChars ((lookupLines m elapsed).flatMap (· ++ ['\n'])))) =
              .ok (n, seconds) from h)
          rw [splitlines_lookupLines] at hseconds
          refine absurd ?_ (hseconds (Str.ofChars (secondsStem ++ fixed6 elapsed)) ?_ e)
          · rw [secondsOf_seconds, hfloat]
          · exact List.mem_cons_of_mem _ List.mem_cons_self

/-- Copying the catalog makes no directory where an index is copied to. -/
theorem Copied.free {dataDir target : Path} {fs fs' : FileSystem χ}
    (h : Copied dataDir target fs fs')
    (hindexes : ∀ j ∈ implementations layout, ¬ j.copiedIndex <+: target)
    (hfree : Free layout fs) : Free layout fs' := by
  intro j hj hmem
  cases (h.mem_dirs _).mp hmem with
  | inl hpre => exact hindexes j hj hpre
  | inr hmem => exact hfree j hj hmem.1

/-- Whatever was in the work directory, the index that is kept is that of the catalog. -/
theorem lookup_of_buildIndex (hfollows : i.Follows exec layout queryPath build hits)
    (hapart : i.Apart layout queryPath) (hi : i ∈ implementations layout)
    {fs fs' : FileSystem χ} (hfree : Free layout fs)
    (h : buildIndex exec layout i fs = (.ok (), fs')) :
    fs'.files.lookup i.copiedIndex = some (build (textFiles layout.dataDir fs)) := by
  rw [buildIndex] at h
  obtain ⟨_, fs₁, hcopy, h⟩ := Script.bind_eq_ok_iff.mp h
  obtain ⟨_, fs₂, hunlink, h⟩ := Script.bind_eq_ok_iff.mp h
  obtain ⟨_, fs₃, hbuilt, h⟩ := Script.bind_eq_ok_iff.mp h
  obtain ⟨_, fs₄, hran, h⟩ := Script.bind_eq_ok_iff.mp h
  obtain ⟨rfl, -⟩ := runCommandIn_eq_ok hbuilt
  obtain ⟨rfl, -⟩ := runCommandIn_eq_ok hran
  have hcatalog := copied_of_copyDataFiles hapart.outside hcopy
  have hcompiled := hfollows.buildBuilder fs₂
  have hunlinked : Undisturbed layout (fun loc => i.target <+: loc) fs₁ fs₂ := by
    have hkeeps : Undisturbed layout (fun loc => i.target <+: loc) fs₁
        (unlinkExisting i.index fs₁).2 := undisturbed_unlinkExisting hapart.target_index fs₁
    rwa [hunlink] at hkeeps
  -- no directory gets in the way of the copy of the index
  have hfree₁ := hcatalog.free hapart.copiedIndexes hfree
  have hfree₂ := hunlinked.free hfree₁
  have hfree₄ := (hfollows.builder (exec i.buildBuilder i.builderRepo fs₂).2).free
    (hcompiled.free hfree₂)
  obtain ⟨content, hwritable, hindex, rfl⟩ := copyFile_eq_ok (hfree₄ i hi) h
  -- the builder finds the catalog
  have htext : textFiles i.target (exec i.buildBuilder i.builderRepo fs₂).2 =
      textFiles layout.dataDir fs := by
    refine textFiles_congr fun name htxt => ?_
    have hpre : i.target <+: i.target ++ [name] := List.prefix_append _ _
    rw [hcompiled.lookup_eq hfree₂ _ (Or.inr (Or.inl hpre)), hunlinked.lookup_eq hfree₁ _ hpre,
      hcatalog.lookup_target, textFiles, if_pos htxt]
  -- and no index, so what it leaves it has written
  have hnone : (exec i.buildBuilder i.builderRepo fs₂).2.files.lookup i.index = none := by
    rw [hcompiled.lookup_eq hfree₂ _ (Or.inr (Or.inr (Or.inl rfl))),
      lookup_of_unlinkExisting hunlink]
  have hcontent : content = build (textFiles layout.dataDir fs) := by
    rcases hfollows.index (exec i.buildBuilder i.builderRepo fs₂).2 with hnew | hold
    · rw [hindex, htext] at hnew
      exact Option.some.inj hnew
    · rw [hindex, hnone] at hold
      cases hold
  rw [← hcontent]
  exact AList.lookup_insert _

/-- The lookup program reads that index. -/
theorem output_of_buildIndex (hfollows : i.Follows exec layout queryPath build hits)
    (hapart : i.Apart layout queryPath) (hi : i ∈ implementations layout)
    {fs fs' : FileSystem χ} {queries : χ} (hfree : Free layout fs)
    (hqueries : fs.files.lookup queryPath = some queries)
    (h : buildIndex exec layout i fs = (.ok (), fs'))
    (hcode : (exec i.buildLookup i.lookupRepo fs').1.returncode = 0) : ∃ elapsed,
      (exec [pathStr i.lookup, pathStr i.copiedIndex, pathStr queryPath] layout.workspace
        (exec i.buildLookup i.lookupRepo fs').2).1 =
          lookupMain elapsed (hits (build (textFiles layout.dataDir fs)) queries) := by
  refine hfollows.output _ _ _ hcode (lookup_of_buildIndex hfollows hapart hi hfree h) ?_
  have hkeeps := keeps_buildIndex hfollows hapart hi fs
  rw [h] at hkeeps
  rw [hkeeps.lookup_eq hfree _ (Or.inr rfl), hqueries]

/-- A benchmark that has the hits has those in an index of the catalog. -/
theorem hitsAndSeconds_ok (hfollows : i.Follows exec layout queryPath build hits)
    (hapart : i.Apart layout queryPath) (hi : i ∈ implementations layout)
    {fs fs' : FileSystem χ} {queries : χ} {n : Int} {seconds : α} (hfree : Free layout fs)
    (hqueries : fs.files.lookup queryPath = some queries)
    (hfit : ∀ m, hits (build (textFiles layout.dataDir fs)) queries = .ok m →
      m < 18446744073709551616)
    (h : hitsAndSeconds exec u float layout queryPath i fs = (.ok (n, seconds), fs')) :
    ∃ m : Nat, hits (build (textFiles layout.dataDir fs)) queries = .ok m ∧ n = m := by
  rw [hitsAndSeconds] at h
  obtain ⟨_, fs₁, hindex, h⟩ := Script.bind_eq_ok_iff.mp h
  obtain ⟨_, fs₂, hbuilt, h⟩ := Script.bind_eq_ok_iff.mp h
  obtain ⟨output, fs₃, hlookup, hparse⟩ := Script.bind_eq_ok_iff.mp h
  obtain ⟨rfl, hcode, -⟩ := runCommandIn_eq_ok hbuilt
  obtain ⟨-, -, houtput⟩ := runCommandIn_eq_ok hlookup
  obtain ⟨elapsed, hprocess⟩ :=
    output_of_buildIndex hfollows hapart hi hfree hqueries hindex hcode
  have hrun : runLookup u float [pathStr i.lookup, pathStr i.copiedIndex, pathStr queryPath]
      (lookupMain elapsed (hits (build (textFiles layout.dataDir fs)) queries)) =
        .ok (n, seconds) := by
    rw [runLookup, ← hprocess, houtput]
    exact congrArg Prod.fst hparse
  exact hits_of_runLookup hfit hrun

/-! ### Getting to the end -/

theorem runCommandIn_of_returncode {command : List Str} {cwd : Path} {fs : FileSystem χ}
    (h : (exec command cwd fs).1.returncode = 0) :
    ∃ output, runCommandIn exec command cwd fs = (.ok output, (exec command cwd fs).2) := by
  have hok : ∃ output, runCommand command (exec command cwd fs).1 = .ok output :=
    ⟨_, if_neg (not_not.mpr h)⟩
  obtain ⟨output, hok⟩ := hok
  exact ⟨output, Prod.ext hok rfl⟩

theorem unlinkExisting_eq_ok {loc : Path} {fs : FileSystem χ} (h : loc ∉ fs.dirs) :
    ∃ fs', unlinkExisting loc fs = (.ok (), fs') ∧ fs'.dirs = fs.dirs := by
  rw [unlinkExisting]
  split
  · exact ⟨fs, rfl, rfl⟩
  · case isFalse hex =>
      rw [if_pos ((not_not.mp hex).resolve_left h)]
      exact ⟨_, rfl, rfl⟩

/-- Where the commands succeed and nothing is in the way, an index is built and kept. -/
theorem buildIndex_eq_ok (hfollows : i.Follows exec layout queryPath build hits)
    (hapart : i.Apart layout queryPath) (hi : i ∈ implementations layout)
    (hsucceeds : i.Succeeds exec build) {fs : FileSystem χ} (hfree : Free layout fs)
    (h : Copyable fs layout.dataDir i.target) (hindex : i.index ∉ fs.dirs) :
    ∃ fs', buildIndex exec layout i fs = (.ok (), fs') := by
  obtain ⟨fs₁, hcopy, hcopied⟩ := copyDataFiles_eq h
  have hmade : ∀ p, p <+: i.target → p ∈ fs₁.dirs := fun p hpre =>
    (hcopied.mem_dirs p).mpr (Or.inl hpre)
  have hfree₁ := hcopied.free hapart.copiedIndexes hfree
  have hindex₁ : i.index ∉ fs₁.dirs := by
    intro hmem
    cases (hcopied.mem_dirs _).mp hmem with
    | inl hpre => exact hapart.index_target hpre
    | inr hmem => exact hindex hmem.1
  obtain ⟨fs₂, hunlink, hdirs₂⟩ := unlinkExisting_eq_ok hindex₁
  have hfree₂ : Free layout fs₂ := fun j hj => hdirs₂ ▸ hfree₁ j hj
  let fs₃ := (exec i.buildBuilder i.builderRepo fs₂).2
  have hdirs₃ : ∀ p, p <+: i.target → p ∈ fs₃.dirs := fun p hpre =>
    hsucceeds.dirs _ _ _ (hdirs₂ ▸ hmade p hpre)
  have hwritable₃ : fs₃.Writable i.index := by
    refine ⟨?_, hsucceeds.not_dir _ _ _ (hdirs₂ ▸ hindex₁)⟩
    rw [Implementation.index, List.dropLast_concat]
    exact hdirs₃ _ (List.prefix_append _ _)
  obtain ⟨_, hbuilt⟩ := runCommandIn_of_returncode (hsucceeds.buildBuilder fs₂)
  obtain ⟨hcode, hwritten⟩ := hsucceeds.builder fs₂ fs₃ rfl hwritable₃
  obtain ⟨_, hran⟩ := runCommandIn_of_returncode hcode
  have hfree₄ := (hfollows.builder fs₃).free ((hfollows.buildBuilder fs₂).free hfree₂)
  have hparent := hsucceeds.dirs [pathStr i.builder] i.buildDir fs₃
    (hdirs₃ _ hapart.copiedIndex_parent)
  rw [buildIndex, Script.bind_of_eq_ok hcopy, Script.bind_of_eq_ok hunlink,
    Script.bind_of_eq_ok hbuilt, Script.bind_of_eq_ok hran]
  exact ⟨_, copyFile_eq hwritten hapart.index_ne ⟨hparent, hfree₄ i hi⟩⟩

/-- A benchmark whose commands succeed has the hits in the index of the catalog. -/
theorem hitsAndSeconds_eq_ok (hfollows : i.Follows exec layout queryPath build hits)
    (hapart : i.Apart layout queryPath) (hi : i ∈ implementations layout)
    (hsucceeds : i.Succeeds exec build) {fs : FileSystem χ} (hfree : Free layout fs)
    (h : Copyable fs layout.dataDir i.target) (hindex : i.index ∉ fs.dirs) {queries : χ} {m : Nat}
    (hqueries : fs.files.lookup queryPath = some queries)
    (hhits : hits (build (textFiles layout.dataDir fs)) queries = .ok m)
    (hfit : m < 18446744073709551616)
    (hfloat : ∀ elapsed, ∃ seconds, float (Str.ofChars (fixed6 elapsed)) = .ok seconds) :
    ∃ seconds fs',
      hitsAndSeconds exec u float layout queryPath i fs = (.ok ((m : Int), seconds), fs') := by
  obtain ⟨fs₁, hbuild⟩ := buildIndex_eq_ok hfollows hapart hi hsucceeds hfree h hindex
  obtain ⟨_, hbuilt⟩ := runCommandIn_of_returncode (hsucceeds.buildLookup fs₁)
  obtain ⟨elapsed, hprocess⟩ := output_of_buildIndex hfollows hapart hi hfree hqueries hbuild
    (hsucceeds.buildLookup fs₁)
  obtain ⟨seconds, hseconds⟩ := hfloat elapsed
  have hrun : runLookup u float [pathStr i.lookup, pathStr i.copiedIndex, pathStr queryPath]
      (lookupMain elapsed (.ok m)) = .ok ((m : Int), seconds) :=
    runLookup_lookupMain hseconds (fun _ h => Except.ok.inj h ▸ hfit) _
  rw [hhits] at hprocess
  rw [runLookup, ← hprocess] at hrun
  obtain ⟨output, houtput, hparse⟩ := Results.bind_eq_ok_iff.mp hrun
  have hlookup : runCommandIn exec [pathStr i.lookup, pathStr i.copiedIndex, pathStr queryPath]
      layout.workspace (exec i.buildLookup i.lookupRepo fs₁).2 = (.ok output, _) :=
    Prod.ext houtput rfl
  rw [hitsAndSeconds, Script.bind_of_eq_ok hbuild, Script.bind_of_eq_ok hbuilt,
    Script.bind_of_eq_ok hlookup]
  exact ⟨seconds, _, Prod.ext hparse rfl⟩

end Measure

/-! ## The two layouts -/

section Layouts

variable {layout : Layout} {i : Implementation}

def queryPath (layout : Layout) : Path := layout.workDir ++ [Str.lit "queries.txt"]

/-- The names of the indexes that are kept. -/
def copiedNames : List Str := ["rust-purls.fst", "go-purls.fst"].map Str.lit

/-- Where indexes are copied to, in the work directory. -/
theorem exists_copiedIndex (hi : i ∈ implementations layout) :
    ∃ name ∈ copiedNames, i.copiedIndex = layout.workDir ++ [name] := by
  rcases List.mem_pair.mp hi with rfl | rfl
  · exact ⟨_, List.mem_cons_self, rfl⟩
  · exact ⟨_, List.mem_cons_of_mem _ List.mem_cons_self, rfl⟩

/-- A benchmark that works in directories of its own below the work directory, under names
that are not those of text files. -/
theorem Implementation.apart_of_names {name copied first last : Str}
    (hbuildDir : i.buildDir = layout.workDir ++ [name]) (hdataDir : i.dataDir = [first, last])
    (hcopied : i.copiedIndex = layout.workDir ++ [copied]) (hfirst : first ≠ Str.lit "purls.fst")
    (hlast : ¬ MatchesTxt last) (hname : ¬ MatchesTxt copied)
    (hother : name ∉ copiedNames) (houtside : ¬ i.target <+: layout.dataDir) :
    i.Apart layout (queryPath layout) := by
  have htarget : i.target = layout.workDir ++ [name, first] ++ [last] := by
    rw [target, hbuildDir, hdataDir]
    simp
  have hindex : i.index = layout.workDir ++ [name] ++ [Str.lit "purls.fst"] := by
    rw [index, hbuildDir]
  have hlength : i.target.length = layout.workDir.length + 3 := by simp [htarget]
  have hlength' : i.index.length = layout.workDir.length + 2 := by simp [hindex]
  have hquery : (queryPath layout).length = layout.workDir.length + 1 := by simp [queryPath]
  refine ⟨houtside, ?_, ?_, ?_, ?_, ?_, ?_, ?_, ?_⟩
  · rintro loc (⟨text, htxt, rfl⟩ | rfl) hpre
    · rcases List.prefix_concat_iff.mp hpre with heq | hpre
      · rw [htarget] at heq
        exact hlast (List.singleton_inj.mp (List.append_inj_right' heq rfl) ▸ htxt)
      · exact houtside hpre
    · have hle := hpre.length_le
      omega
  · rintro (⟨text, htxt, heq⟩ | heq)
    · rw [hindex] at heq
      rw [← List.singleton_inj.mp (List.append_inj_right' heq rfl)] at htxt
      exact absurd htxt (by decide)
    · have hlen := congrArg List.length heq
      omega
  · rintro (⟨text, htxt, heq⟩ | heq)
    · rw [hcopied] at heq
      exact hname (List.singleton_inj.mp (List.append_inj_right' heq rfl) ▸ htxt)
    · rw [hcopied, queryPath] at heq
      exact hname (List.singleton_inj.mp (List.append_cancel_left heq) ▸ by decide)
  · intro hpre
    have hle := hpre.length_le
    omega
  · intro hpre
    rw [hindex, htarget, List.append_assoc, List.append_assoc, List.prefix_append_right_inj] at hpre
    exact hfirst (List.cons_prefix_cons.mp (List.cons_prefix_cons.mp hpre).2).1.symm
  · rw [hcopied, List.dropLast_concat, htarget, List.append_assoc]
    exact List.prefix_append _ _
  · intro heq
    have hlen := congrArg List.length heq
    rw [hcopied, List.length_append, List.length_singleton] at hlen
    omega
  · intro j hj hpre
    obtain ⟨other, hmem, heq⟩ := exists_copiedIndex hj
    rw [heq, htarget, List.append_assoc, List.prefix_append_right_inj] at hpre
    exact hother ((List.cons_prefix_cons.mp hpre).1 ▸ hmem)

theorem apart_rustImplementation (h : ¬ (rustImplementation layout).target <+: layout.dataDir) :
    (rustImplementation layout).Apart layout (queryPath layout) :=
  Implementation.apart_of_names rfl rfl rfl (by decide) (by decide) (by decide) (by decide) h

theorem apart_goImplementation (h : ¬ (goImplementation layout).target <+: layout.dataDir) :
    (goImplementation layout).Apart layout (queryPath layout) :=
  Implementation.apart_of_names rfl rfl rfl (by decide) (by decide) (by decide) (by decide) h

end Layouts

/-! ## Runs -/

section Runs

variable {χ α : Type}

/-- Both benchmarks stay apart from the catalog if it is not below what they empty. -/
theorem apart_of_mem {layout : Layout} {i : Implementation} (hi : i ∈ implementations layout)
    (hout : ¬ i.target <+: layout.dataDir) : i.Apart layout (queryPath layout) := by
  rcases List.mem_pair.mp hi with rfl | rfl
  · exact apart_rustImplementation hout
  · exact apart_goImplementation hout

/-- What happens to the files, one thing after the other.  Of a benchmark it is noted what it
had parsed when it came to its `Result`, or why it did not get there. -/
inductive BenchEvent (α : Type) where
  | parsed (i : Implementation) (result : Except ScriptExn (Int × α))
  | other

/-- A benchmark, or something else that leaves the catalog and the queries alone, as the one
of the Python library does. -/
inductive BenchStep (exec : Exec χ) (u : UnicodeData) (float : Str → Except ScriptExn α)
    (layout : Layout) : FileSystem χ → BenchEvent α → FileSystem χ → Prop where
  | rust (fs : FileSystem χ) : BenchStep exec u float layout fs
      (.parsed (rustImplementation layout)
        (hitsAndSeconds exec u float layout (queryPath layout) (rustImplementation layout) fs).1)
      (benchmarkRust exec u float layout (queryPath layout) fs).2
  | go (fs : FileSystem χ) : BenchStep exec u float layout fs
      (.parsed (goImplementation layout)
        (hitsAndSeconds exec u float layout (queryPath layout) (goImplementation layout) fs).1)
      (benchmarkGo exec u float layout (queryPath layout) fs).2
  | other {fs fs' : FileSystem χ} :
      Undisturbed layout (Shared layout (queryPath layout)) fs fs' →
        BenchStep exec u float layout fs .other fs'

variable {exec : Exec χ} {u : UnicodeData} {float : Str → Except ScriptExn α} {layout : Layout}
  {build : Implementation → (Str → Option χ) → χ}
  {hits : Implementation → χ → χ → Except String Nat} {fs fs' : FileSystem χ}

theorem benchmark_snd {i : Implementation} :
    (benchmark exec u float layout (queryPath layout) i fs).2 =
      (hitsAndSeconds exec u float layout (queryPath layout) i fs).2 := by
  obtain ⟨e, hraise⟩ : ∃ e, benchmark exec u float layout (queryPath layout) i fs =
      (.error e, (hitsAndSeconds exec u float layout (queryPath layout) i fs).2) :=
    benchmark_raises fs
  rw [hraise]

/-- The steps of benchmarks are the runs of `hitsAndSeconds`. -/
theorem benchStep_parsed_iff {i : Implementation} {result : Except ScriptExn (Int × α)} :
    BenchStep exec u float layout fs (.parsed i result) fs' ↔ i ∈ implementations layout ∧
      hitsAndSeconds exec u float layout (queryPath layout) i fs = (result, fs') := by
  constructor
  · intro h
    cases h with
    | rust => exact ⟨List.mem_cons_self, Prod.ext rfl benchmark_snd.symm⟩
    | go => exact ⟨List.mem_cons_of_mem _ List.mem_cons_self, Prod.ext rfl benchmark_snd.symm⟩
  · rintro ⟨hi, h⟩
    have hfst : (hitsAndSeconds exec u float layout (queryPath layout) i fs).1 = result :=
      congrArg Prod.fst h
    have hsnd : (benchmark exec u float layout (queryPath layout) i fs).2 = fs' :=
      benchmark_snd.trans (congrArg Prod.snd h)
    rw [← hfst, ← hsnd]
    rcases List.mem_pair.mp hi with rfl | rfl
    · exact .rust fs
    · exact .go fs

/-- One step leaves the catalog and the queries alone. -/
theorem BenchStep.undisturbed {e : BenchEvent α}
    (hfollows : ∀ i ∈ implementations layout,
      i.Follows exec layout (queryPath layout) (build i) (hits i))
    (hout : ∀ i ∈ implementations layout, ¬ i.target <+: layout.dataDir)
    (h : BenchStep exec u float layout fs e fs') :
    Undisturbed layout (Shared layout (queryPath layout)) fs fs' := by
  cases e with
  | parsed i result =>
      obtain ⟨hi, hparsed⟩ := benchStep_parsed_iff.mp h
      have hkeeps : Undisturbed layout (Shared layout (queryPath layout)) fs
          (hitsAndSeconds exec u float layout (queryPath layout) i fs).2 :=
        keeps_hitsAndSeconds (hfollows i hi) (apart_of_mem hi (hout i hi)) hi fs
      rwa [hparsed] at hkeeps
  | other =>
      cases h with
      | other h => exact h

/-- Whatever was in the work directory and whatever the benchmarks before it have done, the
hits that a benchmark has parsed are those in an index of the catalog that was there at the
start. -/
theorem measurements_of_run {queries : χ}
    (hfollows : ∀ i ∈ implementations layout,
      i.Follows exec layout (queryPath layout) (build i) (hits i))
    (hout : ∀ i ∈ implementations layout, ¬ i.target <+: layout.dataDir) (hfree : Free layout fs)
    (hqueries : fs.files.lookup (queryPath layout) = some queries)
    (hfit : ∀ i ∈ implementations layout, ∀ m,
      hits i (build i (textFiles layout.dataDir fs)) queries = .ok m → m < 18446744073709551616)
    {es : List (BenchEvent α)} (hrun : Run (BenchStep exec u float layout) fs es fs') :
    ∀ i (n : Int) seconds, .parsed i (.ok (n, seconds)) ∈ es → ∃ m : Nat,
      hits i (build i (textFiles layout.dataDir fs)) queries = .ok m ∧ n = m := by
  intro i n seconds hmem
  obtain ⟨es₁, fs₁, fs₂, -, hrun₁, hstep⟩ := hrun.exists_step_of_mem hmem
  have hsame : Undisturbed layout (Shared layout (queryPath layout)) fs fs₁ := by
    refine hrun₁.invariant
      (p := fun _ fs₁ => Undisturbed layout (Shared layout (queryPath layout)) fs fs₁)
      (.refl fs) fun _ _ _ _ h hstep => ?_
    exact h.trans (hstep.undisturbed hfollows hout)
  have htext : textFiles layout.dataDir fs₁ = textFiles layout.dataDir fs :=
    textFiles_congr fun name htxt => hsame.lookup_eq hfree _ (Or.inl ⟨name, htxt, rfl⟩)
  obtain ⟨hi, hparsed⟩ := benchStep_parsed_iff.mp hstep
  rw [← htext] at hfit ⊢
  refine hitsAndSeconds_ok (hfollows i hi) (apart_of_mem hi (hout i hi)) hi (hsame.free hfree) ?_
    (hfit i hi) hparsed
  rw [hsame.lookup_eq hfree _ (Or.inr rfl), hqueries]

end Runs

/-! ### A machine

The builders write the first text file of the catalog as it is, and the lookup programs look
for the queries among its lines. -/

section Machine

def npmIndex (files : Str → Option (List Char)) : List Char :=
  (files (Str.lit "npm.txt")).getD []

def npmHits (index queries : List Char) : Except String Nat :=
  .ok ((rustLines queries).countP fun query => (rustLines index).contains query)

def runBuilder (i : Implementation) (fs : FileSystem (List Char)) :
    CompletedProcess × FileSystem (List Char) :=
  if h : fs.Writable i.index then
    (⟨0, []⟩, fs.write i.index (npmIndex (textFiles i.target fs)) h)
  else (⟨1, []⟩, fs)

def lookupCommand (layout : Layout) (i : Implementation) : List Str :=
  [pathStr i.lookup, pathStr i.copiedIndex, pathStr (queryPath layout)]

def runLookupProgram (layout : Layout) (i : Implementation) (fs : FileSystem (List Char)) :
    CompletedProcess × FileSystem (List Char) :=
  match fs.files.lookup i.copiedIndex, fs.files.lookup (queryPath layout) with
  | some index, some queries => (lookupMain 500000 (npmHits index queries), fs)
  | _, _ => (⟨1, []⟩, fs)

def npmExec (layout : Layout) : Exec (List Char) := fun command _ fs =>
  if command = [pathStr (rustImplementation layout).builder] then
    runBuilder (rustImplementation layout) fs
  else if command = [pathStr (goImplementation layout).builder] then
    runBuilder (goImplementation layout) fs
  else if command = lookupCommand layout (rustImplementation layout) then
    runLookupProgram layout (rustImplementation layout) fs
  else if command = lookupCommand layout (goImplementation layout) then
    runLookupProgram layout (goImplementation layout) fs
  else (⟨0, []⟩, fs)

/-- What the machine does with the commands of a benchmark. -/
structure Performs (exec : Exec (List Char)) (layout : Layout) (i : Implementation) : Prop where
  buildBuilder : ∀ fs, exec i.buildBuilder i.builderRepo fs = (⟨0, []⟩, fs)
  builder : ∀ fs, exec [pathStr i.builder] i.buildDir fs = runBuilder i fs
  buildLookup : ∀ fs, exec i.buildLookup i.lookupRepo fs = (⟨0, []⟩, fs)
  lookup : ∀ fs, exec (lookupCommand layout i) layout.workspace fs = runLookupProgram layout i fs

def npmLayout : Layout :=
  buildLayout [Str.lit "bench"] ⟨[Str.lit "repos"], some dataDir, some workDir⟩

theorem npmExec_eq {command : List Str} {cwd : Path} {fs : FileSystem (List Char)}
    {layout : Layout} (h : ∀ i ∈ implementations layout,
      command ≠ [pathStr i.builder] ∧ command ≠ lookupCommand layout i) :
    npmExec layout command cwd fs = (⟨0, []⟩, fs) := by
  have hrust := h (rustImplementation layout) List.mem_cons_self
  have hgo := h (goImplementation layout) (List.mem_cons_of_mem _ List.mem_cons_self)
  rw [npmExec, if_neg hrust.1, if_neg hgo.1, if_neg hrust.2, if_neg hgo.2]

/-- The machine knows the commands of both benchmarks. -/
theorem performs_npmExec {i : Implementation} (hi : i ∈ implementations npmLayout) :
    Performs (npmExec npmLayout) npmLayout i := by
  rcases List.mem_pair.mp hi with rfl | rfl
  · refine ⟨fun fs => npmExec_eq (by decide), fun fs => if_pos rfl,
      fun fs => npmExec_eq (by decide), fun fs => ?_⟩
    rw [npmExec, if_neg (by decide), if_neg (by decide), if_pos rfl]
  · refine ⟨fun fs => npmExec_eq (by decide), fun fs => ?_,
      fun fs => npmExec_eq (by decide), fun fs => ?_⟩
    · rw [npmExec, if_neg (by decide), if_pos rfl]
    · rw [npmExec, if_neg (by decide), if_neg (by decide), if_neg (by decide), if_pos rfl]

section Performs

variable {exec : Exec (List Char)} {layout : Layout} {i : Implementation}

/-- The builder touches no other file than its index. -/
theorem undisturbed_runBuilder {p : Path → Prop} (h : ¬ p i.index) (fs : FileSystem (List Char)) :
    Undisturbed layout p fs (runBuilder i fs).2 := by
  rw [runBuilder]
  split
  · case isTrue hwritable => exact undisturbed_write h hwritable
  · exact .refl fs

theorem dirs_runBuilder (fs : FileSystem (List Char)) : (runBuilder i fs).2.dirs = fs.dirs := by
  rw [runBuilder]
  split
  · rfl
  · rfl

theorem runLookupProgram_snd (fs : FileSystem (List Char)) :
    (runLookupProgram layout i fs).2 = fs := by
  rw [runLookupProgram]
  split
  · rfl
  · rfl

/-- The machine does what the script relies on. -/
theorem Performs.follows (h : Performs exec layout i) :
    i.Follows exec layout (queryPath layout) npmIndex npmHits where
  buildBuilder fs := by
    rw [h.buildBuilder]
    exact .refl fs
  builder fs := by
    rw [h.builder]
    exact undisturbed_runBuilder (fun hkept => hkept.2 rfl) fs
  index fs := by
    rw [h.builder, runBuilder]
    split
    · exact Or.inl (AList.lookup_insert _)
    · exact Or.inr rfl
  buildLookup fs := by
    rw [h.buildLookup]
    exact .refl fs
  lookup fs := by
    have hsame : (exec (lookupCommand layout i) layout.workspace fs).2 = fs := by
      rw [h.lookup, runLookupProgram_snd]
    exact hsame.symm ▸ .refl fs
  output fs index queries _ hindex hqueries := by
    refine ⟨500000, ?_⟩
    show (exec (lookupCommand layout i) layout.workspace _).1 = _
    rw [h.buildLookup, h.lookup, runLookupProgram, hindex, hqueries]

/-- Where no command makes or removes a directory, the benchmark gets to the hits. -/
theorem Performs.succeeds (h : Performs exec layout i)
    (hdirs : ∀ command cwd fs, (exec command cwd fs).2.dirs = fs.dirs) :
    i.Succeeds exec npmIndex where
  buildBuilder fs := by rw [h.buildBuilder]
  builder _ fs _ hwritable := by
    rw [h.builder, runBuilder, dif_pos hwritable]
    exact ⟨rfl, AList.lookup_insert _⟩
  buildLookup fs := by rw [h.buildLookup]
  dirs command cwd fs := by rw [hdirs]; exact fun _ hmem => hmem
  not_dir command cwd fs hindex := by rwa [hdirs]

end Performs

theorem dirs_npmExec (layout : Layout) (command : List Str) (cwd : Path)
    (fs : FileSystem (List Char)) : (npmExec layout command cwd fs).2.dirs = fs.dirs := by
  have hlookup : ∀ i, (runLookupProgram layout i fs).2.dirs = fs.dirs := fun i => by
    rw [runLookupProgram_snd]
  rw [npmExec]
  split
  · exact dirs_runBuilder fs
  · split
    · exact dirs_runBuilder fs
    · split
      · exact hlookup _
      · split
        · exact hlookup _
        · rfl

/-- A catalog of one package, and two queries. -/
def npmQueries : List Char := "pkg:npm/foo\npkg:npm/bar\n".toList

def npmFs : FileSystem (List Char) := benchFs.write (queryPath npmLayout) npmQueries (by decide)

def halfSeconds : Str → Except ScriptExn Rat := fun _ => .ok (1 / 2)

theorem copyable_npmFs : Copyable npmFs npmLayout.dataDir (rustImplementation npmLayout).target where
  outside := by decide
  no_file p hp hmem := by
    cases (AList.mem_insert _).mp hmem with
    | inl heq => exact absurd (heq ▸ hp) (by decide)
    | inr hmem => exact benchFs_no_file (by decide) p hp hmem
  no_dir name _ := benchFs_no_dir (by decide) name

theorem free_npmFs : Free npmLayout npmFs := by
  have hdirs : ∀ i ∈ implementations npmLayout, ¬ npmFs.IsDir i.copiedIndex := by decide
  exact hdirs

/-- A run in which the Rust benchmark gets to its hits, one of two queries. -/
theorem measurements_of_run_npmFs : ∃ es fs',
    Run (BenchStep (npmExec npmLayout) asciiData halfSeconds npmLayout) npmFs es fs' ∧
      (∃ seconds, .parsed (rustImplementation npmLayout) (.ok (1, seconds)) ∈ es) ∧
      ∀ i (n : Int) seconds, .parsed i (.ok (n, seconds)) ∈ es → ∃ m : Nat,
        npmHits (npmIndex (textFiles npmLayout.dataDir npmFs)) npmQueries = .ok m ∧ n = m := by
  have hqueries : npmFs.files.lookup (queryPath npmLayout) = some npmQueries :=
    AList.lookup_insert _
  have hhits : npmHits (npmIndex (textFiles npmLayout.dataDir npmFs)) npmQueries = .ok 1 := by
    decide
  have hout : ∀ i ∈ implementations npmLayout, ¬ i.target <+: npmLayout.dataDir := by decide
  have hrust : rustImplementation npmLayout ∈ implementations npmLayout := List.mem_cons_self
  have hindex : ¬ npmFs.IsDir (rustImplementation npmLayout).index := by decide
  obtain ⟨seconds, fs₁, hparsed⟩ : ∃ seconds fs₁, hitsAndSeconds (npmExec npmLayout) asciiData
      halfSeconds npmLayout (queryPath npmLayout) (rustImplementation npmLayout) npmFs =
        (.ok (1, seconds), fs₁) :=
    hitsAndSeconds_eq_ok (performs_npmExec hrust).follows (apart_of_mem hrust (hout _ hrust)) hrust
      ((performs_npmExec hrust).succeeds (dirs_npmExec npmLayout)) free_npmFs copyable_npmFs hindex
      hqueries hhits (by decide) fun _ => ⟨_, rfl⟩
  have hrun : Run (BenchStep (npmExec npmLayout) asciiData halfSeconds npmLayout) npmFs
      [.parsed (rustImplementation npmLayout) (.ok (1, seconds))] fs₁ :=
    Run.single (benchStep_parsed_iff.mpr ⟨hrust, hparsed⟩)
  refine ⟨_, fs₁, hrun, ⟨seconds, List.mem_cons_self⟩, ?_⟩
  refine measurements_of_run (fun i hi => (performs_npmExec hi).follows) hout free_npmFs hqueries
    (fun i hi m hm => ?_) hrun
  rw [hhits] at hm
  cases hm
  decide

end Machine

end Bench
