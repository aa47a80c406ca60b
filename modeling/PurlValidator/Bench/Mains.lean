import PurlValidator.Bench.DataFiles

/-!
# The two Python scripts

Both scripts load the catalog before they do anything else, and `load_purls` returns nothing
unless it raises.  An empty catalog is an error as well.  So neither script gets to the
benchmarks: what comes after the catalog is a parameter, `rest`, and does not matter.
`alternativeMain_raises` and `goRustPyMain_raises` say what is raised, which is decided by the
first text file that the loader does not get past.

`go-rust-py_benchmark.py` looks for the sibling repositories and makes its work directory
first.  That directory, with the parents that were missing, is all that a run of it leaves
behind.
-/

namespace Bench

open Py (Str isSpace fileLines)
open Purl (Exn Path FileSystem)

/-! ## Loading from a directory -/

/-- `input_file.open("r")`, for what a glob has found. -/
def openText (loc : Path) (fs : FileSystem (List Char)) : Except ScriptExn Str :=
  match fs.files.lookup loc with
  | some text => .ok (Str.ofChars text)
  | none => .error (.exn (.isADirectoryError loc))

/-- The body of the outer loop of `load_purls`. -/
def loadInput (dir : Path) (fs : FileSystem (List Char)) (purls : List Str) (name : Str) :
    Except ScriptExn (List Str) := do
  let lines ← openText (dir ++ [name]) fs
  ((fileLines lines).foldlM loadLine purls).mapError .exn

/-- `load_purls`, where a directory may match the glob. -/
def loadPurlsIn (w : SetWalk Str) (path : Path) (fs : FileSystem (List Char)) :
    Except ScriptExn (List Str × Nat) := do
  let inputFiles := globTxt path fs
  let purls ← inputFiles.foldlM (loadInput path fs) []
  return (w.sorted purls, inputFiles.length)

/-! ## `alternative_benchmark.py` -/

/-- `str(path)` of an absolute path. -/
def pathStr (p : Path) : Str := Str.lit "/" ++ (Str.lit "/").intercalate p

def noPurls (dir : Path) : ScriptExn := .exception (Str.lit "No PURLs in " ++ pathStr dir)

/-- What both scripts do with a catalog. -/
def loadCatalog (w : SetWalk Str) (dir : Path) (fs : FileSystem (List Char)) :
    Except ScriptExn (List Str × Nat) := do
  let (purls, fileCount) ← loadPurlsIn w dir fs
  if purls.isEmpty then .error (noPurls dir) else return (purls, fileCount)

/-- `main`, up to the queries. -/
def alternativeMain {α : Type} (w : SetWalk Str) (input : Path)
    (rest : List Str → Nat → Except ScriptExn α) (fs : FileSystem (List Char)) :
    Except ScriptExn α := do
  let (purls, fileCount) ← loadCatalog w input fs
  rest purls fileCount

/-! ## `go-rust-py_benchmark.py` -/

structure Layout where
  workspace : Path
  pythonRepo : Path
  rustRepo : Path
  goRepo : Path
  dataDir : Path
  workDir : Path
  rustLookupProject : Path
  goLookupProject : Path

/-- The options that are paths, without the one for the report. -/
structure Args where
  workspace : Path
  dataDir : Option Path
  workDir : Option Path

/-- `build_layout`, for a script in the directory `benchDir`. -/
def buildLayout (benchDir : Path) (args : Args) : Layout :=
  let pythonRepo := args.workspace ++ [Str.lit "purl-validator"]
  let rustRepo := args.workspace ++ [Str.lit "purl-validator.rs"]
  let goRepo := args.workspace ++ [Str.lit "purlvalidator-go"]
  { workspace := args.workspace
    pythonRepo
    rustRepo
    goRepo
    dataDir := args.dataDir.getD (rustRepo ++ [Str.lit "fst_builder", Str.lit "data"])
    workDir := args.workDir.getD (pythonRepo ++ [Str.lit "tmp", Str.lit "implementation-bench"])
    rustLookupProject := benchDir ++ [Str.lit "rust-lookup-bench"]
    goLookupProject := benchDir ++ [Str.lit "go-lookup-bench"] }

def requiredPaths (layout : Layout) : List Path :=
  [layout.pythonRepo ++ [Str.lit "src", Str.lit "purl_validator", Str.lit "__init__.py"],
    layout.rustRepo ++ [Str.lit "Cargo.toml"],
    layout.goRepo ++ [Str.lit "go.mod"],
    layout.dataDir,
    layout.rustLookupProject ++ [Str.lit "Cargo.toml"],
    layout.goLookupProject ++ [Str.lit "go.mod"]]

/-- `validate_layout`. -/
def validateLayout {χ : Type} (layout : Layout) (fs : FileSystem χ) : Except ScriptExn Unit :=
  let missing := (requiredPaths layout).filter fun path => ¬ fs.Exists path
  if missing.isEmpty then .ok ()
  else
    let formatted := (Str.lit "\n").intercalate
      (missing.map fun path => Str.lit "- " ++ pathStr path)
    .error (.exception (Str.lit "Missing required paths:\n" ++ formatted))

/-- `dir.mkdir(parents=True, exist_ok=True)`. -/
def mkdirExistOk {χ : Type} (dir : Path) (fs : FileSystem χ) :
    Except ScriptExn Unit × FileSystem χ :=
  if fs.Exists dir ∧ dir ∉ fs.files then (.ok (), fs) else mkdirParents dir fs

/-- `main`, up to the queries. -/
def goRustPyMain {α : Type} (w : SetWalk Str) (benchDir : Path) (args : Args)
    (rest : List Str → Script (FileSystem (List Char)) ScriptExn α) :
    Script (FileSystem (List Char)) ScriptExn α := do
  let layout := buildLayout benchDir args
  Script.read (validateLayout layout)
  mkdirExistOk layout.workDir
  let (purls, _) ← Script.read (loadCatalog w layout.dataDir)
  rest purls

/-! ## What the loader raises -/

section Load

variable {w : SetWalk Str} {dir : Path} {fs : FileSystem (List Char)}

/-- `'set' object has no attribute 'append'`. -/
def noAppend : Exn := .attributeError (Str.lit "'set' object has no attribute 'append'")

/-- Why the loader does not get past what a glob has found: it is a directory, or not every
line is blank. -/
def inputRefusal (dir : Path) (fs : FileSystem (List Char)) (name : Str) : Option ScriptExn :=
  match fs.files.lookup (dir ++ [name]) with
  | none => some (.exn (.isADirectoryError (dir ++ [name])))
  | some text => if (Str.ofChars text).all isSpace then none else some (.exn noAppend)

theorem inputRefusal_eq {f : DataFile} (h : fs.files.lookup (dir ++ [f.name]) = some f.text) :
    inputRefusal dir fs f.name =
      if ∀ p ∈ Str.ofChars f.text, isSpace p = true then none else some (.exn noAppend) := by
  rw [inputRefusal, h]
  simp only [List.all_eq_true]

theorem loadLine_eq (purls : List Str) (line : Str) :
    loadLine purls line = if line.strip = [] then .ok purls else .error noAppend :=
  ite_not ..

/-- The first line that is not blank raises. -/
theorem foldlM_loadLine (purls : List Str) (text : Str) :
    (fileLines text).foldlM loadLine purls =
      if ∀ p ∈ text, isSpace p = true then .ok purls else .error noAppend := by
  rw [Results.foldlM_keep_eq loadLine_eq]
  simp only [Py.forall_strip_eq_nil_iff]

theorem loadInput_eq (purls : List Str) (name : Str) :
    loadInput dir fs purls name = (inputRefusal dir fs name).elim (.ok purls) .error := by
  rw [loadInput, inputRefusal, openText]
  cases fs.files.lookup (dir ++ [name]) with
  | none => rfl
  | some text =>
      show ((fileLines (Str.ofChars text)).foldlM loadLine purls).mapError _ = _
      rw [foldlM_loadLine]
      simp only [List.all_eq_true]
      split
      · rfl
      · rfl

/-- The loader raises at the first text file that it does not get past, or returns nothing. -/
theorem loadPurlsIn_eq : loadPurlsIn w dir fs =
    ((globTxt dir fs).findSome? (inputRefusal dir fs)).elim
      (.ok ([], (globTxt dir fs).length)) .error := by
  have hloop : (globTxt dir fs).foldlM (loadInput dir fs) [] =
      ((globTxt dir fs).findSome? (inputRefusal dir fs)).elim (.ok []) .error := by
    rw [Results.foldlM_eq_findSome? loadInput_eq, List.foldl_fixed]
  have hsorted : w.sorted [] = [] := List.eq_nil_iff_forall_not_mem.mpr fun p hp =>
    List.not_mem_nil (w.mem_sorted.mp hp)
  rw [loadPurlsIn]
  simp only [hloop]
  cases (globTxt dir fs).findSome? (inputRefusal dir fs) with
  | some e => rfl
  | none => exact congrArg (fun purls => Except.ok (purls, _)) hsorted

/-- The files that the glob finds, where it finds no directories. -/
theorem length_globTxt (hdirs : ∀ name, MatchesTxt name → dir ++ [name] ∉ fs.dirs) :
    (globTxt dir fs).length = ((dataFiles dir fs).filter fun f => MatchesTxt f.name).length := by
  have hnone : (fs.dirs.filterMap (nameIn dir)).filter (fun name => MatchesTxt name) = [] := by
    refine List.filter_eq_nil_iff.mpr fun name hname htxt => ?_
    obtain ⟨p, hp, hin⟩ := List.mem_filterMap.mp hname
    rw [nameIn_eq_some_iff] at hin
    exact hdirs name (of_decide_eq_true htxt) (hin ▸ hp)
  have hnames : fs.files.keys.filterMap (nameIn dir) = (dataFiles dir fs).map DataFile.name := by
    rw [AList.keys, List.keys, List.filterMap_map, dataFiles, List.map_filterMap]
    refine List.filterMap_congr fun f _ => ?_
    simp [Option.map_map, Function.comp_def]
  rw [globTxt, List.length_insertionSort, List.filterMap_append, List.filter_append, hnone, hnames,
    List.nil_append, List.filter_map, List.length_map]
  rfl

/-- An error of the loader is that of its `append`. -/
theorem loadPurls_eq (path : List DataFile) : loadPurls w path =
    if ∀ f ∈ path, MatchesTxt f.name → ∀ p ∈ Str.ofChars f.text, isSpace p = true then
      .ok ([], (path.filter fun f => MatchesTxt f.name).length)
    else .error noAppend := by
  split
  · case isTrue hblank => exact loadPurls_eq_ok_iff.mpr ⟨hblank, rfl, rfl⟩
  · case isFalse hblank =>
      have hfile : ¬ ∀ f ∈ sortFiles (path.filter fun f => MatchesTxt f.name),
          ∀ p ∈ Str.ofChars f.text, isSpace p = true := by
        intro hall
        refine hblank fun f hf htxt => hall f ?_
        rw [sortFiles, List.mem_insertionSort, List.mem_filter, decide_eq_true_iff]
        exact ⟨hf, htxt⟩
      have hloop : (sortFiles (path.filter fun f => MatchesTxt f.name)).foldlM
          (fun purls f => (fileLines (Str.ofChars f.text)).foldlM loadLine purls) [] =
            .error noAppend :=
        (Results.foldlM_keep_eq fun purls (f : DataFile) =>
          foldlM_loadLine purls (Str.ofChars f.text)).trans (if_neg hfile)
      rw [loadPurls, hloop]
      rfl

/-- Where the glob finds no directories, this is `load_purls` of the data files. -/
theorem loadPurlsIn_eq_loadPurls (hdirs : ∀ name, MatchesTxt name → dir ++ [name] ∉ fs.dirs) :
    loadPurlsIn w dir fs = (loadPurls w (dataFiles dir fs)).mapError .exn := by
  rw [loadPurlsIn_eq, loadPurls_eq]
  cases hfind : (globTxt dir fs).findSome? (inputRefusal dir fs) with
  | none =>
      have hblank : ∀ f ∈ dataFiles dir fs, MatchesTxt f.name →
          ∀ p ∈ Str.ofChars f.text, isSpace p = true := by
        intro f hf htxt
        have hlookup := mem_dataFiles.mp hf
        have hname : f.name ∈ globTxt dir fs := mem_globTxt.mpr
          ⟨htxt, Or.inr (FileSystem.mem_files_iff.mpr ⟨f.text, hlookup⟩)⟩
        have hnone := List.findSome?_eq_none_iff.mp hfind _ hname
        rw [inputRefusal_eq hlookup] at hnone
        by_contra hnot
        rw [if_neg hnot] at hnone
        cases hnone
      rw [if_pos hblank, length_globTxt hdirs]
      rfl
  | some e =>
      obtain ⟨name, hname, hrefusal⟩ := List.exists_of_findSome?_eq_some hfind
      obtain ⟨htxt, hex⟩ := mem_globTxt.mp hname
      obtain ⟨text, htext⟩ := FileSystem.mem_files_iff.mp (hex.resolve_left (hdirs name htxt))
      rw [inputRefusal_eq (f := ⟨name, text⟩) htext] at hrefusal
      split at hrefusal
      · cases hrefusal
      · case isFalse hnot =>
          cases hrefusal
          rw [if_neg fun hblank => hnot (hblank ⟨name, text⟩ (mem_dataFiles.mpr htext) htxt)]
          rfl

end Load

/-! ## How the scripts end -/

/-- What either script raises over a catalog. -/
def catalogError (dir : Path) (fs : FileSystem (List Char)) : ScriptExn :=
  ((globTxt dir fs).findSome? (inputRefusal dir fs)).getD (noPurls dir)

theorem loadCatalog_eq (w : SetWalk Str) (dir : Path) (fs : FileSystem (List Char)) :
    loadCatalog w dir fs = .error (catalogError dir fs) := by
  rw [loadCatalog, catalogError, loadPurlsIn_eq]
  cases (globTxt dir fs).findSome? (inputRefusal dir fs) with
  | some e => rfl
  | none => rfl

theorem alternativeMain_raises {α : Type} (w : SetWalk Str) (input : Path)
    (rest : List Str → Nat → Except ScriptExn α) (fs : FileSystem (List Char)) :
    alternativeMain w input rest fs = .error (catalogError input fs) := by
  rw [alternativeMain, loadCatalog_eq]
  rfl

/-- The sibling repositories are there, and no file is in the way of the work directory. -/
def Ready {χ : Type} (layout : Layout) (fs : FileSystem χ) : Prop :=
  (∀ path ∈ requiredPaths layout, fs.Exists path) ∧ ∀ p, p <+: layout.workDir → p ∉ fs.files

section Main

variable {χ : Type} {dir : Path} {layout : Layout} {fs : FileSystem χ}

theorem validateLayout_eq_ok_iff :
    validateLayout layout fs = .ok () ↔ ∀ path ∈ requiredPaths layout, fs.Exists path := by
  rw [validateLayout]
  split
  · case isTrue h => simpa using h
  · case isFalse h => simpa using h

/-- The directory is made, unless a file is in the way. -/
theorem made_of_mkdirExistOk (h : ∀ p, p <+: dir → p ∉ fs.files) :
    ∃ fs', mkdirExistOk dir fs = (.ok (), fs') ∧ FileSystem.Made dir fs fs' := by
  rw [mkdirExistOk]
  split
  · case isTrue hex =>
      refine ⟨fs, rfl, fun p => ⟨Or.inl, ?_⟩, rfl⟩
      rintro (hp | hpre)
      · exact hp
      · exact FileSystem.mem_dirs_of_prefix_of_mem hpre (hex.1.resolve_right hex.2)
  · case isFalse hnot =>
      have hdir : dir ∉ fs.dirs := fun hmem => hnot ⟨Or.inl hmem, h dir List.prefix_rfl⟩
      have hfiles : ∀ p ∈ dir.inits, p ∉ fs.files := fun p hp => h p ((List.mem_inits _ _).mp hp)
      exact ⟨_, mkdirParents_eq hfiles hdir, FileSystem.made_makeDirs hfiles⟩

/-- A file in the way is an error, or there is no need to make anything. -/
theorem mkdirExistOk_snd (h : ∃ p, p <+: dir ∧ p ∈ fs.files) : (mkdirExistOk dir fs).2 = fs := by
  rw [mkdirExistOk]
  split
  · rfl
  · rw [mkdirParents]
    split
    · rfl
    · split
      · case isTrue hfiles =>
          obtain ⟨p, hpre, hp⟩ := h
          exact absurd hp (hfiles p ((List.mem_inits _ _).mpr hpre))
      · rfl

end Main

/-- For the layout that the script builds, whatever is in the catalog: it raises, and makes no
more than its work directory. -/
theorem goRustPyMain_raises {α : Type} (w : SetWalk Str) (benchDir : Path) (args : Args)
    (rest : List Str → Script (FileSystem (List Char)) ScriptExn α)
    (fs : FileSystem (List Char)) :
    ∃ e fs', goRustPyMain w benchDir args rest fs = (.error e, fs') ∧
      (Ready (buildLayout benchDir args) fs →
        e = catalogError (buildLayout benchDir args).dataDir fs' ∧
          FileSystem.Made (buildLayout benchDir args).workDir fs fs') ∧
      (¬ Ready (buildLayout benchDir args) fs → fs' = fs) := by
  simp only [goRustPyMain]
  generalize buildLayout benchDir args = layout
  have hcatalog : ∀ fs₁, Script.read (loadCatalog w layout.dataDir) fs₁ =
      (.error (catalogError layout.dataDir fs₁), fs₁) := fun fs₁ =>
    Prod.ext (loadCatalog_eq w layout.dataDir fs₁) rfl
  cases hvalid : validateLayout layout fs with
  | error e =>
      have hread : Script.read (validateLayout layout) fs = (.error e, fs) := Prod.ext hvalid rfl
      refine ⟨e, fs, Script.bind_of_eq_error hread, fun hready => ?_, fun _ => rfl⟩
      rw [validateLayout_eq_ok_iff.mpr hready.1] at hvalid
      cases hvalid
  | ok _ =>
      have hread : Script.read (validateLayout layout) fs = (.ok (), fs) := Prod.ext hvalid rfl
      rw [Script.bind_of_eq_ok hread]
      have hpaths := validateLayout_eq_ok_iff.mp hvalid
      by_cases hfiles : ∀ p, p <+: layout.workDir → p ∉ fs.files
      · obtain ⟨fs₁, hmkdir, hmade⟩ := made_of_mkdirExistOk hfiles
        rw [Script.bind_of_eq_ok hmkdir, Script.bind_of_eq_error (hcatalog fs₁)]
        exact ⟨_, fs₁, rfl, fun _ => ⟨rfl, hmade⟩, fun hnot => absurd ⟨hpaths, hfiles⟩ hnot⟩
      · have hway : ∃ p, p <+: layout.workDir ∧ p ∈ fs.files := by
          simpa using hfiles
        have hsame := mkdirExistOk_snd hway
        cases hmkdir : mkdirExistOk layout.workDir fs with
        | mk result fs₁ =>
            rw [hmkdir] at hsame
            cases hsame
            cases result with
            | error e =>
                exact ⟨e, fs₁, Script.bind_of_eq_error hmkdir,
                  fun hready => absurd hready.2 hfiles, fun _ => rfl⟩
            | ok _ =>
                rw [Script.bind_of_eq_ok hmkdir, Script.bind_of_eq_error (hcatalog fs₁)]
                exact ⟨_, fs₁, rfl, fun hready => absurd hready.2 hfiles, fun _ => rfl⟩

end Bench
