import PurlValidator.Index.History

/-!
# The shipped index

`PurlValidator()` opens the index in the directory of the package, and a program may open a
map that another program built.  The histories of `Step` open only what they built
themselves.  In those of `OpenStep` a validator can be asked for on any location, also where
there is no file or one that is no map.

A build writes to a directory that is new, so it changes no file (`createPurlMap_keeps`).
Therefore a validator never changes its mind (`answers_stable`), and the shipped index
answers as it did before the first build (`shipped_of_run`).  Nothing is assumed of `ducer`
here: this holds of builds that fail halfway as well.
-/

namespace Purl

open Py (Str)
open Utf8 (Bytes)

/-! ## Files are kept -/

/-- The files of the one are files of the other, with what they hold. -/
def FileSystem.Keeps {χ : Type} (fs fs' : FileSystem χ) : Prop :=
  ∀ loc image, fs.files.lookup loc = some image → fs'.files.lookup loc = some image

namespace FileSystem.Keeps

variable {χ : Type} {fs fs' fs'' : FileSystem χ} {loc : Path}

theorem refl (fs : FileSystem χ) : fs.Keeps fs := fun _ _ h => h

/-- What is kept twice is kept. -/
theorem trans (h : fs.Keeps fs') (h' : fs'.Keeps fs'') : fs.Keeps fs'' :=
  fun loc image hloc => h' loc image (h loc image hloc)

/-- A file that was there holds what it held. -/
theorem lookup_eq (h : fs.Keeps fs') (hloc : loc ∈ fs.files) :
    fs'.files.lookup loc = fs.files.lookup loc := by
  obtain ⟨image, himage⟩ := mem_files_iff.mp hloc
  rw [himage, h loc image himage]

theorem mem (h : fs.Keeps fs') (hloc : loc ∈ fs.files) : loc ∈ fs'.files :=
  (mem_files_congr (h.lookup_eq hloc)).mpr hloc

end FileSystem.Keeps

section Calls

variable {fromString : Str → Except Exn PackageURL} {w : SetWalk Bytes} {d : Ducer}
  {getTempDir : FileSystem d.Image → Path × FileSystem d.Image} {purls : List PyObj}
  {fs fs' : FileSystem d.Image}

/-- A build changes no file, however it ends. -/
theorem createPurlMap_keeps {result : Except Exn Path} (htemp : MakesTempDir getTempDir fs)
    (h : createPurlMap fromString w d getTempDir purls fs = (result, fs')) : fs.Keeps fs' := by
  cases hp : preparedPurlMapEntries fromString w purls with
  | error e =>
      simp only [createPurlMap, hp] at h
      cases h
      exact .refl fs
  | ok items =>
      obtain ⟨fs₁, hcall, -, hfiles⟩ := createPurlMap_eq (d := d) htemp hp
      rw [hcall] at h
      cases h
      intro loc image hloc
      have hne : loc ≠ purlsMap (getTempDir fs).1 := by
        rintro rfl
        exact not_exists_purlsMap htemp.not_exists
          (Or.inr (FileSystem.mem_files_iff.mpr ⟨image, hloc⟩))
      rw [hfiles, AList.lookup_insert_ne hne, hloc]

/-- A validator is constructed on a file that is not empty and that `ducer` takes. -/
theorem init_eq_ok_iff {loc : Path} {v : PurlValidator} :
    PurlValidator.init d loc fs = .ok v ↔ v = ⟨⟨loc⟩⟩ ∧
      ∃ image, fs.files.lookup loc = some image ∧ d.size image ≠ 0 ∧ d.check image = .ok () := by
  rw [PurlValidator.init, loadMap, FileSystem.readFile]
  cases hfile : fs.files.lookup loc with
  | none => simp [Except.map, bind, Except.bind]
  | some image =>
      by_cases hsize : d.size image = 0
      · simp [hsize, Except.map, bind, Except.bind]
      · cases hcheck : d.check image with
        | error e => simp [hsize, hcheck, Except.map, bind, Except.bind]
        | ok u =>
            simp [hsize, hcheck, Except.map, bind, Except.bind, pure, Except.pure,
              eq_comm (b := v)]

/-- A validator answers later what it answers now. -/
theorem FileSystem.Keeps.validatePurl_eq (h : fs.Keeps fs') {v : PurlValidator}
    (hloc : v.purlMap.location ∈ fs.files) (purl : PyObj) :
    v.validatePurl fromString d purl fs' = v.validatePurl fromString d purl fs := by
  rw [PurlValidator.validatePurl, PurlValidator.validatePurl, h.lookup_eq hloc]

end Calls

/-! ## Histories that open any file -/

/-- A call as before, or `PurlValidator` on any location. -/
inductive OpenStep (fromString : Str → Except Exn PackageURL) (d : Ducer) :
    World d → Event → World d → Prop where
  | call {world world' : World d} {e : Event} :
      Step fromString d world e world' → OpenStep fromString d world e world'
  | purlValidator {world : World d} {loc : Path} {result : Except Exn PurlValidator} :
      PurlValidator.init d loc world.fs = result →
      OpenStep fromString d world (.purlValidator loc result)
        ⟨world.fs, world.locations, result.toOption.toList ++ world.validators⟩

variable {fromString : Str → Except Exn PackageURL} {d : Ducer} {fs₀ : FileSystem d.Image}
  {world world' : World d} {es : List Event}

/-- No call changes a file. -/
theorem OpenStep.keeps {e : Event} (h : OpenStep fromString d world e world') :
    world.fs.Keeps world'.fs := by
  cases h with
  | call hstep =>
      cases hstep with
      | createPurlMap htemp hcall => exact createPurlMap_keeps htemp hcall
      | purlValidator _ _ => exact .refl _
      | validatePurl _ _ => exact .refl _
  | purlValidator _ => exact .refl _

/-- A step constructs its validators on files. -/
theorem OpenStep.mem_validators {e : Event} (h : OpenStep fromString d world e world')
    {v : PurlValidator} (hv : v ∈ world'.validators) :
    v ∈ world.validators ∨ v.purlMap.location ∈ world'.fs.files := by
  have hopened : ∀ {loc : Path} {result : Except Exn PurlValidator},
      PurlValidator.init d loc world.fs = result →
      v ∈ result.toOption.toList ++ world.validators →
      v ∈ world.validators ∨ v.purlMap.location ∈ world.fs.files := by
    intro loc result hinit hmem
    rcases List.mem_append.mp hmem with hmem | hmem
    · cases result with
      | error e => cases hmem
      | ok v' =>
          obtain ⟨rfl, image, hfile, -⟩ := init_eq_ok_iff.mp hinit
          rw [List.mem_singleton.mp hmem]
          exact Or.inr (FileSystem.mem_files_iff.mpr ⟨image, hfile⟩)
    · exact Or.inl hmem
  cases h with
  | call hstep =>
      cases hstep with
      | createPurlMap _ _ => exact Or.inl hv
      | purlValidator _ hinit => exact hopened hinit hv
      | validatePurl _ _ => exact Or.inl hv
  | purlValidator hinit => exact hopened hinit hv

/-- Whatever was asked in the events `es` can be asked again in the world that they lead to. -/
structure Repeatable (fromString : Str → Except Exn PackageURL) (fs₀ : FileSystem d.Image)
    (es : List Event) (world : World d) : Prop where
  keeps : fs₀.Keeps world.fs
  answered : ∀ {v purl result}, .validatePurl v purl result ∈ es →
    v.purlMap.location ∈ world.fs.files ∧ v.validatePurl fromString d purl world.fs = result
  mapped : ∀ v ∈ world.validators, v.purlMap.location ∈ world.fs.files

theorem Repeatable.start : Repeatable fromString fs₀ [] (World.start fs₀) where
  keeps := .refl fs₀
  answered h := nomatch h
  mapped _ hv := nomatch hv

/-- A call leaves what was asked before it repeatable. -/
theorem Repeatable.snoc (h : Repeatable fromString fs₀ es world) {e : Event}
    (hstep : OpenStep fromString d world e world') :
    Repeatable fromString fs₀ (es ++ [e]) world' := by
  have hkeeps := hstep.keeps
  refine ⟨h.keeps.trans hkeeps, fun {v purl result} he => ?_, fun v hv => ?_⟩
  · rcases List.mem_append.mp he with he | he
    · obtain ⟨hloc, hask⟩ := h.answered he
      exact ⟨hkeeps.mem hloc, by rw [hkeeps.validatePurl_eq hloc, hask]⟩
    · obtain rfl := List.mem_singleton.mp he
      cases hstep with
      | call hstep =>
          cases hstep with
          | validatePurl hv hask => exact ⟨h.mapped v hv, hask⟩
  · cases hstep.mem_validators hv with
    | inl hv => exact hkeeps.mem (h.mapped v hv)
    | inr hloc => exact hloc

/-- After any history, everything that was asked can be asked again. -/
theorem Repeatable.of_run (hrun : Run (OpenStep fromString d) (World.start fs₀) es world) :
    Repeatable fromString fs₀ es world :=
  hrun.invariant (p := Repeatable fromString fs₀) .start fun _ _ _ _ h hstep => h.snoc hstep

/-- A validator never changes its mind: asked for PURLs with one entry, at any two times of a
history, it answers the same. -/
theorem answers_stable (hrun : Run (OpenStep fromString d) (World.start fs₀) es world)
    {v : PurlValidator} {purl purl' : PyObj} {result result' : Except Exn Bool}
    (hentry : createPurlMapEntry fromString purl = createPurlMapEntry fromString purl')
    (h : .validatePurl v purl result ∈ es) (h' : .validatePurl v purl' result' ∈ es) :
    result = result' := by
  have hrepeat := Repeatable.of_run hrun
  rw [← (hrepeat.answered h).2, ← (hrepeat.answered h').2, PurlValidator.validatePurl,
    PurlValidator.validatePurl, hentry]

/-- The shipped index is opened, and asked, as at the start, whatever was built meanwhile. -/
theorem shipped_of_run {packageDir : Path} (hfile : purlMapLocation packageDir ∈ fs₀.files)
    (hrun : Run (OpenStep fromString d) (World.start fs₀) es world) :
    (∀ result, .purlValidator (purlMapLocation packageDir) result ∈ es →
      result = PurlValidator.init d (purlMapLocation packageDir) fs₀) ∧
    ∀ v purl result, v.purlMap.location = purlMapLocation packageDir →
      .validatePurl v purl result ∈ es → result = v.validatePurl fromString d purl fs₀ := by
  have hrepeat := Repeatable.of_run hrun
  refine ⟨fun result he => ?_, fun v purl result hv he => ?_⟩
  · obtain ⟨es₁, world₁, world₂, -, hrun₁, hstep⟩ := hrun.exists_step_of_mem he
    have hinit : PurlValidator.init d (purlMapLocation packageDir) world₁.fs = result := by
      cases hstep with
      | call hstep =>
          cases hstep with
          | purlValidator _ hinit => exact hinit
      | purlValidator hinit => exact hinit
    rw [← hinit, init_congr hfile ((Repeatable.of_run hrun₁).keeps.lookup_eq hfile)]
  · rw [← (hrepeat.answered he).2, hrepeat.keeps.validatePurl_eq (hv ▸ hfile)]

/-! ## A shipped index

The package is shipped with an index of the scoped package.  The program opens it and asks it,
before and after a build that returns and one that fails. -/

section Example

def packageDir : Path := [Str.lit "purl_validator"]

def shippedFs : FileSystem Ducer.listed.Image :=
  (createPurlMap npmParser SetWalk.byInsertion Ducer.listed (tempDirAt packageDir) scopedPurls
    FileSystem.bare).2

def shippedValidator : PurlValidator := ⟨⟨purlMapLocation packageDir⟩⟩

def shippedHistory : List Event :=
  [.purlValidator (purlMapLocation packageDir) (.ok shippedValidator),
    .validatePurl shippedValidator (.str (Str.lit "pkg:npm/%40angular/core")) (.ok true),
    .createPurlMap [] (.ok (purlsMap tmpDir)),
    .createPurlMap [.other (Str.lit "7")] (.error (.valueError (Str.lit "invalid `purl`: 7"))),
    .purlValidator (purlMapLocation packageDir) (.ok shippedValidator),
    .validatePurl shippedValidator (.packageURL scopedCore) (.ok true)]

def builtFs : FileSystem Ducer.listed.Image :=
  (createPurlMap npmParser SetWalk.byInsertion Ducer.listed (tempDirAt tmpDir) [] shippedFs).2

/-- Both builds are made between the two questions. -/
theorem shippedHistory_run :
    Run (OpenStep npmParser Ducer.listed) (World.start shippedFs) shippedHistory
      ⟨builtFs, [purlsMap tmpDir], [shippedValidator, shippedValidator]⟩ := by
  have hopen : OpenStep npmParser Ducer.listed (World.start shippedFs)
      (.purlValidator (purlMapLocation packageDir) (.ok shippedValidator))
      ⟨shippedFs, [], [shippedValidator]⟩ :=
    .purlValidator (by decide)
  have hstr : Step npmParser Ducer.listed ⟨shippedFs, [], [shippedValidator]⟩
      (.validatePurl shippedValidator (.str (Str.lit "pkg:npm/%40angular/core")) (.ok true))
      ⟨shippedFs, [], [shippedValidator]⟩ :=
    .validatePurl List.mem_cons_self (by decide)
  have hbuild : Step npmParser Ducer.listed ⟨shippedFs, [], [shippedValidator]⟩
      (.createPurlMap [] (.ok (purlsMap tmpDir)))
      ⟨builtFs, [purlsMap tmpDir], [shippedValidator]⟩ :=
    .createPurlMap (w := SetWalk.byInsertion)
      (makesTempDir_tempDirAt (by decide : ¬ shippedFs.Exists tmpDir) (by decide))
      (Prod.ext (by decide) rfl)
  have hfail : Step npmParser Ducer.listed ⟨builtFs, [purlsMap tmpDir], [shippedValidator]⟩
      (.createPurlMap [.other (Str.lit "7")]
        (.error (.valueError (Str.lit "invalid `purl`: 7"))))
      ⟨builtFs, [purlsMap tmpDir], [shippedValidator]⟩ :=
    .createPurlMap (w := SetWalk.byInsertion) (makesTempDir_tempDirAt
      (by decide : ¬ builtFs.Exists [Str.lit "tmp", Str.lit "scancode-tk-1"]) (by decide)) rfl
  have hreopen : OpenStep npmParser Ducer.listed ⟨builtFs, [purlsMap tmpDir], [shippedValidator]⟩
      (.purlValidator (purlMapLocation packageDir) (.ok shippedValidator))
      ⟨builtFs, [purlsMap tmpDir], [shippedValidator, shippedValidator]⟩ :=
    .purlValidator (by decide)
  have hobject : Step npmParser Ducer.listed
      ⟨builtFs, [purlsMap tmpDir], [shippedValidator, shippedValidator]⟩
      (.validatePurl shippedValidator (.packageURL scopedCore) (.ok true))
      ⟨builtFs, [purlsMap tmpDir], [shippedValidator, shippedValidator]⟩ :=
    .validatePurl List.mem_cons_self (by decide)
  exact (((((Run.nil.snoc hopen).snoc (.call hstr)).snoc (.call hbuild)).snoc
    (.call hfail)).snoc hreopen).snoc (.call hobject)

/-- The answers before the builds and after them. -/
theorem answers_stable_shippedHistory : ∃ result result' : Except Exn Bool,
    shippedHistory[1]? = some
        (.validatePurl shippedValidator (.str (Str.lit "pkg:npm/%40angular/core")) result) ∧
      shippedHistory[5]? = some
        (.validatePurl shippedValidator (.packageURL scopedCore) result') ∧
      result = result' :=
  ⟨_, _, rfl, rfl, answers_stable shippedHistory_run (by decide)
    (List.mem_of_getElem? (i := 1) rfl) (List.mem_of_getElem? (i := 5) rfl)⟩

/-- The shipped index is opened and asked before and after the builds. -/
theorem shipped_of_run_shippedHistory :
    (∀ result, .purlValidator (purlMapLocation packageDir) result ∈ shippedHistory →
      result = PurlValidator.init Ducer.listed (purlMapLocation packageDir) shippedFs) ∧
    ∀ v purl result, v.purlMap.location = purlMapLocation packageDir →
      .validatePurl v purl result ∈ shippedHistory →
        result = v.validatePurl npmParser Ducer.listed purl shippedFs :=
  shipped_of_run (by decide) shippedHistory_run

end Example

end Purl
