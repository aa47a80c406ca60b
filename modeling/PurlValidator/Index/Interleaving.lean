import Mathlib.Data.Fintype.EquivFin
import PurlValidator.Index.History
import PurlValidator.Lib.Leases

/-!
# Builds that overlap

A call of `create_purl_map` is not one step.  It walks its iterable, and a generator runs
code of the caller between two elements, which may call the library again.  Threads may
interleave calls as well.  Here a call goes through the stages of `Progress`: it collects
entries, sorts them, makes its directory, and has the builder write the file there, with
anything in the file until the builder is done.  `Move` is one such step of any call in
progress, and a run of it is an interleaving of any number of calls.

`linearizable` says that this makes no difference.  A call takes effect when the builder
is done, or not at all, and the calls that ended make a history of `Step` in the order in
which they ended.  The files, the locations and the validators are those of that history,
except for the files that are being written.
-/

namespace Purl

open Py (Str)
open Utf8 (Bytes)
open Leases (Held Exclusive)

/-! ## Calls in progress -/

/-- How far a call of `create_purl_map` has come.  The PURLs that it has met are recorded
to tell what the call was about. -/
inductive Progress where
  /-- It has entries for the PURLs that it has met. -/
  | collecting (purls : List PyObj) (entries : List Bytes)
  /-- It has met them all and has the sorted list. -/
  | prepared (purls : List PyObj) (items : List (Bytes × Nat))
  /-- It has a directory, and the builder writes the file. -/
  | building (purls : List PyObj) (items : List (Bytes × Nat)) (tempDir : Path)

/-- The directory that the call has made. -/
def Progress.tempDir? : Progress → Option Path
  | .building _ _ tempDir => some tempDir
  | _ => none

/-- The file system, the calls in progress, and the locations and validators that the
program has. -/
structure Machine (d : Ducer) where
  fs : FileSystem d.Image
  calls : Nat → Option Progress
  locations : List Path
  validators : List PurlValidator

/-- No call is in progress. -/
def Machine.start {d : Ducer} (fs : FileSystem d.Image) : Machine d := ⟨fs, fun _ => none, [], []⟩

namespace Machine

variable {d : Ducer}

/-- The call `i` comes to `p`, or ends. -/
def setCall (m : Machine d) (i : Nat) (p : Option Progress) : Machine d :=
  { m with calls := Function.update m.calls i p }

@[simp] theorem setCall_calls (m : Machine d) (i : Nat) (p : Option Progress) :
    (m.setCall i p).calls = Function.update m.calls i p := rfl

/-- The directory that the call `i` has made. -/
def tempDir? (m : Machine d) (i : Nat) : Option Path := (m.calls i).bind Progress.tempDir?

@[simp] theorem tempDir?_setCall (m : Machine d) (i : Nat) (p : Option Progress) :
    (m.setCall i p).tempDir? = Function.update m.tempDir? i (p.bind Progress.tempDir?) := by
  funext j
  by_cases hj : j = i
  · subst hj
    simp [tempDir?, setCall]
  · simp [tempDir?, setCall, hj]

/-- A file that is being written. -/
def Writing (m : Machine d) (loc : Path) : Prop := ∃ dir, Held m.tempDir? dir ∧ loc = purlsMap dir

end Machine

section Moves

variable (fromString : Str → Except Exn PackageURL) (d : Ducer)

/-- One step of a call in progress, or a whole call of another function.  A call that ends
is labelled with its event.  An iterable may also raise, which is none of the library's
business and ends the call without an event.  `get_temp_dir` makes no directory in that of a
call in progress, whose name nobody knows yet. -/
inductive Move : Machine d → Option Event → Machine d → Prop where
  | call {m : Machine d} {i : Nat} :
      m.calls i = none → Move m none (m.setCall i (some (.collecting [] [])))
  | element {m : Machine d} {i : Nat} {purls : List PyObj} {entries : List Bytes} {purl : PyObj}
      {entry : Bytes} :
      m.calls i = some (.collecting purls entries) →
      createPurlMapEntry fromString purl = .ok entry →
      Move m none (m.setCall i (some (.collecting (purls ++ [purl]) (entries ++ [entry]))))
  | refused {m : Machine d} {i : Nat} {purls : List PyObj} {entries : List Bytes} {purl : PyObj}
      {e : Exn} :
      m.calls i = some (.collecting purls entries) →
      createPurlMapEntry fromString purl = .error e →
      Move m (some (.createPurlMap (purls ++ [purl]) (.error e))) (m.setCall i none)
  | raised {m : Machine d} {i : Nat} {purls : List PyObj} {entries : List Bytes} :
      m.calls i = some (.collecting purls entries) → Move m none (m.setCall i none)
  | exhausted {m : Machine d} {i : Nat} {purls : List PyObj} {entries : List Bytes}
      {w : SetWalk Bytes} :
      m.calls i = some (.collecting purls entries) →
      Move m none (m.setCall i (some (.prepared purls
        (((w.walk entries).map fun entry => (entry, 1)).insertionSort pairLe))))
  | getTempDir {m : Machine d} {i : Nat} {purls : List PyObj} {items : List (Bytes × Nat)}
      {getTempDir : FileSystem d.Image → Path × FileSystem d.Image} {tempDir : Path}
      {fs : FileSystem d.Image} :
      m.calls i = some (.prepared purls items) →
      MakesTempDir getTempDir m.fs →
      getTempDir m.fs = (tempDir, fs) →
      (∀ dir, Held m.tempDir? dir → ¬ dir <+: tempDir) →
      Move m none { m.setCall i (some (.building purls items tempDir)) with fs := fs }
  | writing {m : Machine d} {i : Nat} {purls : List PyObj} {items : List (Bytes × Nat)}
      {tempDir : Path} {image : d.Image} (h : m.fs.Writable (purlsMap tempDir)) :
      m.calls i = some (.building purls items tempDir) →
      Move m none { m with fs := m.fs.write (purlsMap tempDir) image h }
  | ended {m : Machine d} {i : Nat} {purls : List PyObj} {items : List (Bytes × Nat)}
      {tempDir : Path} {result : Except Exn Unit} {fs : FileSystem d.Image} :
      m.calls i = some (.building purls items tempDir) →
      d.buildMap (purlsMap tempDir) items m.fs = (result, fs) →
      Move m (some (.createPurlMap purls (result.map fun _ => purlsMap tempDir)))
        { m.setCall i none with
          fs := fs
          locations := (result.map fun _ => purlsMap tempDir).toOption.toList ++ m.locations }
  | purlValidator {m : Machine d} {loc : Path} {result : Except Exn PurlValidator} :
      loc ∈ m.locations →
      PurlValidator.init d loc m.fs = result →
      Move m (some (.purlValidator loc result))
        { m with validators := result.toOption.toList ++ m.validators }
  | validatePurl {m : Machine d} {v : PurlValidator} {purl : PyObj} {result : Except Exn Bool} :
      v ∈ m.validators →
      v.validatePurl fromString d purl m.fs = result →
      Move m (some (.validatePurl v purl result)) m

end Moves

/-! ## The history of the calls that ended -/

variable {fromString : Str → Except Exn PackageURL} {d : Ducer} {fs₀ : FileSystem d.Image}
  {m m' : Machine d} {world : World d}

/-- A call has for the PURLs that it has met what it should have. -/
def Progress.Sound (fromString : Str → Except Exn PackageURL) : Progress → Prop
  | .collecting purls entries => purls.mapM (createPurlMapEntry fromString) = .ok entries
  | .prepared purls items => ∃ w, preparedPurlMapEntries fromString w purls = .ok items
  | .building purls items _ => ∃ w, preparedPurlMapEntries fromString w purls = .ok items

/-- The machine is at the world of the calls that ended, and has beside it the directories
that calls have made, with their parents, and the files that are being written in them.  In
the world those directories are free. -/
structure Linearizes (fromString : Str → Except Exn PackageURL) (m : Machine d)
    (world : World d) : Prop where
  locations : m.locations = world.locations
  validators : m.validators = world.validators
  sound : ∀ i p, m.calls i = some p → p.Sound fromString
  exclusive : Exclusive m.tempDir?
  held : ∀ dir, Held m.tempDir? dir → ¬ world.fs.Exists dir
  apart : ∀ dir dir', Held m.tempDir? dir → Held m.tempDir? dir' → dir <+: dir' → dir = dir'
  mem_dirs : ∀ p, p ∈ m.fs.dirs ↔ p ∈ world.fs.dirs ∨ ∃ dir, Held m.tempDir? dir ∧ p <+: dir
  lookup : ∀ loc, ¬ m.Writing loc → m.fs.files.lookup loc = world.fs.files.lookup loc

theorem linearizes_start :
    Linearizes fromString (Machine.start fs₀) (World.start fs₀) where
  locations := rfl
  validators := rfl
  sound _ _ h := nomatch h
  exclusive _ _ _ h := nomatch h
  held := fun _ ⟨_, h⟩ => nomatch h
  apart := fun _ _ ⟨_, h⟩ => nomatch h
  mem_dirs _ := (or_iff_left fun ⟨_, ⟨_, h⟩, _⟩ => nomatch h).symm
  lookup _ _ := rfl

/-- A file that the world has is not being written. -/
theorem Linearizes.not_writing (h : Linearizes fromString m world) {loc : Path}
    (hloc : loc ∈ world.fs.files) : ¬ m.Writing loc := by
  intro hwriting
  obtain ⟨dir, hdir, rfl⟩ := hwriting
  exact not_exists_purlsMap (h.held dir hdir) (Or.inr hloc)

theorem Linearizes.mem_files (h : Linearizes fromString m world) {loc : Path}
    (hloc : loc ∈ world.fs.files) : loc ∈ m.fs.files :=
  (FileSystem.mem_files_congr (h.lookup loc (h.not_writing hloc))).mpr hloc

/-- A name that is free is free in the world. -/
theorem Linearizes.not_exists (h : Linearizes fromString m world) {tmp : Path}
    (hfresh : ¬ m.fs.Exists tmp) : ¬ world.fs.Exists tmp := by
  intro hexists
  cases hexists with
  | inl hdir => exact hfresh (Or.inl ((h.mem_dirs tmp).mpr (Or.inl hdir)))
  | inr hfile => exact hfresh (Or.inr (h.mem_files hfile))

theorem Linearizes.mem_dirs_of_held (h : Linearizes fromString m world) {dir p : Path}
    (hdir : Held m.tempDir? dir) (hpre : p <+: dir) : p ∈ m.fs.dirs :=
  (h.mem_dirs p).mpr (Or.inr ⟨dir, hdir, hpre⟩)

/-- Where a call has made its directory, no directory is in the place of the map file. -/
theorem Linearizes.purlsMap_notMem (h : Linearizes fromString m world) {dir : Path}
    (hdir : Held m.tempDir? dir) : purlsMap dir ∉ m.fs.dirs := by
  intro hmem
  rcases (h.mem_dirs _).mp hmem with hworld | ⟨dir', hdir', hpre⟩
  · exact not_exists_purlsMap (h.held dir hdir) (Or.inl hworld)
  · -- it would be on the way to a directory that a call has made in this one
    have heq := h.apart dir dir' hdir hdir' ((List.prefix_append _ _).trans hpre)
    exact FileSystem.not_concat_prefix _ _ (heq ▸ hpre)

/-- In the world, `get_temp_dir` can make the directory that a call has made. -/
theorem Linearizes.makesTempDir (h : Linearizes fromString m world) {dir : Path}
    (hdir : Held m.tempDir? dir) : MakesTempDir (tempDirAt dir) world.fs := by
  refine makesTempDir_tempDirAt (h.held dir hdir) fun p hpre hp => ?_
  exact m.fs.file_not_dir (h.mem_files hp)
    (h.mem_dirs_of_held hdir ((List.mem_inits _ _).mp hpre))

theorem Linearizes.sound_setCall (h : Linearizes fromString m world) {i j : Nat}
    {p : Option Progress} {q : Progress} (hp : ∀ q, p = some q → q.Sound fromString)
    (hq : (m.setCall i p).calls j = some q) : q.Sound fromString := by
  rw [Machine.setCall_calls] at hq
  by_cases hj : j = i
  · rw [hj, Function.update_self] at hq
    exact hp q hq
  · rw [Function.update_of_ne hj] at hq
    exact h.sound j q hq

/-! ### The steps before the builder -/

/-- A step of a call that has no directory and makes none changes nothing else. -/
theorem Linearizes.setCall (h : Linearizes fromString m world) {i : Nat} {p : Option Progress}
    (hold : m.tempDir? i = none) (hnew : p.bind Progress.tempDir? = none)
    (hp : ∀ q, p = some q → q.Sound fromString) :
    Linearizes fromString (m.setCall i p) world := by
  have hdirs : (m.setCall i p).tempDir? = m.tempDir? := by
    rw [Machine.tempDir?_setCall, hnew, ← hold, Function.update_eq_self]
  refine ⟨h.locations, h.validators, fun j q => h.sound_setCall hp, ?_, ?_, ?_, ?_, ?_⟩
  · rw [hdirs]
    exact h.exclusive
  · rw [hdirs]
    exact h.held
  · rw [hdirs]
    exact h.apart
  · rw [hdirs]
    exact h.mem_dirs
  · intro loc hloc
    rw [Machine.Writing, hdirs] at hloc
    exact h.lookup loc hloc

theorem tempDir?_eq_none {i : Nat} {p : Progress} (h : m.calls i = some p)
    (hp : p.tempDir? = none) : m.tempDir? i = none := by
  rw [Machine.tempDir?, h]
  exact hp

/-- A new directory is held by the call that made it. -/
theorem Linearizes.getTempDir (h : Linearizes fromString m world) {i : Nat}
    {purls : List PyObj} {items : List (Bytes × Nat)} {tempDir : Path} {fs : FileSystem d.Image}
    (hcall : m.calls i = some (.prepared purls items)) (hfresh : ¬ m.fs.Exists tempDir)
    (hmade : FileSystem.Made tempDir m.fs fs)
    (hapart : ∀ dir, Held m.tempDir? dir → ¬ dir <+: tempDir) :
    Linearizes fromString
      { m.setCall i (some (.building purls items tempDir)) with fs := fs } world := by
  have hnone : m.tempDir? i = none := tempDir?_eq_none hcall rfl
  have hdirs : (m.setCall i (some (.building purls items tempDir))).tempDir? =
      Function.update m.tempDir? i (some tempDir) := Machine.tempDir?_setCall m i _
  have hheld : ∀ dir, Held (m.setCall i (some (.building purls items tempDir))).tempDir? dir ↔
      Held m.tempDir? dir ∨ dir = tempDir := fun dir => by rw [hdirs, Leases.held_acquire hnone]
  have hnew : ∀ dir, Held m.tempDir? dir → ¬ tempDir <+: dir := fun dir hdir hpre =>
    hfresh (Or.inl (h.mem_dirs_of_held hdir hpre))
  refine ⟨h.locations, h.validators, fun j q => h.sound_setCall ?_, ?_, fun dir hdir => ?_,
    fun dir dir' hdir hdir' hpre => ?_, fun p => ?_, fun loc hloc => ?_⟩
  · intro q hq
    cases hq
    have hsound : ∃ w, preparedPurlMapEntries fromString w purls = .ok items := h.sound i _ hcall
    exact hsound
  · exact hdirs ▸ h.exclusive.acquire fun hdir => hnew tempDir hdir List.prefix_rfl
  · cases (hheld dir).mp hdir with
    | inl hdir => exact h.held dir hdir
    | inr heq => exact heq ▸ h.not_exists hfresh
  · -- the new directory is in none of the others, and none of the others is in it
    rcases (hheld dir).mp hdir with hold | hnew₁
    · rcases (hheld dir').mp hdir' with hold' | hnew'
      · exact h.apart dir dir' hold hold' hpre
      · exact absurd (hnew' ▸ hpre) (hapart dir hold)
    · rcases (hheld dir').mp hdir' with hold' | hnew'
      · exact absurd (hnew₁ ▸ hpre) (hnew dir' hold')
      · rw [hnew₁, hnew']
  · show p ∈ fs.dirs ↔ p ∈ world.fs.dirs ∨
      ∃ dir, Held (m.setCall i (some (.building purls items tempDir))).tempDir? dir ∧ p <+: dir
    simp only [hmade.mem_dirs, h.mem_dirs, hheld, or_and_right, exists_or, exists_eq_left, or_assoc]
  · show fs.files.lookup loc = _
    rw [hmade.files_eq]
    refine h.lookup loc fun hwriting => hloc ?_
    obtain ⟨dir, hdir, heq⟩ := hwriting
    exact ⟨dir, (hheld dir).mpr (Or.inl hdir), heq⟩

/-! ### The builder -/

/-- What the builder leaves in the file before it is done is not seen in the world. -/
theorem Linearizes.write (h : Linearizes fromString m world) {i : Nat} {tempDir : Path}
    (hdir : m.tempDir? i = some tempDir) {image : d.Image}
    (hwritable : m.fs.Writable (purlsMap tempDir)) :
    Linearizes fromString { m with fs := m.fs.write (purlsMap tempDir) image hwritable } world := by
  refine ⟨h.locations, h.validators, h.sound, h.exclusive, h.held, h.apart, h.mem_dirs,
    fun loc hloc => ?_⟩
  have hne : loc ≠ purlsMap tempDir := fun heq => hloc ⟨tempDir, ⟨i, hdir⟩, heq⟩
  exact (AList.lookup_insert_ne hne).trans (h.lookup loc hloc)

/-- When the builder is done, the world makes the whole call at once. -/
theorem Linearizes.ended (h : Linearizes fromString m world) {i : Nat} {purls : List PyObj}
    {items : List (Bytes × Nat)} {tempDir : Path}
    (hcall : m.calls i = some (.building purls items tempDir)) {result : Except Exn Unit}
    {fs : FileSystem d.Image} (hbuild : d.buildMap (purlsMap tempDir) items m.fs = (result, fs)) :
    ∃ world', Step fromString d world
        (.createPurlMap purls (result.map fun _ => purlsMap tempDir)) world' ∧
      Linearizes fromString
        { m.setCall i none with
          fs := fs
          locations := (result.map fun _ => purlsMap tempDir).toOption.toList ++ m.locations }
        world' := by
  obtain ⟨w, hprep⟩ : ∃ w, preparedPurlMapEntries fromString w purls = .ok items :=
    h.sound i _ hcall
  have htemp : m.tempDir? i = some tempDir := by
    rw [Machine.tempDir?, hcall]
    rfl
  have hwritable : m.fs.Writable (purlsMap tempDir) := by
    refine ⟨?_, h.purlsMap_notMem ⟨i, htemp⟩⟩
    rw [dropLast_purlsMap]
    exact h.mem_dirs_of_held ⟨i, htemp⟩ List.prefix_rfl
  rw [buildMap_eq hwritable] at hbuild
  cases hbuild
  have hmakes := h.makesTempDir ⟨i, htemp⟩
  obtain ⟨fs', hworld, hdirs', hfiles'⟩ := createPurlMap_eq (d := d) hmakes hprep
  rw [tempDirAt_fst] at hworld hfiles'
  have hmade := hmakes.made
  rw [tempDirAt_fst] at hmade
  have hdirs : (m.setCall i none).tempDir? = Function.update m.tempDir? i none :=
    Machine.tempDir?_setCall m i none
  have hheld : ∀ dir, Held (m.setCall i none).tempDir? dir ↔
      Held m.tempDir? dir ∧ dir ≠ tempDir := fun dir => by
    rw [hdirs, h.exclusive.held_release htemp]
  refine ⟨_, .createPurlMap hmakes hworld, congrArg _ h.locations, h.validators,
    fun j q => h.sound_setCall ?_, ?_, fun dir hdir hexists => ?_,
    fun dir dir' hdir hdir' => h.apart dir dir' ((hheld dir).mp hdir).1 ((hheld dir').mp hdir').1,
    fun p => ?_, fun loc hloc => ?_⟩
  · intro q hq
    cases hq
  · exact hdirs ▸ h.exclusive.release
  · -- what the call has made is not the directory of another one
    obtain ⟨hdir, hne⟩ := (hheld dir).mp hdir
    rcases hexists with hmem | hmem
    · rw [hdirs', hmade.mem_dirs] at hmem
      rcases hmem with hmem | hpre
      · exact h.held dir hdir (Or.inl hmem)
      · exact hne (h.apart dir tempDir hdir ⟨i, htemp⟩ hpre)
    · rw [hfiles', AList.mem_insert] at hmem
      rcases hmem with rfl | hmem
      · exact h.purlsMap_notMem ⟨i, htemp⟩ (h.mem_dirs_of_held hdir List.prefix_rfl)
      · exact h.held dir hdir (Or.inr hmem)
  · show p ∈ m.fs.dirs ↔ _
    rw [hdirs', hmade.mem_dirs, h.mem_dirs, or_assoc]
    refine or_congr_right ?_
    constructor
    · rintro ⟨dir, hdir, hpre⟩
      by_cases heq : dir = tempDir
      · exact Or.inl (heq ▸ hpre)
      · exact Or.inr ⟨dir, (hheld dir).mpr ⟨hdir, heq⟩, hpre⟩
    · rintro (hpre | ⟨dir, hdir, hpre⟩)
      · exact ⟨tempDir, ⟨i, htemp⟩, hpre⟩
      · exact ⟨dir, ((hheld dir).mp hdir).1, hpre⟩
  · show (m.fs.files.insert _ _).lookup loc = fs'.files.lookup loc
    rw [hfiles']
    by_cases heq : loc = purlsMap tempDir
    · rw [heq, AList.lookup_insert, AList.lookup_insert]
    · rw [AList.lookup_insert_ne heq, AList.lookup_insert_ne heq]
      refine h.lookup loc fun hwriting => hloc ?_
      obtain ⟨dir, hdir, hdirLoc⟩ := hwriting
      exact ⟨dir, (hheld dir).mpr ⟨hdir, fun h => heq (h ▸ hdirLoc)⟩, hdirLoc⟩

/-! ### Calls that raise -/

/-- There is always a free name. -/
theorem FileSystem.exists_makesTempDir {χ : Type} (fs : FileSystem χ) :
    ∃ getTempDir : FileSystem χ → Path × FileSystem χ, MakesTempDir getTempDir fs := by
  obtain ⟨s, hs⟩ := Infinite.exists_notMem_finset (fs.dirs ++ fs.files.keys).flatten.toFinset
  rw [List.mem_toFinset, List.mem_flatten] at hs
  have hnew : ¬ fs.Exists [s] := fun hex =>
    hs ⟨[s], List.mem_append.mpr (hex.imp_right AList.mem_keys.mp), List.mem_singleton_self s⟩
  refine ⟨tempDirAt [s], makesTempDir_tempDirAt hnew fun p hpre hp => ?_⟩
  by_cases heq : p = [s]
  · exact hnew (Or.inr (heq ▸ hp))
  · have hroot := FileSystem.prefix_dropLast_of_ne ((List.mem_inits _ _).mp hpre) heq
    exact FileSystem.root_not_file (List.prefix_nil.mp hroot ▸ hp)

/-- A call that meets a PURL that it refuses raises in the world as well. -/
theorem Linearizes.refused (h : Linearizes fromString m world) {i : Nat} {purls : List PyObj}
    {entries : List Bytes} (hcall : m.calls i = some (.collecting purls entries)) {purl : PyObj}
    {e : Exn} (he : createPurlMapEntry fromString purl = .error e) :
    Step fromString d world (.createPurlMap (purls ++ [purl]) (.error e)) world := by
  have hmapM : purls.mapM (createPurlMapEntry fromString) = .ok entries := h.sound i _ hcall
  have hprep : preparedPurlMapEntries fromString SetWalk.byInsertion (purls ++ [purl]) =
      .error e := by
    rw [preparedPurlMapEntries, Results.mapM_concat, hmapM, he]
    rfl
  obtain ⟨getTempDir, htemp⟩ := world.fs.exists_makesTempDir
  refine .createPurlMap (w := SetWalk.byInsertion) htemp ?_
  simp only [createPurlMap, hprep]

/-! ### Every step -/

/-- A step is no step of the world, or the whole call that ended. -/
theorem linearizes_move {e : Option Event} (h : Linearizes fromString m world)
    (hlocations : ∀ loc ∈ world.locations, loc ∈ world.fs.files)
    (hvalidators : ∀ v ∈ world.validators, v.purlMap.location ∈ world.locations)
    (hmove : Move fromString d m e m') :
    ∃ world', Linearizes fromString m' world' ∧ Run (Step fromString d) world e.toList world' := by
  cases hmove with
  | @call i hcall =>
      have hnone : m.tempDir? i = none := by rw [Machine.tempDir?, hcall, Option.bind_none]
      refine ⟨world, h.setCall hnone rfl fun q hq => ?_, .nil⟩
      cases hq
      exact rfl
  | @element i purls entries purl entry hcall hentry =>
      refine ⟨world, h.setCall (tempDir?_eq_none hcall rfl) rfl fun q hq => ?_, .nil⟩
      cases hq
      have hmapM : purls.mapM (createPurlMapEntry fromString) = .ok entries := h.sound i _ hcall
      rw [Progress.Sound, Results.mapM_concat, hmapM, hentry]
      rfl
  | refused hcall he =>
      have hstep := h.refused hcall he
      exact ⟨world, h.setCall (tempDir?_eq_none hcall rfl) rfl (fun q hq => nomatch hq),
        .single hstep⟩
  | raised hcall =>
      exact ⟨world, h.setCall (tempDir?_eq_none hcall rfl) rfl (fun q hq => nomatch hq), .nil⟩
  | @exhausted i purls entries w hcall =>
      refine ⟨world, h.setCall (tempDir?_eq_none hcall rfl) rfl fun q hq => ?_, .nil⟩
      cases hq
      have hmapM : purls.mapM (createPurlMapEntry fromString) = .ok entries := h.sound i _ hcall
      refine ⟨w, ?_⟩
      rw [preparedPurlMapEntries, hmapM]
      rfl
  | @getTempDir i purls items getTempDir tempDir fs hcall hmakes htemp hapart =>
      obtain ⟨hfresh, hmade⟩ := hmakes
      rw [htemp] at hfresh hmade
      exact ⟨world, h.getTempDir hcall hfresh hmade hapart, .nil⟩
  | @writing i purls items tempDir image hwritable hcall =>
      have hdir : m.tempDir? i = some tempDir := by
        rw [Machine.tempDir?, hcall]
        rfl
      exact ⟨world, h.write hdir hwritable, .nil⟩
  | ended hcall hbuild =>
      obtain ⟨world', hstep, h'⟩ := h.ended hcall hbuild
      exact ⟨world', h', .single hstep⟩
  | @purlValidator loc result hloc hinit =>
      rw [h.locations] at hloc
      have hlookup := h.lookup loc (h.not_writing (hlocations loc hloc))
      rw [init_congr (hlocations loc hloc) hlookup] at hinit
      have h' : Linearizes fromString
          { m with validators := result.toOption.toList ++ m.validators }
          ⟨world.fs, world.locations, result.toOption.toList ++ world.validators⟩ :=
        ⟨h.locations, congrArg (result.toOption.toList ++ ·) h.validators, h.sound, h.exclusive,
          h.held, h.apart, h.mem_dirs, h.lookup⟩
      exact ⟨_, h', .single (.purlValidator hloc hinit)⟩
  | @validatePurl v purl result hv hask =>
      rw [h.validators] at hv
      have hlookup := h.lookup _ (h.not_writing (hlocations _ (hvalidators v hv)))
      rw [PurlValidator.validatePurl, hlookup] at hask
      exact ⟨world, h, .single (.validatePurl hv hask)⟩

/-! ## After any interleaving -/

theorem linearizes_run (hd : d.Exact) {es : List (Option Event)}
    (hrun : Run (Move fromString d) (Machine.start fs₀) es m) :
    ∃ world, Linearizes fromString m world ∧
      Run (Step fromString d) (World.start fs₀) es.reduceOption world := by
  have hrel : ∃ world, (Linearizes fromString m world ∧ ∃ t, Follows fromString fs₀ world t) ∧
      Run (Step fromString d) (World.start fs₀) es.reduceOption world := by
    refine hrun.simulate (f := id) (r := fun m world => Linearizes fromString m world ∧
      ∃ t, Follows fromString fs₀ world t) ?_ ⟨linearizes_start, _, follows_start⟩
    intro m e m' world hm hmove
    obtain ⟨h, t, hfollows⟩ := hm
    have hlocations : ∀ loc ∈ world.locations, loc ∈ world.fs.files := fun loc hloc =>
      (hfollows.mem_files loc).mpr (Or.inr ((hfollows.mem_locations loc).mp hloc))
    obtain ⟨world', h', hrun'⟩ :=
      linearizes_move h hlocations hfollows.location_mem hmove
    refine ⟨world', ⟨h', ?_⟩, hrun'⟩
    refine hrun'.invariant (p := fun _ world => ∃ t, Follows fromString fs₀ world t)
      ⟨t, hfollows⟩ fun _ _ _ _ hinv hstep => ?_
    obtain ⟨t, ht⟩ := hinv
    obtain ⟨t', ht', -⟩ := follows_step hd ht hstep
    exact ⟨t', ht'⟩
  obtain ⟨world, ⟨h, -⟩, hrun'⟩ := hrel
  exact ⟨world, h, hrun'⟩

/-- Builds that overlap are as good as builds one after the other.  The calls that ended make
a history, in the order in which they ended, that leads to the same locations, validators and
files, except for what calls in progress have made.  When none of these has a directory, the
files are the same. -/
theorem linearizable (hd : d.Exact) {es : List (Option Event)}
    (hrun : Run (Move fromString d) (Machine.start fs₀) es m) :
    ∃ world, Run (Step fromString d) (World.start fs₀) es.reduceOption world ∧
      Linearizes fromString m world ∧
      ((∀ i, m.tempDir? i = none) → (∀ dir, dir ∈ m.fs.dirs ↔ dir ∈ world.fs.dirs) ∧
        ∀ loc, m.fs.files.lookup loc = world.fs.files.lookup loc) := by
  obtain ⟨world, h, hrun'⟩ := linearizes_run hd hrun
  refine ⟨world, hrun', h, fun hquiet => ?_⟩
  have hfree : ∀ dir, ¬ Held m.tempDir? dir := fun dir hdir => by
    obtain ⟨i, hi⟩ := hdir
    rw [hquiet i] at hi
    cases hi
  refine ⟨fun dir => ?_, fun loc => h.lookup loc fun hwriting => ?_⟩
  · rw [h.mem_dirs, or_iff_left fun ⟨dir', hdir, _⟩ => hfree dir' hdir]
  · obtain ⟨dir, hdir, -⟩ := hwriting
    exact hfree dir hdir

/-- Whatever else is in progress: no location is returned twice, the files of the start are
kept, a map file holds the keys of its own collection, and a validator answers for the
collection that its file was built from. -/
theorem answers_of_moves (hd : d.Exact) {es : List (Option Event)}
    (hrun : Run (Move fromString d) (Machine.start fs₀) es m) :
    ((built es.reduceOption).map Prod.fst).Nodup ∧
      (∀ loc ∈ fs₀.files, m.fs.files.lookup loc = fs₀.files.lookup loc) ∧
      (∀ loc purls, (loc, purls) ∈ built es.reduceOption → loc ∉ fs₀.files ∧
        ∃ image, m.fs.files.lookup loc = some image ∧ Holds d image (keys fromString purls)) ∧
      ∀ v ∈ m.validators, ∃ purls, (v.purlMap.location, purls) ∈ built es.reduceOption ∧
        (∀ purl k, createPurlMapEntry fromString purl = .ok k →
          ∃ b, v.validatePurl fromString d purl m.fs = .ok b ∧
            (b = true ↔ k ∈ keys fromString purls)) ∧
        ∀ purl, ¬ Acceptable fromString purl →
          ∃ e, v.validatePurl fromString d purl m.fs = .error e := by
  obtain ⟨world, h, hrun'⟩ := linearizes_run hd hrun
  obtain ⟨t, hfollows, hnodup, hbuilt⟩ := follows_run hd hrun'
  have hlookup : ∀ loc ∈ world.fs.files, m.fs.files.lookup loc = world.fs.files.lookup loc :=
    fun loc hloc => h.lookup loc (h.not_writing hloc)
  have hholds : ∀ loc purls, t loc = some purls → loc ∉ fs₀.files ∧
      ∃ image, m.fs.files.lookup loc = some image ∧ Holds d image (keys fromString purls) := by
    intro loc purls ht
    rw [hlookup loc ((hfollows.mem_files loc).mpr (Or.inr ⟨purls, ht⟩))]
    exact hfollows.holds ht
  refine ⟨hnodup, fun loc hloc => ?_, fun loc purls hmem => ?_, fun v hv => ?_⟩
  · rw [hlookup loc ((hfollows.mem_files loc).mpr (Or.inl hloc))]
    exact hfollows.kept loc hloc
  · exact hholds loc purls ((hbuilt loc purls).mpr hmem)
  · rw [h.validators] at hv
    obtain ⟨purls, ht⟩ := (hfollows.mem_locations _).mp (hfollows.location_mem v hv)
    obtain ⟨-, image, hfile, himage⟩ := hholds _ _ ht
    exact ⟨purls, (hbuilt _ _).mp ht, fun purl k hk => validatePurl_eq hfile himage hk,
      fun purl hnot => validatePurl_error hnot⟩

/-! ## A generator that builds an index

A call walks a generator which builds an index itself before it yields its only PURL.  So
the second call ends while the first one is collecting. -/

def secondTmpDir : Path := [Str.lit "tmp", Str.lit "scancode-tk-1"]

/-- The calls that end are the one that the generator makes, with a validator on its index,
and then the one that walks the generator. -/
def reentrantEvents : List (Option Event) :=
  [none, none, none, none, none,
    some (.createPurlMap [.packageURL slashCore] (.ok (purlsMap tmpDir))),
    some (.purlValidator (purlsMap tmpDir) (.ok ⟨⟨purlsMap tmpDir⟩⟩)), none, none, none,
    some (.createPurlMap scopedPurls (.ok (purlsMap secondTmpDir)))]

theorem tempDirAt_eq {χ : Type} (tmp : Path) (fs : FileSystem χ) :
    tempDirAt tmp fs = (tmp, (tempDirAt tmp fs).2) :=
  Prod.ext (tempDirAt_fst tmp fs) rfl

theorem reentrant_run : ∃ m : Machine Ducer.listed,
    Run (Move npmParser Ducer.listed) (Machine.start FileSystem.bare) reentrantEvents m ∧
      m.validators = [⟨⟨purlsMap tmpDir⟩⟩] := by
  have hslash : createPurlMapEntry npmParser (.packageURL slashCore) =
      .ok (Utf8.encode "npm/@angular/core".toList) := by decide
  have hscoped : createPurlMapEntry npmParser (.str (Str.lit "pkg:npm/%40angular/core")) =
      .ok (Utf8.encode "npm/@angular/core".toList) := by decide
  have h₀ := @Run.nil _ _ (Move npmParser Ducer.listed) (Machine.start FileSystem.bare)
  have h₁ := h₀.snoc (.call (i := 0) rfl)
  -- the generator starts, and builds its own index
  have h₂ := h₁.snoc (.call (i := 1) rfl)
  have h₃ := h₂.snoc (.element (i := 1) rfl hslash)
  have h₄ := h₃.snoc (.exhausted (w := SetWalk.byInsertion) (i := 1) rfl)
  have h₅ := h₄.snoc (.getTempDir (i := 1) rfl makesTempDir_bare
    (tempDirAt_eq _ _) fun dir hdir => by
      obtain ⟨j, hj⟩ := hdir
      match j with
      | 0 => cases hj
      | 1 => cases hj
      | j + 2 => cases hj)
  have h₆ := h₅.snoc (.ended (i := 1) rfl (Prod.ext (by decide : _ = Except.ok ()) rfl))
  have h₇ := h₆.snoc (.purlValidator List.mem_cons_self
    (by decide : _ = Except.ok (⟨⟨purlsMap tmpDir⟩⟩ : PurlValidator)))
  -- it yields its PURL and ends
  have h₈ := h₇.snoc (.element (i := 0) rfl hscoped)
  have h₉ := h₈.snoc (.exhausted (w := SetWalk.byInsertion) (i := 0) rfl)
  have h₁₀ := h₉.snoc (.getTempDir (i := 0) rfl
    (makesTempDir_tempDirAt (by decide : ¬ FileSystem.Exists _ secondTmpDir) (by decide))
    (tempDirAt_eq _ _) fun dir hdir => by
      obtain ⟨j, hj⟩ := hdir
      match j with
      | 0 => cases hj
      | 1 => cases hj
      | j + 2 => cases hj)
  have h₁₁ := h₁₀.snoc (.ended (i := 0) rfl (Prod.ext (by decide : _ = Except.ok ()) rfl))
  exact ⟨_, h₁₁, rfl⟩

theorem linearizable_reentrant : ∃ (m : Machine Ducer.listed) (world : World Ducer.listed),
    Run (Move npmParser Ducer.listed) (Machine.start FileSystem.bare) reentrantEvents m ∧
      Run (Step npmParser Ducer.listed) (World.start FileSystem.bare)
        reentrantEvents.reduceOption world ∧
      Linearizes npmParser m world := by
  obtain ⟨m, hrun, -⟩ := reentrant_run
  obtain ⟨world, hrun', h, -⟩ := linearizable Ducer.listed_exact hrun
  exact ⟨m, world, hrun, hrun', h⟩

/-- The validator that the generator made answers for the collection of the generator. -/
theorem answers_of_moves_reentrant : ∃ m : Machine Ducer.listed,
    Run (Move npmParser Ducer.listed) (Machine.start FileSystem.bare) reentrantEvents m ∧
      ∀ purl k, createPurlMapEntry npmParser purl = .ok k →
        ∃ b, PurlValidator.validatePurl npmParser Ducer.listed ⟨⟨purlsMap tmpDir⟩⟩ purl m.fs =
            .ok b ∧
          (b = true ↔ k ∈ keys npmParser [.packageURL slashCore]) := by
  obtain ⟨m, hrun, hvalidators⟩ := reentrant_run
  obtain ⟨-, -, -, hanswers⟩ := answers_of_moves Ducer.listed_exact hrun
  obtain ⟨purls, hmem, hanswer, -⟩ := hanswers ⟨⟨purlsMap tmpDir⟩⟩ (by rw [hvalidators]; simp)
  have hbuilt : built reentrantEvents.reduceOption =
      [(purlsMap tmpDir, [.packageURL slashCore]), (purlsMap secondTmpDir, scopedPurls)] := rfl
  have hpurls : purls = [.packageURL slashCore] := by
    rw [hbuilt] at hmem
    rcases List.mem_pair.mp hmem with heq | heq
    · exact (Prod.ext_iff.mp heq).2
    · have hne : purlsMap tmpDir ≠ purlsMap secondTmpDir := by decide
      exact absurd (Prod.ext_iff.mp heq).1 hne
  exact ⟨m, hrun, hpurls ▸ hanswer⟩

end Purl
