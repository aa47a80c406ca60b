import PurlValidator.Index.History

/-!
# What a history leaves behind

`create_purl_map` never deletes the directory that it makes.  The tests delete it: their
helper notes the location of every map that was built, and `tearDown` deletes the parent
directories of those.

`fileutils.delete` of `commoncode` is not in this repository.  `DeletesTrees` is what it
documents: it removes a directory like `shutil.rmtree` and passes over what is not there.

A failing build notes nothing, but it has not made a directory either.  So whatever a test
did, `tearDown` puts the file system back as it was (`tearDown_of_run`).  Only the parents that
`get_temp_dir` makes for its directory are not deleted, if there are any.  So this asks that
every directory was made where one was at the start, or in one of the others (`Based`).
-/

namespace Purl

open Py (Str)
open Utf8 (Bytes)

/-! ## Deleting -/

namespace FileSystem

variable {χ : Type} {fs : FileSystem χ} {dir loc : Path}

/-- `shutil.rmtree(dir)`: the directory and everything below it. -/
def rmtree (dir : Path) (fs : FileSystem χ) : FileSystem χ where
  dirs := fs.dirs.filter fun d => ¬ dir <+: d
  files := ⟨fs.files.entries.filter fun f => ¬ dir <+: f.1,
    fs.files.nodupKeys.sublist List.filter_sublist⟩
  nodup := fs.nodup.filter _
  dir_parent := by
    intro d hd
    obtain ⟨hd, hnot⟩ := List.mem_filter.mp hd
    refine List.mem_filter.mpr ⟨fs.dir_parent hd, decide_eq_true fun hpre => ?_⟩
    exact of_decide_eq_true hnot (hpre.trans (List.dropLast_prefix _))
  file_parent := by
    intro loc h
    obtain ⟨f, hf, rfl⟩ := List.mem_map.mp h
    obtain ⟨hf, hnot⟩ := List.mem_filter.mp hf
    refine List.mem_filter.mpr ⟨fs.file_parent (List.mem_map_of_mem hf), decide_eq_true ?_⟩
    exact fun hpre => of_decide_eq_true hnot (hpre.trans (List.dropLast_prefix _))
  file_not_dir := by
    intro loc h hd
    obtain ⟨f, hf, rfl⟩ := List.mem_map.mp h
    exact fs.file_not_dir (List.mem_map_of_mem (List.mem_of_mem_filter hf))
      (List.mem_of_mem_filter hd)

@[simp] theorem dirs_rmtree : (fs.rmtree dir).dirs = fs.dirs.filter fun d => ¬ dir <+: d := rfl

@[simp] theorem entries_rmtree :
    (fs.rmtree dir).files.entries = fs.files.entries.filter fun f => ¬ dir <+: f.1 := rfl

theorem mem_dirs_rmtree {p : Path} : p ∈ (fs.rmtree dir).dirs ↔ p ∈ fs.dirs ∧ ¬ dir <+: p := by
  rw [dirs_rmtree, List.mem_filter, decide_eq_true_iff]

theorem lookup_eq_some_iff {content : χ} :
    fs.files.lookup loc = some content ↔ ⟨loc, content⟩ ∈ fs.files.entries :=
  AList.mem_lookup_iff

/-- No file below the directory is left, and the others are. -/
theorem lookup_rmtree : (fs.rmtree dir).files.lookup loc =
    if dir <+: loc then none else fs.files.lookup loc := by
  refine Option.ext fun content => ?_
  rw [lookup_eq_some_iff, entries_rmtree, List.mem_filter, decide_eq_true_iff, ← lookup_eq_some_iff]
  split
  · case isTrue hpre => simp [hpre]
  · case isFalse hpre => simp [hpre]

theorem mem_files_rmtree : loc ∈ (fs.rmtree dir).files ↔ loc ∈ fs.files ∧ ¬ dir <+: loc := by
  rw [mem_files_iff, mem_files_iff, lookup_rmtree]
  split
  · case isTrue hpre => simp [hpre]
  · case isFalse hpre => simp [hpre]

theorem exists_rmtree_iff : (fs.rmtree dir).Exists loc ↔ fs.Exists loc ∧ ¬ dir <+: loc := by
  rw [Exists, Exists, mem_dirs_rmtree, mem_files_rmtree, or_and_right]

/-- A file system is its directories and the entries of its files. -/
theorem eq_of_entries_eq {fs' : FileSystem χ} (hdirs : fs.dirs = fs'.dirs)
    (hentries : fs.files.entries = fs'.files.entries) : fs = fs' := by
  cases fs
  cases fs'
  obtain rfl := hdirs
  obtain rfl := AList.ext hentries
  rfl

/-- Where there is nothing, there is nothing to remove. -/
theorem rmtree_eq_self (h : ∀ p, dir <+: p → ¬ fs.Exists p) : fs.rmtree dir = fs := by
  refine eq_of_entries_eq ?_ ?_
  · rw [dirs_rmtree, List.filter_eq_self]
    exact fun d hd => decide_eq_true fun hpre => h d hpre (Or.inl hd)
  · rw [entries_rmtree, List.filter_eq_self]
    exact fun f hf => decide_eq_true fun hpre => h f.1 hpre (Or.inr (List.mem_map_of_mem hf))

end FileSystem

/-- What `fileutils.delete` does to a directory, and where there is nothing. -/
structure DeletesTrees {χ : Type} (delete : Path → FileSystem χ → FileSystem χ) : Prop where
  of_mem : ∀ {dir fs}, dir ∈ fs.dirs → delete dir fs = fs.rmtree dir
  of_not_exists : ∀ {dir fs}, ¬ fs.Exists dir → delete dir fs = fs

/-- `tearDown` of the tests. -/
def tearDown {χ : Type} (delete : Path → FileSystem χ → FileSystem χ)
    (createdPurlMaps : List Path) (fs : FileSystem χ) : FileSystem χ :=
  createdPurlMaps.foldl (fun fs purlMap => delete purlMap.dropLast fs) fs

section TearDown

variable {χ : Type} {delete : Path → FileSystem χ → FileSystem χ} {fs : FileSystem χ}
  {locs : List Path}

/-- None of the locations is in a directory above the path. -/
def Clear (locs : List Path) (p : Path) : Prop := ∀ loc ∈ locs, ¬ loc.dropLast <+: p

instance (locs : List Path) (p : Path) : Decidable (Clear locs p) :=
  inferInstanceAs (Decidable (∀ loc ∈ locs, ¬ loc.dropLast <+: p))

theorem clear_cons_iff {loc p : Path} :
    Clear (loc :: locs) p ↔ ¬ loc.dropLast <+: p ∧ Clear locs p :=
  List.forall_mem_cons

/-- The directory of the location exists, or it is gone with all that was in it. -/
def Settled (fs : FileSystem χ) (loc : Path) : Prop :=
  loc.dropLast ∈ fs.dirs ∨ ∀ p, loc.dropLast <+: p → ¬ fs.Exists p

/-- Removing a tree can only make a directory disappear whole. -/
theorem Settled.rmtree {loc : Path} (h : Settled fs loc) (dir : Path) :
    Settled (fs.rmtree dir) loc := by
  cases h with
  | inl hmem =>
      by_cases hpre : dir <+: loc.dropLast
      · exact Or.inr fun p hp hex =>
          (FileSystem.exists_rmtree_iff.mp hex).2 (hpre.trans hp)
      · exact Or.inl (List.mem_filter.mpr ⟨hmem, decide_eq_true hpre⟩)
  | inr hgone => exact Or.inr fun p hp hex => hgone p hp (FileSystem.exists_rmtree_iff.mp hex).1

/-- In a settled state, deleting is removing the tree, needed or not. -/
theorem Settled.delete_eq (hdelete : DeletesTrees delete) {loc : Path} (h : Settled fs loc) :
    delete loc.dropLast fs = fs.rmtree loc.dropLast := by
  cases h with
  | inl hmem => exact hdelete.of_mem hmem
  | inr hgone =>
      rw [hdelete.of_not_exists (hgone _ List.prefix_rfl), FileSystem.rmtree_eq_self hgone]

/-- What is left is clear of the locations, in whatever order they are deleted and also if one
of the directories was made in another. -/
theorem tearDown_eq (hdelete : DeletesTrees delete) (h : ∀ loc ∈ locs, Settled fs loc) :
    (∀ p, p ∈ (tearDown delete locs fs).dirs ↔ p ∈ fs.dirs ∧ Clear locs p) ∧
      ∀ loc, (tearDown delete locs fs).files.lookup loc =
        if Clear locs loc then fs.files.lookup loc else none := by
  induction locs generalizing fs with
  | nil => simp [tearDown, Clear]
  | cons loc locs ih =>
      obtain ⟨hloc, hlocs⟩ := List.forall_mem_cons.mp h
      obtain ⟨hdirs, hfiles⟩ := ih fun loc' hmem => (hlocs loc' hmem).rmtree loc.dropLast
      rw [tearDown, List.foldl_cons, hloc.delete_eq hdelete, ← tearDown]
      refine ⟨fun p => ?_, fun p => ?_⟩
      · rw [hdirs, FileSystem.mem_dirs_rmtree, clear_cons_iff, and_assoc]
      · rw [hfiles, FileSystem.lookup_rmtree]
        by_cases hpre : loc.dropLast <+: p
        · simp [hpre, clear_cons_iff]
        · simp [hpre, clear_cons_iff]

end TearDown

/-! ## What a history makes -/

variable {fromString : Str → Except Exn PackageURL} {d : Ducer} {fs₀ fs : FileSystem d.Image}
  {world : World d} {es : List Event} {locs : List Path}

/-- Beside what was there at the start there are the directories of the locations, which are
new, with their parents, and files at the locations. -/
structure Grown (fs₀ : FileSystem d.Image) (locs : List Path) (fs : FileSystem d.Image) :
    Prop where
  mem_dirs : ∀ p, p ∈ fs.dirs ↔ p ∈ fs₀.dirs ∨ ∃ loc ∈ locs, p <+: loc.dropLast
  lookup_eq : ∀ loc, loc ∉ locs → fs.files.lookup loc = fs₀.files.lookup loc
  fresh : ∀ loc ∈ locs, ¬ fs₀.Exists loc.dropLast

theorem Grown.start : Grown fs₀ [] fs₀ where
  mem_dirs p := by simp
  lookup_eq _ _ := rfl
  fresh _ h := nomatch h

/-- No location of a build was a file at the start. -/
theorem Grown.not_mem (h : Grown fs₀ locs fs) {loc : Path} (hloc : loc ∈ locs) :
    loc ∉ fs₀.files := fun hmem => h.fresh loc hloc (Or.inl (fs₀.file_parent hmem))

theorem Grown.exists_of_exists (h : Grown fs₀ locs fs) {p : Path} (hp : fs₀.Exists p) :
    fs.Exists p := by
  cases hp with
  | inl hp => exact Or.inl ((h.mem_dirs p).mpr (Or.inl hp))
  | inr hp =>
      have hlookup := h.lookup_eq p fun hmem => h.not_mem hmem hp
      exact Or.inr ((FileSystem.mem_files_congr hlookup).mpr hp)

/-- A build that returns makes a directory and a file. -/
theorem Grown.build (h : Grown fs₀ locs fs)
    {getTempDir : FileSystem d.Image → Path × FileSystem d.Image} {image : d.Image}
    {fs' : FileSystem d.Image} (htemp : MakesTempDir getTempDir fs)
    (hdirs : fs'.dirs = (getTempDir fs).2.dirs)
    (hfiles : fs'.files = fs.files.insert (purlsMap (getTempDir fs).1) image) :
    Grown fs₀ (locs ++ [purlsMap (getTempDir fs).1]) fs' := by
  refine ⟨fun p => ?_, fun loc hloc => ?_, fun loc hloc => ?_⟩
  · rw [hdirs, htemp.made.mem_dirs, h.mem_dirs, or_assoc]
    simp [or_and_right, exists_or]
  · rw [List.mem_append, List.mem_singleton, not_or] at hloc
    rw [hfiles, AList.lookup_insert_ne hloc.2, h.lookup_eq loc hloc.1]
  · rcases List.mem_append.mp hloc with hloc | hloc
    · exact h.fresh loc hloc
    · rw [List.mem_singleton.mp hloc, dropLast_purlsMap]
      exact fun hex => htemp.not_exists (h.exists_of_exists hex)

/-- An event adds what it publishes. -/
theorem built_concat (es : List Event) (e : Event) :
    built (es ++ [e]) = built es ++ e.publication.toList := by
  rw [built, List.filterMap_append, ← built]
  cases h : e.publication with
  | none => simp [h]
  | some publication => simp [h]

/-- A history adds the files of its builds and the directories on the way to them. -/
theorem grown_of_run (hd : d.Exact)
    (hrun : Run (Step fromString d) (World.start fs₀) es world) :
    Grown fs₀ ((built es).map Prod.fst) world.fs := by
  refine hrun.invariant (p := fun es world => Grown fs₀ ((built es).map Prod.fst) world.fs)
    .start ?_
  intro es world e world' hgrown hstep
  rw [built_concat, List.map_append]
  cases hstep with
  | @createPurlMap w getTempDir purls result fs htemp hcall =>
      by_cases hpurls : ∀ purl ∈ purls, Acceptable fromString purl
      · obtain ⟨image, fs', hok, -, hdirs, hfiles⟩ := createPurlMap_ok (w := w) hd htemp hpurls
        rw [hok] at hcall
        cases hcall
        exact hgrown.build htemp hdirs hfiles
      · simp only [not_forall, exists_prop] at hpurls
        obtain ⟨e, herr⟩ :
            ∃ e, createPurlMap fromString w d getTempDir purls world.fs = (.error e, _) :=
          createPurlMap_error hpurls
        rw [herr] at hcall
        cases hcall
        exact (List.append_nil _).symm ▸ hgrown
  | purlValidator _ _ => exact (List.append_nil _).symm ▸ hgrown
  | validatePurl _ _ => exact (List.append_nil _).symm ▸ hgrown

/-! ## The file system afterwards -/

/-- The directories of the locations were made where a directory was at the start, or in one
another. -/
def Based (fs₀ : FileSystem d.Image) (locs : List Path) : Prop :=
  ∀ loc ∈ locs, loc.dropLast.dropLast ∈ fs₀.dirs ∨
    ∃ loc' ∈ locs, loc'.dropLast <+: loc.dropLast.dropLast

/-- A directory that is in none of those of the locations was there at the start.  The
induction is on how deep the directory is that it was made for. -/
theorem Based.mem_dirs_of_clear (h : Based fs₀ locs) {p loc : Path} (hclear : Clear locs p)
    (hloc : loc ∈ locs) (hpre : p <+: loc.dropLast) : p ∈ fs₀.dirs := by
  induction hn : loc.dropLast.length using Nat.strong_induction_on generalizing loc with
  | _ n ih =>
      have hne : p ≠ loc.dropLast := fun heq => hclear loc hloc (heq ▸ List.prefix_rfl)
      have hbase := FileSystem.prefix_dropLast_of_ne hpre hne
      rcases h loc hloc with hmem | ⟨loc', hloc', hpre'⟩
      · exact FileSystem.mem_dirs_of_prefix_of_mem hbase hmem
      · -- the base directory is in that of another location, and that one is less deep
        have hlt : loc'.dropLast.length < n := by
          have hle := hpre'.length_le
          have hbelow : loc.dropLast.dropLast.length = loc.dropLast.length - 1 :=
            List.length_dropLast
          have hpos : loc.dropLast ≠ [] := fun hnil => hne (by
            rw [hnil] at hpre ⊢
            exact List.prefix_nil.mp hpre)
          have hlength := List.length_pos_iff.mpr hpos
          omega
        rcases List.prefix_or_prefix_of_prefix hbase hpre' with hp | hp
        · exact ih _ hlt hloc' hp rfl
        · exact absurd hp (hclear loc' hloc')

/-- Deleting the parent directories of the maps that were built undoes the history, whatever
it was: there are the same directories and the same files. -/
theorem tearDown_of_run (hd : d.Exact) {delete : Path → FileSystem d.Image → FileSystem d.Image}
    (hdelete : DeletesTrees delete) (hrun : Run (Step fromString d) (World.start fs₀) es world)
    (hbased : Based fs₀ ((built es).map Prod.fst)) :
    (∀ p, p ∈ (tearDown delete ((built es).map Prod.fst) world.fs).dirs ↔ p ∈ fs₀.dirs) ∧
      ∀ loc, (tearDown delete ((built es).map Prod.fst) world.fs).files.lookup loc =
        fs₀.files.lookup loc := by
  have hgrown := grown_of_run hd hrun
  have hclear : ∀ p, fs₀.Exists p → Clear ((built es).map Prod.fst) p := fun p hp loc hloc hpre =>
    hgrown.fresh loc hloc (FileSystem.exists_of_prefix_of_exists hpre hp)
  have hsettled : ∀ loc ∈ (built es).map Prod.fst, Settled world.fs loc := fun loc hloc =>
    Or.inl ((hgrown.mem_dirs _).mpr (Or.inr ⟨loc, hloc, List.prefix_rfl⟩))
  obtain ⟨hdirs, hfiles⟩ := tearDown_eq hdelete hsettled
  refine ⟨fun p => ?_, fun loc => ?_⟩
  · rw [hdirs, hgrown.mem_dirs]
    constructor
    · rintro ⟨hp | ⟨loc, hloc, hpre⟩, hc⟩
      · exact hp
      · exact hbased.mem_dirs_of_clear hc hloc hpre
    · exact fun hp => ⟨Or.inl hp, hclear p (Or.inl hp)⟩
  · rw [hfiles]
    by_cases hmem : loc ∈ fs₀.files
    · rw [if_pos (hclear loc (Or.inr hmem)), hgrown.lookup_eq loc fun h => hgrown.not_mem h hmem]
    · rw [AList.lookup_eq_none.mpr hmem]
      split
      · case isTrue hc =>
          rw [hgrown.lookup_eq loc fun h => hc loc h (List.dropLast_prefix loc),
            AList.lookup_eq_none.mpr hmem]
      · rfl

/-- Removes what is there. -/
def FileSystem.removeTree {χ : Type} (dir : Path) (fs : FileSystem χ) : FileSystem χ :=
  if fs.Exists dir then fs.rmtree dir else fs

theorem deletesTrees_removeTree {χ : Type} :
    DeletesTrees (FileSystem.removeTree : Path → FileSystem χ → FileSystem χ) where
  of_mem h := if_pos (Or.inl h)
  of_not_exists h := if_neg h

/-- `tearDown_of_run` after a build that fails, a build that returns and a lookup. -/
theorem tearDown_of_run_shortHistory :
    (∀ p, p ∈ (tearDown FileSystem.removeTree ((built shortHistory).map Prod.fst)
        shortWorld.fs).dirs ↔ p ∈ (FileSystem.bare : FileSystem Ducer.listed.Image).dirs) ∧
      ∀ loc, (tearDown FileSystem.removeTree ((built shortHistory).map Prod.fst)
          shortWorld.fs).files.lookup loc =
        (FileSystem.bare : FileSystem Ducer.listed.Image).files.lookup loc :=
  tearDown_of_run Ducer.listed_exact deletesTrees_removeTree shortHistory_run
    (List.forall_mem_singleton.mpr (Or.inl (by decide)))

end Purl
