import PurlValidator.Index.Store
import PurlValidator.Lib.Registry

/-!
# Histories of the index store

A program calls `create_purl_map`, constructs validators on the locations that it
got back, and asks them, in any order.  A call may fail and the program goes on.
`Step` is one call with how it ended, and a history is a `Run` of it.  The iterable
given to `create_purl_map` is the list of what it yields: the program walks it once,
so a generator is as good as a list.

Seen from far enough away, the files are a write-once registry: a call that returns
publishes its collection under a new location and every other call does nothing.
`follows_step` shows that a step of the program is a step of the registry.  With
what a run of a registry amounts to, this gives `StoreInvariant`: what the files
hold, when a call raises, and what the validators answer, after any history.
-/

namespace Purl

open Py (Str)
open Utf8 (Bytes)

/-! ## Calls and histories -/

/-- A call, with its argument and how it ended. -/
inductive Event where
  | createPurlMap (purls : List PyObj) (result : Except Exn Path)
  | purlValidator (purlMapLoc : Path) (result : Except Exn PurlValidator)
  | validatePurl (v : PurlValidator) (purl : PyObj) (result : Except Exn Bool)

/-- The file system, and the locations and validators that the program has. -/
structure World (d : Ducer) where
  fs : FileSystem d.Image
  locations : List Path
  validators : List PurlValidator

/-- The program starts with neither. -/
def World.start {d : Ducer} (fs : FileSystem d.Image) : World d := ⟨fs, [], []⟩

section Steps

variable (fromString : Str → Except Exn PackageURL) (d : Ducer)

/-- One call.  The order in which `create_purl_map` walks its set and the directory that
`get_temp_dir` makes are not up to the program. -/
inductive Step : World d → Event → World d → Prop where
  | createPurlMap {world : World d} {w : SetWalk Bytes}
      {getTempDir : FileSystem d.Image → Path × FileSystem d.Image} {purls : List PyObj}
      {result : Except Exn Path} {fs : FileSystem d.Image} :
      MakesTempDir getTempDir world.fs →
      createPurlMap fromString w d getTempDir purls world.fs = (result, fs) →
      Step world (.createPurlMap purls result)
        ⟨fs, result.toOption.toList ++ world.locations, world.validators⟩
  | purlValidator {world : World d} {loc : Path} {result : Except Exn PurlValidator} :
      loc ∈ world.locations →
      PurlValidator.init d loc world.fs = result →
      Step world (.purlValidator loc result)
        ⟨world.fs, world.locations, result.toOption.toList ++ world.validators⟩
  | validatePurl {world : World d} {v : PurlValidator} {purl : PyObj} {result : Except Exn Bool} :
      v ∈ world.validators →
      v.validatePurl fromString d purl world.fs = result →
      Step world (.validatePurl v purl result) world

end Steps

/-- A call of `create_purl_map` that returned: the location and the collection. -/
def Event.publication : Event → Option (Path × List PyObj)
  | .createPurlMap purls (.ok loc) => some (loc, purls)
  | _ => none

/-- The calls of `create_purl_map` that returned, oldest first. -/
def built (es : List Event) : List (Path × List PyObj) := es.filterMap Event.publication

theorem reduceOption_map_publication (es : List Event) :
    (es.map Event.publication).reduceOption = built es := by
  rw [List.reduceOption, List.filterMap_map]
  rfl

/-! ## The files as a registry -/

variable {fromString : Str → Except Exn PackageURL} {d : Ducer} {fs₀ : FileSystem d.Image}
  {world world' : World d} {t : Path → Option (List PyObj)}

/-- The world keeps the files of `fs₀`, and beside them a file for each entry of the
registry `t`.  The program has the locations of those. -/
structure Follows (fromString : Str → Except Exn PackageURL) (fs₀ : FileSystem d.Image)
    (world : World d) (t : Path → Option (List PyObj)) : Prop where
  mem_files : ∀ loc, loc ∈ world.fs.files ↔ loc ∈ fs₀.files ∨ ∃ purls, t loc = some purls
  kept : ∀ loc ∈ fs₀.files, world.fs.files.lookup loc = fs₀.files.lookup loc
  holds : ∀ {loc purls}, t loc = some purls → loc ∉ fs₀.files ∧
    ∃ image, world.fs.files.lookup loc = some image ∧ Holds d image (keys fromString purls)
  mem_locations : ∀ loc, loc ∈ world.locations ↔ ∃ purls, t loc = some purls
  location_mem : ∀ v ∈ world.validators, v.purlMap.location ∈ world.locations

theorem follows_start : Follows fromString fs₀ (World.start fs₀) fun _ => none where
  mem_files loc := by simp [World.start]
  kept loc _ := rfl
  holds h := nomatch h
  mem_locations loc := by simp [World.start]
  location_mem v hv := nomatch hv

/-- A location of the program can be loaded. -/
theorem Follows.init_eq_ok (h : Follows fromString fs₀ world t) {loc : Path}
    (hloc : loc ∈ world.locations) : PurlValidator.init d loc world.fs = .ok ⟨⟨loc⟩⟩ := by
  obtain ⟨purls, ht⟩ := (h.mem_locations loc).mp hloc
  obtain ⟨-, image, hfile, hholds⟩ := h.holds ht
  exact Purl.init_eq_ok hfile hholds

/-- A new file at a location that was free is a new entry of the registry. -/
theorem Follows.publish (h : Follows fromString fs₀ world t) {loc : Path} {purls : List PyObj}
    {image : d.Image} {fs : FileSystem d.Image} (hloc : loc ∉ world.fs.files)
    (hfiles : fs.files = world.fs.files.insert loc image)
    (hholds : Holds d image (keys fromString purls)) :
    t loc = none ∧ Follows fromString fs₀ ⟨fs, loc :: world.locations, world.validators⟩
      (Function.update t loc (some purls)) := by
  have hfree : t loc = none := by
    cases ht : t loc with
    | none => rfl
    | some purls' => exact absurd ((h.mem_files loc).mpr (Or.inr ⟨purls', ht⟩)) hloc
  have hloc₀ : loc ∉ fs₀.files := fun hmem => hloc ((h.mem_files loc).mpr (Or.inl hmem))
  have hentry : ∀ loc', (∃ purls', Function.update t loc (some purls) loc' = some purls') ↔
      loc' = loc ∨ ∃ purls', t loc' = some purls' := by
    intro loc'
    by_cases heq : loc' = loc
    · simp [heq]
    · simp [heq]
  refine ⟨hfree, ?_, ?_, ?_, ?_, ?_⟩
  · intro loc'
    rw [hentry, hfiles, AList.mem_insert, h.mem_files]
    exact or_left_comm
  · intro loc' hmem
    have hne : loc' ≠ loc := fun heq => hloc₀ (heq ▸ hmem)
    show fs.files.lookup loc' = _
    rw [hfiles, AList.lookup_insert_ne hne]
    exact h.kept loc' hmem
  · intro loc' purls' ht
    show _ ∧ ∃ image', fs.files.lookup loc' = some image' ∧ _
    cases (Registry.update_eq_some_iff hfree).mp ht with
    | inr heq =>
        cases heq
        exact ⟨hloc₀, image, by rw [hfiles, AList.lookup_insert], hholds⟩
    | inl ht =>
        have hne : loc' ≠ loc := fun heq => by
          rw [heq, hfree] at ht
          cases ht
        rw [hfiles, AList.lookup_insert_ne hne]
        exact h.holds ht
  · intro loc'
    rw [hentry, List.mem_cons, h.mem_locations]
  · intro v hv
    exact List.mem_cons_of_mem _ (h.location_mem v hv)

/-- A call of the program is a step of the registry. -/
theorem follows_step (hd : d.Exact) (h : Follows fromString fs₀ world t) {e : Event}
    (hstep : Step fromString d world e world') :
    ∃ t', Follows fromString fs₀ world' t' ∧ Registry.Step t e.publication t' := by
  cases hstep with
  | @createPurlMap w getTempDir purls result fs htemp hcall =>
      by_cases hpurls : ∀ purl ∈ purls, Acceptable fromString purl
      · obtain ⟨image, fs', hok, hholds, -, hfiles⟩ := createPurlMap_ok (w := w) hd htemp hpurls
        rw [hok] at hcall
        cases hcall
        have hnew : purlsMap (getTempDir world.fs).1 ∉ world.fs.files := fun hmem =>
          not_exists_purlsMap htemp.not_exists (Or.inr hmem)
        obtain ⟨hfree, hfollows⟩ := h.publish hnew hfiles hholds
        exact ⟨_, hfollows, .publish hfree⟩
      · simp only [not_forall, exists_prop] at hpurls
        obtain ⟨e, herr⟩ :
            ∃ e, createPurlMap fromString w d getTempDir purls world.fs = (.error e, _) :=
          createPurlMap_error hpurls
        rw [herr] at hcall
        cases hcall
        exact ⟨t, h, .skip⟩
  | @purlValidator loc result hloc hinit =>
      rw [h.init_eq_ok hloc] at hinit
      cases hinit
      refine ⟨t, ⟨h.mem_files, h.kept, h.holds, h.mem_locations, fun v hv => ?_⟩, .skip⟩
      cases hv with
      | head => exact hloc
      | tail _ hv => exact h.location_mem v hv
  | validatePurl _ _ => exact ⟨t, h, .skip⟩

/-! ## After any history -/

/-- After a history, the registry of the files and what its run amounts to. -/
theorem follows_run (hd : d.Exact) {es : List Event}
    (hrun : Run (Step fromString d) (World.start fs₀) es world) :
    ∃ t, Follows fromString fs₀ world t ∧ ((built es).map Prod.fst).Nodup ∧
      ∀ loc purls, t loc = some purls ↔ (loc, purls) ∈ built es := by
  obtain ⟨t, hfollows, hreg⟩ :=
    hrun.refine (r := Follows fromString fs₀) (fun _ _ _ _ h hstep => follows_step hd h hstep)
      follows_start
  have hpub := Registry.published_of_run hreg
  refine ⟨t, hfollows, ?_, fun loc purls => ?_⟩
  · rw [← reduceOption_map_publication]
    exact hpub.nodup
  · rw [hpub.get_iff, reduceOption_map_publication]
    exact or_iff_right (fun hnone => nomatch hnone)

/-- The program has the validators that it constructed. -/
theorem mem_validators_iff {es : List Event}
    (hrun : Run (Step fromString d) (World.start fs₀) es world) {v : PurlValidator} :
    v ∈ world.validators ↔ ∃ loc, Event.purlValidator loc (.ok v) ∈ es := by
  refine hrun.invariant (p := fun es world =>
    v ∈ world.validators ↔ ∃ loc, Event.purlValidator loc (.ok v) ∈ es) ?_ ?_
  · simp [World.start]
  · intro es world e world' hinv hstep
    cases hstep with
    | createPurlMap _ _ => simp [hinv]
    | validatePurl _ _ => simp [hinv]
    | @purlValidator loc result _ _ =>
        cases result with
        | error e => simp [hinv, Except.toOption]
        | ok v' =>
            simp only [Except.toOption, Option.toList_some, List.singleton_append, List.mem_cons,
              hinv, List.mem_append, List.not_mem_nil, or_false, Event.purlValidator.injEq,
              Except.ok.injEq, exists_or, exists_eq_left]
            exact or_comm

/-- What holds after the calls `es`, with the world they lead to. -/
structure StoreInvariant (fromString : Str → Except Exn PackageURL) (fs₀ : FileSystem d.Image)
    (es : List Event) (world : World d) : Prop where
  /-- No location is returned twice. -/
  nodup : ((built es).map Prod.fst).Nodup
  /-- The files are the ones of the start and the ones that were built. -/
  mem_files : ∀ loc, loc ∈ world.fs.files ↔ loc ∈ fs₀.files ∨ loc ∈ (built es).map Prod.fst
  kept : ∀ loc ∈ fs₀.files, world.fs.files.lookup loc = fs₀.files.lookup loc
  /-- What was built is new, and holds the keys of its own collection. -/
  holds : ∀ loc purls, (loc, purls) ∈ built es → loc ∉ fs₀.files ∧
    ∃ image, world.fs.files.lookup loc = some image ∧ Holds d image (keys fromString purls)
  /-- The next `create_purl_map` raises exactly if it meets something that is not
  acceptable. -/
  create_error_iff : ∀ w getTempDir purls, MakesTempDir getTempDir world.fs →
    ((∃ e, (createPurlMap fromString w d getTempDir purls world.fs).1 = .error e) ↔
      ∃ purl ∈ purls, ¬ Acceptable fromString purl)
  /-- If it raises, it leaves nothing behind. -/
  create_error_frame : ∀ w getTempDir purls, MakesTempDir getTempDir world.fs →
    ∀ e fs, createPurlMap fromString w d getTempDir purls world.fs = (.error e, fs) →
      fs = world.fs
  /-- No construction failed, and its validator is there. -/
  constructed : ∀ loc result, .purlValidator loc result ∈ es →
    result = .ok ⟨⟨loc⟩⟩ ∧ ⟨⟨loc⟩⟩ ∈ world.validators
  /-- A validator answers for the collection that its file was built from, and raises for
  what is not acceptable. -/
  answers : ∀ v ∈ world.validators, ∃ purls, (v.purlMap.location, purls) ∈ built es ∧
    (∀ purl k, createPurlMapEntry fromString purl = .ok k →
      ∃ b, v.validatePurl fromString d purl world.fs = .ok b ∧
        (b = true ↔ k ∈ keys fromString purls)) ∧
    ∀ purl, ¬ Acceptable fromString purl →
      ∃ e, v.validatePurl fromString d purl world.fs = .error e

/-- A failing call of `create_purl_map` is without effect. -/
theorem createPurlMap_error_frame (hd : d.Exact) {w : SetWalk Bytes}
    {getTempDir : FileSystem d.Image → Path × FileSystem d.Image} {purls : List PyObj}
    {fs fs' : FileSystem d.Image} {e : Exn} (htemp : MakesTempDir getTempDir fs)
    (h : createPurlMap fromString w d getTempDir purls fs = (.error e, fs')) : fs' = fs := by
  have hraise : ∃ e, (createPurlMap fromString w d getTempDir purls fs).1 = .error e :=
    ⟨e, by rw [h]⟩
  obtain ⟨e', h'⟩ : ∃ e', createPurlMap fromString w d getTempDir purls fs = (.error e', fs) :=
    createPurlMap_error ((createPurlMap_error_iff hd htemp).mp hraise)
  rw [h'] at h
  cases h
  rfl

/-- The store invariant holds after every history. -/
theorem storeInvariant_of_run (hd : d.Exact) {es : List Event}
    (hrun : Run (Step fromString d) (World.start fs₀) es world) :
    StoreInvariant fromString fs₀ es world := by
  obtain ⟨t, hfollows, hnodup, hbuilt⟩ := follows_run hd hrun
  refine ⟨hnodup, fun loc => ?_, hfollows.kept, fun loc purls hmem => ?_,
    fun w getTempDir purls htemp => createPurlMap_error_iff hd htemp,
    fun w getTempDir purls htemp e fs hcall => createPurlMap_error_frame hd htemp hcall,
    fun loc result he => ?_, fun v hv => ?_⟩
  · rw [hfollows.mem_files, List.mem_map]
    simp [hbuilt]
  · exact hfollows.holds ((hbuilt loc purls).mpr hmem)
  · obtain ⟨es₁, world₁, world₂, -, hrun₁, hstep⟩ := hrun.exists_step_of_mem he
    obtain ⟨t₁, hfollows₁, -⟩ := follows_run hd hrun₁
    cases hstep with
    | purlValidator hloc hinit =>
        rw [hfollows₁.init_eq_ok hloc] at hinit
        subst hinit
        exact ⟨rfl, (mem_validators_iff hrun).mpr ⟨loc, he⟩⟩
  · obtain ⟨purls, ht⟩ := (hfollows.mem_locations _).mp (hfollows.location_mem v hv)
    obtain ⟨-, image, hfile, hholds⟩ := hfollows.holds ht
    exact ⟨purls, (hbuilt _ _).mp ht, fun purl k hk => validatePurl_eq hfile hholds hk,
      fun purl hnot => validatePurl_error hnot⟩

/-! ## A short history

A build that fails on its second element, one that returns, and a validator. -/

def scopedPurls : List PyObj := [.str (Str.lit "pkg:npm/%40angular/core")]

def shortHistory : List Event :=
  [.createPurlMap (scopedPurls ++ [.other (Str.lit "7")])
      (.error (.valueError (Str.lit "invalid `purl`: 7"))),
    .createPurlMap scopedPurls (.ok (purlsMap tmpDir)),
    .purlValidator (purlsMap tmpDir) (.ok ⟨⟨purlsMap tmpDir⟩⟩),
    .validatePurl ⟨⟨purlsMap tmpDir⟩⟩ (.str (Str.lit "pkg:npm/%40angular/core")) (.ok true)]

/-- The world after it. -/
def shortWorld : World Ducer.listed where
  fs := (createPurlMap npmParser SetWalk.byInsertion Ducer.listed (tempDirAt tmpDir) scopedPurls
    FileSystem.bare).2
  locations := [purlsMap tmpDir]
  validators := [⟨⟨purlsMap tmpDir⟩⟩]

theorem shortHistory_run :
    Run (Step npmParser Ducer.listed) (World.start FileSystem.bare) shortHistory shortWorld := by
  have hfail : Step npmParser Ducer.listed (World.start FileSystem.bare)
      (.createPurlMap (scopedPurls ++ [.other (Str.lit "7")])
        (.error (.valueError (Str.lit "invalid `purl`: 7")))) (World.start FileSystem.bare) :=
    .createPurlMap (w := SetWalk.byInsertion) makesTempDir_bare rfl
  have hok : Step npmParser Ducer.listed (World.start FileSystem.bare)
      (.createPurlMap scopedPurls (.ok (purlsMap tmpDir)))
      ⟨shortWorld.fs, [purlsMap tmpDir], []⟩ :=
    .createPurlMap (w := SetWalk.byInsertion) makesTempDir_bare (Prod.ext (by decide) rfl)
  have hinit : Step npmParser Ducer.listed ⟨shortWorld.fs, [purlsMap tmpDir], []⟩
      (.purlValidator (purlsMap tmpDir) (.ok ⟨⟨purlsMap tmpDir⟩⟩)) shortWorld :=
    .purlValidator List.mem_cons_self (by decide)
  have hask : Step npmParser Ducer.listed shortWorld
      (.validatePurl ⟨⟨purlsMap tmpDir⟩⟩ (.str (Str.lit "pkg:npm/%40angular/core")) (.ok true))
      shortWorld :=
    .validatePurl List.mem_cons_self (by decide)
  exact (((Run.nil.snoc hfail).snoc hok).snoc hinit).snoc hask

theorem shortHistory_storeInvariant :
    StoreInvariant npmParser FileSystem.bare shortHistory shortWorld :=
  storeInvariant_of_run Ducer.listed_exact shortHistory_run

end Purl
