import PurlValidator.Bench.FstDawg

/-!
# The command line of the comparison

`rust-fst-dawg-bench` takes the directories from its command line.  The words are read from
left to right: an option takes the next word, whatever it is, a later option overrides an
earlier one, and a request for help ends the program at once, also if what follows makes no
sense.

`Setting` is an option with its value.  Any command line is a list of settings and then a rest
that decides how reading ends (`Ends`).  So `rustProgram_eq_ok_iff` can say for which command
lines, catalogs and systems the program ends without an error.
-/

namespace Bench

open Py (Str)

/-! ## The program -/

/-- The directories to read from and to write to. -/
structure Dirs where
  dataDir : String
  outDir : String
deriving DecidableEq

/-- Help is printed by `parse_args` itself, which ends the program then. -/
inductive ParsedArgs where
  | dirs (dirs : Dirs)
  | help
deriving DecidableEq

/-- `parse_args`, with what it has read so far. -/
def parseArgs (dirs : Dirs) : List String → Except String ParsedArgs
  | [] => .ok (.dirs dirs)
  | arg :: args =>
      if arg = "--data-dir" then
        match args with
        | [] => .error "--data-dir requires a value"
        | value :: args => parseArgs { dirs with dataDir := value } args
      else if arg = "--out-dir" then
        match args with
        | [] => .error "--out-dir requires a value"
        | value :: args => parseArgs { dirs with outDir := value } args
      else if arg = "--help" ∨ arg = "-h" then .ok .help
      else .error ("unknown argument: " ++ arg)

/-- `main`, for a command line without the name of the program, and without what it prints. -/
def rustProgram (host : Host) (fst : FstCrate) (dawg : DawgCrate) (defaults : Dirs)
    (args : List String) : Except String Unit := do
  match ← parseArgs defaults args with
  | .help => return ()
  | .dirs dirs =>
      host.createDirAll dirs.outDir
      let path ← host.readDir dirs.dataDir
      rustMain host fst dawg dirs.dataDir dirs.outDir path

/-! ## Settings -/

/-- An option with its value. -/
inductive Setting where
  | dataDir (value : String)
  | outDir (value : String)

def Setting.words : Setting → List String
  | .dataDir value => ["--data-dir", value]
  | .outDir value => ["--out-dir", value]

def Setting.apply (dirs : Dirs) : Setting → Dirs
  | .dataDir value => { dirs with dataDir := value }
  | .outDir value => { dirs with outDir := value }

def IsOption (word : String) : Prop := word = "--data-dir" ∨ word = "--out-dir"

def IsHelp (word : String) : Prop := word = "--help" ∨ word = "-h"

instance (word : String) : Decidable (IsOption word) := inferInstanceAs (Decidable (_ ∨ _))

instance (word : String) : Decidable (IsHelp word) := inferInstanceAs (Decidable (_ ∨ _))

/-- What is left of a command line where no setting is left, and what is made of it. -/
inductive Ends (dirs : Dirs) : List String → Except String ParsedArgs → Prop where
  | nil : Ends dirs [] (.ok (.dirs dirs))
  | help {word : String} (rest : List String) : IsHelp word → Ends dirs (word :: rest) (.ok .help)
  | noValue {word : String} : IsOption word → Ends dirs [word] (.error (word ++ " requires a value"))
  | unknown {word : String} (rest : List String) : ¬ IsOption word → ¬ IsHelp word →
      Ends dirs (word :: rest) (.error ("unknown argument: " ++ word))

variable {dirs : Dirs} {args rest : List String} {result : Except String ParsedArgs}

theorem exists_ends_of_not_isOption (dirs : Dirs) {word : String} (h : ¬ IsOption word) :
    ∃ result, Ends dirs (word :: rest) result := by
  by_cases hhelp : IsHelp word
  · exact ⟨_, .help rest hhelp⟩
  · exact ⟨_, .unknown rest h hhelp⟩

/-- Every command line is settings and a rest that can be made something of. -/
theorem exists_settings : ∀ (dirs : Dirs) (args : List String),
    ∃ (settings : List Setting) (rest : List String) (result : Except String ParsedArgs),
      args = settings.flatMap Setting.words ++ rest ∧
        Ends (settings.foldl Setting.apply dirs) rest result
  | dirs, [] => ⟨[], [], _, rfl, .nil⟩
  | dirs, [word] => by
      by_cases h : IsOption word
      · exact ⟨[], [word], _, rfl, .noValue h⟩
      · obtain ⟨result, hends⟩ := exists_ends_of_not_isOption dirs h
        exact ⟨[], [word], result, rfl, hends⟩
  | dirs, word :: value :: args => by
      by_cases h : IsOption word
      · rcases h with rfl | rfl
        · obtain ⟨settings, rest, result, hargs, hends⟩ :=
            exists_settings { dirs with dataDir := value } args
          exact ⟨.dataDir value :: settings, rest, result, by rw [hargs]; rfl, hends⟩
        · obtain ⟨settings, rest, result, hargs, hends⟩ :=
            exists_settings { dirs with outDir := value } args
          exact ⟨.outDir value :: settings, rest, result, by rw [hargs]; rfl, hends⟩
      · obtain ⟨result, hends⟩ := exists_ends_of_not_isOption dirs h
        exact ⟨[], word :: value :: args, result, rfl, hends⟩

/-! ## What the words mean -/

/-- Settings are read one after the other. -/
theorem parseArgs_append (settings : List Setting) (dirs : Dirs) (args : List String) :
    parseArgs dirs (settings.flatMap Setting.words ++ args) =
      parseArgs (settings.foldl Setting.apply dirs) args := by
  induction settings generalizing dirs with
  | nil => rfl
  | cons setting settings ih =>
      rw [List.flatMap_cons, List.append_assoc, List.foldl_cons, ← ih]
      cases setting with
      | dataDir value =>
          show parseArgs dirs ("--data-dir" :: value :: _) = _
          rw [parseArgs]
          rfl
      | outDir value =>
          show parseArgs dirs ("--out-dir" :: value :: _) = _
          rw [parseArgs]
          rfl

theorem Ends.parseArgs_eq (h : Ends dirs rest result) : parseArgs dirs rest = result := by
  cases h with
  | nil => rfl
  | help rest hhelp =>
      rw [parseArgs.eq_def]
      rcases hhelp with rfl | rfl
      · rfl
      · rfl
  | noValue hoption =>
      rcases hoption with rfl | rfl
      · rw [parseArgs]
        rfl
      · rw [parseArgs]
        rfl
  | unknown rest hoption hhelp =>
      rw [IsOption, not_or] at hoption
      rw [parseArgs.eq_def]
      simp only [if_neg hoption.1, if_neg hoption.2]
      exact if_neg hhelp

theorem parseArgs_eq_iff :
    parseArgs dirs args = result ↔ ∃ (settings : List Setting) (rest : List String),
      args = settings.flatMap Setting.words ++ rest ∧
        Ends (settings.foldl Setting.apply dirs) rest result := by
  constructor
  · intro h
    obtain ⟨settings, rest, result', rfl, hends⟩ := exists_settings dirs args
    rw [parseArgs_append, hends.parseArgs_eq] at h
    exact ⟨settings, rest, rfl, h ▸ hends⟩
  · rintro ⟨settings, rest, rfl, hends⟩
    rw [parseArgs_append, hends.parseArgs_eq]

/-- The command lines that name directories. -/
theorem parseArgs_eq_dirs_iff {dirs' : Dirs} :
    parseArgs dirs args = .ok (.dirs dirs') ↔
      ∃ settings : List Setting, args = settings.flatMap Setting.words ∧
        dirs' = settings.foldl Setting.apply dirs := by
  rw [parseArgs_eq_iff]
  constructor
  · rintro ⟨settings, rest, rfl, hends⟩
    cases hends with
    | nil => exact ⟨settings, List.append_nil _, rfl⟩
  · rintro ⟨settings, rfl, rfl⟩
    exact ⟨settings, [], (List.append_nil _).symm, .nil⟩

theorem parseArgs_eq_help_iff :
    parseArgs dirs args = .ok .help ↔
      ∃ (settings : List Setting) (word : String) (rest : List String),
        args = settings.flatMap Setting.words ++ word :: rest ∧ IsHelp word := by
  rw [parseArgs_eq_iff]
  constructor
  · rintro ⟨settings, rest, rfl, hends⟩
    cases hends with
    | @help word rest hhelp => exact ⟨settings, word, rest, rfl, hhelp⟩
  · rintro ⟨settings, word, rest, rfl, hhelp⟩
    exact ⟨settings, word :: rest, rfl, .help rest hhelp⟩

/-- The command lines that are refused, and why. -/
theorem parseArgs_eq_error_iff {error : String} :
    parseArgs dirs args = .error error ↔
      ∃ (settings : List Setting) (word : String),
        (args = settings.flatMap Setting.words ++ [word] ∧ IsOption word ∧
          error = word ++ " requires a value") ∨
        ∃ rest, args = settings.flatMap Setting.words ++ word :: rest ∧ ¬ IsOption word ∧
          ¬ IsHelp word ∧ error = "unknown argument: " ++ word := by
  rw [parseArgs_eq_iff]
  constructor
  · rintro ⟨settings, rest, rfl, hends⟩
    cases hends with
    | @noValue word hoption => exact ⟨settings, word, Or.inl ⟨rfl, hoption, rfl⟩⟩
    | @unknown word rest hoption hhelp =>
        exact ⟨settings, word, Or.inr ⟨rest, rfl, hoption, hhelp, rfl⟩⟩
  · rintro ⟨settings, word, ⟨rfl, hoption, rfl⟩ | ⟨rest, rfl, hoption, hhelp, rfl⟩⟩
    · exact ⟨settings, [word], rfl, .noValue hoption⟩
    · exact ⟨settings, word :: rest, rfl, .unknown rest hoption hhelp⟩

/-! ## How the program ends -/

/-- The program ends without an error exactly if it is asked for help before anything is wrong
with its command line, or is given settings, can make the one directory and store the indexes
in it, can read the other, and finds a catalog there that has keys and none of the made-up
queries. -/
theorem rustProgram_eq_ok_iff {host : Host} {fst : FstCrate} {dawg : DawgCrate}
    (hfst : fst.Exact) (hdawg : dawg.Exact) {defaults : Dirs} :
    rustProgram host fst dawg defaults args = .ok () ↔
      (∃ (settings : List Setting) (word : String) (rest : List String),
        args = settings.flatMap Setting.words ++ word :: rest ∧ IsHelp word) ∨
      ∃ (settings : List Setting) (path : List DataFile),
        args = settings.flatMap Setting.words ∧
        host.createDirAll (settings.foldl Setting.apply defaults).outDir = .ok () ∧
        host.readDir (settings.foldl Setting.apply defaults).dataDir = .ok path ∧
        host.Stores (settings.foldl Setting.apply defaults).outDir ∧
        ∃ h : (rustLoadPurls path).1 ≠ [], ∀ i < nLookups / 2,
          missingPurl (rustLoadPurls path).1 h i ∉ (rustLoadPurls path).1 := by
  rw [rustProgram, Results.bind_eq_ok_iff, ← parseArgs_eq_help_iff]
  constructor
  · rintro ⟨parsed, hparsed, hrun⟩
    cases parsed with
    | help => exact Or.inl hparsed
    | dirs dirs =>
        obtain ⟨settings, rfl, rfl⟩ := parseArgs_eq_dirs_iff.mp hparsed
        obtain ⟨u, hcreate, hrun⟩ := Results.bind_eq_ok_iff.mp hrun
        obtain ⟨path, hread, hrun⟩ := Results.bind_eq_ok_iff.mp hrun
        exact Or.inr ⟨settings, path, rfl, hcreate, hread, (rustMain_eq_ok_iff hfst hdawg).mp hrun⟩
  · rintro (hhelp | ⟨settings, path, rfl, hcreate, hread, hkeys⟩)
    · exact ⟨.help, hhelp, rfl⟩
    · refine ⟨.dirs _, parseArgs_eq_dirs_iff.mpr ⟨settings, rfl, rfl⟩, ?_⟩
      exact Results.bind_eq_ok_iff.mpr ⟨(), hcreate, Results.bind_eq_ok_iff.mpr
        ⟨path, hread, (rustMain_eq_ok_iff hfst hdawg).mpr hkeys⟩⟩

/-- A catalog of two packages, whose PURLs have one length. -/
def fooAndBar : List DataFile := [⟨Str.lit "npm.txt", "pkg:npm/foo\npkg:npm/bar\n".toList⟩]

/-- A host with this catalog in one directory.  Where the names of the indexes are `taken`,
they are those of directories. -/
def catalogHost (taken : Bool) : Host where
  createDirAll _ := .ok ()
  readDir dir := if dir = "catalog" then .ok fooAndBar
    else .error "No such file or directory (os error 2)"
  create _ := if taken then .error "Is a directory (os error 21)" else .ok ()
  write _ := .ok ()
  metadata _ := .ok 11
  read _ := .ok ()

def catalogArgs : List String := ["--out-dir", "--help", "--data-dir", "catalog", "--out-dir", "out"]

/-- A run to the end, help that is given before a word that makes no sense, and a run that
fails because a directory has the name of an index. -/
theorem rustProgram_catalogHost :
    rustProgram (catalogHost false) FstCrate.listed DawgCrate.listed ⟨"data", "target"⟩
        catalogArgs = .ok () ∧
      rustProgram (catalogHost false) FstCrate.listed DawgCrate.listed ⟨"data", "target"⟩
        ["--data-dir", "--help", "-h", "verbose"] = .ok () ∧
      rustProgram (catalogHost true) FstCrate.listed DawgCrate.listed
        ⟨"data", "target"⟩ catalogArgs ≠ .ok () := by
  have hkeys : (rustLoadPurls fooAndBar).1 = ["pkg:npm/bar".toList, "pkg:npm/foo".toList] := by
    decide
  have hne : (rustLoadPurls fooAndBar).1 ≠ [] := by
    rw [hkeys]
    exact List.cons_ne_nil _ _
  have hlength : ∀ key ∈ (rustLoadPurls fooAndBar).1, key.length = 11 := by
    rw [hkeys]
    decide
  refine ⟨?_, ?_, ?_⟩
  · refine (rustProgram_eq_ok_iff FstCrate.listed_exact DawgCrate.listed_exact).mpr (Or.inr ?_)
    exact ⟨[.outDir "--help", .dataDir "catalog", .outDir "out"], fooAndBar, rfl, rfl, rfl,
      ⟨⟨rfl, rfl, 11, rfl⟩, rfl, ⟨rfl, rfl, 11, rfl⟩⟩, hne, fun i _ =>
        missingPurl_notMem hne hlength i⟩
  · exact (rustProgram_eq_ok_iff FstCrate.listed_exact DawgCrate.listed_exact).mpr
      (Or.inl ⟨[.dataDir "--help"], "-h", ["verbose"], rfl, Or.inr rfl⟩)
  · rw [ne_eq, rustProgram_eq_ok_iff FstCrate.listed_exact DawgCrate.listed_exact]
    rintro (hhelp | ⟨settings, path, -, -, -, hstores, -⟩)
    · have hparsed : parseArgs ⟨"data", "target"⟩ catalogArgs = .ok .help :=
        parseArgs_eq_help_iff.mpr hhelp
      cases hparsed
    · cases hstores.fst.create

end Bench
