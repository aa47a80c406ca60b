import PurlValidator.Lib.Results
import PurlValidator.Python.Text

/-!
# Map entries

`create_purl_map_entry` turns a PURL into the key under which the index holds its
package: the type, the namespace if there is one, and the name, joined by slashes
and encoded in UTF-8.  The PURL is a `PackageURL` or a string.  Parsing a string
is `PackageURL.from_string` of the `packageurl` library, the parameter
`fromString` of this development.
-/

namespace Purl

open Py (Str)
open Utf8 (Bytes)

/-! ## Objects and exceptions -/

/-- A `packageurl.PackageURL`.  Its constructor refuses an empty type or name. -/
structure PackageURL where
  /-- The package type, such as `npm`. -/
  type : Str
  /-- The namespace, such as an npm scope. -/
  «namespace» : Option Str
  /-- The package name. -/
  name : Str
  /-- The version. -/
  version : Option Str
  /-- The qualifiers, as pairs of key and value. -/
  qualifiers : List (Str × Str)
  /-- The subpath. -/
  subpath : Option Str
  /-- The type is required. -/
  type_ne : type ≠ []
  /-- The name is required. -/
  name_ne : name ≠ []
deriving DecidableEq

/-- An argument for a PURL.  Only `PackageURL`s and strings are accepted. -/
inductive PyObj where
  /-- A `PackageURL`. -/
  | packageURL (p : PackageURL)
  /-- A string. -/
  | str (s : Str)
  /-- Anything else, with the text that formatting it gives. -/
  | other (text : Str)
deriving DecidableEq

/-- The location of a file or a directory, from the root down. -/
abbrev Path := List Str

/-- The exceptions that the programs raise or let pass. -/
inductive Exn where
  /-- `ValueError`, with its message. -/
  | valueError (msg : Str)
  /-- `UnicodeEncodeError`, with the string that cannot be encoded. -/
  | unicodeEncodeError (s : Str)
  /-- `FileNotFoundError`. -/
  | fileNotFoundError (loc : Path)
  /-- `FileExistsError`. -/
  | fileExistsError (loc : Path)
  /-- `IsADirectoryError`. -/
  | isADirectoryError (loc : Path)
  /-- `NotADirectoryError`. -/
  | notADirectoryError (loc : Path)
  /-- `shutil.SameFileError`. -/
  | sameFileError (loc : Path)
  /-- `AttributeError`, with its message. -/
  | attributeError (msg : Str)
  /-- `TypeError`, with its message. -/
  | typeError (msg : Str)
  /-- `IndexError`. -/
  | indexError
  /-- `sqlite3.IntegrityError`. -/
  | integrityError
  /-- An error of `ducer`, with its message. -/
  | ducerError (msg : Str)
deriving DecidableEq

/-! ## The entry of a PURL -/

/-- The separator of the components of an entry. -/
def slash : Py.CodePoint := Py.CodePoint.ofChar '/'

/-- The map entry as a string.  An absent and an empty namespace are both false. -/
def entryStr (p : PackageURL) : Str :=
  let ns := p.namespace.getD []
  if ns ≠ [] then p.type ++ [slash] ++ ns ++ [slash] ++ p.name
  else p.type ++ [slash] ++ p.name

section FromString

variable (fromString : Str → Except Exn PackageURL)

/-- The first half of `create_purl_map_entry`: check the argument and make sure that
it is a `PackageURL`. -/
def toPackageURL : PyObj → Except Exn PackageURL
  | .other text => .error (.valueError (Str.lit "invalid `purl`: " ++ text))
  | .str s => fromString s
  | .packageURL p => .ok p

/-- `bytes(purl_str, "utf-8")`. -/
def toBytes (s : Str) : Except Exn Bytes :=
  match s.encode with
  | some b => .ok b
  | none => .error (.unicodeEncodeError s)

/-- `create_purl_map_entry`. -/
def createPurlMapEntry (purl : PyObj) : Except Exn Bytes := do
  let p ← toPackageURL fromString purl
  toBytes (entryStr p)

/-- `purl` is a `PackageURL`, or a string that `from_string` parses to one. -/
inductive Denotes : PyObj → PackageURL → Prop where
  /-- A `PackageURL` stands for itself. -/
  | packageURL (p : PackageURL) : Denotes (.packageURL p) p
  /-- A string stands for what it parses to. -/
  | str {s : Str} {p : PackageURL} : fromString s = .ok p → Denotes (.str s) p

/-- A PURL that the index takes: it denotes a package whose entry can be encoded. -/
def Acceptable (purl : PyObj) : Prop :=
  ∃ p, Denotes fromString purl p ∧ (entryStr p).Scalar

end FromString

variable {fromString : Str → Except Exn PackageURL}

/-! ## When it succeeds -/

/-- The conversion returns the package that the argument denotes. -/
theorem toPackageURL_eq_ok_iff {purl : PyObj} {p : PackageURL} :
    toPackageURL fromString purl = .ok p ↔ Denotes fromString purl p := by
  constructor
  · intro h
    cases purl with
    | packageURL q => cases h; exact .packageURL p
    | str s => exact .str h
    | other text => cases h
  · intro h
    cases h with
    | packageURL => rfl
    | str hs => exact hs

/-- A PURL denotes one package. -/
theorem Denotes.unique {purl : PyObj} {p q : PackageURL} (hp : Denotes fromString purl p)
    (hq : Denotes fromString purl q) : p = q := by
  rw [← toPackageURL_eq_ok_iff] at hp hq
  rw [hp] at hq
  exact Except.ok.inj hq

/-- The encoding returns unless there is a surrogate. -/
theorem toBytes_eq_ok_iff {s : Str} {b : Bytes} : toBytes s = .ok b ↔ s.encode = some b := by
  unfold toBytes
  cases s.encode with
  | none => simp
  | some c => simp

/-- An entry is the encoding of the joined segments of a package. -/
theorem createPurlMapEntry_eq_ok_iff {purl : PyObj} {b : Bytes} :
    createPurlMapEntry fromString purl = .ok b ↔
      ∃ p, Denotes fromString purl p ∧ (entryStr p).encode = some b := by
  simp only [createPurlMapEntry, Results.bind_eq_ok_iff, toPackageURL_eq_ok_iff, toBytes_eq_ok_iff]

/-- The entry is computed exactly for the PURLs that the index takes. -/
theorem exists_createPurlMapEntry_iff {purl : PyObj} :
    (∃ b, createPurlMapEntry fromString purl = .ok b) ↔ Acceptable fromString purl := by
  simp only [createPurlMapEntry_eq_ok_iff, Acceptable, ← Str.exists_encode_iff]
  constructor
  · rintro ⟨b, p, hp, hb⟩
    exact ⟨p, hp, b, hb⟩
  · rintro ⟨p, hp, b, hb⟩
    exact ⟨b, p, hp, hb⟩

/-- Every other argument raises. -/
theorem exists_createPurlMapEntry_error_iff {purl : PyObj} :
    (∃ e, createPurlMapEntry fromString purl = .error e) ↔ ¬ Acceptable fromString purl := by
  rw [Results.exists_error_iff, exists_createPurlMapEntry_iff]

/-- Two PURLs have one entry exactly when their packages have one entry string. -/
theorem createPurlMapEntry_eq_iff {purl purl' : PyObj} {p q : PackageURL} {b : Bytes}
    (hp : Denotes fromString purl p) (hq : Denotes fromString purl' q)
    (hb : createPurlMapEntry fromString purl' = .ok b) :
    createPurlMapEntry fromString purl = .ok b ↔ entryStr p = entryStr q := by
  obtain ⟨q', hq', hqb⟩ := createPurlMapEntry_eq_ok_iff.mp hb
  obtain rfl := hq.unique hq'
  rw [createPurlMapEntry_eq_ok_iff]
  constructor
  · rintro ⟨p', hp', hpb⟩
    obtain rfl := hp.unique hp'
    exact Str.encode_inj hpb hqb
  · intro h
    exact ⟨p, hp, h ▸ hqb⟩

/-! ## An npm scope

`pkg:npm/%40angular/core` has the namespace `@angular` and the name `core`.  In
`pkg:npm/%40angular%2Fcore` the slash is part of the name.  Both have one entry. -/

/-- A parser that accepts the strings of a table. -/
def parserOf (table : List (Str × PackageURL)) (s : Str) : Except Exn PackageURL :=
  match table.lookup s with
  | some p => .ok p
  | none => .error (.valueError (Str.lit "purl is missing the required pkg scheme: " ++ s))

/-- A parser that is a table returns nothing else than its entries. -/
theorem mem_of_parserOf_eq_ok {table : List (Str × PackageURL)} {s : Str} {p : PackageURL}
    (h : parserOf table s = .ok p) : (s, p) ∈ table := by
  rw [parserOf] at h
  cases hlookup : table.lookup s with
  | none =>
      rw [hlookup] at h
      cases h
  | some q =>
      rw [hlookup] at h
      cases h
      obtain ⟨l₁, l₂, htable, -⟩ := List.lookup_eq_some_iff.mp hlookup
      rw [htable]
      exact List.mem_append_right _ List.mem_cons_self

theorem npm_ne_nil : Str.lit "npm" ≠ [] := by decide

def scopedCore : PackageURL :=
  ⟨Str.lit "npm", some (Str.lit "@angular"), Str.lit "core", none, [], none, npm_ne_nil, by decide⟩

def slashCore : PackageURL :=
  ⟨Str.lit "npm", none, Str.lit "@angular/core", none, [], none, npm_ne_nil, by decide⟩

def versionedCore : PackageURL := { scopedCore with version := some (Str.lit "17.0.0") }

def lodash : PackageURL :=
  ⟨Str.lit "npm", none, Str.lit "lodash", none, [], none, npm_ne_nil, by decide⟩

def leftPad : PackageURL :=
  ⟨Str.lit "npm", none, Str.lit "left-pad", none, [], none, npm_ne_nil, by decide⟩

/-- What `from_string` makes of the two strings, and of three others. -/
def npmParser : Str → Except Exn PackageURL :=
  parserOf [(Str.lit "pkg:npm/%40angular/core", scopedCore),
    (Str.lit "pkg:npm/%40angular%2Fcore", slashCore),
    (Str.lit "pkg:npm/%40angular/core@17.0.0", versionedCore),
    (Str.lit "pkg:npm/lodash", lodash),
    (Str.lit "pkg:npm/left-pad", leftPad)]

theorem npmParser_scopedCore : npmParser (Str.lit "pkg:npm/%40angular/core") = .ok scopedCore :=
  rfl

/-- An encoded slash is a slash of the name. -/
theorem npmParser_slashCore : npmParser (Str.lit "pkg:npm/%40angular%2Fcore") = .ok slashCore :=
  rfl

theorem acceptable_scopedCore :
    Acceptable npmParser (.str (Str.lit "pkg:npm/%40angular/core")) :=
  ⟨scopedCore, .str npmParser_scopedCore, Str.scalar_ofChars "npm/@angular/core".toList⟩

theorem acceptable_versionedCore :
    Acceptable npmParser (.str (Str.lit "pkg:npm/%40angular/core@17.0.0")) :=
  ⟨versionedCore, .str rfl, Str.scalar_ofChars "npm/@angular/core".toList⟩

theorem acceptable_lodash : Acceptable npmParser (.str (Str.lit "pkg:npm/lodash")) :=
  ⟨lodash, .str rfl, Str.scalar_ofChars "npm/lodash".toList⟩

theorem acceptable_leftPad : Acceptable npmParser (.str (Str.lit "pkg:npm/left-pad")) :=
  ⟨leftPad, .str rfl, Str.scalar_ofChars "npm/left-pad".toList⟩

theorem acceptable_scopedCore_object : Acceptable npmParser (.packageURL scopedCore) :=
  ⟨scopedCore, .packageURL scopedCore, Str.scalar_ofChars "npm/@angular/core".toList⟩

end Purl
