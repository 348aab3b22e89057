import SpacerocksCoa.ManifestSchema
import SpacerocksCoa.PythonJson
import SpacerocksCoa.ReadManifests

/-!
# The offline verifier

`verify.py` is part of every package. It runs in the folder where the package was unpacked and
checks the manifest, its signature, every listed file, the photographs, the checksums and that
nothing else is in the folder. A folder that passes holds what the signed manifest lists: two
folders that pass under one manifest have the same evidence unless SHA-256 collides.

The folder has no symbolic links. Hashes, keys and floats are parameters, and what the script
prints is left out, but for the names of the failures.
-/
namespace OfflineVerifier
open JsonText (Text Json units)
open PythonJson (loads decodeUtf8 zeroFloats)
open IdempotencyKeys (PyNumber)
open CodeUnits (natText toLowerCase upperUnit)
open ManifestSchema (bytesToHex samplePng sampleSpki sampleIdentity)
open ReadManifests (findField)

/-! ## Values -/

abbrev Value (F : Type) := Json (PyNumber F)

/-- What the script imports and how deep it may nest a value; a key that is none of Ed25519 is
loaded as `some none`. -/
structure Python (F Key : Type) where
  recursionLimit : Nat
  float : Text → F
  isInt : F → Int → Bool
  isInt_unique : ∀ x a b, isInt x a = true → isInt x b = true → a = b
  sameFloat : F → F → Bool
  sha256 : List UInt8 → List UInt8
  loadPublicKey : List UInt8 → Option (Option Key)
  verify : Key → List UInt8 → List UInt8 → Bool
  publicBytes : Key → List UInt8

variable {F Key : Type} (p : Python F Key)

def Python.hexdigest (content : List UInt8) : Text := bytesToHex (p.sha256 content)

/-- A truth value is an integer. -/
def numeric : Value F → Option (PyNumber F)
  | .number n => some n
  | .bool true => some (.int 1)
  | .bool false => some (.int 0)
  | _ => none

def sameNumber : PyNumber F → PyNumber F → Bool
  | .int a, .int b => a == b
  | .int a, .float x => p.isInt x a
  | .float x, .int b => p.isInt x b
  | .float x, .float y => p.sameFloat x y

mutual

/-- `==` -/
def equal : Value F → Value F → Bool
  | .null, .null => true
  | .text s, .text t => s == t
  | .array items, .array others => equalItems items others
  | .object fields, .object others => fields.length == others.length && equalFields fields others
  | .null, _ => false
  | .text _, _ => false
  | .array _, _ => false
  | .object _, _ => false
  | .bool b, w => (numeric w).any (sameNumber p (.int (if b then 1 else 0)))
  | .number n, w => (numeric w).any (sameNumber p n)

def equalItems : List (Value F) → List (Value F) → Bool
  | [], [] => true
  | item :: items, other :: others => equal item other && equalItems items others
  | [], _ :: _ => false
  | _ :: _, [] => false

def equalFields : List (Text × Value F) → List (Text × Value F) → Bool
  | [], _ => true
  | (key, item) :: fields, others =>
    (findField others key).any (equal item) && equalFields fields others

end

/-- `v[key]`; `none` is an exception. -/
def item (v : Value F) (key : Text) : Option (Value F) :=
  match v with
  | .object fields => findField fields key
  | _ => none

/-- `v.get(key, default)` -/
def get (v : Value F) (key : Text) (default : Value F) : Option (Value F) :=
  match v with
  | .object fields => some ((findField fields key).getD default)
  | _ => none

/-- What a loop over the value goes through; a dictionary has its keys, and every item of a text
is a text. -/
def elements : Value F → Option (List (Value F))
  | .array items => some items
  | .object fields => some (fields.map fun field => .text field.1)
  | .text s => some (s.map fun c => .text [c])
  | _ => none

def hashable : Value F → Bool
  | .array _ => false
  | .object _ => false
  | _ => true

def asText : Value F → Option Text
  | .text s => some s
  | _ => none

/-! ## The folder -/

def parts (path : Text) : List Text := path.splitOn 47

/-- A path relative to the folder, as `as_posix` writes it. -/
def Canonical (path : Text) : Prop := ∀ part ∈ parts path, part ≠ [] ∧ part ≠ [46] ∧ part ≠ [46, 46]

structure Folder where
  root : List Text
  files : List (Text × List UInt8)
  canonical : ∀ file ∈ files, Canonical file.1
  distinct : (files.map Prod.fst).Nodup

def resolveStep (path : List Text) (part : Text) : List Text :=
  if part = [] ∨ part = [46] then path
  else if part = [46, 46] then path.dropLast
  else path ++ [part]

/-- `(ROOT / relative).resolve()` -/
def resolve (root : List Text) (relative : Text) : List Text :=
  (parts relative).foldl resolveStep (if relative.head? = some 47 then [] else root)

/-- `safe_path`, relative to the folder -/
def Folder.safePath (folder : Folder) (relative : Text) : Option (List Text) :=
  let candidate := resolve folder.root relative
  if candidate.take folder.root.length = folder.root then
    some (candidate.drop folder.root.length)
  else none

/-- The content of a file; `none` is one of the exceptions for an unsafe or a missing path. -/
def Folder.read (folder : Folder) (relative : Text) : Option (List UInt8) :=
  (folder.safePath relative).bind fun inside =>
    (folder.files.find? fun file => parts file.1 == inside).map Prod.snd

variable (folder : Folder)

/-! ## The evidence -/

/-- The path of an entry, and whether its file is as signed. -/
def checkEntry (entry : Value F) : Option (Text × Bool) := do
  let relative ← (item entry (units "path")).bind asText
  match folder.read relative with
  | none => return (relative, false)
  | some content =>
    let signed ← item entry (units "sha256")
    if equal p (.text (p.hexdigest content)) signed = true then do
      let bytes ← item entry (units "bytes")
      return (relative, equal p (.number (.int content.length)) bytes)
    else return (relative, false)

def evidenceFailures : List (Value F) → Option (List Text)
  | [] => some []
  | entry :: entries => do
    let checked ← checkEntry p folder entry
    let failures ← evidenceFailures entries
    return if checked.2 then failures else checked.1 :: failures

/-! ## The photographs -/

/-- The entries with the path of the photograph. -/
def entriesOf (path : Value F) : List (Value F) → Option (List (Value F))
  | [] => some []
  | entry :: entries => do
    let own ← get entry (units "path") .null
    let others ← entriesOf path entries
    return if equal p own path then entry :: others else others

def sameFact (photo entry : Value F) (key : Text) : Option Bool := do
  let recorded ← get photo key .null
  let listed ← get entry key .null
  return equal p recorded listed

/-- `type(value) is int` within the bounds -/
def dimension (value : Value F) : Option Nat :=
  match value with
  | .number (.int n) => if 1 ≤ n ∧ n ≤ 100000 then some n.toNat else none
  | _ => none

def cropScale (width height : Nat) : Nat := min (width / 112) (height / 91)

def cropSuitable (width height : Nat) : Bool :=
  let area := width * height
  let cropArea := 112 * cropScale width height * (91 * cropScale width height)
  5 ≤ cropScale width height && (area - cropArea) * 20 ≤ area

def expectedCrop (width height : Nat) : Value F :=
  let cropWidth := 112 * cropScale width height
  let cropHeight := 91 * cropScale width height
  .object [(units "x", .number (.int ((width - cropWidth) / 2 : Nat))),
    (units "y", .number (.int ((height - cropHeight) / 2 : Nat))),
    (units "width", .number (.int cropWidth)), (units "height", .number (.int cropHeight)),
    (units "targetAspect", .text (units "112:91")),
    (units "algorithm", .text (units "center-cover-v1"))]

/-- The checks of the schemas with dimensions. -/
def dimensionProblems (index : Nat) (schema21 : Bool) (photo : Value F) : Option (List Text) := do
  let width ← get photo (units "pixelWidth") .null
  let height ← get photo (units "pixelHeight") .null
  match dimension width, dimension height with
  | some w, some h =>
    let crop ← get photo (units "displayCrop") .null
    if schema21 then
      match crop with
      | .null =>
        return if cropSuitable w h = true ∨ index = 0 then [units " missing required crop"] else []
      | crop =>
        return if cropSuitable w h = false ∨ equal p crop (expectedCrop w h) = false then
          [units " crop semantics"] else []
    else return if (item photo (units "displayCrop")).isSome then
      [units " unexpected crop metadata"] else []
  | _, _ => return [units " dimensions"]

/-- The facts and the role of the one entry of a photograph. -/
def entryProblems (dimensioned : Bool) (photo : Value F) (found : List (Value F)) :
    Option (List Text) :=
  match found with
  | [entry] => do
    let sha256 ← sameFact p photo entry (units "sha256")
    let bytes ← sameFact p photo entry (units "bytes")
    let mediaType ← sameFact p photo entry (units "mediaType")
    let role ← get entry (units "role") .null
    let original := equal p role (.text (units "exact original specimen photograph"))
    return (if (sha256 && bytes && mediaType) = false then [units " file facts"] else []) ++
      if (dimensioned && !original) = true then [units " file role"] else []
  | _ => some [units " file entry count"]

/-- The failures of one photograph, and its path. -/
def checkPhotograph (index : Nat) (version : Value F) (entries seen : List (Value F))
    (photo : Value F) : Option (List Text × Value F) := do
  let path ← get photo (units "path") .null
  if hashable path = false then none
  else
    let found ← entriesOf p path entries
    let schema21 := equal p version (.text (units "2.1.0"))
    let dimensioned := schema21 || equal p version (.text (units "2.2.0"))
    let bound ← entryProblems p dimensioned photo found
    let measured ← if dimensioned then dimensionProblems p index schema21 photo else some []
    let twice := if seen.any (equal p path) then [units " duplicate path"] else []
    let label := units "photograph " ++ natText (index + 1)
    return ((twice ++ bound ++ measured).map fun problem => label ++ problem, path)

def photographFailures (version : Value F) (entries : List (Value F)) :
    Nat → List (Value F) → List (Value F) → Option (List Text)
  | _, _, [] => some []
  | index, seen, photo :: photos => do
    let checked ← checkPhotograph p index version entries seen photo
    let failures ← photographFailures version entries (index + 1) (checked.2 :: seen) photos
    return checked.1 ++ failures

/-! ## The checksums -/

/-- Line ends as text files have them once they are read. -/
def universalNewlines : Text → Text
  | [] => []
  | [c] => if c = 13 then [10] else [c]
  | c :: d :: rest =>
    if c = 13 ∧ d = 10 then 10 :: universalNewlines rest
    else (if c = 13 then 10 else c) :: universalNewlines (d :: rest)

/-- A character at which `splitlines` splits. -/
def lineBoundary (c : Nat) : Bool :=
  (10 ≤ c && c ≤ 13) || (28 ≤ c && c ≤ 30) || c == 0x85 || c == 0x2028 || c == 0x2029

/-- `splitlines`, with the line that has begun -/
def splitlines (line : Text) : Text → List Text
  | [] => if line = [] then [] else [line]
  | c :: rest =>
    if lineBoundary c then line :: splitlines [] rest else splitlines (line ++ [c]) rest

def isSpace (c : Nat) : Bool :=
  (9 ≤ c && c ≤ 13) || (28 ≤ c && c ≤ 32) || c == 0x85 || c == 0xa0 || c == 0x1680 ||
    (0x2000 ≤ c && c ≤ 0x200a) || c == 0x2028 || c == 0x2029 || c == 0x202f || c == 0x205f ||
    c == 0x3000

/-- `line.split("  ", 1)` into two. -/
def splitTwice : Text → Option (Text × Text)
  | [] => none
  | [_] => none
  | c :: d :: rest =>
    if c = 32 ∧ d = 32 then some ([], rest)
    else (splitTwice (d :: rest)).map fun split => (c :: split.1, split.2)

def checkLine (line : Text) : Option (List Text) :=
  if line.all isSpace then some []
  else do
    let split ← splitTwice line
    let ok := (folder.read split.2).any fun content => p.hexdigest content == toLowerCase split.1
    return if ok then [] else [units "package:" ++ split.2]

def checksumFailures : List Text → Option (List Text)
  | [] => some []
  | line :: lines => do
    let failures ← checkLine p folder line
    let others ← checksumFailures lines
    return failures ++ others

/-! ## The script -/

def structural : List Text := ["manifest.json", "signature.sig", "sha256sums.txt"].map units

/-- `":".join` of the digits in pairs -/
def fingerprint (hex : Text) : Text :=
  [58].intercalate ((List.range 32).map fun i => ((hex.map upperUnit).drop (2 * i)).take 2)

def sameSet (first second : List Text) : Bool :=
  first.all (fun x => second.any fun y => x == y) && second.all fun x => first.any fun y => x == y

def flag (passed : Bool) (failure : String) : List Text := if passed then [] else [units failure]

def entryPaths : List (Value F) → Option (List Text)
  | [] => some []
  | entry :: entries => do
    let path ← (item entry (units "path")).bind asText
    let paths ← entryPaths entries
    return path :: paths

def inventoryFailures (entries : List (Value F)) : Option (List Text) := do
  let listed ← entryPaths entries
  return flag (sameSet (folder.files.map Prod.fst) (listed ++ structural)) "package-inventory"

/-- The key of the package; `none` is an exception, or the exit for a key of another kind. -/
def publicKey : Option Key := do
  let pem ← folder.read (units "public-key.pem")
  let loaded ← p.loadPublicKey pem
  loaded

/-- The failures of a run that ends without an exception. -/
def script : Option (List Text) := do
  let manifestBytes ← folder.read (units "manifest.json")
  let manifest ← (loads p.float p.recursionLimit manifestBytes).toOption
  let key ← publicKey p folder
  let signature ← folder.read (units "signature.sig")
  let issuer ← item manifest (units "issuer")
  let stated ← item issuer (units "publicKeyFingerprint")
  let entries ← (get manifest (units "files") (.array [])).bind elements
  let evidence ← evidenceFailures p folder entries
  let photos ← (get manifest (units "photographs") (.array [])).bind elements
  let version ← get manifest (units "schemaVersion") .null
  let photographs ← photographFailures p version entries 0 [] photos
  let certificate ← item manifest (units "certificate")
  let record ← ((item certificate (units "recordFile")).bind asText).bind folder.read
  let recordHash ← item certificate (units "recordSha256")
  let sums ← (folder.read (units "sha256sums.txt")).bind (decodeUtf8 false)
  let checksums ← checksumFailures p folder (splitlines [] (universalNewlines sums))
  let inventory ← inventoryFailures folder entries
  let own := fingerprint (p.hexdigest (p.publicBytes key))
  return flag (p.verify key signature manifestBytes) "signature" ++
    flag (equal p (.text own) stated) "fingerprint" ++ evidence ++
    flag (photographs == [] && photos.isEmpty == false) "photograph-metadata" ++
    flag (equal p (.text (p.hexdigest record)) recordHash) "certificate-record" ++
    checksums ++ inventory

/-- `PACKAGE VERIFICATION PASSED` -/
def Passes : Prop := script p folder = some []

/-! ## Paths inside the folder -/

theorem parts_injective {first second : Text} (same : parts first = parts second) :
    first = second := by
  have joined := congrArg (fun l => [47].intercalate l) same
  dsimp only [parts] at joined
  rwa [List.intercalate_splitOn, List.intercalate_splitOn] at joined

theorem canonical_start {path : Text} (canonical : Canonical path) : path.head? ≠ some 47 := by
  cases path with
  | nil => exact fun slash => by cases slash
  | cons c rest =>
    intro slash
    cases Option.some.inj slash
    have cut : parts (47 :: rest) = [] :: parts rest := by
      rw [parts, List.splitOn_cons_eq_if_modifyHead, if_pos (beq_self_eq_true 47), parts]
    exact (canonical [] (cut ▸ List.mem_cons_self)).1 rfl

theorem foldl_plain {path : List Text} (start : List Text)
    (plain : ∀ part ∈ path, part ≠ [] ∧ part ≠ [46] ∧ part ≠ [46, 46]) :
    path.foldl resolveStep start = start ++ path := by
  induction path generalizing start with
  | nil => rw [List.foldl_nil, List.append_nil]
  | cons part path ih =>
    obtain ⟨filled, here, up⟩ := plain part List.mem_cons_self
    rw [List.foldl_cons, resolveStep, if_neg (not_or.2 ⟨filled, here⟩), if_neg up,
      ih _ fun other member => plain other (List.mem_cons_of_mem _ member), List.append_assoc]
    rfl

theorem resolve_canonical (root : List Text) {path : Text} (canonical : Canonical path) :
    resolve root path = root ++ parts path := by
  rw [resolve, if_neg (canonical_start canonical)]
  exact foldl_plain root canonical

/-- The content of the file with this path. -/
def Folder.lookup (path : Text) : Option (List UInt8) :=
  (folder.files.find? fun file => file.1 == path).map Prod.snd

variable {folder} {p}

theorem lookup_of_mem {file : Text × List UInt8} (member : file ∈ folder.files) :
    folder.lookup file.1 = some file.2 := by
  unfold Folder.lookup
  rw [UniqueColumns.find_of_mem folder.distinct member]
  rfl

theorem mem_of_lookup {path : Text} {content : List UInt8}
    (found : folder.lookup path = some content) : (path, content) ∈ folder.files := by
  obtain ⟨file, here, rfl⟩ := Option.map_eq_some_iff.1 found
  have same := List.find?_some here
  rw [beq_iff_eq] at same
  rw [← same]
  exact List.mem_of_find?_eq_some here

/-- A canonical path names its own file. -/
theorem read_canonical {path : Text} (canonical : Canonical path) :
    folder.read path = folder.lookup path := by
  have inside : folder.safePath path = some (parts path) := by
    rw [Folder.safePath, resolve_canonical _ canonical, if_pos (List.take_left' rfl),
      List.drop_left' rfl]
  rw [Folder.read, inside, Option.bind_some, Folder.lookup]
  congr 2
  funext file
  rw [Bool.eq_iff_iff, beq_iff_eq, beq_iff_eq]
  exact ⟨parts_injective, congrArg parts⟩

/-! ## What a folder that passes holds -/

theorem flag_nil {passed : Bool} {failure : String} (none_ : flag passed failure = []) :
    passed = true := by
  unfold flag at none_
  split at none_
  · assumption
  · cases none_

theorem equal_text {s : Text} {v : Value F} (same : equal p (.text s) v = true) : v = .text s := by
  cases v with
  | text t =>
    rw [equal, beq_iff_eq] at same
    rw [same]
  | _ => rw [equal] at same <;> cases same

/-- A value equals at most one integer. -/
theorem equal_int {a b : Int} {v : Value F} (first : equal p (.number (.int a)) v = true)
    (second : equal p (.number (.int b)) v = true) : a = b := by
  rw [equal] at first second
  cases number : numeric v with
  | none =>
    rw [number] at first
    cases first
  | some n =>
    rw [number] at first second
    cases n with
    | int c => exact (beq_iff_eq.1 first).trans (beq_iff_eq.1 second).symm
    | float x => exact p.isInt_unique x a b first second

def pathOf (entry : Value F) : Option Text := (item entry (units "path")).bind asText

/-- The file of an entry is in the folder as it was signed. -/
structure AsSigned (p : Python F Key) (folder : Folder) (entry : Value F) (path : Text) : Prop where
  named : pathOf entry = some path
  content : ∃ content, folder.read path = some content ∧
    item entry (units "sha256") = some (.text (p.hexdigest content)) ∧
    ∃ bytes, item entry (units "bytes") = some bytes ∧
      equal p (.number (.int content.length)) bytes = true

theorem asSigned_of_check {entry : Value F} {path : Text}
    (checked : checkEntry p folder entry = some (path, true)) : AsSigned p folder entry path := by
  obtain ⟨relative, named, checked⟩ := Option.bind_eq_some_iff.1 checked
  cases found : folder.read relative with
  | none =>
    simp only [found] at checked
    cases checked
  | some content =>
    simp only [found] at checked
    obtain ⟨signed, stated, checked⟩ := Option.bind_eq_some_iff.1 checked
    split at checked
    · next same =>
      obtain ⟨bytes, size, checked⟩ := Option.bind_eq_some_iff.1 checked
      obtain ⟨rfl, sizes⟩ := Prod.mk.inj (Option.some.inj checked)
      exact ⟨named, content, found, equal_text same ▸ stated, bytes, size, sizes⟩
    · cases checked

theorem evidence_signed {entries : List (Value F)}
    (passed : evidenceFailures p folder entries = some []) :
    ∀ entry ∈ entries, ∃ path, AsSigned p folder entry path := by
  induction entries with
  | nil => exact List.forall_mem_nil _
  | cons first entries ih =>
    obtain ⟨⟨path, ok⟩, checked, passed⟩ := Option.bind_eq_some_iff.1 passed
    obtain ⟨failures, others, passed⟩ := Option.bind_eq_some_iff.1 passed
    cases ok with
    | false => cases passed
    | true =>
      cases passed
      intro entry member
      rcases List.mem_cons.1 member with rfl | later
      · exact ⟨path, asSigned_of_check checked⟩
      · exact ih others entry later

theorem mem_entryPaths {entries : List (Value F)} {paths : List Text}
    (listed : entryPaths entries = some paths) (path : Text) :
    path ∈ paths ↔ ∃ entry ∈ entries, pathOf entry = some path := by
  induction entries generalizing paths with
  | nil =>
    cases listed
    simp only [List.not_mem_nil, false_and, exists_false]
  | cons first entries ih =>
    obtain ⟨own, named, listed⟩ := Option.bind_eq_some_iff.1 listed
    obtain ⟨others, rest, listed⟩ := Option.bind_eq_some_iff.1 listed
    cases listed
    rw [List.mem_cons, ih rest]
    constructor
    · rintro (rfl | ⟨entry, member, here⟩)
      · exact ⟨first, List.mem_cons_self, named⟩
      · exact ⟨entry, List.mem_cons_of_mem _ member, here⟩
    · rintro ⟨entry, member, here⟩
      rcases List.mem_cons.1 member with rfl | later
      · exact .inl (Option.some.inj (here.symm.trans named))
      · exact .inr ⟨entry, later, here⟩

theorem sameSet_iff {first second : List Text} : sameSet first second = true ↔
    ∀ x, x ∈ first ↔ x ∈ second := by
  simp only [sameSet, Bool.and_eq_true, List.all_eq_true, List.any_eq_true, beq_iff_eq,
    exists_eq_right']
  exact ⟨fun both x => ⟨both.1 x, both.2 x⟩, fun same => ⟨fun x => (same x).1, fun x => (same x).2⟩⟩

/-- The files of the folder are the listed ones and the structural ones. -/
theorem inventory_paths {entries : List (Value F)}
    (passed : inventoryFailures folder entries = some []) (path : Text) :
    path ∈ folder.files.map Prod.fst ↔
      (∃ entry ∈ entries, pathOf entry = some path) ∨ path ∈ structural := by
  obtain ⟨listed, paths, passed⟩ := Option.bind_eq_some_iff.1 passed
  have same := sameSet_iff.1 (flag_nil (Option.some.inj passed)) path
  rw [same, List.mem_append, mem_entryPaths paths]

/-- What the script has read and checked in a folder that passes. -/
structure Passed (p : Python F Key) (folder : Folder) (manifestBytes : List UInt8)
    (manifest : Value F) (entries : List (Value F)) : Prop where
  stored : folder.read (units "manifest.json") = some manifestBytes
  loaded : (loads p.float p.recursionLimit manifestBytes).toOption = some manifest
  files : (get manifest (units "files") (.array [])).bind elements = some entries
  signature : ∃ key signature, publicKey p folder = some key ∧
    folder.read (units "signature.sig") = some signature ∧
    p.verify key signature manifestBytes = true
  evidence : evidenceFailures p folder entries = some []
  inventory : inventoryFailures folder entries = some []

theorem passed_of {folder : Folder} (passes : Passes p folder) :
    ∃ manifestBytes manifest entries, Passed p folder manifestBytes manifest entries := by
  unfold Passes script at passes
  obtain ⟨manifestBytes, stored, passes⟩ := Option.bind_eq_some_iff.1 passes
  obtain ⟨manifest, loaded, passes⟩ := Option.bind_eq_some_iff.1 passes
  obtain ⟨key, imported, passes⟩ := Option.bind_eq_some_iff.1 passes
  obtain ⟨signature, signed, passes⟩ := Option.bind_eq_some_iff.1 passes
  obtain ⟨issuer, -, passes⟩ := Option.bind_eq_some_iff.1 passes
  obtain ⟨stated, -, passes⟩ := Option.bind_eq_some_iff.1 passes
  obtain ⟨entries, files, passes⟩ := Option.bind_eq_some_iff.1 passes
  obtain ⟨evidence, checked, passes⟩ := Option.bind_eq_some_iff.1 passes
  obtain ⟨photos, -, passes⟩ := Option.bind_eq_some_iff.1 passes
  obtain ⟨version, -, passes⟩ := Option.bind_eq_some_iff.1 passes
  obtain ⟨photographs, -, passes⟩ := Option.bind_eq_some_iff.1 passes
  obtain ⟨certificate, -, passes⟩ := Option.bind_eq_some_iff.1 passes
  obtain ⟨record, -, passes⟩ := Option.bind_eq_some_iff.1 passes
  obtain ⟨recordHash, -, passes⟩ := Option.bind_eq_some_iff.1 passes
  obtain ⟨sums, -, passes⟩ := Option.bind_eq_some_iff.1 passes
  obtain ⟨checksums, -, passes⟩ := Option.bind_eq_some_iff.1 passes
  obtain ⟨inventory, listed, passes⟩ := Option.bind_eq_some_iff.1 passes
  have none_ := Option.some.inj passes
  simp only [List.append_eq_nil_iff] at none_
  obtain ⟨⟨⟨⟨⟨⟨verified, -⟩, rfl⟩, -⟩, -⟩, -⟩, rfl⟩ := none_
  exact ⟨manifestBytes, manifest, entries, stored, loaded, files,
    ⟨key, signature, imported, signed, flag_nil verified⟩, checked, listed⟩

/-- A listed file, as signed. -/
theorem Passed.lookup {manifestBytes : List UInt8} {manifest : Value F} {entries : List (Value F)}
    (passed : Passed p folder manifestBytes manifest entries) {entry : Value F}
    (member : entry ∈ entries) {path : Text} (named : pathOf entry = some path) :
    ∃ content, folder.lookup path = some content ∧
      item entry (units "sha256") = some (.text (p.hexdigest content)) ∧
      ∃ bytes, item entry (units "bytes") = some bytes ∧
        equal p (.number (.int content.length)) bytes = true := by
  obtain ⟨own, signed⟩ := evidence_signed passed.evidence entry member
  cases Option.some.inj (named.symm.trans signed.named)
  obtain ⟨content, here, facts⟩ := signed.content
  obtain ⟨file, inside, same⟩ := List.mem_map.1
    ((inventory_paths passed.inventory path).2 (.inl ⟨entry, member, named⟩))
  rw [read_canonical (same ▸ folder.canonical file inside)] at here
  exact ⟨content, here, facts⟩

/-! ## Two folders -/

theorem hexDigit_injective {m n : Nat} (first : m < 16) (second : n < 16)
    (same : JsonText.hexDigit m = JsonText.hexDigit n) : m = n := by
  have read := JsonText.hexValue_hexDigit first
  rw [same, JsonText.hexValue_hexDigit second] at read
  exact (Option.some.inj read).symm

theorem bytesToHex_injective {first second : List UInt8}
    (same : bytesToHex first = bytesToHex second) : first = second := by
  induction first generalizing second with
  | nil =>
    cases second with
    | nil => rfl
    | cons byte rest => cases same
  | cons byte rest ih =>
    cases second with
    | nil => cases same
    | cons other others =>
      rw [ManifestSchema.bytesToHex_cons, ManifestSchema.bytesToHex_cons] at same
      obtain ⟨high, same⟩ := List.cons.inj same
      obtain ⟨low, same⟩ := List.cons.inj same
      have small := byte.toNat_lt
      have small' := other.toNat_lt
      have quotients := hexDigit_injective (by omega) (by omega) high
      have rests := hexDigit_injective (by omega) (by omega) low
      rw [ih same, UInt8.toNat_inj.1 (show byte.toNat = other.toNat by omega)]

theorem structural_canonical : ∀ path ∈ structural, ∀ part ∈ parts path,
    part ≠ [] ∧ part ≠ [46] ∧ part ≠ [46, 46] := by decide

theorem Passed.manifest_file {manifestBytes : List UInt8} {manifest : Value F}
    {entries : List (Value F)} (passed : Passed p folder manifestBytes manifest entries) :
    folder.lookup (units "manifest.json") = some manifestBytes := by
  rw [← read_canonical (structural_canonical _ List.mem_cons_self)]
  exact passed.stored

/-- A listed file of one folder is in the other one, as long and with the same hash. -/
theorem Passed.counterpart {first second : Folder} {manifestBytes : List UInt8}
    {manifest : Value F} {entries : List (Value F)}
    (passed : Passed p first manifestBytes manifest entries)
    (passed' : Passed p second manifestBytes manifest entries) {path : Text}
    {content : List UInt8} (found : first.lookup path = some content)
    (evidence : path ∉ structural) :
    ∃ other, second.lookup path = some other ∧ content.length = other.length ∧
      p.sha256 content = p.sha256 other := by
  have listed := List.mem_map_of_mem (f := Prod.fst) (mem_of_lookup found)
  obtain ⟨entry, member, named⟩ :=
    ((inventory_paths passed.inventory path).1 listed).resolve_right evidence
  obtain ⟨own, here, digest, bytes, size, same⟩ := passed.lookup member named
  obtain ⟨other, there, digest', bytes', size', same'⟩ := passed'.lookup member named
  cases Option.some.inj (found.symm.trans here)
  cases Option.some.inj (size.symm.trans size')
  refine ⟨other, there, ?_, ?_⟩
  · exact Int.ofNat_inj.1 (equal_int same same')
  · have hex := Json.text.inj (Option.some.inj (digest.symm.trans digest'))
    exact bytesToHex_injective hex

/-- Two folders that pass under one manifest have the same evidence: a file that differs would
be as long as its counterpart and have the same SHA-256 digest. -/
theorem passing_folders_agree {first second : Folder} (passes : Passes p first)
    (passes' : Passes p second)
    (same : first.lookup (units "manifest.json") = second.lookup (units "manifest.json"))
    (path : Text) (evidence : path ≠ units "signature.sig" ∧ path ≠ units "sha256sums.txt") :
    first.lookup path = second.lookup path ∨
      ∃ a b, first.lookup path = some a ∧ second.lookup path = some b ∧ a ≠ b ∧
        a.length = b.length ∧ p.sha256 a = p.sha256 b := by
  obtain ⟨manifestBytes, manifest, entries, passed⟩ := passed_of passes
  obtain ⟨manifestBytes', manifest', entries', passed'⟩ := passed_of passes'
  rw [passed.manifest_file, passed'.manifest_file] at same
  cases same
  cases Option.some.inj (passed.loaded.symm.trans passed'.loaded)
  cases Option.some.inj (passed.files.symm.trans passed'.files)
  by_cases own : path = units "manifest.json"
  · rw [own, passed.manifest_file, passed'.manifest_file]
    exact .inl rfl
  have other : path ∉ structural := by
    simp only [structural, List.map_cons, List.map_nil, List.mem_cons, List.not_mem_nil, or_false,
      not_or]
    exact ⟨own, evidence⟩
  cases found : first.lookup path with
  | none =>
    cases found' : second.lookup path with
    | none => exact .inl rfl
    | some content =>
      obtain ⟨missing, here, -⟩ := passed'.counterpart passed found' other
      rw [found] at here
      cases here
  | some content =>
    obtain ⟨counterpart, there, lengths, digests⟩ := passed.counterpart passed' found other
    by_cases equal_ : content = counterpart
    · rw [there, equal_]
      exact .inl rfl
    · exact .inr ⟨content, counterpart, rfl, there, equal_, lengths, digests⟩

/-! ## A folder that passes -/

def sampleRecord : List UInt8 := (units "{}").map UInt8.ofNat

def sampleDigest (content : List UInt8) : Text := bytesToHex (Sha256.sha256 content)

def sampleEntry (path role mediaType : String) (content : List UInt8) : Value Unit :=
  .object [(units "bytes", .number (.int content.length)),
    (units "mediaType", .text (units mediaType)), (units "path", .text (units path)),
    (units "role", .text (units role)), (units "sha256", .text (sampleDigest content))]

def samplePhotograph (path : String) (content : List UInt8) : Value Unit :=
  .object [(units "bytes", .number (.int content.length)),
    (units "mediaType", .text (units "image/png")), (units "path", .text (units path)),
    (units "pixelHeight", .number (.int 1)), (units "pixelWidth", .number (.int 1)),
    (units "sha256", .text (sampleDigest content))]

def sampleManifest : Value Unit :=
  .object [
    (units "certificate", .object [(units "recordFile", .text (units "record.json")),
      (units "recordSha256", .text (sampleDigest sampleRecord))]),
    (units "files", .array [
      sampleEntry "original-photographs/p.png" "exact original specimen photograph" "image/png"
        samplePng,
      sampleEntry "public-key.pem" "issuer public key" "application/x-pem-file"
        sampleIdentity.publicKeyPem,
      sampleEntry "record.json" "immutable certificate record" "application/json" sampleRecord]),
    (units "issuer", .object [(units "publicKeyFingerprint",
      .text (fingerprint (sampleDigest sampleSpki)))]),
    (units "photographs", .array [samplePhotograph "original-photographs/p.png" samplePng]),
    (units "schemaVersion", .text (units "2.2.0"))]

def sampleBytes : List UInt8 :=
  (JsonText.print (PythonJson.compactAscii zeroFloats) 0 sampleManifest).map UInt8.ofNat

/-- Two signatures of the manifest, with different nonces. -/
def firstSignature : List UInt8 :=
  [0x3c, 0x40, 0x03, 0x05, 0xbf, 0x11, 0xce, 0xde, 0x07, 0x9e, 0xd5, 0x5a, 0x9f, 0x98, 0x31,
   0x0a, 0x3a, 0x02, 0x54, 0x60, 0x27, 0x35, 0xdb, 0x7b, 0x94, 0x48, 0x05, 0x2c, 0x57, 0x16,
   0x32, 0x28, 0x56, 0x34, 0x61, 0x89, 0x43, 0xe6, 0x8f, 0xc3, 0x30, 0xa3, 0x00, 0x91, 0xdf,
   0x73, 0xb4, 0x66, 0x1f, 0xd0, 0x34, 0xc7, 0x0b, 0x3a, 0x06, 0x3c, 0x1f, 0xef, 0x15, 0x74,
   0x3c, 0x75, 0x88, 0x0b]

def secondSignature : List UInt8 :=
  [0x15, 0x60, 0x66, 0xfa, 0xe0, 0x21, 0x2d, 0xbd, 0x64, 0xf8, 0x5f, 0x33, 0x02, 0x38, 0xe9,
   0x3f, 0xc6, 0x00, 0x32, 0x4b, 0x4b, 0x2f, 0x16, 0xa8, 0xa2, 0x1c, 0xa5, 0x9a, 0xee, 0xde,
   0x78, 0x3c, 0x1b, 0x9b, 0xe9, 0x9e, 0xe4, 0x67, 0x54, 0x4a, 0xb3, 0x0b, 0x0e, 0x95, 0x4c,
   0x56, 0x59, 0x54, 0xa5, 0x47, 0xe6, 0x6e, 0xe3, 0x7e, 0x19, 0x9a, 0x30, 0xc3, 0x9d, 0x0c,
   0x3d, 0x1a, 0x37, 0x08]

/-- The key is the one of the sample, and what is known of its signatures is about one message. -/
def samplePython : Python Unit Unit where
  recursionLimit := 1000
  float := zeroFloats.float
  isInt := fun _ _ => false
  isInt_unique := fun _ _ _ same => Bool.noConfusion same
  sameFloat := fun _ _ => true
  sha256 := Sha256.sha256
  loadPublicKey := fun pem => if pem = sampleIdentity.publicKeyPem then some (some ()) else none
  verify := fun _ signature message =>
    message == sampleBytes && [firstSignature, secondSignature].contains signature
  publicBytes := fun _ => sampleSpki

def sampleFiles (signature sums : List UInt8) : List (Text × List UInt8) :=
  [(units "manifest.json", sampleBytes), (units "original-photographs/p.png", samplePng),
    (units "public-key.pem", sampleIdentity.publicKeyPem), (units "record.json", sampleRecord),
    (units "sha256sums.txt", sums), (units "signature.sig", signature)]

def samplePaths : List Text :=
  ["manifest.json", "original-photographs/p.png", "public-key.pem", "record.json",
    "sha256sums.txt", "signature.sig"].map units

theorem samplePaths_canonical : ∀ path ∈ samplePaths, ∀ part ∈ parts path,
    part ≠ [] ∧ part ≠ [46] ∧ part ≠ [46, 46] := by decide

theorem samplePaths_distinct : samplePaths.Nodup := by decide

def sampleFolder (signature sums : List UInt8) : Folder where
  root := [units "tmp", units "coa"]
  files := sampleFiles signature sums
  canonical := fun file member =>
    samplePaths_canonical file.1 (List.mem_map_of_mem (f := Prod.fst) member)
  distinct := samplePaths_distinct

theorem sample_passes : Passes samplePython (sampleFolder firstSignature []) ∧
    Passes samplePython (sampleFolder secondSignature [10]) := by
  unfold Passes
  decide +kernel

/-- Two folders that differ in the signature and in the checksums. -/
theorem passing_folders_agree_on_photograph :
    (sampleFolder firstSignature []).lookup (units "original-photographs/p.png") =
        (sampleFolder secondSignature [10]).lookup (units "original-photographs/p.png") ∨
      ∃ a b, (sampleFolder firstSignature []).lookup (units "original-photographs/p.png") = some a ∧
        (sampleFolder secondSignature [10]).lookup (units "original-photographs/p.png") = some b ∧
          a ≠ b ∧ a.length = b.length ∧ samplePython.sha256 a = samplePython.sha256 b :=
  passing_folders_agree sample_passes.1 sample_passes.2 rfl _ ⟨by decide, by decide⟩

end OfflineVerifier
