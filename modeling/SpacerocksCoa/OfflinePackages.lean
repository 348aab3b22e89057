import SpacerocksCoa.OfflineVerifier
import SpacerocksCoa.PackageRoundTrip
import SpacerocksCoa.PythonManifests

/-!
# A built package offline

The folder of a package that was built passes the offline verifier, when Python and the browser
agree on the hashes, the keys and the numbers. A photograph stored as `manifest.json` and a
number of pieces that is not finite are no matter here.
-/
namespace OfflinePackages
open JsonText (Text Json Fits units substitute)
open IdempotencyKeys (PyNumber)
open JsNumbers (JsNumber)
open ManifestSchema
open FileNames (SafeName)
open CodeUnits (toLowerCase chars natText natText_digit upperUnit joinPairs)
open Utf16Texts
open ReadManifests (Number Plainly record findField printable plainly_printable)
open CertificatePackages
open PackageFiles
open PackageReading
open PackageChecks
open PackageVerdict
open PackageRoundTrip (sampleBrowser samplePackage signSample exponentFrom jsNumber reservedName
  reserved_sample)
open PythonJson
open PythonManifests
open OfflineVerifier

variable {formats : Formats} {N F Key : Type} {browser : Browser formats N} {see : N → PyNumber F}

/-! ## Values -/

section Values
variable {json : Value F}

theorem get_of_item {v w : Value F} {key : Text} (found : item v key = some w)
    (default : Value F) : get v key default = some w := by
  cases v with
  | object fields =>
    have own : findField fields key = some w := found
    exact congrArg (fun held => some (held.getD default)) own
  | _ => cases found

/-- A key that a dictionary does not have. -/
theorem get_absent {v w : Value F} {key other : Text} (found : item v other = some w)
    (absent : item v key = none) (default : Value F) : get v key default = some default := by
  cases v with
  | object fields =>
    have own : findField fields key = none := absent
    exact congrArg (fun held => some (held.getD default)) own
  | _ => cases found

theorem sees_item {fields : List (String × Option (Json (Number N)))}
    (sees : Sees see json (record fields)) (names : (fields.map Prod.fst).Nodup) {key : String}
    {value : Option (Json (Number N))} (place : Nat) (here : fields[place]? = some (key, value)) :
    Option.Rel (Sees see) (item json (units key)) value := by
  obtain ⟨found, rfl, each, -⟩ := sees_record sees names
  exact each place key value here

theorem sees_absent {fields : List (String × Option (Json (Number N)))}
    (sees : Sees see json (record fields)) (names : (fields.map Prod.fst).Nodup) {key : String}
    (absent : key ∉ fields.map Prod.fst) : item json (units key) = none := by
  obtain ⟨found, rfl, -, none_⟩ := sees_record sees names
  exact none_ key absent

theorem item_text {found : Option (Value F)} {s : Text}
    (related : Option.Rel (Sees see) found (text s)) : found = some (.text s) := by
  obtain ⟨v, rfl, sees⟩ := rel_some related
  rw [sees_text sees]

/-- Whole numbers that a double has are integers for Python. -/
def Integers (browser : Browser formats N) (see : N → PyNumber F) : Prop :=
  ∀ n : JsNumber, n.isInteger = true → n.nonNegative = true → natValue n ≤ 2 ^ 53 →
    see (browser.ofNumber n) = .int (natValue n)

theorem item_number (integers : Integers browser see) {found : Option (Value F)} {n : JsNumber}
    (integer : n.isInteger = true) (positive : n.nonNegative = true) (small : natValue n ≤ 2 ^ 53)
    (related : Option.Rel (Sees see) found (number browser.number n)) :
    found = some (.number (.int (natValue n))) := by
  obtain ⟨v, rfl, sees⟩ := rel_some related
  cases n with
  | nan => cases integer
  | infinite negative => cases integer
  | finite negative significand exponent =>
    rw [← integers _ integer positive small]
    exact congrArg some (sees_number sees)

theorem item_count (integers : Integers browser see) {found : Option (Value F)} {n : Nat}
    (small : n ≤ 2 ^ 53) (related : Option.Rel (Sees see) found (count browser.number n)) :
    found = some (.number (.int n)) := by
  have value : natValue (.finite false n 0) = n := Nat.mul_one n
  rw [item_number integers rfl rfl (value.symm ▸ small) related, value]

theorem item_array {A : Type} {R : Value F → A → Prop} {found : Option (Value F)} {items : List A}
    {value : A → Json (Number N)}
    (each : ∀ one ∈ items, ∀ v, Sees see v (value one) → R v one)
    (related : Option.Rel (Sees see) found (some (.array (items.map value)))) :
    ∃ listed, found = some (.array listed) ∧ List.Forall₂ R listed items := by
  obtain ⟨v, rfl, sees⟩ := rel_some related
  obtain ⟨listed, rfl, pairs⟩ := sees_array sees
  refine ⟨listed, rfl, ?_⟩
  rw [List.forall₂_map_right_iff] at pairs
  exact List.forall₂_iff_zip.2 ⟨pairs.length_eq, fun inside =>
    each _ (List.of_mem_zip inside).2 _ (List.forall₂_zip pairs inside)⟩

end Values

/-! ## The manifest -/

section Manifest
variable {json : Value F}

/-- A file entry as Python has it. -/
structure SeenFile (json : Value F) (file : ManifestFile) : Prop where
  path : item json (units "path") = some (.text file.path)
  role : item json (units "role") = some (.text file.role)
  mediaType : item json (units "mediaType") = some (.text file.mediaType)
  bytes : item json (units "bytes") = some (.number (.int file.bytes))
  sha256 : item json (units "sha256") = some (.text file.sha256)

theorem seen_file (integers : Integers browser see) {file : ManifestFile}
    (small : file.bytes ≤ 2 ^ 53) (sees : Sees see json (fileValue browser.number file)) :
    SeenFile json file where
  path := item_text (sees_item sees (of_decide_eq_true rfl) 0 rfl)
  role := item_text (sees_item sees (of_decide_eq_true rfl) 1 rfl)
  mediaType := item_text (sees_item sees (of_decide_eq_true rfl) 2 rfl)
  bytes := item_count integers small (sees_item sees (of_decide_eq_true rfl) 3 rfl)
  sha256 := item_text (sees_item sees (of_decide_eq_true rfl) 4 rfl)

structure SeenPhotograph (json : Value F) (photo : PhotoRecord) : Prop where
  path : item json (units "path") = some (.text photo.path)
  mediaType : item json (units "mediaType") = some (.text photo.mediaType)
  bytes : item json (units "bytes") = some (.number (.int photo.bytes))
  sha256 : item json (units "sha256") = some (.text photo.sha256)
  pixelWidth : item json (units "pixelWidth") =
    some (.number (.int (natValue photo.pixelWidth)))
  pixelHeight : item json (units "pixelHeight") =
    some (.number (.int (natValue photo.pixelHeight)))
  displayCrop : item json (units "displayCrop") = none

theorem item_dimension (integers : Integers browser see) {found : Option (Value F)} {n : JsNumber}
    (valid : dimensionValid n = true)
    (related : Option.Rel (Sees see) found (number browser.number n)) :
    found = some (.number (.int (natValue n))) := by
  obtain ⟨integer, positive, -, most⟩ := dimension_facts valid
  exact item_number integers integer positive (most.trans (by decide)) related

theorem seen_photograph (integers : Integers browser see) {photo : PhotoRecord}
    (measured : Measured photo) (small : photo.bytes ≤ 2 ^ 53)
    (sees : Sees see json (photographValue browser.number photo)) : SeenPhotograph json photo where
  path := item_text (sees_item sees (of_decide_eq_true rfl) 0 rfl)
  mediaType := item_text (sees_item sees (of_decide_eq_true rfl) 3 rfl)
  bytes := item_count integers small (sees_item sees (of_decide_eq_true rfl) 4 rfl)
  sha256 := item_text (sees_item sees (of_decide_eq_true rfl) 5 rfl)
  pixelWidth := item_dimension integers measured.1 (sees_item sees (of_decide_eq_true rfl) 8 rfl)
  pixelHeight := item_dimension integers measured.2 (sees_item sees (of_decide_eq_true rfl) 9 rfl)
  displayCrop := sees_absent sees (of_decide_eq_true rfl) (of_decide_eq_true rfl)

/-- The sections that the script looks at. -/
structure SeenManifest (json : Value F) (m : Manifest) : Prop where
  schemaVersion : item json (units "schemaVersion") = some (.text m.schemaVersion)
  certificate : ∃ section_, item json (units "certificate") = some section_ ∧
    item section_ (units "recordFile") = some (.text m.certificate.recordFile) ∧
    item section_ (units "recordSha256") = some (.text m.certificate.recordSha256)
  issuer : ∃ section_, item json (units "issuer") = some section_ ∧
    item section_ (units "publicKeyFingerprint") = some (.text m.issuer.publicKeyFingerprint)
  photographs : ∃ photos, item json (units "photographs") = some (.array photos) ∧
    List.Forall₂ SeenPhotograph photos m.photographs
  files : ∃ entries, item json (units "files") = some (.array entries) ∧
    List.Forall₂ SeenFile entries m.files

/-- Every count of bytes is one that a double has. -/
structure Countable (m : Manifest) : Prop where
  photographs : ∀ photo ∈ m.photographs, Measured photo ∧ photo.bytes ≤ 2 ^ 53
  files : ∀ file ∈ m.files, file.bytes ≤ 2 ^ 53

theorem seen_manifest (integers : Integers browser see) {m : Manifest} (countable : Countable m)
    (sees : Sees see json (manifestValue browser.number m)) : SeenManifest json m where
  schemaVersion := item_text (sees_item sees (of_decide_eq_true rfl) 1 rfl)
  certificate := by
    obtain ⟨section_, here, certificate⟩ :=
      rel_some (sees_item sees (of_decide_eq_true rfl) 5 rfl)
    refine ⟨section_, here, ?_, ?_⟩
    · exact item_text (sees_item certificate (of_decide_eq_true rfl) 6 rfl)
    · exact item_text (sees_item certificate (of_decide_eq_true rfl) 7 rfl)
  issuer := by
    obtain ⟨section_, here, issuer⟩ := rel_some (sees_item sees (of_decide_eq_true rfl) 6 rfl)
    exact ⟨section_, here, item_text (sees_item issuer (of_decide_eq_true rfl) 9 rfl)⟩
  photographs := item_array
    (fun photo member _ => seen_photograph integers (countable.photographs photo member).1
      (countable.photographs photo member).2)
    (sees_item sees (of_decide_eq_true rfl) 8 rfl)
  files := item_array (fun file member _ => seen_file integers (countable.files file member))
    (sees_item sees (of_decide_eq_true rfl) 9 rfl)

/-- Python reads the manifest that the browser printed. -/
theorem manifest_loaded {float : Text → F} {limit : Nat} (nesting : 3 ≤ limit)
    (written : ∀ n, readNumber float (browser.numbers.write n) = some (see n))
    (short : ∀ n k, see n = .int k → (browser.numbers.write n).length ≤ maxStrDigits) {m : Manifest}
    (string : IsString (manifestText browser m)) :
    ∃ json, loads float limit (utf8 (manifestText browser m)) = .ok json ∧
      Sees see json (manifestValue browser.number m) := by
  have plainly : Plainly (manifestValue browser.number m) :=
    (plainly_closed browser).manifest 0 ⟨trivial, trivial, trivial⟩ fun _ _ => ⟨trivial, trivial⟩
  have nested :
      Fits (fun _ => True) limit (substitute printable (manifestValue browser.number m)) := by
    have deep := (nested_closed browser).manifest (limit - 3) (m := m) ⟨trivial, trivial, trivial⟩
      fun _ _ => ⟨trivial, trivial⟩
    rwa [Nat.sub_add_cancel nesting] at deep
  have printed := plainly_printable plainly
  obtain ⟨fields, object⟩ : ∃ fields, substitute printable (manifestValue browser.number m) =
      .object fields := by
    rw [manifestValue, ReadManifests.substitute_record]
    exact ⟨_, rfl⟩
  rw [manifestText] at string ⊢
  rw [object] at string printed nested ⊢
  obtain ⟨json, loaded, same, distinct⟩ :=
    loads_stableStringify written short printed nested string
  refine ⟨json, loaded, ?_, distinct⟩
  rw [shown, object]
  exact same

end Manifest

theorem goes_on {A B : Type} {step : Option A} {rest : A → Option B} {a : A} {b : B}
    (here : step = some a) (next : rest a = some b) : step.bind rest = some b :=
  Option.bind_eq_some_iff.2 ⟨a, here, next⟩

/-! ## The evidence -/

variable {p : Python F Key} {folder : Folder}

theorem equal_same (s : Text) : equal p (.text s) (.text s) = true := by
  rw [equal, beq_iff_eq]

theorem equal_int_same (n : Int) : equal p (.number (.int n)) (.number (.int n)) = true := by
  rw [equal]
  exact beq_self_eq_true n

theorem equal_other {s t : Text} (differ : s ≠ t) : equal p (.text s) (.text t) = false := by
  rw [equal]
  exact beq_eq_false_iff_ne.2 differ

theorem checkEntry_holds {entry : Value F} {file : ManifestFile} (seen : SeenFile entry file)
    {content : List UInt8} (stored : folder.read file.path = some content)
    (sha256 : file.sha256 = p.hexdigest content) (bytes : file.bytes = content.length) :
    checkEntry p folder entry = some (file.path, true) := by
  have path : (item entry (units "path")).bind asText = some file.path := by
    rw [seen.path]
    rfl
  have digest : equal p (.text (p.hexdigest content)) (.text file.sha256) = true := by
    rw [sha256, equal_same]
  have length : equal p (.number (.int content.length)) (.number (.int file.bytes)) = true := by
    rw [bytes, equal_int_same]
  refine Option.bind_eq_some_iff.2 ⟨file.path, path, ?_⟩
  simp only [stored, seen.sha256, seen.bytes, digest, length, bind, Option.bind, if_true]
  rfl

theorem evidence_holds {entries : List (Value F)} {files : List ManifestFile}
    (pairs : List.Forall₂ SeenFile entries files)
    (each : ∀ file ∈ files, ∃ content, folder.read file.path = some content ∧
      file.sha256 = p.hexdigest content ∧ file.bytes = content.length) :
    evidenceFailures p folder entries = some [] := by
  induction pairs with
  | nil => rfl
  | @cons entry file entries files seen _ ih =>
    obtain ⟨content, stored, sha256, bytes⟩ := each file List.mem_cons_self
    have others := ih fun other member => each other (List.mem_cons_of_mem _ member)
    rw [evidenceFailures, checkEntry_holds seen stored sha256 bytes, others]
    rfl

theorem entryPaths_seen {entries : List (Value F)} {files : List ManifestFile}
    (pairs : List.Forall₂ SeenFile entries files) :
    entryPaths entries = some (files.map ManifestFile.path) := by
  induction pairs with
  | nil => rfl
  | @cons entry file entries files seen _ ih =>
    rw [entryPaths, seen.path, ih]
    rfl

/-! ## The photographs -/

theorem entriesOf_none {entries : List (Value F)} {files : List ManifestFile}
    (pairs : List.Forall₂ SeenFile entries files) {path : Text}
    (absent : path ∉ files.map ManifestFile.path) :
    entriesOf p (.text path) entries = some [] := by
  induction pairs with
  | nil => rfl
  | @cons entry file entries files seen _ ih =>
    rw [List.map_cons, List.mem_cons, not_or] at absent
    rw [entriesOf, get_of_item seen.path, ih absent.2]
    simp only [bind, Option.bind, equal_other (Ne.symm absent.1), Bool.false_eq_true, if_false]
    rfl

/-- The file list has one entry for a path. -/
theorem entriesOf_one {entries : List (Value F)} {files : List ManifestFile}
    (pairs : List.Forall₂ SeenFile entries files)
    (distinct : (files.map ManifestFile.path).Nodup) {file : ManifestFile}
    (member : file ∈ files) :
    ∃ entry, entriesOf p (.text file.path) entries = some [entry] ∧ SeenFile entry file := by
  induction pairs with
  | nil => cases member
  | @cons entry first entries files seen rest ih =>
    rw [List.map_cons, List.nodup_cons] at distinct
    rw [entriesOf, get_of_item seen.path]
    rcases List.mem_cons.1 member with rfl | later
    · refine ⟨entry, ?_, seen⟩
      rw [entriesOf_none rest distinct.1]
      simp only [bind, Option.bind, equal_same, if_true]
      rfl
    · have differ : file.path ≠ first.path := by
        intro same
        exact distinct.1 (same ▸ List.mem_map_of_mem later)
      obtain ⟨found, only, own⟩ := ih distinct.2 later
      refine ⟨found, ?_, own⟩
      rw [only]
      simp only [bind, Option.bind, equal_other (Ne.symm differ), Bool.false_eq_true, if_false]
      rfl

theorem sameFact_text {photo entry : Value F} {key s : Text}
    (recorded : item photo key = some (.text s)) (listed : item entry key = some (.text s)) :
    sameFact p photo entry key = some true := by
  rw [sameFact, get_of_item recorded, get_of_item listed]
  simp only [bind, Option.bind, equal_same]
  rfl

theorem sameFact_int {photo entry : Value F} {key : Text} {n : Int}
    (recorded : item photo key = some (.number (.int n)))
    (listed : item entry key = some (.number (.int n))) :
    sameFact p photo entry key = some true := by
  rw [sameFact, get_of_item recorded, get_of_item listed]
  simp only [bind, Option.bind, equal_int_same]
  rfl

theorem entry_holds {photo entry : Value F} {record_ : PhotoRecord}
    (seen : SeenPhotograph photo record_) (listed : SeenFile entry (photoFile record_)) :
    entryProblems p true photo [entry] = some [] := by
  have role : equal p (.text (photoFile record_).role)
      (.text (units "exact original specimen photograph")) = true := equal_same _
  rw [entryProblems, sameFact_text seen.sha256 listed.sha256, sameFact_int seen.bytes listed.bytes,
    sameFact_text seen.mediaType listed.mediaType, get_of_item listed.role]
  simp only [bind, Option.bind, role]
  rfl

theorem dimension_valid {n : JsNumber} (valid : dimensionValid n = true) :
    dimension (.number (.int (natValue n)) : Value F) = some (natValue n) := by
  obtain ⟨-, -, least, most⟩ := dimension_facts valid
  rw [dimension, if_pos (by omega)]
  rfl

theorem dimensions_hold {photo : Value F} {record_ : PhotoRecord}
    (seen : SeenPhotograph photo record_) (measured : Measured record_) (index : Nat) :
    dimensionProblems p index false photo = some [] := by
  rw [dimensionProblems, get_of_item seen.pixelWidth, get_of_item seen.pixelHeight]
  simp only [bind, Option.bind, dimension_valid measured.1, dimension_valid measured.2,
    get_absent seen.path seen.displayCrop, seen.displayCrop, Bool.false_eq_true, if_false]
  rfl

theorem photograph_holds {entries : List (Value F)} {files : List ManifestFile}
    (pairs : List.Forall₂ SeenFile entries files)
    (distinct : (files.map ManifestFile.path).Nodup) {photo : Value F} {record_ : PhotoRecord}
    (seen : SeenPhotograph photo record_) (measured : Measured record_)
    (listed : photoFile record_ ∈ files) (index : Nat) {earlier : List Text}
    (new : record_.path ∉ earlier) :
    checkPhotograph p index (.text (units "2.2.0")) entries (earlier.map .text) photo =
      some ([], .text record_.path) := by
  obtain ⟨entry, only, own⟩ := @entriesOf_one F Key p entries files pairs distinct _ listed
  have path : (photoFile record_).path = record_.path := rfl
  rw [path] at only
  have old : equal p (.text (units "2.2.0")) (.text (units "2.1.0")) = false :=
    equal_other (by decide)
  have current : equal p (.text (units "2.2.0")) (.text (units "2.2.0")) = true := equal_same _
  have once : (earlier.map Json.text).any (equal p (.text record_.path)) = false := by
    rw [List.any_eq_false]
    intro other member
    obtain ⟨s, inside, rfl⟩ := List.mem_map.1 member
    have differ : record_.path ≠ s := by
      rintro rfl
      exact new inside
    rw [equal_other differ]
    exact Bool.false_ne_true
  unfold checkPhotograph
  rw [get_of_item seen.path]
  simp only [bind, Option.bind, hashable, only, old, current, Bool.false_or, entry_holds seen own,
    dimensions_hold seen measured, once, Bool.true_eq_false, Bool.false_eq_true, if_true, if_false]
  rfl

theorem photographs_hold {entries : List (Value F)} {files : List ManifestFile}
    (listing : List.Forall₂ SeenFile entries files)
    (distinct : (files.map ManifestFile.path).Nodup) {photos : List (Value F)}
    {records : List PhotoRecord} (pairs : List.Forall₂ SeenPhotograph photos records)
    (each : ∀ one ∈ records, Measured one ∧ photoFile one ∈ files) (index : Nat)
    {earlier : List Text} (apart : (records.map PhotoRecord.path ++ earlier).Nodup) :
    photographFailures p (.text (units "2.2.0")) entries index (earlier.map .text) photos =
      some [] := by
  induction pairs generalizing index earlier with
  | nil => rfl
  | @cons photo first photos records seen _ ih =>
    obtain ⟨measured, listed⟩ := each first List.mem_cons_self
    rw [List.map_cons, List.cons_append, List.nodup_cons, List.mem_append, not_or] at apart
    have later : (records.map PhotoRecord.path ++ first.path :: earlier).Nodup :=
      List.perm_middle.nodup_iff.2 (List.nodup_cons.2
        ⟨fun member => (List.mem_append.1 member).elim apart.1.1 apart.1.2, apart.2⟩)
    have others := ih (fun one member => each one (List.mem_cons_of_mem _ member)) (index + 1) later
    rw [List.map_cons] at others
    rw [photographFailures, photograph_holds listing distinct seen measured listed index apart.1.2]
    simp only [bind, Option.bind, others]
    rfl

/-! ## The checksums -/

theorem hex_range {bytes : List UInt8} {c : Nat} (member : c ∈ bytesToHex bytes) :
    (48 ≤ c ∧ c ≤ 57) ∨ (97 ≤ c ∧ c ≤ 102) := by
  have digit : ∀ n, n < 16 → (48 ≤ JsonText.hexDigit n ∧ JsonText.hexDigit n ≤ 57) ∨
      (97 ≤ JsonText.hexDigit n ∧ JsonText.hexDigit n ≤ 102) := by
    intro n small
    unfold JsonText.hexDigit
    split <;> omega
  obtain ⟨byte, -, inside⟩ := List.mem_flatMap.1 member
  have small := byte.toNat_lt
  rcases List.mem_cons.1 inside with rfl | last
  · exact digit _ (by omega)
  · rw [List.mem_singleton.1 last]
    exact digit _ (by omega)

theorem hex_lower (bytes : List UInt8) : toLowerCase (bytesToHex bytes) = bytesToHex bytes := by
  refine (List.map_congr_left fun c member => ?_).trans (List.map_id _)
  have range := hex_range member
  have small : CodeUnits.upper c = false := by
    rw [CodeUnits.upper, Bool.and_eq_false_iff, decide_eq_false_iff_not,
      decide_eq_false_iff_not]
    omega
  rw [CodeUnits.lowerUnit, small]
  rfl

theorem universalNewlines_plain {s : Text} (plain : ∀ c ∈ s, c ≠ 13) :
    universalNewlines s = s := by
  induction s using universalNewlines.induct with
  | case1 => rfl
  | case2 => exact absurd rfl (plain 13 List.mem_cons_self)
  | case3 c other => rw [universalNewlines, if_neg other]
  | case4 c d rest both ih => exact absurd both.1 (plain c List.mem_cons_self)
  | case5 c d rest other ih =>
    rw [universalNewlines, if_neg other, if_neg (plain c List.mem_cons_self),
      ih fun e member => plain e (List.mem_cons_of_mem _ member)]

theorem lineBoundary_line {c : Nat} (printed : 32 ≤ c ∧ c < 127) : lineBoundary c = false := by
  simp only [lineBoundary, Bool.or_eq_false_iff, Bool.and_eq_false_iff, decide_eq_false_iff_not,
    beq_eq_false_iff_ne]
  omega

theorem splitlines_line {line : Text} (plain : Line line) (begun rest : Text) :
    splitlines begun (line ++ 10 :: rest) = (begun ++ line) :: splitlines [] rest := by
  induction line generalizing begun with
  | nil =>
    rw [List.append_nil]
    rfl
  | cons c line ih =>
    rw [List.cons_append, splitlines, lineBoundary_line (plain c List.mem_cons_self),
      if_neg Bool.false_ne_true, ih fun d member => plain d (List.mem_cons_of_mem _ member),
      List.append_assoc]
    rfl

theorem splitlines_lines {lines : List Text} (plain : ∀ line ∈ lines, Line line) :
    splitlines [] (lines.flatMap fun line => line ++ [10]) = lines := by
  induction lines with
  | nil => rfl
  | cons line lines ih =>
    rw [List.flatMap_cons, List.append_assoc, List.singleton_append,
      splitlines_line (plain line List.mem_cons_self),
      ih fun other member => plain other (List.mem_cons_of_mem _ member), List.nil_append]

/-- Two blanks end the hash. -/
theorem splitTwice_hash {hash path : Text} (filled : 32 ∉ hash) :
    splitTwice (hash ++ 32 :: 32 :: path) = some (hash, path) := by
  induction hash with
  | nil => rfl
  | cons c hash ih =>
    rw [List.mem_cons, not_or] at filled
    have others := ih filled.2
    cases shape : hash ++ 32 :: 32 :: path with
    | nil => exact absurd (List.append_eq_nil_iff.1 shape).2 (List.cons_ne_nil _ _)
    | cons d rest =>
      rw [List.cons_append, shape, splitTwice, if_neg fun both => filled.1 both.1.symm, ← shape,
        others]
      rfl

theorem blank_of_hex {c : Nat} (range : (48 ≤ c ∧ c ≤ 57) ∨ (97 ≤ c ∧ c ≤ 102)) :
    isSpace c = false := by
  simp only [isSpace, Bool.or_eq_false_iff, Bool.and_eq_false_iff, decide_eq_false_iff_not,
    beq_eq_false_iff_ne]
  omega

theorem checkLine_holds (same : p.sha256 = browser.sha256) {file : Text × List UInt8}
    (stored : folder.read file.1 = some file.2) :
    checkLine p folder (checksumLineOf browser file) = some [] := by
  have hex : p.hexdigest file.2 = browser.platform.sha256Hex file.2 := by
    rw [Python.hexdigest, same]
    rfl
  have own : browser.platform.sha256Hex file.2 = bytesToHex (browser.sha256 file.2) := rfl
  have line : checksumLineOf browser file =
      bytesToHex (browser.sha256 file.2) ++ 32 :: 32 :: file.1 := by
    rw [checksumLineOf, own, List.append_assoc]
    rfl
  have noBlank : 32 ∉ bytesToHex (browser.sha256 file.2) := by
    intro member
    have range := hex_range member
    omega
  have filled : (checksumLineOf browser file).all isSpace = false := by
    rw [line]
    cases digits : bytesToHex (browser.sha256 file.2) with
    | nil =>
      have length := bytesToHex_length (browser.sha256 file.2)
      rw [digits, browser.sha256_length] at length
      cases length
    | cons c rest =>
      have range := hex_range (digits.symm ▸ List.mem_cons_self : c ∈ bytesToHex _)
      rw [List.cons_append, List.all_cons, blank_of_hex range, Bool.false_and]
  have matched : (p.hexdigest file.2 ==
      toLowerCase (bytesToHex (browser.sha256 file.2))) = true := by
    rw [hex, own, hex_lower]
    exact beq_self_eq_true _
  rw [checkLine, if_neg (by rw [filled]; exact Bool.false_ne_true), line, splitTwice_hash noBlank]
  simp only [bind, Option.bind, stored, Option.any, matched, if_true]
  rfl

theorem checksums_hold (same : p.sha256 = browser.sha256) {files : List (Text × List UInt8)}
    (stored : ∀ file ∈ files, folder.read file.1 = some file.2) :
    checksumFailures p folder (files.map (checksumLineOf browser)) = some [] := by
  induction files with
  | nil => rfl
  | cons file files ih =>
    rw [List.map_cons, checksumFailures, checkLine_holds same (stored file List.mem_cons_self),
      ih fun other member => stored other (List.mem_cons_of_mem _ member)]
    rfl

theorem sums_read (same : p.sha256 = browser.sha256) {signed : List (Text × List UInt8)}
    (some_file : signed ≠ []) (lines : ∀ file ∈ signed, Line file.1)
    (stored : ∀ file ∈ signed, folder.read file.1 = some file.2) :
    ∃ sums, decodeUtf8 false (utf8 (checksumText browser signed)) = some sums ∧
      checksumFailures p folder (splitlines [] (universalNewlines sums)) = some [] := by
  obtain ⟨sorted, perm, written⟩ : ∃ sorted, List.Perm sorted signed ∧
      checksumText browser signed =
        [10].intercalate (sorted.map (checksumLineOf browser)) ++ [10] :=
    ⟨_, List.mergeSort_perm _ _, rfl⟩
  have filled : sorted.map (checksumLineOf browser) ≠ [] := by
    intro empty
    rw [List.map_eq_nil_iff] at empty
    exact some_file (empty ▸ perm).nil_eq.symm
  rw [lines_joined filled] at written
  have plain : ∀ line ∈ sorted.map (checksumLineOf browser), Line line := by
    intro line member
    obtain ⟨file, inside, rfl⟩ := List.mem_map.1 member
    have path := lines file (perm.mem_iff.1 inside)
    exact line_append (line_append (sha256Hex_line browser file.2) (by decide)) path
  have characters : ∀ c ∈ checksumText browser signed, c = 10 ∨ (32 ≤ c ∧ c < 127) := by
    rw [written]
    intro c member
    obtain ⟨line, inside, here⟩ := List.mem_flatMap.1 member
    rcases List.mem_append.1 here with printed | end_
    · exact .inr (plain line inside c printed)
    · exact .inl (List.mem_singleton.1 end_)
  have formed : WellFormed (checksumText browser signed) := wellFormed_small fun c member => by
    have range := characters c member
    omega
  have small : ∀ c ∈ checksumText browser signed, c < 65536 := fun c member => by
    have range := characters c member
    omega
  refine ⟨_, decodeUtf8_utf8 false formed small, ?_⟩
  have noReturn : ∀ c ∈ checksumText browser signed, c ≠ 13 := fun c member => by
    have range := characters c member
    omega
  rw [universalNewlines_plain noReturn, written, splitlines_lines plain]
  exact checksums_hold same fun file member => stored file (perm.mem_iff.1 member)

/-! ## The fingerprint -/

theorem joinPairs_range {s : Text} (pairs : Nat) (length : s.length = 2 * (pairs + 1)) :
    joinPairs s =
      [58].intercalate ((List.range (pairs + 1)).map fun i => (s.drop (2 * i)).take 2) := by
  induction pairs generalizing s with
  | zero =>
    match s with
    | [a, b] => rfl
    | [] => cases length
    | [a] => cases length
    | a :: b :: c :: rest =>
      simp only [List.length_cons] at length
      omega
  | succ pairs ih =>
    match s with
    | [] => cases length
    | [a] => simp only [List.length_cons, List.length_nil] at length; omega
    | [a, b] => simp only [List.length_cons, List.length_nil] at length; omega
    | a :: b :: c :: rest =>
      have shorter : (c :: rest).length = 2 * (pairs + 1) := by
        simp only [List.length_cons] at length ⊢
        omega
      rw [joinPairs, ih shorter, List.range_succ_eq_map (n := pairs + 1), List.map_cons,
        List.map_map]
      have others : ((fun i => ((a :: b :: c :: rest).drop (2 * i)).take 2) ∘ Nat.succ) =
          fun i => ((c :: rest).drop (2 * i)).take 2 := by
        funext i
        rfl
      rw [others]
      rw [List.range_succ_eq_map, List.map_cons]
      rfl

theorem fingerprint_same (same : p.sha256 = browser.sha256) (identity : SigningIdentity) :
    fingerprint (p.hexdigest identity.spki) = browser.platform.fingerprint identity := by
  have hex : p.hexdigest identity.spki = browser.platform.sha256Hex identity.spki := by
    rw [Python.hexdigest, same]
    rfl
  have length : ((browser.platform.sha256Hex identity.spki).map upperUnit).length =
      2 * (31 + 1) := by
    change ((bytesToHex (browser.sha256 identity.spki)).map upperUnit).length = _
    rw [List.length_map, bytesToHex_length, browser.sha256_length]
  rw [hex]
  exact (joinPairs_range 31 length).symm

/-! ## The script -/

/-- The runs that end without a failure. -/
theorem passes_of {manifestBytes signature record : List UInt8} {sums : Text} {key : Key}
    {manifest issuer version certificate : Value F} {entries photos : List (Value F)}
    (stored : folder.read (units "manifest.json") = some manifestBytes)
    (loaded : loads p.float p.recursionLimit manifestBytes = .ok manifest)
    (imported : publicKey p folder = some key)
    (signed : folder.read (units "signature.sig") = some signature)
    (issued : item manifest (units "issuer") = some issuer)
    (stated : item issuer (units "publicKeyFingerprint") =
      some (.text (fingerprint (p.hexdigest (p.publicBytes key)))))
    (files : item manifest (units "files") = some (.array entries))
    (evidence : evidenceFailures p folder entries = some [])
    (listed : item manifest (units "photographs") = some (.array photos))
    (versioned : item manifest (units "schemaVersion") = some version)
    (photographs : photographFailures p version entries 0 [] photos = some [])
    (certified : item manifest (units "certificate") = some certificate)
    (recorded : ((item certificate (units "recordFile")).bind asText).bind folder.read =
      some record)
    (hashed : item certificate (units "recordSha256") = some (.text (p.hexdigest record)))
    (summed : (folder.read (units "sha256sums.txt")).bind (decodeUtf8 false) = some sums)
    (checksums : checksumFailures p folder (splitlines [] (universalNewlines sums)) = some [])
    (inventory : inventoryFailures folder entries = some [])
    (verified : p.verify key signature manifestBytes = true) (some_photo : photos.isEmpty = false) :
    Passes p folder := by
  have entriesHere : (get manifest (units "files") (.array [])).bind elements = some entries := by
    rw [get_of_item files]
    rfl
  have photosHere : (get manifest (units "photographs") (.array [])).bind elements =
      some photos := by
    rw [get_of_item listed]
    rfl
  have read : (loads p.float p.recursionLimit manifestBytes).toOption = some manifest := by
    rw [loaded]
    rfl
  refine goes_on stored (goes_on read (goes_on imported (goes_on signed ?_)))
  refine goes_on issued (goes_on stated (goes_on entriesHere (goes_on evidence ?_)))
  refine goes_on photosHere (goes_on (get_of_item versioned .null) (goes_on photographs ?_))
  refine goes_on certified (goes_on recorded (goes_on hashed (goes_on summed ?_)))
  refine goes_on checksums (goes_on inventory ?_)
  simp only [verified, equal_same, some_photo]
  rfl

/-! ## The folder of a package -/

/-- What Python and the browser agree on. -/
structure Agree (p : Python F Key) (browser : Browser formats N) (identity : SigningIdentity)
    (see : N → PyNumber F) : Prop where
  sha256 : p.sha256 = browser.sha256
  nesting : 3 ≤ p.recursionLimit
  written : ∀ n, readNumber p.float (browser.numbers.write n) = some (see n)
  short : ∀ n k, see n = .int k → (browser.numbers.write n).length ≤ maxStrDigits
  integers : Integers browser see
  key : ∃ key, p.loadPublicKey identity.publicKeyPem = some (some key) ∧
    p.publicBytes key = identity.spki ∧
    ∀ message, p.verify key (browser.sign message) message = true

variable {contents : Contents} {identity : SigningIdentity} {values : FormValues}
  {photos : List PhotoInput} {logo : Option File} {package : Package}

section Package
variable (built : Built browser contents identity values photos logo package)
include built

theorem files_stated {file : ManifestFile} (member : file ∈ package.manifest.files) :
    ∃ source ∈ package.files, file.path = source.1 ∧ file.bytes = source.2.length ∧
      file.sha256 = browser.platform.sha256Hex source.2 := by
  obtain ⟨source, inside, same⟩ := file_listed built.lists member
  simp only [stated, fact, Prod.mk.injEq] at same
  exact ⟨source, built.evidence_within inside, same⟩

theorem listed_paths : (package.manifest.files.map ManifestFile.path).Perm
    ((evidence browser contents identity photos logo).map Prod.fst) := by
  have paths := built.lists.map Prod.fst
  rw [List.map_map, List.map_map] at paths
  exact paths

theorem photographs_prepared :
    package.manifest.photographs = preparePhotos browser.platform [] photos := by
  rw [built.manifest]
  rfl

theorem photographs_listed {photo : PhotoRecord} (member : photo ∈ package.manifest.photographs) :
    photoFile photo ∈ package.manifest.files := by
  have listed : package.manifest.files.Perm (evidenceFiles browser.platform contents identity
      package.manifest.photographs logo) := by
    rw [photographs_prepared built, built.manifest]
    exact browser.sortFiles_perm _
  rw [listed.mem_iff]
  simp only [evidenceFiles, List.mem_append]
  exact Or.inl (Or.inl (Or.inr (List.mem_map_of_mem member)))

theorem photographs_apart : (package.manifest.photographs.map PhotoRecord.path).Nodup := by
  rw [photographs_prepared built, photoNames_paths]
  exact (photoNames_safe browser photos).2.map fun a b same => List.append_cancel_left same

theorem package_countable (small : ∀ file ∈ package.files, file.2.length ≤ 2 ^ 53) :
    Countable package.manifest where
  photographs := by
    intro photo member
    obtain ⟨source, inside, -, bytes, -⟩ := files_stated built (photographs_listed built member)
    have length : photo.bytes = source.2.length := bytes
    exact ⟨built.measured photo member, length ▸ small source inside⟩
  files := by
    intro file member
    obtain ⟨source, inside, -, bytes, -⟩ := files_stated built member
    exact bytes ▸ small source inside

/-- A path of the package has no empty part and no dots. -/
theorem package_canonical : ∀ file ∈ package.files, Canonical file.1 := by
  have plain : ∀ path ∈ firstPaths ++ lastPaths ++ structuralPaths, ∀ part ∈ parts path,
      part ≠ [] ∧ part ≠ [46] ∧ part ≠ [46, 46] := by decide
  have known : ∀ name ∈ folders, name ≠ [] ∧ name ≠ [46] ∧ name ≠ [46, 46] := by decide
  intro file member
  have path := List.mem_map_of_mem (f := Prod.fst) member
  rw [built.files] at path
  rcases path_cases contents identity photos logo package.manifest path with fixed | ⟨name, inside⟩
  · exact plain _ fixed
  · obtain ⟨last, same, safe⟩ := inside.named
    have single := (folders_plain name inside.known).1
    rw [same, Canonical, parts, List.splitOn_append_cons_self_of_not_mem single,
      List.splitOn_eq_singleton (safeName_single safe)]
    intro part here
    rcases List.mem_cons.1 here with rfl | here
    · exact known part inside.known
    · rw [List.mem_singleton.1 here]
      exact ⟨safe.filled, safe.here, safe.parent⟩

/-- The package is unpacked. -/
theorem package_unpacks (root : List Text) :
    ∃ folder : Folder, folder.root = root ∧ folder.files = package.files :=
  ⟨⟨root, package.files, package_canonical built, built.distinct⟩, rfl, rfl⟩

variable {folder : Folder} (unpacked : folder.files.Perm package.files)
include unpacked

omit built in
theorem package_stored {file : Text × List UInt8} (member : file ∈ package.files) :
    folder.read file.1 = some file.2 := by
  have inside := unpacked.mem_iff.2 member
  rw [read_canonical (folder.canonical file inside), lookup_of_mem inside]

theorem package_inventory {entries : List (Value F)}
    (pairs : List.Forall₂ SeenFile entries package.manifest.files) :
    inventoryFailures folder entries = some [] := by
  have same : sameSet (folder.files.map Prod.fst)
      (package.manifest.files.map ManifestFile.path ++ structural) = true := by
    have paths := unpacked.map Prod.fst
    rw [built.paths] at paths
    rw [sameSet_iff]
    intro path
    rw [paths.mem_iff, ((listed_paths built).append_right structural).mem_iff]
    rfl
  rw [inventoryFailures, entryPaths_seen pairs]
  simp only [bind, Option.bind, same]
  rfl

omit built unpacked in
theorem photograph_given (accepted : photosAccepted photos logo = true) : photos ≠ [] := by
  rintro rfl
  cases accepted

omit unpacked in
theorem package_photographs {entries photographs : List (Value F)}
    (listing : List.Forall₂ SeenFile entries package.manifest.files)
    (pairs : List.Forall₂ SeenPhotograph photographs package.manifest.photographs) :
    photographFailures p (.text package.manifest.schemaVersion) entries 0 [] photographs =
      some [] ∧ photographs.isEmpty = false := by
  have version : package.manifest.schemaVersion = units "2.2.0" := by
    rw [built.manifest]
    rfl
  have distinct : (package.manifest.files.map ManifestFile.path).Nodup :=
    (listed_paths built).nodup_iff.2
      (evidence_distinct browser contents identity photos logo).of_append_left
  have apart : (package.manifest.photographs.map PhotoRecord.path ++ []).Nodup := by
    rw [List.append_nil]
    exact photographs_apart built
  constructor
  · rw [version]
    exact photographs_hold listing distinct pairs
      (fun photo member => ⟨built.measured photo member, photographs_listed built member⟩) 0 apart
  · have count : package.manifest.photographs.length = photos.length := by
      rw [← List.length_map PhotoRecord.path, photographs_prepared built, photoNames_paths,
        List.length_map, photoNames_length]
    have lengths := pairs.length_eq.trans count
    cases photographs with
    | nil =>
      have empty : photos = [] := List.length_eq_zero_iff.1 lengths.symm
      exact absurd empty (photograph_given built.photographs)
    | cons photo photographs => rfl

theorem package_evidence (same : p.sha256 = browser.sha256) {entries : List (Value F)}
    (listing : List.Forall₂ SeenFile entries package.manifest.files) :
    evidenceFailures p folder entries = some [] := by
  refine evidence_holds listing fun file member => ?_
  obtain ⟨source, inside, path, bytes, sha256⟩ := files_stated built member
  have stored := package_stored unpacked inside
  refine ⟨source.2, path ▸ stored, ?_, bytes⟩
  rw [sha256, Python.hexdigest, same]
  rfl

/-- Every check of the script holds in the folder of the package. -/
theorem package_passes (agree : Agree p browser identity see)
    (string : IsString (manifestText browser package.manifest))
    (small : ∀ file ∈ package.files, file.2.length ≤ 2 ^ 53) : Passes p folder := by
  have stored : ∀ path content, (path, content) ∈ package.files →
      folder.read path = some content :=
    fun path content member => package_stored unpacked member
  have signed := built.signed_within
  obtain ⟨manifest, loaded, sees⟩ :=
    manifest_loaded agree.nesting agree.written agree.short string
  have seen := seen_manifest agree.integers (package_countable built small) sees
  obtain ⟨key, imported, spki, signs⟩ := agree.key
  obtain ⟨issuer, issuerHere, stated⟩ := seen.issuer
  obtain ⟨entries, entriesHere, listing⟩ := seen.files
  obtain ⟨photographs, photographsHere, pairs⟩ := seen.photographs
  obtain ⟨certificate, certificateHere, recordFile, recordHash⟩ := seen.certificate
  obtain ⟨sums, decoded, checksums⟩ := sums_read agree.sha256
    (List.append_ne_nil_of_right_ne_nil _ (List.cons_ne_nil _ _))
    (fun file member => built.lines file (signed member))
    fun file member => stored file.1 file.2 (signed member)
  obtain ⟨photographed, someHere⟩ := package_photographs (p := p) built listing pairs
  have manifestStored : folder.read (units "manifest.json") =
      some (utf8 (manifestText browser package.manifest)) :=
    stored _ _ (signed (List.mem_append_right _ List.mem_cons_self))
  have signatureStored : folder.read (units "signature.sig") =
      some (browser.sign (utf8 (manifestText browser package.manifest))) :=
    stored _ _ (signed (List.mem_append_right _ (List.mem_cons_of_mem _ List.mem_cons_self)))
  have keyStored : folder.read (units "public-key.pem") = some identity.publicKeyPem :=
    stored _ _ (built.evidence_within (List.mem_append_right _ List.mem_cons_self))
  have sumsStored : folder.read (units "sha256sums.txt") = some (utf8 (checksumText browser
      (signedFiles browser package.manifest
        (evidence browser contents identity photos logo)))) := by
    refine stored _ _ ?_
    rw [built.signed_files]
    exact List.mem_append_right _ List.mem_cons_self
  have recordStored : folder.read (units "certificate-record.json") =
      some contents.certificateRecord :=
    stored _ _ (built.evidence_within List.mem_cons_self)
  have ownKey : publicKey p folder = some key := by
    rw [publicKey, keyStored]
    simp only [bind, Option.bind, imported]
  have fingerprints : fingerprint (p.hexdigest (p.publicBytes key)) =
      package.manifest.issuer.publicKeyFingerprint := by
    rw [spki, fingerprint_same agree.sha256, built.manifest]
    rfl
  have recordNamed : package.manifest.certificate.recordFile = units "certificate-record.json" := by
    rw [built.manifest]
    rfl
  have recordHashed : package.manifest.certificate.recordSha256 =
      p.hexdigest contents.certificateRecord := by
    rw [built.manifest, Python.hexdigest, agree.sha256]
    rfl
  rw [recordNamed] at recordFile
  rw [recordHashed] at recordHash
  rw [← fingerprints] at stated
  have evidenced := package_evidence (p := p) built unpacked agree.sha256 listing
  have inventory := package_inventory built unpacked listing
  have record : ((item certificate (units "recordFile")).bind asText).bind folder.read =
      some contents.certificateRecord := by
    rw [recordFile]
    exact recordStored
  have sums_ : (folder.read (units "sha256sums.txt")).bind (decodeUtf8 false) = some sums := by
    rw [sumsStored]
    exact decoded
  have verified := signs (utf8 (manifestText browser package.manifest))
  exact passes_of manifestStored loaded ownKey signatureStored issuerHere stated entriesHere
    evidenced photographsHere seen.schemaVersion photographed certificateHere record recordHash
    sums_ checksums inventory verified someHere

end Package

/-- A package that is built and unpacked anywhere passes the offline verifier. -/
theorem built_package_passes_offline (agree : Agree p browser identity see)
    (built : buildCertificatePackage browser contents identity values photos logo = some package)
    (string : IsString (manifestText browser package.manifest))
    (small : ∀ file ∈ package.files, file.2.length ≤ 2 ^ 53) (root : List Text) :
    (∃ folder : Folder, folder.root = root ∧ folder.files = package.files) ∧
      ∀ folder : Folder, folder.files.Perm package.files → Passes p folder := by
  have facts := built_of built
  refine ⟨package_unpacks facts root, fun folder unpacked => ?_⟩
  exact package_passes facts unpacked agree string small

/-! ## A sample -/

theorem no_integers (_ : Unit) (a b : Int) (same : false = true) (_ : false = true) : a = b :=
  Bool.noConfusion same

/-- The key is the one of the sample, and a float is a zero. -/
def offlinePython : Python Unit Unit where
  recursionLimit := 1000
  float := zeroFloats.float
  isInt _ _ := false
  isInt_unique := no_integers
  sameFloat _ _ := true
  sha256 := Sha256.sha256
  loadPublicKey pem := if pem = sampleIdentity.publicKeyPem then some (some ()) else none
  verify _ signature message := signature == signSample message
  publicBytes _ := sampleSpki

/-- A number with an exponent is a float. -/
def seenNumber (n : Nat) : PyNumber Unit := if n < exponentFrom then .int n else .float ()

theorem jsNumber_seen (n : Nat) :
    readNumber zeroFloats.float (jsNumber n) = some (seenNumber n) := by
  unfold jsNumber seenNumber
  split
  · exact readNumber_int zeroFloats.float n
  · have digits : ∀ c ∈ natText n, isDigit c = true := fun c member =>
      digit_of_range (natText_digit n c member)
    have taken : (natText n ++ units "e0").takeWhile isDigit = natText n := by
      rw [List.takeWhile_append_of_pos digits]
      exact List.append_nil _
    have dropped : (natText n ++ units "e0").dropWhile isDigit = units "e0" := by
      rw [List.dropWhile_append_of_pos digits]
      rfl
    have bare : PythonJson.unsigned (natText n ++ units "e0") = natText n ++ units "e0" := by
      cases written : natText n with
      | nil => rfl
      | cons c rest =>
        have range := natText_digit n c (written ▸ List.mem_cons_self)
        rw [List.cons_append, PythonJson.unsigned]
        intro others same
        have sign := (List.cons.inj same).1
        omega
    have whole : ¬ (integerPart (natText n) = false ∨ fractionEnd (units "e0") = false) := by
      rw [integerPart_natText]
      decide
    have marked : units "e0" ≠ [] := by decide
    simp only [readNumber, bare, taken, dropped, if_neg whole, if_neg marked]

theorem jsNumber_short (n : Nat) (k : Int) (integer : seenNumber n = .int k) :
    (jsNumber n).length ≤ maxStrDigits := by
  unfold seenNumber at integer
  split at integer
  · next small =>
    have digits := natText_length (show 0 < 21 by decide) small
    rw [jsNumber, if_pos small]
    exact digits.trans (by decide)
  · cases integer

theorem double_small {n : Nat} (small : n ≤ 2 ^ 53) : seenNumber n = .int n :=
  if_pos (Nat.lt_of_le_of_lt small (by decide))

theorem sample_imported :
    offlinePython.loadPublicKey sampleIdentity.publicKeyPem = some (some ()) := by
  change (if sampleIdentity.publicKeyPem = sampleIdentity.publicKeyPem then some (some ())
    else none) = _
  exact if_pos rfl

theorem offline_agree : Agree offlinePython sampleBrowser sampleIdentity seenNumber where
  sha256 := rfl
  nesting := by decide
  written := jsNumber_seen
  short := jsNumber_short
  integers _ _ _ small := double_small small
  key := ⟨(), sample_imported, rfl, fun _ => beq_self_eq_true _⟩

/-- Also with the photograph that makes the other verifier throw. -/
theorem built_package_passes_offline_reserved :
    (∃ folder : Folder, folder.root = [units "tmp"] ∧
        folder.files = (samplePackage reservedName).files) ∧
      ∀ folder : Folder, folder.files.Perm (samplePackage reservedName).files →
        Passes offlinePython folder :=
  built_package_passes_offline offline_agree reserved_sample.built reserved_sample.string
    (fun file member => (reserved_sample.content_bound file member).trans (by decide)) _

end OfflinePackages
