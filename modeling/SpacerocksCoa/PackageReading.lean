import SpacerocksCoa.PackageFiles

/-!
# The manifest of a package read back

What the verifier finds in the manifest that the builder printed: the texts and numbers of each
section. The compiled schema is applied to the value in memory by the builder and to the value
that is read back by the verifier; both get the same answer while all numbers are finite.
-/
namespace PackageReading
open JsonText (Text Same Distinct Fits fitsItems_iff fitsFields_iff units substitute substitute_same
  substituteItems_map)
open ManifestSchema
open CodeUnits (isHigh isLow unitChar chars)
open Utf16Texts
open ReadManifests
open CertificatePackages
open JsNumbers (JsNumber trim natOf overflow)
open PackageVerifier (Json)

variable {formats : Formats} {N : Type} {browser : Browser formats N}

/-! ## The sections -/

section Reading
variable {json : Json}

theorem rel_some {A B : Type} {R : A → B → Prop} {found : Option A} {v : B}
    (related : Option.Rel R found (some v)) : ∃ j, found = some j ∧ R j v := by
  cases related with
  | some one => exact ⟨_, rfl, one⟩

theorem rel_none {A B : Type} {R : A → B → Prop} {found : Option A}
    (related : Option.Rel R found (none : Option B)) : found = none := by
  cases related with
  | none => rfl

theorem read_text {found : Option Json} {s : Text}
    (related : Option.Rel (Prints browser.double) found (text s)) :
    found = some (.text (chars s)) := by
  obtain ⟨j, rfl, prints⟩ := rel_some related
  rw [prints_text prints]

theorem read_word {found : Option Json} {s : String} (plain : Plain s)
    (related : Option.Rel (Prints browser.double) found (word s)) :
    found = some (.text s.toList) := by
  rw [read_text related, chars_units plain]

theorem read_optional {found : Option Json} {s : Option Text}
    (related : Option.Rel (Prints browser.double) found (optionalText s)) :
    found = s.map fun value => .text (chars value) := by
  cases s with
  | none => exact rel_none related
  | some value => exact read_text related

theorem read_number {found : Option Json} {n : JsNumber} (integer : n.isInteger = true)
    (positive : n.nonNegative = true)
    (related : Option.Rel (Prints browser.double) found (number browser.number n)) :
    found = some (.number (natValue n : Rat)) := by
  obtain ⟨j, rfl, prints⟩ := rel_some related
  cases n with
  | nan => cases integer
  | infinite negative => cases integer
  | finite negative significand exponent =>
    have finite : browser.number (.finite negative significand exponent) =
        .finite (browser.ofNumber (.finite negative significand exponent)) := rfl
    rw [finite] at prints
    rw [prints_finite prints, browser.double_integer _ integer positive]

theorem read_count {found : Option Json} {n : Nat}
    (related : Option.Rel (Prints browser.double) found (count browser.number n)) :
    found = some (.number (n : Rat)) := by
  have value : natValue (.finite false n 0) = n := Nat.mul_one n
  rw [read_number rfl rfl related, value]

/-- A file entry of the manifest, as it is read. -/
structure ReadFile (json : Json) (file : ManifestFile) : Prop where
  path : json.get "path" = some (.text (chars file.path))
  role : json.get "role" = some (.text (chars file.role))
  mediaType : json.get "mediaType" = some (.text (chars file.mediaType))
  bytes : json.get "bytes" = some (.number (file.bytes : Rat))
  sha256 : json.get "sha256" = some (.text (chars file.sha256))

theorem read_file {file : ManifestFile}
    (prints : Prints browser.double json (fileValue browser.number file)) :
    ReadFile json file where
  path := read_text (prints_record prints (of_decide_eq_true rfl) (by decide) 0 rfl)
  role := read_text (prints_record prints (of_decide_eq_true rfl) (by decide) 1 rfl)
  mediaType := read_text (prints_record prints (of_decide_eq_true rfl) (by decide) 2 rfl)
  bytes := read_count (prints_record prints (of_decide_eq_true rfl) (by decide) 3 rfl)
  sha256 := read_text (prints_record prints (of_decide_eq_true rfl) (by decide) 4 rfl)

structure ReadPhotograph (json : Json) (photo : PhotoRecord) : Prop where
  path : json.get "path" = some (.text (chars photo.path))
  mediaType : json.get "mediaType" = some (.text (chars photo.mediaType))
  bytes : json.get "bytes" = some (.number (photo.bytes : Rat))
  sha256 : json.get "sha256" = some (.text (chars photo.sha256))
  pixelWidth : json.get "pixelWidth" = some (.number (natValue photo.pixelWidth : Rat))
  pixelHeight : json.get "pixelHeight" = some (.number (natValue photo.pixelHeight : Rat))
  displayCrop : json.get "displayCrop" = none

/-- Both dimensions are positive integers. -/
def Measured (photo : PhotoRecord) : Prop :=
  dimensionValid photo.pixelWidth = true ∧ dimensionValid photo.pixelHeight = true

theorem dimension_facts {n : JsNumber} (valid : dimensionValid n = true) :
    n.isInteger = true ∧ n.nonNegative = true ∧ 1 ≤ natValue n ∧ natValue n ≤ 100000 := by
  simp only [dimensionValid, Bool.and_eq_true] at valid
  obtain ⟨⟨integer, positive⟩, bounded⟩ := valid
  cases n with
  | nan => cases integer
  | infinite negative => cases integer
  | finite negative significand exponent =>
    simp only [JsNumber.positive, Bool.and_eq_true, Bool.not_eq_true', bne_iff_ne] at positive
    obtain ⟨rfl, nonzero⟩ := positive
    simp only [JsNumber.atMost, Bool.false_or] at bounded
    refine ⟨integer, rfl, ?_⟩
    simp only [natValue]
    by_cases whole : 0 ≤ exponent
    · rw [if_pos whole, decide_eq_true_eq] at bounded
      rw [if_pos whole]
      have power : 0 < 2 ^ exponent.toNat := Nat.two_pow_pos _
      exact ⟨Nat.mul_pos (Nat.pos_of_ne_zero nonzero) power, bounded⟩
    · rw [if_neg whole, decide_eq_true_eq] at bounded
      rw [if_neg whole]
      have power : 0 < 2 ^ (-exponent).toNat := Nat.two_pow_pos _
      simp only [JsNumber.isInteger, decide_eq_false whole, Bool.false_or, beq_iff_eq] at integer
      constructor
      · have least : 2 ^ (-exponent).toNat ≤ significand :=
          Nat.le_of_dvd (Nat.pos_of_ne_zero nonzero) (Nat.dvd_of_mod_eq_zero integer)
        exact Nat.div_pos least power
      · exact Nat.div_le_of_le_mul (Nat.mul_comm _ _ ▸ bounded)

theorem read_photograph {photo : PhotoRecord} (measured : Measured photo)
    (prints : Prints browser.double json (photographValue browser.number photo)) :
    ReadPhotograph json photo where
  path := read_text (prints_record prints (of_decide_eq_true rfl) (by decide) 0 rfl)
  mediaType := read_text (prints_record prints (of_decide_eq_true rfl) (by decide) 3 rfl)
  bytes := read_count (prints_record prints (of_decide_eq_true rfl) (by decide) 4 rfl)
  sha256 := read_text (prints_record prints (of_decide_eq_true rfl) (by decide) 5 rfl)
  pixelWidth := read_number (dimension_facts measured.1).1 (dimension_facts measured.1).2.1
    (prints_record prints (of_decide_eq_true rfl) (by decide) 8 rfl)
  pixelHeight := read_number (dimension_facts measured.2).1 (dimension_facts measured.2).2.1
    (prints_record prints (of_decide_eq_true rfl) (by decide) 9 rfl)
  displayCrop := prints_absent prints (by decide) (of_decide_eq_true rfl)

/-- The sections of the manifest, as far as the checks look at them. -/
structure ReadManifest (browser : Browser formats N) (json : Json) (m : Manifest) : Prop where
  schema : json.get "$schema" = some (.text (chars m.schema))
  schemaVersion : json.get "schemaVersion" = some (.text (chars m.schemaVersion))
  packageVersion : json.get "packageVersion" = some (.number (m.packageVersion : Rat))
  certificate : ∃ seen, json.get "certificate" = some seen ∧
    seen.get "recordFile" = some (.text (chars m.certificate.recordFile)) ∧
    seen.get "recordSha256" = some (.text (chars m.certificate.recordSha256))
  issuer : ∃ seen, json.get "issuer" = some seen ∧
    seen.get "publicKeyFingerprint" = some (.text (chars m.issuer.publicKeyFingerprint))
  specimen : ∃ seen, json.get "specimen" = some seen ∧
    Prints browser.double seen (specimenValue browser.number m.specimen)
  photographs : ∃ seen, json.get "photographs" = some (.array seen) ∧
    List.Forall₂ ReadPhotograph seen m.photographs
  files : ∃ seen, json.get "files" = some (.array seen) ∧ List.Forall₂ ReadFile seen m.files

theorem read_array {A : Type} {R : Json → A → Prop} {found : Option Json} {items : List A}
    {value : A → JsonText.Json (Number N)}
    (each : ∀ item ∈ items, ∀ j, Prints browser.double j (value item) → R j item)
    (related : Option.Rel (Prints browser.double) found (some (.array (items.map value)))) :
    ∃ seen, found = some (.array seen) ∧ List.Forall₂ R seen items := by
  obtain ⟨j, rfl, prints⟩ := rel_some related
  obtain ⟨seen, rfl, pairs⟩ := prints_array prints
  refine ⟨seen, rfl, ?_⟩
  rw [List.forall₂_map_right_iff] at pairs
  exact List.forall₂_iff_zip.2 ⟨pairs.length_eq, fun inside =>
    each _ (List.of_mem_zip inside).2 _ (List.forall₂_zip pairs inside)⟩

theorem read_manifest {m : Manifest} (measured : ∀ photo ∈ m.photographs, Measured photo)
    (prints : Prints browser.double json (manifestValue browser.number m)) :
    ReadManifest browser json m where
  schema := read_text (prints_record prints (of_decide_eq_true rfl) (by decide) 0 rfl)
  schemaVersion := read_text (prints_record prints (of_decide_eq_true rfl) (by decide) 1 rfl)
  packageVersion := read_count (prints_record prints (of_decide_eq_true rfl) (by decide) 3 rfl)
  certificate := by
    obtain ⟨seen, here, certificate⟩ :=
      rel_some (prints_record prints (of_decide_eq_true rfl) (by decide) 5 rfl)
    refine ⟨seen, here, ?_, ?_⟩
    · exact read_text (prints_record certificate (of_decide_eq_true rfl) (by decide) 6 rfl)
    · exact read_text (prints_record certificate (of_decide_eq_true rfl) (by decide) 7 rfl)
  issuer := by
    obtain ⟨seen, here, issuer⟩ :=
      rel_some (prints_record prints (of_decide_eq_true rfl) (by decide) 6 rfl)
    refine ⟨seen, here, ?_⟩
    exact read_text (prints_record issuer (of_decide_eq_true rfl) (by decide) 9 rfl)
  specimen := rel_some (prints_record prints (of_decide_eq_true rfl) (by decide) 7 rfl)
  photographs := by
    have found := prints_record prints (of_decide_eq_true rfl)
      (show Plain "photographs" by decide) 8 rfl
    exact read_array (fun photo member j => read_photograph (measured photo member)) found
  files := by
    have found := prints_record prints (of_decide_eq_true rfl) (show Plain "files" by decide) 9 rfl
    exact read_array (fun file _ j => read_file) found

end Reading
/-! ## Every value in the manifest -/

section Closed
variable {P : Nat → JsonText.Json (Number N) → Prop} {Q : JsNumber → Prop}
  {ofNumber : JsNumber → Number N}

/-- What holds of the leaves of a value, of its numbers by `Q`, holds one level higher of the
records and arrays that are made of them. -/
structure Closed (ofNumber : JsNumber → Number N) (Q : JsNumber → Prop)
    (P : Nat → JsonText.Json (Number N) → Prop) : Prop where
  text : ∀ k s, P k (.text s)
  bool : ∀ k value, P k (.bool value)
  count : ∀ n : Nat, Q (.finite false n 0)
  number : ∀ k n, Q n → P k (.number (ofNumber n))
  array : ∀ k items, (∀ item ∈ items, P k item) → P (k + 1) (.array items)
  record : ∀ k, ∀ fields : List (String × Option (JsonText.Json (Number N))),
    (fields.map Prod.fst).Nodup → "__proto__" ∉ fields.map Prod.fst →
    (∀ field ∈ fields, ∀ v ∈ field.2, P k v) → P (k + 1) (record fields)

namespace Closed

theorem field {k : Nat} (v : JsonText.Json (Number N)) (holds : P k v) :
    ∀ w ∈ some v, P k w := by
  rintro w ⟨⟩
  exact holds

variable (closed : Closed ofNumber Q P) (k : Nat)
include closed

theorem text_field (s : Text) :
    ∀ v ∈ (CertificatePackages.text s : Option (JsonText.Json (Number N))), P k v :=
  field _ (closed.text k s)

theorem word_field (s : String) : ∀ v ∈ (word s : Option (JsonText.Json (Number N))), P k v :=
  closed.text_field k _

theorem optional_field (s : Option Text) :
    ∀ v ∈ (optionalText s : Option (JsonText.Json (Number N))), P k v := by
  intro v member
  obtain ⟨value, _, rfl⟩ := Option.map_eq_some_iff.1 member
  exact closed.text k value

theorem number_field {n : JsNumber} (holds : Q n) :
    ∀ v ∈ CertificatePackages.number ofNumber n, P k v :=
  field _ (closed.number k n holds)

theorem count_field (n : Nat) : ∀ v ∈ CertificatePackages.count ofNumber n, P k v :=
  closed.number_field k (closed.count n)

theorem certificate (c : Certificate) : P (k + 1) (certificateValue c) := by
  apply closed.record _ _ (of_decide_eq_true rfl) (of_decide_eq_true rfl)
  simp only [List.forall_mem_cons]
  exact ⟨closed.text_field _ _, closed.text_field _ _, closed.text_field _ _, closed.word_field _ _,
    closed.word_field _ _, closed.word_field _ _, closed.text_field _ _, closed.text_field _ _,
    closed.optional_field _ _, closed.optional_field _ _, List.forall_mem_nil _⟩

theorem issuer (i : Issuer) : P (k + 1) (issuerValue i) := by
  apply closed.record _ _ (of_decide_eq_true rfl) (of_decide_eq_true rfl)
  simp only [List.forall_mem_cons]
  exact ⟨closed.text_field _ _, closed.text_field _ _, closed.optional_field _ _,
    closed.optional_field _ _, closed.optional_field _ _, closed.optional_field _ _,
    closed.optional_field _ _, closed.text_field _ _, closed.text_field _ _, closed.text_field _ _,
    closed.text_field _ _, List.forall_mem_nil _⟩

theorem fall (f : Fall) : P (k + 1) (fallValue f) := by
  apply closed.record _ _ (of_decide_eq_true rfl) (of_decide_eq_true rfl)
  simp only [List.forall_mem_cons]
  exact ⟨closed.text_field _ _, closed.optional_field _ _, closed.text_field _ _,
    closed.optional_field _ _, closed.optional_field _ _, closed.optional_field _ _,
    closed.optional_field _ _, closed.optional_field _ _, closed.optional_field _ _,
    closed.optional_field _ _, closed.optional_field _ _, List.forall_mem_nil _⟩

theorem provenance (p : Provenance) : P (k + 1) (provenanceValue p) := by
  apply closed.record _ _ (of_decide_eq_true rfl) (of_decide_eq_true rfl)
  simp only [List.forall_mem_cons]
  exact ⟨closed.optional_field _ _, closed.optional_field _ _, closed.optional_field _ _,
    closed.optional_field _ _, closed.optional_field _ _, closed.optional_field _ _,
    closed.optional_field _ _, List.forall_mem_nil _⟩

/-- The numbers of a specimen. -/
structure Weighed (Q : JsNumber → Prop) (s : Specimen) : Prop where
  weightGrams : Q s.weightGrams
  weightPrecision : Q s.weightPrecision
  numberOfPieces : Q s.numberOfPieces

theorem specimen {s : Specimen} (weighed : Weighed Q s) :
    P (k + 2) (specimenValue ofNumber s) := by
  have verified : ∀ v ∈ (s.officialNameVerified.map .bool : Option (JsonText.Json (Number N))),
      P (k + 1) v := by
    intro v member
    obtain ⟨value, _, rfl⟩ := Option.map_eq_some_iff.1 member
    exact closed.bool _ value
  apply closed.record _ _ (of_decide_eq_true rfl) (of_decide_eq_true rfl)
  simp only [List.forall_mem_cons]
  exact ⟨closed.text_field _ _, closed.word_field _ _, closed.text_field _ _, closed.text_field _ _,
    closed.text_field _ _, closed.optional_field _ _, verified,
    closed.number_field _ weighed.weightGrams, closed.number_field _ weighed.weightPrecision,
    closed.text_field _ _, closed.optional_field _ _, closed.number_field _ weighed.numberOfPieces,
    closed.optional_field _ _, closed.optional_field _ _, closed.optional_field _ _,
    field _ (closed.fall _ _), field _ (closed.provenance _ _), List.forall_mem_nil _⟩

theorem photograph {photo : PhotoRecord} (width : Q photo.pixelWidth)
    (height : Q photo.pixelHeight) :
    P (k + 1) (photographValue ofNumber photo) := by
  apply closed.record _ _ (of_decide_eq_true rfl) (of_decide_eq_true rfl)
  simp only [List.forall_mem_cons]
  exact ⟨closed.text_field _ _, closed.text_field _ _, closed.optional_field _ _,
    closed.text_field _ _, closed.count_field _ _, closed.text_field _ _, closed.optional_field _ _,
    field _ (closed.bool _ _), closed.number_field _ width, closed.number_field _ height,
    List.forall_mem_nil _⟩

theorem file (f : ManifestFile) : P (k + 1) (fileValue ofNumber f) := by
  apply closed.record _ _ (of_decide_eq_true rfl) (of_decide_eq_true rfl)
  simp only [List.forall_mem_cons]
  exact ⟨closed.text_field _ _, closed.text_field _ _, closed.text_field _ _,
    closed.count_field _ _, closed.text_field _ _, List.forall_mem_nil _⟩

theorem signature (s : Signature) : P (k + 1) (signatureValue s) := by
  apply closed.record _ _ (of_decide_eq_true rfl) (of_decide_eq_true rfl)
  simp only [List.forall_mem_cons]
  exact ⟨closed.text_field _ _, closed.text_field _ _, closed.text_field _ _, closed.text_field _ _,
    List.forall_mem_nil _⟩

theorem generation (g : Generation) : P (k + 1) (generationValue g) := by
  apply closed.record _ _ (of_decide_eq_true rfl) (of_decide_eq_true rfl)
  simp only [List.forall_mem_cons]
  exact ⟨closed.text_field _ _, closed.text_field _ _, closed.text_field _ _, closed.text_field _ _,
    List.forall_mem_nil _⟩

theorem manifest {m : Manifest} (weighed : Weighed Q m.specimen)
    (measured : ∀ photo ∈ m.photographs, Q photo.pixelWidth ∧ Q photo.pixelHeight) :
    P (k + 3) (manifestValue ofNumber m) := by
  have photographs : P (k + 2) (.array (m.photographs.map (photographValue ofNumber))) := by
    refine closed.array _ _ (List.forall_mem_map.2 fun photo member => ?_)
    exact closed.photograph k (measured photo member).1 (measured photo member).2
  have files : P (k + 2) (.array (m.files.map (fileValue ofNumber))) :=
    closed.array _ _ (List.forall_mem_map.2 fun f _ => closed.file k f)
  apply closed.record _ _ (of_decide_eq_true rfl) (of_decide_eq_true rfl)
  simp only [List.forall_mem_cons]
  exact ⟨closed.text_field _ _, closed.text_field _ _, closed.text_field _ _,
    closed.count_field _ _, closed.text_field _ _, field _ (closed.certificate _ _), field _ (closed.issuer _ _),
    field _ (closed.specimen _ weighed), field _ photographs, field _ files,
    field _ (closed.signature _ _), field _ (closed.generation _ _), List.forall_mem_nil _⟩

end Closed

variable (browser)

theorem plainly_closed : Closed browser.number (fun _ => True) fun _ => Plainly where
  text := fun _ => plainly_text
  bool := fun _ => plainly_bool
  count := fun _ => trivial
  number := fun _ _ _ => plainly_number _
  array := fun _ _ => plainly_array
  record := fun _ _ => plainly_record

theorem finite_closed : Closed browser.number (fun n => n.isFinite = true) fun _ => Finite where
  text := fun _ => finite_text
  bool := fun _ => finite_bool
  count := fun _ => rfl
  number := by
    intro k n finite
    cases n with
    | nan => cases finite
    | infinite negative => cases finite
    | finite negative significand exponent => exact finite_number _
  array := fun _ _ => finite_array
  record := fun _ _ _ _ => finite_record

/-- The level counts the nesting of what is printed. -/
theorem nested_closed : Closed browser.number (fun _ => True)
    fun k v => Fits (fun _ => True) k (substitute printable v) where
  text := by
    intro k s
    rw [substitute, Fits]
    trivial
  bool := by
    intro k value
    rw [substitute, Fits]
    trivial
  count := fun _ => trivial
  number := by
    intro k n _
    rw [substitute]
    cases browser.number n with
    | nan =>
      rw [printable, Fits]
      trivial
    | infinite negative =>
      rw [printable, Fits]
      trivial
    | finite value =>
      rw [printable, Fits]
      trivial
  array := by
    intro k items each
    rw [substitute, substituteItems_map, Fits, fitsItems_iff, List.forall_mem_map]
    exact each
  record := by
    intro k fields _ _ each
    rw [substitute_record, record, Fits, fitsFields_iff]
    intro field member
    obtain ⟨printed, inside, written⟩ := List.mem_filterMap.1 member
    obtain ⟨source, found, rfl⟩ := List.mem_map.1 inside
    obtain ⟨shown, value, rfl⟩ := Option.map_eq_some_iff.1 written
    obtain ⟨v, stated, rfl⟩ := Option.map_eq_some_iff.1 value
    exact each source found v stated

end Closed
/-! ## The schema -/

/-- What is relied on of the compiled schema: the order of the properties does not matter, and
a number of pieces that is null is refused. -/
structure SchemaLaws (browser : Browser formats N) : Prop where
  order : ∀ v w : JsonText.Json (Number N), Same v w → Distinct v →
    browser.validateV2 (reading browser.seen v) = browser.validateV2 (reading browser.seen w)
  pieces : ∀ json : Json,
    PackageVerifier.optionalGet (json.get "specimen") "numberOfPieces" = some .null →
      browser.validateV2 json = false

/-- The schema says the same of what is read back as of the value in memory. -/
theorem schema_agrees (laws : SchemaLaws browser) {json : Json} {v : JsonText.Json (Number N)}
    (plainly : Plainly v) (finite : Finite v) (prints : Prints browser.double json v) :
    browser.validateV2 json = browser.validateV2 (reading browser.seen v) := by
  obtain ⟨parsed, rfl, same, _⟩ := prints
  have back : Same (substitute exactly parsed) v := by
    have exact := @substitute_same N (Number N) exactly _ _ same
    rwa [finite] at exact
  have seen : reading browser.seen (substitute exactly parsed) =
      reading (fun n => .number (browser.double n)) parsed := by
    rw [reading_substitute]
    rfl
  rw [← seen, laws.order v _ back.symm plainly.1]

theorem validated_v2 (manifest : Manifest)
    (accepted : CertificatePackages.assertV2Manifest browser manifest = true) :
    browser.validateV2 (manifestInMemory browser manifest) = true := by
  rw [CertificatePackages.assertV2Manifest, Bool.and_eq_true, decide_eq_true_eq] at accepted
  obtain ⟨version, valid⟩ := accepted
  rw [PackageVerifier.validateManifestVersion] at version valid
  split at valid
  · next first =>
    rw [if_pos first] at version
    cases version
  · next first =>
    rw [if_neg first] at version
    split at valid
    · exact valid
    · cases valid

/-- A number of pieces that is no finite number is read back as null. -/
theorem pieces_refused (laws : SchemaLaws browser) {json : Json} {m : Manifest}
    (reads : ReadManifest browser json m) (infinite : m.specimen.numberOfPieces.isFinite = false) :
    browser.validateV2 json = false := by
  obtain ⟨seen, here, prints⟩ := reads.specimen
  obtain ⟨value, found, printed⟩ := rel_some (prints_record prints (of_decide_eq_true rfl)
    (show Plain "numberOfPieces" by decide) 11 rfl)
  have null : value = .null := by
    apply @shows_null N fun n => .number (browser.double n)
    have nothing : substitute printable
        (.number (browser.number m.specimen.numberOfPieces)) = (.null : JsonText.Json N) := by
      cases pieces : m.specimen.numberOfPieces with
      | nan => rfl
      | infinite negative => rfl
      | finite negative significand exponent =>
        rw [pieces] at infinite
        cases infinite
    rwa [Prints, nothing] at printed
  apply laws.pieces
  rw [here, ← null]
  exact found

/-! ## The numbers of the manifest -/

theorem integer_finite {n : JsNumber} (integer : n.isInteger = true) : n.isFinite = true := by
  cases n with
  | nan => cases integer
  | infinite negative => cases integer
  | finite negative significand exponent => rfl

theorem pieces_finite_iff {s : Text} (accepted : positiveInteger s = true) :
    (JsNumbers.number s).isFinite = true ↔ natOf s < overflow := by
  constructor
  · intro finite
    by_contra large
    simp only [positiveInteger, Bool.and_eq_true, bne_iff_ne] at accepted
    rw [JsNumbers.number_digits accepted.1.2 accepted.1.1,
      JsNumbers.nearest_infinite (Nat.le_of_not_lt large)] at finite
    cases finite
  · intro small
    exact integer_finite ((pieces_integer_iff accepted).2 small)

theorem weighed_finite {values : FormValues} (accepted : Accepted formats values)
    (small : natOf (trim values.numberOfPieces) < overflow) :
    Closed.Weighed (fun n => n.isFinite = true)
      (buildSpecimen (withoutEvidence (trimmed values))) := by
  have range := (numbers_inRange_iff accepted).2 small
  simp only [numbersInRange, Bool.and_eq_true] at range
  obtain ⟨⟨⟨⟨⟨weight, _⟩, precision⟩, _⟩, pieces⟩, _⟩ := range
  exact ⟨weight, precision, integer_finite pieces⟩

theorem pieces_stated (values : FormValues) :
    (buildSpecimen (withoutEvidence (trimmed values))).numberOfPieces =
      JsNumbers.number (trim values.numberOfPieces) := by
  obtain ⟨_, _, _, _, _, _, frame⟩ := withoutEvidence_frame (trimmed values)
  rw [frame]
  rfl

/-! ## The text -/

/-- The units of a string. -/
def IsString (s : Text) : Prop := ∀ c ∈ s, c < 65536

/-- Text that begins with a printed character is decoded as it was. -/
theorem decodeText_utf8 (browser : Browser formats N) {text : Text} {c : Nat} {rest : Text}
    (begins : text = c :: rest) (small : c < 127) :
    browser.tools.decodeText (utf8 text) = chars text := by
  have plain := plain_of_small (show c < 0xd800 by omega)
  have first : chars text = Char.ofNat c :: chars rest := by
    rw [begins, chars_cons_plain plain, unitChar,
      if_pos (Or.inl (by omega))]
  have value := ascii_toNat (show c < 128 by omega)
  apply browser.decodeText_fatal
  exact decodeFatal_utf8 first (by omega)

theorem manifest_begins (browser : Browser formats N) (m : Manifest) :
    ∃ rest, manifestText browser m = 123 :: rest := by
  obtain ⟨fields, object⟩ : ∃ fields, substitute printable (manifestValue browser.number m) =
      .object fields := by
    rw [manifestValue, substitute_record]
    exact ⟨_, rfl⟩
  rw [manifestText, object]
  exact stableStringify_object _ _

theorem manifest_read {m : Manifest} (string : IsString (manifestText browser m)) :
    ∃ json, browser.tools.parseJson (browser.tools.decodeText (utf8 (manifestText browser m))) =
      some json ∧ Prints browser.double json (manifestValue browser.number m) := by
  have plainly : Plainly (manifestValue browser.number m) :=
    (plainly_closed browser).manifest 0 ⟨trivial, trivial, trivial⟩ fun _ _ => ⟨trivial, trivial⟩
  obtain ⟨rest, begins⟩ := manifest_begins browser m
  have decoded := decodeText_utf8 browser begins (by decide)
  obtain ⟨json, parsed, shows⟩ := parsed_shows browser.numbers browser.double
    (plainly_printable plainly) string
  refine ⟨json, ?_, shows⟩
  have parser : browser.tools.parseJson =
      parseJson browser.numbers browser.double := rfl
  rw [decoded, parser, manifestText, parsed]

end PackageReading
