import SpacerocksCoa.PackageChecks

/-!
# The verdict on a built package

The verifier looks at the sizes, finds the root of the package by its one manifest, and then runs
its checks. A second file of that name stops it; otherwise every check passes but the one of the
schema, which depends on the number of pieces.
-/
namespace PackageVerdict
open JsonText (Text units)
open ManifestSchema
open FileNames (SafeName photographPath)
open CodeUnits (isHigh isLow unitChar chars)
open Utf16Texts
open ReadManifests (Plainly Finite Prints)
open CertificatePackages
open PackageFiles
open PackageReading
open PackageChecks
open JsNumbers (trim natOf overflow)
open FallibleSteps
open ZipDirectory (RawZipEntry inspectZipCentralDirectory)
open PackageVerifier (Json Zip filesOf checkSizes Tools
  maxZipBytes maxEntryBytes maxUncompressedBytes maxFileCount packageRoot readBytes
  verifyCertificateZip manifestName endsWith VerificationCheck allChecks fingerprintForSpki)

/-! ## The sizes -/

/-- The scan of the sizes passes when every entry and all of them together are within bounds. -/
theorem checkSizes_iff (rawEntries : List RawZipEntry) (start : Nat)
    (within : start ≤ maxUncompressedBytes) :
    checkSizes start rawEntries = .ok () ↔
      (∀ entry ∈ rawEntries, entry.uncompressedBytes ≤ maxEntryBytes) ∧
        start + (rawEntries.map RawZipEntry.uncompressedBytes).sum ≤ maxUncompressedBytes := by
  induction rawEntries generalizing start with
  | nil => exact ⟨fun _ => ⟨List.forall_mem_nil _, within⟩, fun _ => rfl⟩
  | cons entry rest ih =>
    rw [checkSizes, List.forall_mem_cons, List.map_cons, List.sum_cons, ← Nat.add_assoc]
    by_cases large : maxEntryBytes < entry.uncompressedBytes
    · rw [if_pos large]
      constructor
      · intro ok
        cases ok
      · rintro ⟨⟨small, _⟩, _⟩
        omega
    · rw [if_neg large]
      by_cases full : maxUncompressedBytes < start + entry.uncompressedBytes
      · rw [if_pos full]
        constructor
        · intro ok
          cases ok
        · rintro ⟨_, total⟩
          omega
      · rw [if_neg full, ih _ (Nat.le_of_not_lt full)]
        constructor
        · rintro ⟨each, total⟩
          exact ⟨⟨Nat.le_of_not_lt large, each⟩, total⟩
        · rintro ⟨⟨_, each⟩, total⟩
          exact ⟨each, total⟩

/-! ## The root -/

/-- The entry is a manifest of the package or of a folder below it. -/
def isManifest (name : List Char) : Bool :=
  name == manifestName || endsWith name ('/' :: manifestName)

theorem isManifest_iff (folder last : List Char) (single : '/' ∉ last) :
    isManifest (folder ++ '/' :: last) = true ↔ last = manifestName := by
  have plain : '/' ∉ manifestName := by decide
  have other : (folder ++ '/' :: last == manifestName) = false := by
    rw [beq_eq_false_iff_ne]
    intro same
    exact plain (same ▸ List.mem_append_right _ List.mem_cons_self)
  rw [isManifest, other, Bool.false_or, endsWith, List.isSuffixOf_iff_suffix]
  constructor
  · rintro ⟨before, same⟩
    have backwards := congrArg List.reverse same
    rw [List.reverse_append, List.reverse_append, List.reverse_cons, List.reverse_cons,
      List.append_assoc, List.append_assoc] at backwards
    have ends := (split_unique (by rwa [List.mem_reverse]) (by rwa [List.mem_reverse])
      backwards).1
    exact (List.reverse_injective ends).symm
  · rintro rfl
    exact List.suffix_append _ _

theorem chars_manifest : chars (units "manifest.json") = manifestName := chars_units (by decide)

theorem manifest_name_iff {s : Text} (ascii : Ascii s) :
    chars s = manifestName ↔ s = units "manifest.json" := by
  constructor
  · intro same
    exact chars_injective ascii (by decide) (same.trans chars_manifest.symm)
  · rintro rfl
    exact chars_manifest

theorem isManifest_path (root : List Char) {path : Text}
    (known : AtRoot path ∨ ∃ folder, InFolder folder path) :
    isManifest (root ++ '/' :: chars path) = true ↔ Reserved path := by
  rcases known with ⟨single, ascii, _⟩ | ⟨folder, inside⟩
  · rw [isManifest_iff root _ (no_slash ascii single), manifest_name_iff ascii]
    constructor
    · exact Or.inl
    · rintro (same | ⟨folder, _, rfl⟩)
      · exact same
      · exact absurd (List.mem_append_right _ List.mem_cons_self) single
  · obtain ⟨name, rfl, safe⟩ := inside.named
    obtain ⟨single, ascii, _⟩ := folders_plain folder inside.known
    rw [chars_in_folder ascii (safeName_ascii safe), ← List.cons_append, ← List.append_assoc,
      isManifest_iff _ _ (chars_safeName safe).2.1, manifest_name_iff (safeName_ascii safe)]
    constructor
    · rintro rfl
      exact Or.inr ⟨folder, inside.known, rfl⟩
    · rintro (same | ⟨other, known, same⟩)
      · have slash : 47 ∈ units "manifest.json" :=
          same ▸ List.mem_append_right _ List.mem_cons_self
        exact absurd slash (by decide)
      · exact (split_unique single (folders_plain other known).1 same).2

theorem filter_manifest (entries : List (List Char)) :
    entries.filter (fun name => name == manifestName || endsWith name ('/' :: manifestName)) =
      entries.filter isManifest := rfl

section Root
variable {root : List Char} {paths : List Text} {entries : List (List Char)}
  (known : ∀ path ∈ paths, AtRoot path ∨ ∃ folder, InFolder folder path)
  (manifest : units "manifest.json" ∈ paths)
  (stored : entries.Perm (paths.map fun path => root ++ '/' :: chars path))
include known manifest stored

/-- The one manifest is found when no other file has its name. -/
theorem root_found (distinct : paths.Nodup)
    (clean : ∀ path ∈ paths, Reserved path → path = units "manifest.json") :
    packageRoot entries = .ok (root ++ ['/']) := by
  have found : (entries.filter isManifest).Perm [root ++ '/' :: manifestName] := by
    have kept := stored.filter isManifest
    have only : paths.filter (fun path => isManifest (root ++ '/' :: chars path)) =
        [units "manifest.json"] := by
      have same : ∀ path ∈ paths, isManifest (root ++ '/' :: chars path) =
          decide (path = units "manifest.json") := by
        intro path member
        rw [Bool.eq_iff_iff, isManifest_path root (known path member), decide_eq_true_eq]
        exact ⟨clean path member, Or.inl⟩
      rw [List.filter_congr same, List.filter_eq, List.count_eq_one_of_mem distinct manifest]
      rfl
    rw [List.filter_map] at kept
    have shape : (isManifest ∘ fun path => root ++ '/' :: chars path) =
        fun path => isManifest (root ++ '/' :: chars path) := rfl
    rw [shape, only, List.map_singleton, chars_manifest] at kept
    exact kept
  rw [packageRoot, filter_manifest, List.perm_singleton.1 found]
  have split : root ++ '/' :: manifestName = (root ++ ['/']) ++ manifestName := by
    rw [List.append_assoc]
    rfl
  simp only [split, List.length_append, Nat.add_sub_cancel]
  rw [← List.length_append, List.take_left]

/-- Another file of that name makes the verifier throw. -/
theorem root_refused {path : Text} (member : path ∈ paths) (reserved : Reserved path)
    (other : path ≠ units "manifest.json") :
    packageRoot entries = .error "The ZIP contains multiple package manifests." := by
  have kept := stored.filter isManifest
  have two : ∀ path ∈ paths, Reserved path →
      root ++ '/' :: chars path ∈ entries.filter isManifest := by
    intro path member reserved
    rw [kept.mem_iff, List.mem_filter]
    exact ⟨List.mem_map.2 ⟨path, member, rfl⟩,
      (isManifest_path root (known path member)).2 reserved⟩
  have first := two _ manifest (Or.inl rfl)
  have second := two _ member reserved
  have apart : root ++ '/' :: chars path ≠ root ++ '/' :: chars (units "manifest.json") := by
    intro same
    have names := (List.cons.inj (List.append_cancel_left same)).2
    have ascii : Ascii path := by
      rcases known path member with atRoot | ⟨folder, inside⟩
      · exact atRoot.2.1
      · exact inside.ascii
    exact other (chars_injective ascii (by decide) names)
  rw [packageRoot, filter_manifest]
  cases found : entries.filter isManifest with
  | nil =>
    rw [found] at first
    cases first
  | cons a rest =>
    cases rest with
    | nil =>
      rw [found, List.mem_singleton] at first second
      exact absurd (second.trans first.symm) apart
    | cons b rest => rfl

end Root

/-! ## A run of the verifier -/

section Run
variable {tools : Tools} {zipBytes : List UInt8}

theorem verified_guards {result : PackageVerifier.VerificationResult}
    (ok : verifyCertificateZip tools zipBytes = .ok result) :
    zipBytes.length ≤ maxZipBytes ∧ ∃ rawEntries,
      inspectZipCentralDirectory zipBytes = .ok rawEntries ∧
      checkSizes 0 (filesOf rawEntries) = .ok () := by
  unfold verifyCertificateZip at ok
  obtain ⟨small, ok⟩ := guard_ok ok
  obtain ⟨rawEntries, inspected, ok⟩ := except_bind_ok ok
  obtain ⟨_, ok⟩ := guard_ok ok
  obtain ⟨_, sizes, _⟩ := except_bind_ok ok
  exact ⟨Nat.le_of_not_lt small, rawEntries, inspected, sizes⟩

/-- Every step up to the checks. -/
theorem verified_of {rawEntries : List RawZipEntry} {zip : Zip} {root : List Char}
    {manifestBytes publicKeyBytes spki : List UInt8} {manifest : Json}
    {photographs : List VerificationCheck} (small : zipBytes.length ≤ maxZipBytes)
    (inspected : inspectZipCentralDirectory zipBytes = .ok rawEntries)
    (few : (filesOf rawEntries).length ≤ maxFileCount)
    (sizes : checkSizes 0 (filesOf rawEntries) = .ok ())
    (loaded : tools.loadAsync zipBytes = .ok zip)
    (rooted : packageRoot ((filesOf rawEntries).map RawZipEntry.name) = .ok root)
    (manifestRead : readBytes zip root manifestName = .ok manifestBytes)
    (parsed : tools.parseJson (tools.decodeText manifestBytes) = some manifest)
    (object : PackageVerifier.isObject (some manifest) = true)
    (keyRead : readBytes zip root "public-key.pem".toList = .ok publicKeyBytes)
    (der : tools.pemToDer (tools.decodeText publicKeyBytes) = .ok spki)
    (checked : PackageVerifier.photographChecks tools zip root manifest = .ok photographs) :
    ∃ checks, checks = allChecks tools zip root ((filesOf rawEntries).map RawZipEntry.name)
        manifestBytes manifest (tools.decodeText publicKeyBytes) (fingerprintForSpki tools spki)
        photographs ∧
      verifyCertificateZip tools zipBytes = .ok ⟨checks.all fun check => check.status ≠ .fail,
        fingerprintForSpki tools spki, checks⟩ := by
  refine ⟨_, rfl, ?_⟩
  unfold verifyCertificateZip
  refine guard_pass (Nat.not_lt.2 small) (bind_pass inspected ?_)
  refine guard_pass (Nat.not_lt.2 few) (bind_pass sizes (bind_pass loaded (bind_pass rooted ?_)))
  refine bind_pass manifestRead ?_
  rw [parsed]
  cases manifest with
  | object fields => exact bind_pass keyRead (bind_pass der (bind_pass checked rfl))
  | array items => exact bind_pass keyRead (bind_pass der (bind_pass checked rfl))
  | _ => cases object

/-- The steps up to a root that is refused. -/
theorem refused_of {rawEntries : List RawZipEntry} {zip : Zip} {failure : String}
    (small : zipBytes.length ≤ maxZipBytes)
    (inspected : inspectZipCentralDirectory zipBytes = .ok rawEntries)
    (few : (filesOf rawEntries).length ≤ maxFileCount)
    (sizes : checkSizes 0 (filesOf rawEntries) = .ok ())
    (loaded : tools.loadAsync zipBytes = .ok zip)
    (rooted : packageRoot ((filesOf rawEntries).map RawZipEntry.name) = .error failure) :
    verifyCertificateZip tools zipBytes = .error failure := by
  unfold verifyCertificateZip
  refine (if_neg (Nat.not_lt.2 small)).trans ?_
  refine (bind_next inspected).trans ?_
  refine (if_neg (Nat.not_lt.2 few)).trans ?_
  refine (bind_next sizes).trans ((bind_next loaded).trans ?_)
  exact bind_stop rooted

end Run

variable {formats : Formats} {N : Type} {browser : Browser formats N}
variable {contents : Contents} {identity : SigningIdentity} {values : FormValues}
  {photos : List PhotoInput} {logo : Option File} {package : Package}

/-! ## A built package -/

/-- What is relied on of the library: the directory of the ZIP lists the entries with their sizes,
beside folders, and an entry is returned as it was stored. -/
structure Stored (browser : Browser formats N) (entries : List (Text × List UInt8)) : Prop where
  listed : ∃ rawEntries,
    inspectZipCentralDirectory (browser.generateAsync entries) = .ok rawEntries ∧
    ((filesOf rawEntries).map fun raw => (raw.name, raw.uncompressedBytes)).Perm
      (entries.map fun entry => (chars entry.1, entry.2.length))
  opened : ∃ zip, browser.loadAsync (browser.generateAsync entries) = .ok zip ∧
    ∀ entry ∈ entries, zip (chars entry.1) = .ok entry.2

/-- What is relied on of the keys: the public key is the one of the identity, and it verifies
what was signed. -/
structure KeyLaws (browser : Browser formats N) (identity : SigningIdentity) : Prop where
  key : browser.pemToDer (browser.decodeText identity.publicKeyPem) = .ok identity.spki
  signs : ∀ message, browser.verifyEd25519 identity.spki (browser.sign message) message = .ok true

theorem safeId_safe (certificateId : Text) : SafeName (safeId browser certificateId) := by
  have safe := FileNames.sanitizeFileName_safe browser.normalize certificateId
  rw [safeId, if_neg safe.filled]
  exact safe

/-- The package of the inputs, as it is rendered once they are accepted. -/
def rendered (browser : Browser formats N) (contents : Contents) (identity : SigningIdentity)
    (values : FormValues) (photos : List PhotoInput) (logo : Option File) : Package :=
  let manifest := generatedManifest browser.platform contents identity (trimmed values) photos logo
  { manifest := manifest
    root := safeId browser (trimmed values).certificateId
    files := packageFiles browser manifest (evidence browser contents identity photos logo) }

/-- A package that was built. -/
structure Built (browser : Browser formats N) (contents : Contents) (identity : SigningIdentity)
    (values : FormValues) (photos : List PhotoInput) (logo : Option File) (package : Package) :
    Prop where
  accepted : Accepted formats values
  photographs : photosAccepted photos logo = true
  manifest : package.manifest =
    generatedManifest browser.platform contents identity (trimmed values) photos logo
  schema : CertificatePackages.assertV2Manifest browser package.manifest = true
  root : SafeName package.root
  files : package.files =
    packageFiles browser package.manifest (evidence browser contents identity photos logo)
  rendered : package = rendered browser contents identity values photos logo

theorem built_of (built : buildCertificatePackage browser contents identity values photos logo =
    some package) : Built browser contents identity values photos logo package := by
  rw [buildCertificatePackage] at built
  obtain ⟨data, valid, built⟩ := Option.bind_eq_some_iff.1 built
  obtain ⟨rfl, accepted⟩ := validate_accepted valid
  by_cases refused : photosAccepted photos logo = false
  · rw [if_pos refused] at built
    cases built
  · rw [if_neg refused] at built
    dsimp only at built
    split at built
    · cases built
    · next schema =>
      cases built
      exact ⟨accepted, Bool.not_eq_false _ ▸ refused, rfl, Bool.not_eq_false _ ▸ schema,
        safeId_safe _, rfl, rfl⟩

/-- The verifier accepts the package. -/
def Verifies (browser : Browser formats N) (package : Package) : Prop :=
  ∃ result, verifyCertificateZip browser.tools (browser.generateAsync package.entries) =
    .ok result ∧ result.valid = true

/-- The package is within the limits of the verifier. -/
structure WithinLimits (browser : Browser formats N) (package : Package) : Prop where
  zip : (browser.generateAsync package.entries).length ≤ maxZipBytes
  entry : ∀ file ∈ package.files, file.2.length ≤ maxEntryBytes
  total : (package.files.map fun file => file.2.length).sum ≤ maxUncompressedBytes

/-- An image is decoded to the dimensions that were recorded. -/
def Decodes (browser : Browser formats N) (photos : List PhotoInput) : Prop :=
  ∀ photo ∈ photos, browser.decodeImageDimensions photo.file.content
    (chars (mediaTypeForFile photo.file)) =
      .ok ⟨natValue photo.pixelWidth, natValue photo.pixelHeight⟩

section Stored
variable (built : Built browser contents identity values photos logo package)
include built

theorem Built.paths : package.files.map Prod.fst =
    (evidence browser contents identity photos logo).map Prod.fst ++ structuralPaths := by
  rw [built.files]
  exact files_paths contents identity photos logo package.manifest

theorem Built.distinct : (package.files.map Prod.fst).Nodup := by
  rw [built.paths]
  exact evidence_distinct browser contents identity photos logo

theorem Built.safe : SafePaths package.files := by
  rw [built.files]
  exact files_safe contents identity photos logo package.manifest

theorem Built.known : ∀ path ∈ package.files.map Prod.fst,
    AtRoot path ∨ ∃ folder, InFolder folder path := by
  intro path member
  rw [built.files] at member
  rcases path_cases contents identity photos logo package.manifest member with fixed | inside
  · exact Or.inl (fixed_atRoot path fixed)
  · exact Or.inr inside

theorem Built.stored_path (file : Text × List UInt8) (member : file ∈ package.files) :
    chars (package.root ++ 47 :: file.1) = chars package.root ++ '/' :: chars file.1 :=
  chars_in_folder (safeName_ascii built.root) (built.safe file member).1

theorem Built.opens {zip : Zip}
    (returns : ∀ entry ∈ package.entries, zip (chars entry.1) = .ok entry.2) :
    Opens zip (chars package.root) package.files := by
  intro file member
  rw [← built.stored_path file member]
  exact returns (package.root ++ 47 :: file.1, file.2) (List.mem_map_of_mem member)

variable {rawEntries : List RawZipEntry}
  (listed : ((filesOf rawEntries).map fun raw => (raw.name, raw.uncompressedBytes)).Perm
    (package.entries.map fun entry => (chars entry.1, entry.2.length)))
include listed

theorem Built.names : ((filesOf rawEntries).map RawZipEntry.name).Perm
    (package.files.map fun file => chars package.root ++ '/' :: chars file.1) := by
  have names := listed.map Prod.fst
  rw [Package.entries, List.map_map, List.map_map, List.map_map] at names
  have same : package.files.map (fun file => chars (package.root ++ 47 :: file.1)) =
      package.files.map fun file => chars package.root ++ '/' :: chars file.1 :=
    List.map_congr_left built.stored_path
  rw [← same]
  exact names

omit built in
theorem sizes_iff : checkSizes 0 (filesOf rawEntries) = .ok () ↔
    (∀ file ∈ package.files, file.2.length ≤ maxEntryBytes) ∧
      (package.files.map fun file => file.2.length).sum ≤ maxUncompressedBytes := by
  have sizes := listed.map Prod.snd
  rw [Package.entries, List.map_map, List.map_map, List.map_map] at sizes
  have perm : ((filesOf rawEntries).map RawZipEntry.uncompressedBytes).Perm
      (package.files.map fun file => file.2.length) := sizes
  rw [checkSizes_iff _ 0 (Nat.zero_le _), Nat.zero_add, perm.sum_nat]
  refine and_congr_left' ⟨?_, ?_⟩
  · intro each file member
    obtain ⟨raw, inside, same⟩ := List.mem_map.1 (perm.mem_iff.2 (List.mem_map_of_mem member))
    exact same ▸ each raw inside
  · intro each raw member
    obtain ⟨file, inside, same⟩ := List.mem_map.1 (perm.mem_iff.1 (List.mem_map_of_mem member))
    exact same ▸ each file inside

end Stored

section Manifest
variable (built : Built browser contents identity values photos logo package)
include built

theorem Built.lists :
    ListsEvidence browser package.manifest (evidence browser contents identity photos logo) := by
  rw [ListsEvidence, ← stated_evidence, built.manifest]
  exact (browser.sortFiles_perm _).map _

theorem Built.photos_accepted : ∀ photo ∈ photos, photoAccepted photo = true := by
  have accepted := built.photographs
  simp only [photosAccepted, Bool.and_eq_true, List.all_eq_true] at accepted
  exact accepted.1.1.2

theorem Built.measured : ∀ photo ∈ package.manifest.photographs, Measured photo := by
  intro photo member
  rw [built.manifest] at member
  obtain ⟨source, inside, name, rfl, _⟩ := prepared_photo [] photos photo member
  have facts := photo_facts browser (built.photos_accepted source inside)
  exact ⟨facts.width, facts.height⟩

variable {json : Json} (prints : Prints browser.double json
  (manifestValue browser.number package.manifest))
include prints

theorem Built.reads : ReadManifest browser json package.manifest :=
  read_manifest built.measured prints

theorem Built.version : PackageVerifier.validateManifestVersion browser.tools json =
    ⟨.v2, browser.validateV2 json⟩ := by
  apply version_read (built.reads prints)
  · rw [built.manifest]
    rfl
  · rw [built.manifest]
    rfl
  · rw [built.manifest]
    rfl

/-- The schema accepts the manifest that is read back when the number of pieces was finite. -/
theorem Built.schema_iff (laws : SchemaLaws browser) : browser.validateV2 json = true ↔
    natOf (trim values.numberOfPieces) < overflow := by
  have specimen : package.manifest.specimen = buildSpecimen (withoutEvidence (trimmed values)) := by
    rw [built.manifest]
    rfl
  have finite := pieces_finite_iff built.accepted.numberOfPieces
  constructor
  · intro valid
    by_contra large
    have infinite : package.manifest.specimen.numberOfPieces.isFinite = false := by
      rw [specimen, pieces_stated, Bool.eq_false_iff]
      exact fun small => large (finite.1 small)
    rw [pieces_refused laws (built.reads prints) infinite] at valid
    cases valid
  · intro small
    have plainly : Plainly (manifestValue browser.number package.manifest) :=
      (plainly_closed browser).manifest 0 ⟨trivial, trivial, trivial⟩ fun _ _ => ⟨trivial, trivial⟩
    have exact : Finite (manifestValue browser.number package.manifest) := by
      apply (finite_closed browser).manifest 0
      · rw [specimen]
        exact weighed_finite built.accepted small
      · intro photo member
        obtain ⟨width, height⟩ := built.measured photo member
        exact ⟨integer_finite (dimension_facts width).1, integer_finite (dimension_facts height).1⟩
    rw [schema_agrees laws plainly exact prints]
    exact validated_v2 package.manifest built.schema

end Manifest

section Root
variable (built : Built browser contents identity values photos logo package)
  {names : List (List Char)}
  (stored : names.Perm (package.files.map fun file => chars package.root ++ '/' :: chars file.1))
include built stored

omit stored in
theorem Built.stored_paths : units "manifest.json" ∈ package.files.map Prod.fst ∧
    ∀ path, path ∈ package.files.map Prod.fst ↔
      path ∈ firstPaths ++ lastPaths ++ structuralPaths ∨
        path ∈ (photoNames browser [] photos).map photographPath ++
          logo.toList.map (logoPath browser.platform) := by
  rw [built.paths, evidence_names]
  constructor
  · exact List.mem_append_right _ List.mem_cons_self
  · intro path
    simp only [List.mem_append, or_assoc, or_comm, or_left_comm]

omit built in
theorem names_paths : names.Perm ((package.files.map Prod.fst).map fun path =>
    chars package.root ++ '/' :: chars path) := by
  rw [List.map_map]
  exact stored

/-- A file stored as `manifest.json` makes the verifier throw. -/
theorem Built.root_collides (collides : Collides browser photos logo) :
    packageRoot names = .error "The ZIP contains multiple package manifests." := by
  obtain ⟨path, member, reserved⟩ := (collected_reserved browser photos logo).2 collides
  have inside := (built.stored_paths.2 path).2 (Or.inr member)
  refine root_refused built.known built.stored_paths.1 (names_paths stored) inside reserved ?_
  rintro rfl
  have slash : 47 ∈ units "manifest.json" := by
    rcases List.mem_append.1 member with photo | issuer
    · obtain ⟨name, given, same⟩ := List.mem_map.1 photo
      exact same ▸ (photograph_inFolder browser photos given).slash
    · obtain ⟨file, _, same⟩ := List.mem_map.1 issuer
      exact same ▸ (logo_inFolder browser file).slash
  exact absurd slash (by decide)

theorem Built.root_clean (clean : ¬ Collides browser photos logo) :
    packageRoot names = .ok (chars package.root ++ ['/']) := by
  refine root_found built.known built.stored_paths.1 (names_paths stored) built.distinct ?_
  intro path member reserved
  rcases (built.stored_paths.2 path).1 member with fixed | given
  · rcases reserved with same | ⟨folder, _, rfl⟩
    · exact same
    · exact absurd (List.mem_append_right _ List.mem_cons_self) (fixed_atRoot _ fixed).1
  · exact absurd ((collected_reserved browser photos logo).1 ⟨path, given, reserved⟩) clean

end Root

section Checks
variable (built : Built browser contents identity values photos logo package)
  {zip : Zip} (opens : Opens zip (chars package.root) package.files)
include built

theorem Built.signed_files : package.files =
    signedFiles browser package.manifest (evidence browser contents identity photos logo) ++
      [(units "sha256sums.txt", utf8 (checksumText browser (signedFiles browser package.manifest
        (evidence browser contents identity photos logo))))] := by
  rw [built.files]
  exact packageFiles_eq browser contents identity photos logo package.manifest

theorem Built.signed_within : signedFiles browser package.manifest
    (evidence browser contents identity photos logo) ⊆ package.files := by
  rw [built.signed_files]
  exact List.subset_append_left _ _

theorem Built.evidence_within : evidence browser contents identity photos logo ⊆
    package.files := fun _ member => built.signed_within (List.mem_append_left _ member)

theorem Built.lines : ∀ file ∈ package.files, Line file.1 := by
  intro file member
  have path := List.mem_map_of_mem (f := Prod.fst) member
  rw [built.files] at path
  rcases path_cases contents identity photos logo package.manifest path with fixed | ⟨_, inside⟩
  · exact fixed_line _ fixed
  · exact inside.line

include opens

/-- The manifest that is stored. -/
theorem Built.manifest_stored : readBytes zip (chars package.root ++ ['/']) manifestName =
    .ok (utf8 (manifestText browser package.manifest)) := by
  have member : (units "manifest.json", utf8 (manifestText browser package.manifest)) ∈
      package.files := by
    apply built.signed_within
    rw [signedFiles]
    exact List.mem_append_right _ List.mem_cons_self
  have stored := read_stored opens built.safe member
  rw [chars_manifest] at stored
  dsimp only at stored
  exact stored

theorem Built.key_stored : readBytes zip (chars package.root ++ ['/']) "public-key.pem".toList =
    .ok identity.publicKeyPem := by
  have member : (units "public-key.pem", identity.publicKeyPem) ∈ package.files :=
    built.evidence_within (List.mem_append_right _ List.mem_cons_self)
  have stored := read_stored opens built.safe member
  rwa [chars_units (by decide)] at stored

variable {json : Json} (prints : Prints browser.double json
  (manifestValue browser.number package.manifest))
include prints

theorem Built.photographs_pass (decodes : Decodes browser photos) :
    PackageVerifier.photographChecks browser.tools zip (chars package.root ++ ['/']) json =
      .ok [⟨"Photograph metadata", .pass⟩] := by
  have photographs : package.manifest.photographs =
      preparePhotos browser.platform [] photos := by
    rw [built.manifest]
    rfl
  have listed : package.manifest.files.Perm (evidenceFiles browser.platform contents identity
      package.manifest.photographs logo) := by
    rw [photographs, built.manifest]
    exact browser.sortFiles_perm _
  have paths : (package.manifest.files.map ManifestFile.path).Perm
      ((evidence browser contents identity photos logo).map Prod.fst) := by
    have stated_paths := built.lists.map Prod.fst
    rw [List.map_map, List.map_map] at stated_paths
    exact stated_paths
  have passes := photographs_checked (built.reads prints) (by rw [built.manifest]; rfl)
    photographs built.photographs
    (by
      intro photo member
      rw [listed.mem_iff]
      simp only [evidenceFiles, List.mem_append]
      exact Or.inl (Or.inl (Or.inr (List.mem_map_of_mem member))))
    (by
      rw [paths.nodup_iff]
      exact (evidence_distinct browser contents identity photos logo).of_append_left)
    (by
      intro file member
      have path := paths.mem_iff.1 (List.mem_map_of_mem member)
      obtain ⟨source, inside, same⟩ := List.mem_map.1 path
      exact same ▸ (built.safe source (built.evidence_within inside)).1)
    (by
      intro file member
      apply built.evidence_within
      simp only [evidence, List.mem_append]
      exact Or.inl (Or.inl (Or.inr member)))
    decodes opens built.safe
  have second : (PackageVerifier.validateManifestVersion browser.tools json).version = .v2 := by
    rw [built.version prints]
  rw [PackageVerifier.photographChecks, if_pos second]
  exact bind_pass passes rfl

/-- Every check passes. -/
theorem Built.checks_pass (laws : SchemaLaws browser) (keys : KeyLaws browser identity)
    (small : natOf (trim values.numberOfPieces) < overflow) {names : List (List Char)}
    (stored : names.Perm (package.files.map fun file =>
      chars package.root ++ '/' :: chars file.1)) :
    ((allChecks browser.tools zip (chars package.root ++ ['/']) names
      (utf8 (manifestText browser package.manifest)) json
      (browser.tools.decodeText identity.publicKeyPem)
      (fingerprintForSpki browser.tools identity.spki)
      [⟨"Photograph metadata", .pass⟩]).all fun check => check.status ≠ .fail) = true := by
  have reads := built.reads prints
  have safe := built.safe
  have schema := (built.schema_iff prints laws).2 small
  have identified := identity_passes built.accepted reads (by rw [built.manifest]; rfl)
  have printed : package.manifest.issuer.publicKeyFingerprint =
      browser.platform.fingerprint identity := by
    rw [built.manifest]
    rfl
  have fingerprint := fingerprint_passes reads printed
  have signature := signature_passes keys.key keys.signs (built.signed_within
    (List.mem_append_right _ (List.mem_cons_of_mem _ List.mem_cons_self))) opens safe
  have some_evidence : evidence browser contents identity photos logo ≠ [] :=
    List.cons_ne_nil _ _
  have evidenced := evidence_passes reads built.lists some_evidence built.evidence_within opens safe
  have inventory := inventory_passes reads built.lists built.paths
    built.distinct safe stored
  have recorded : package.manifest.certificate.recordFile = units "certificate-record.json" ∧
      package.manifest.certificate.recordSha256 =
        browser.platform.sha256Hex contents.certificateRecord := by
    rw [built.manifest]
    exact ⟨rfl, rfl⟩
  have record := record_passes reads recorded.1 recorded.2
    (built.evidence_within List.mem_cons_self) opens safe
  have checksums := checksums_pass built.signed_within
    (List.append_ne_nil_of_right_ne_nil _ (List.cons_ne_nil _ _))
    (fun file member => built.lines file (built.signed_within member))
    (by
      rw [built.signed_files]
      exact List.mem_append_right _ List.mem_cons_self)
    opens safe
  have key : browser.tools.decodeText identity.publicKeyPem =
      browser.decodeText identity.publicKeyPem := rfl
  simp only [allChecks, built.version prints, PackageVerifier.schemaCheck, schema, identified,
    fingerprint, key, signature, evidenced, PackageVerifier.known, inventory, record, checksums,
    PackageVerifier.passIf, if_true, List.all_append, List.all_cons, List.all_nil, Bool.and_true,
    ne_eq, reduceCtorEq, not_false_eq_true, decide_true]

end Checks

/-! ## A collision -/

theorem photos_few (accepted : photosAccepted photos logo = true) :
    photos.length ≤ maxPhotoCount := by
  simp only [photosAccepted, Bool.and_eq_true, decide_eq_true_eq] at accepted
  exact accepted.1.1.1.2

theorem Built.few (built : Built browser contents identity values photos logo package)
    {rawEntries : List RawZipEntry} (names : ((filesOf rawEntries).map RawZipEntry.name).Perm
      (package.files.map fun file => chars package.root ++ '/' :: chars file.1)) :
    (filesOf rawEntries).length ≤ maxFileCount := by
  have lengths := names.length_eq
  have files := @files_length formats N browser contents identity photos logo package.manifest
  rw [List.length_map, List.length_map, built.files, files] at lengths
  have few := photos_few built.photographs
  have one : logo.toList.length ≤ 1 := by
    cases logo with
    | none => exact Nat.zero_le _
    | some file => exact Nat.le_refl _
  have limit : maxPhotoCount = 100 := rfl
  have most : maxFileCount = 250 := rfl
  omega

/-- A package with a second `manifest.json` is refused as a whole. -/
theorem Built.collision_refused (built : Built browser contents identity values photos logo package)
    (stored : Stored browser package.entries) (limits : WithinLimits browser package)
    (collides : Collides browser photos logo) :
    verifyCertificateZip browser.tools (browser.generateAsync package.entries) =
      .error "The ZIP contains multiple package manifests." := by
  obtain ⟨rawEntries, inspected, listed⟩ := stored.listed
  obtain ⟨zip, loaded, _⟩ := stored.opened
  have names := built.names listed
  exact refused_of limits.zip inspected (built.few names)
    ((sizes_iff listed).2 ⟨limits.entry, limits.total⟩) loaded (built.root_collides names collides)

end PackageVerdict
