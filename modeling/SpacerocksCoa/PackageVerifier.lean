import SpacerocksCoa.CheckoutUrls
import SpacerocksCoa.CodeUnits
import SpacerocksCoa.Sha256
import SpacerocksCoa.ZipDirectory

/-!
# The package verifier

A certificate package is a ZIP. The browser reads the names of its entries with a scan of its
own over the central directory, takes the contents from a library, and checks the manifest,
its signature and every file against one another. What a package proves when every check
passes is stated over the entries that the scan finds.

The library, JSON, the schema compiler, the hash and the signature are parameters, and so is
the check of the photographs: what is proved holds whatever it answers. The detail texts of the
checks are left out.
-/
namespace PackageVerifier
open CheckoutUrls (segments hexDigit digit afterPrefix)
open FallibleSteps
open ZipDirectory

/-! ## Values of the manifest -/

/-- A parsed JSON value; a finite double is a rational number. -/
inductive Json where
  | null
  | bool (value : Bool)
  | number (value : Rat)
  | infinite (negative : Bool)
  | text (value : List Char)
  | array (items : List Json)
  | object (fields : List (String × Json))

/-- A property of a value that is not null; `none` is undefined. -/
def Json.get (value : Json) (key : String) : Option Json :=
  match value with
  | .object fields => fields.lookup key
  | _ => none

/-- `value?.key` -/
def optionalGet (value : Option Json) (key : String) : Option Json := value.bind (·.get key)

def asText : Option Json → Option (List Char)
  | some (.text value) => some value
  | _ => none

def isText (value : Option Json) (expected : String) : Bool :=
  asText value == some expected.toList

def isNumber (value : Option Json) (expected : Rat) : Bool :=
  match value with
  | some (.number actual) => actual == expected
  | _ => false

/-- `Array.isArray(value) ? value : []` -/
def arrayOrEmpty : Option Json → List Json
  | some (.array items) => items
  | _ => []

/-! ## What lies outside the verifier -/

inductive CheckStatus where
  | pass | fail | warning
  deriving DecidableEq

/-- The contents of an opened package by name: an error when there is no such file, or when it
cannot be unpacked. -/
abbrev Zip := List Char → Except String (List UInt8)

structure Tools where
  loadAsync : List UInt8 → Except String Zip
  /-- `TextDecoder` without `fatal`. -/
  decodeText : List UInt8 → List Char
  parseJson : List Char → Option Json
  /-- `String` of anything that is not a text. -/
  otherString : Option Json → List Char
  validateV1 : Json → Bool
  validateV2 : Json → Bool
  sha256Hex : List UInt8 → List Char
  pemToDer : List Char → Except String (List UInt8)
  /-- The key in SPKI form, the signature and the message; an error when no key is read. -/
  verifyEd25519 : List UInt8 → List UInt8 → List UInt8 → Except String Bool
  /-- The check of the photographs below a root; an error when it throws. -/
  photographs : Json → Zip → List Char → Except String CheckStatus

variable (tools : Tools)

def scriptString : Option Json → List Char
  | some (.text value) => value
  | value => tools.otherString value

/-! ## The manifest -/

inductive ManifestVersion where
  | v1 | v2 | mismatch | unknown
  deriving DecidableEq

structure ManifestValidation where
  version : ManifestVersion
  valid : Bool

def validateManifestVersion (manifest : Json) : ManifestValidation :=
  let schema := manifest.get "$schema"
  let schemaVersion := manifest.get "schemaVersion"
  let packageVersion := manifest.get "packageVersion"
  if isText schema "coa-manifest-v1.schema.json" && isText schemaVersion "1.0.0" &&
      isNumber packageVersion 1 then ⟨.v1, tools.validateV1 manifest⟩
  else if isText schema "coa-manifest-v2.schema.json" &&
      (isText schemaVersion "2.0.0" || isText schemaVersion "2.1.0" ||
        isText schemaVersion "2.2.0") && isNumber packageVersion 2 then
    ⟨.v2, tools.validateV2 manifest⟩
  else
    let usesKnownIdentifier :=
      ["coa-manifest-v1.schema.json", "coa-manifest-v2.schema.json"].any
          (fun known => known.toList == scriptString tools schema) ||
        ["1.0.0", "2.0.0", "2.1.0", "2.2.0"].any
          (fun known => known.toList == scriptString tools schemaVersion) ||
        isNumber packageVersion 1 || isNumber packageVersion 2
    ⟨if usesKnownIdentifier then .mismatch else .unknown, false⟩

def isObject : Option Json → Bool
  | some (.object _) => true
  | some (.array _) => true
  | _ => false

/-- `validateOfficialMeteoriteIdentity(specimen).valid` -/
def validateOfficialMeteoriteIdentity (specimen : Option Json) : Bool :=
  if isObject specimen = false then false
  else if isText (optionalGet specimen "meteoriteIdentity") "unclassified" then true
  else if isText (optionalGet specimen "meteoriteIdentity") "official" = false then false
  else
    let fall := optionalGet specimen "fall"
    if isObject fall = false then false
    else
      match asText (optionalGet fall "metbullCode") with
      | none => false
      | some code =>
        code ≠ [] && code.all digit && asText (optionalGet fall "officialReferenceUrl") ==
          some ("https://www.lpi.usra.edu/meteor/metbull.cfm?code=".toList ++ code)

/-! ## The package -/

def maxZipBytes : Nat := 300 * 1024 * 1024
def maxFileCount : Nat := 250
def maxEntryBytes : Nat := 200 * 1024 * 1024
def maxUncompressedBytes : Nat := 500 * 1024 * 1024

def structuralFiles : List (List Char) :=
  ["manifest.json".toList, "signature.sig".toList, "sha256sums.txt".toList]

def isSafeRelativePath (path : List Char) : Bool :=
  path ≠ [] && path.head? ≠ some '/' && !path.contains '\\' &&
    !(segments path).contains ['.', '.']

def endsWith (text ending : List Char) : Bool := ending.isSuffixOf text

/-- The entries that are not directories. -/
def filesOf (rawEntries : List RawZipEntry) : List RawZipEntry :=
  rawEntries.filter fun entry => !endsWith entry.name ['/']

def checkSizes (uncompressedBytes : Nat) : List RawZipEntry → Except String Unit
  | [] => .ok ()
  | entry :: rest =>
    if maxEntryBytes < entry.uncompressedBytes then
      .error s!"The ZIP entry {String.ofList entry.name} exceeds the 200 MB limit."
    else if maxUncompressedBytes < uncompressedBytes + entry.uncompressedBytes then
      .error "The ZIP exceeds the 500 MB uncompressed verification limit."
    else checkSizes (uncompressedBytes + entry.uncompressedBytes) rest

def manifestName : List Char := "manifest.json".toList

def packageRoot (entries : List (List Char)) : Except String (List Char) :=
  match entries.filter fun name => name == manifestName || endsWith name ('/' :: manifestName) with
  | [] => .error "No manifest.json was found in the ZIP."
  | [manifestEntry] => .ok (manifestEntry.take (manifestEntry.length - manifestName.length))
  | _ => .error "The ZIP contains multiple package manifests."

def readBytes (zip : Zip) (root relative : List Char) : Except String (List UInt8) :=
  if isSafeRelativePath relative then zip (root ++ relative)
  else .error s!"Missing package file: {String.ofList relative}"

/-! ## The checks -/

def formatFingerprint (hex : List Char) : List Char :=
  (CodeUnits.formatFingerprint (hex.map Char.toNat)).map Char.ofNat

def fingerprintForSpki (spki : List UInt8) : List Char := formatFingerprint (tools.sha256Hex spki)

/-- `manifest.issuer?.publicKeyFingerprint ?? ""` -/
def expectedFingerprint (manifest : Json) : Json :=
  match optionalGet (manifest.get "issuer") "publicKeyFingerprint" with
  | none | some .null => .text []
  | some value => value

def passIf (good : Bool) : CheckStatus := if good then .pass else .fail

def schemaCheck (validation : ManifestValidation) : CheckStatus :=
  match validation.version with
  | .v1 | .v2 => passIf validation.valid
  | .mismatch => .fail
  | .unknown => .warning

def fingerprintCheck (manifest : Json) (actualFingerprint : List Char) : CheckStatus :=
  passIf (asText (some (expectedFingerprint manifest)) == some actualFingerprint)

/-- The key is imported before the signature is read; any error fails the check. -/
def verifySignature (zip : Zip) (root : List Char) (manifestBytes : List UInt8)
    (publicKeyPem : List Char) : Except String Bool := do
  let spki ← tools.pemToDer publicKeyPem
  let signature ← readBytes zip root "signature.sig".toList
  tools.verifyEd25519 spki signature manifestBytes

def signatureCheck (zip : Zip) (root : List Char) (manifestBytes : List UInt8)
    (publicKeyPem : List Char) : CheckStatus :=
  match verifySignature tools zip root manifestBytes publicKeyPem with
  | .ok signatureValid => passIf signatureValid
  | .error _ => .fail

def listedFiles (manifest : Json) : List Json := arrayOrEmpty (manifest.get "files")

/-- One listed file has a safe path, its stated hash and its stated length. -/
def evidenceMatches (zip : Zip) (root : List Char) (entry : Json) : Bool :=
  match asText (entry.get "path") with
  | none => false
  | some path =>
    if isSafeRelativePath path = false then false
    else
      match readBytes zip root path with
      | .error _ => false
      | .ok bytes =>
        asText (entry.get "sha256") == some (tools.sha256Hex bytes) &&
          isNumber (entry.get "bytes") bytes.length

def evidenceCheck (zip : Zip) (root : List Char) (manifest : Json) : CheckStatus :=
  passIf ((listedFiles manifest).length > 0 &&
    (listedFiles manifest).all (evidenceMatches tools zip root))

/-- `String(entry?.path ?? "")` -/
def listedPath (entry : Json) : List Char :=
  match entry.get "path" with
  | none | some .null => []
  | value => scriptString tools value

/-- The `Set` of the names that the package must have. -/
def expectedFiles (manifest : Json) : List (List Char) :=
  ((listedFiles manifest).map (listedPath tools) ++ structuralFiles).dedup

def inventoryCheck (root : List Char) (entries : List (List Char)) (manifest : Json) :
    CheckStatus :=
  let expected := expectedFiles tools manifest
  let outsideRoot := entries.filter fun name => !root.isPrefixOf name
  let relativeEntries := (entries.filter root.isPrefixOf).map fun name => name.drop root.length
  let unexpected := relativeEntries.filter fun name => !expected.contains name
  let missing := expected.filter fun name => !relativeEntries.contains name
  passIf (outsideRoot.isEmpty && decide relativeEntries.Nodup && unexpected.isEmpty &&
    missing.isEmpty && relativeEntries.length == expected.length)

def recordCheck (zip : Zip) (root : List Char) (manifest : Json) : CheckStatus :=
  let certificate := manifest.get "certificate"
  match asText (optionalGet certificate "recordFile"),
    asText (optionalGet certificate "recordSha256") with
  | some recordFile, some expectedRecordHash =>
    match readBytes zip root recordFile with
    | .ok bytes => passIf (tools.sha256Hex bytes == expectedRecordHash)
    | .error _ => .fail
  | _, _ => .warning

/-- `split(/\r?\n/)` -/
def splitLines : List Char → List (List Char)
  | [] => [[]]
  | c :: rest =>
    if c = '\n' ∨ (c = '\r' ∧ rest.head? = some '\n') then
      if c = '\n' then [] :: splitLines rest else splitLines rest
    else (splitLines rest).modifyHead fun line => c :: line

def lineTerminator (c : Char) : Bool :=
  c == '\n' || c == '\r' || c.toNat == 0x2028 || c.toNat == 0x2029

/-- `/^([a-fA-F0-9]{64}) {2}(.+)$/` -/
def checksumLine (line : List Char) : Option (List Char × List Char) :=
  let hash := line.take 64
  let path := line.drop 66
  if hash.length = 64 ∧ hash.all hexDigit ∧ (line.drop 64).take 2 = [' ', ' '] ∧ path ≠ [] ∧
      path.any lineTerminator = false then some (hash, path)
  else none

def lowerHex (c : Char) : Char :=
  if 65 ≤ c.toNat ∧ c.toNat ≤ 90 then Char.ofNat (c.toNat + 32) else c

def checksumMatches (zip : Zip) (root line : List Char) : Bool :=
  match checksumLine line with
  | none => false
  | some (hash, path) =>
    if isSafeRelativePath path = false then false
    else
      match readBytes zip root path with
      | .ok bytes => tools.sha256Hex bytes == hash.map lowerHex
      | .error _ => false

def checksumsCheck (zip : Zip) (root : List Char) : CheckStatus :=
  match readBytes zip root "sha256sums.txt".toList with
  | .error _ => .fail
  | .ok bytes =>
    let lines := (splitLines (tools.decodeText bytes)).filter (· ≠ [])
    passIf (lines.length > 0 && lines.all (checksumMatches tools zip root))

structure VerificationCheck where
  label : String
  status : CheckStatus
  deriving DecidableEq

structure VerificationResult where
  valid : Bool
  fingerprint : List Char
  checks : List VerificationCheck

def known : ManifestVersion → Bool
  | .v1 | .v2 => true
  | .mismatch | .unknown => false

def photographChecks (zip : Zip) (root : List Char) (manifest : Json) :
    Except String (List VerificationCheck) :=
  if (validateManifestVersion tools manifest).version = .v2 then do
    let status ← tools.photographs manifest zip root
    return [⟨"Photograph metadata", status⟩]
  else return []

def allChecks (zip : Zip) (root : List Char) (entries : List (List Char))
    (manifestBytes : List UInt8) (manifest : Json) (publicKeyPem actualFingerprint : List Char)
    (photographs : List VerificationCheck) : List VerificationCheck :=
  let validation := validateManifestVersion tools manifest
  let second := validation.version = .v2
  [⟨"Manifest schema", schemaCheck validation⟩] ++
    (if second then [⟨"Official meteorite identity",
      passIf (validateOfficialMeteoriteIdentity (manifest.get "specimen"))⟩] else []) ++
    [⟨"Public-key fingerprint", fingerprintCheck manifest actualFingerprint⟩,
     ⟨"Ed25519 signature", signatureCheck tools zip root manifestBytes publicKeyPem⟩,
     ⟨"Signed evidence files", evidenceCheck tools zip root manifest⟩] ++
    photographs ++
    [⟨"Package inventory",
      if known validation.version then inventoryCheck tools root entries manifest else .warning⟩,
     ⟨"Certificate record", recordCheck tools zip root manifest⟩,
     ⟨"Package checksums", checksumsCheck tools zip root⟩]

def verifyCertificateZip (zipBytes : List UInt8) : Except String VerificationResult := do
  if maxZipBytes < zipBytes.length then
    throw "The ZIP exceeds the 300 MB browser verification limit."
  let rawEntries ← inspectZipCentralDirectory zipBytes
  let rawFiles := filesOf rawEntries
  if maxFileCount < rawFiles.length then
    throw "The ZIP contains too many files to verify safely in the browser."
  checkSizes 0 rawFiles
  let zip ← tools.loadAsync zipBytes
  let entries := rawFiles.map RawZipEntry.name
  let root ← packageRoot entries
  let manifestBytes ← readBytes zip root manifestName
  match tools.parseJson (tools.decodeText manifestBytes) with
  | none => throw "manifest.json is not valid JSON."
  | some .null => throw "Cannot read properties of null"
  | some manifest =>
    let publicKeyBytes ← readBytes zip root "public-key.pem".toList
    let publicKeyPem := tools.decodeText publicKeyBytes
    let spki ← tools.pemToDer publicKeyPem
    let actualFingerprint := fingerprintForSpki tools spki
    let photographs ← photographChecks tools zip root manifest
    let checks := allChecks tools zip root entries manifestBytes manifest publicKeyPem
      actualFingerprint photographs
    return ⟨checks.all fun check => check.status ≠ .fail, actualFingerprint, checks⟩

/-! ## What the checks say -/

variable {tools}

theorem passIf_passed {good : Bool} (passed : passIf good ≠ .fail) : good = true := by
  cases good with
  | true => rfl
  | false => exact absurd rfl passed

theorem readBytes_ok {zip : Zip} {root relative : List Char} {bytes : List UInt8}
    (ok : readBytes zip root relative = .ok bytes) : zip (root ++ relative) = .ok bytes := by
  unfold readBytes at ok
  split at ok
  · exact ok
  · cases ok

/-- A listed file has a path whose content has the stated hash and the stated length. -/
theorem evidence_facts {zip : Zip} {root : List Char} {file : Json}
    (matched : evidenceMatches tools zip root file = true) :
    ∃ path bytes, asText (file.get "path") = some path ∧ zip (root ++ path) = .ok bytes ∧
      asText (file.get "sha256") = some (tools.sha256Hex bytes) ∧
      isNumber (file.get "bytes") bytes.length = true := by
  unfold evidenceMatches at matched
  split at matched
  · cases matched
  · next path stated =>
    split at matched
    · cases matched
    · split at matched
      · cases matched
      · next bytes read =>
        rw [Bool.and_eq_true, beq_iff_eq] at matched
        exact ⟨path, bytes, stated, readBytes_ok read, matched.1, matched.2⟩

theorem listedPath_text {file : Json} {path : List Char}
    (stated : asText (file.get "path") = some path) : listedPath tools file = path := by
  unfold listedPath
  cases value : file.get "path" with
  | none =>
    rw [value] at stated
    cases stated
  | some json =>
    rw [value] at stated
    cases json <;> cases stated
    rfl

/-- The package holds the expected names below its root, and nothing else. -/
theorem inventory_facts {root : List Char} {entries : List (List Char)} {manifest : Json}
    (passed : inventoryCheck tools root entries manifest ≠ .fail) :
    (∀ name ∈ entries, ∃ relative, name = root ++ relative ∧
        relative ∈ expectedFiles tools manifest) ∧
      ∀ relative ∈ expectedFiles tools manifest, root ++ relative ∈ entries := by
  have good := passIf_passed passed
  simp only [Bool.and_eq_true, List.isEmpty_iff, List.filter_eq_nil_iff] at good
  obtain ⟨⟨⟨⟨inside, _⟩, expected⟩, found⟩, _⟩ := good
  have prefixed : ∀ name ∈ entries, ∃ relative, name = root ++ relative := by
    intro name member
    have starts : root.isPrefixOf name = true := by
      have := inside name member
      simpa using this
    obtain ⟨relative, same⟩ := List.isPrefixOf_iff_prefix.1 starts
    exact ⟨relative, same.symm⟩
  have relativeOf : ∀ relative, relative ∈ (entries.filter root.isPrefixOf).map
      (fun name => name.drop root.length) ↔ root ++ relative ∈ entries := by
    intro relative
    rw [List.mem_map]
    constructor
    · rintro ⟨name, member, rfl⟩
      obtain ⟨inEntries, _⟩ := List.mem_filter.1 member
      obtain ⟨rest, same⟩ := prefixed name inEntries
      rw [same, List.drop_left, ← same]
      exact inEntries
    · intro member
      exact ⟨root ++ relative, List.mem_filter.2 ⟨member,
        List.isPrefixOf_iff_prefix.2 (List.prefix_append root relative)⟩, List.drop_left⟩
  constructor
  · intro name member
    obtain ⟨relative, same⟩ := prefixed name member
    refine ⟨relative, same, ?_⟩
    have kept := expected relative ((relativeOf relative).2 (same ▸ member))
    simpa using kept
  · intro relative member
    have kept := found relative member
    rw [← relativeOf]
    simpa [and_assoc] using kept

theorem expectedFiles_iff {manifest : Json} {relative : List Char} :
    relative ∈ expectedFiles tools manifest ↔
      (∃ file ∈ listedFiles manifest, listedPath tools file = relative) ∨
        relative ∈ structuralFiles := by
  rw [expectedFiles, List.mem_dedup, List.mem_append, List.mem_map]

theorem signature_facts {zip : Zip} {root : List Char} {manifestBytes spki : List UInt8}
    {publicKeyPem : List Char} (key : tools.pemToDer publicKeyPem = .ok spki)
    (passed : signatureCheck tools zip root manifestBytes publicKeyPem ≠ .fail) :
    ∃ signature, zip (root ++ "signature.sig".toList) = .ok signature ∧
      tools.verifyEd25519 spki signature manifestBytes = .ok true := by
  unfold signatureCheck at passed
  cases verified : verifySignature tools zip root manifestBytes publicKeyPem with
  | error failure =>
    rw [verified] at passed
    exact absurd rfl passed
  | ok signatureValid =>
    rw [verified] at passed
    cases passIf_passed passed
    obtain ⟨der, read, verified⟩ := except_bind_ok verified
    obtain ⟨signature, stored, verified⟩ := except_bind_ok verified
    rw [key] at read
    cases read
    exact ⟨signature, readBytes_ok stored, verified⟩

/-! ## What a valid package is -/

/-- The library returns, for a name, the content of the entry with that name. -/
def ReturnsEntries (tools : Tools) (zipBytes : List UInt8)
    (content : List Char → List UInt8) : Prop :=
  ∀ zip rawEntries name bytes, tools.loadAsync zipBytes = .ok zip →
    inspectZipCentralDirectory zipBytes = .ok rawEntries → zip name = .ok bytes →
    name ∈ (filesOf rawEntries).map RawZipEntry.name ∧ bytes = content name

/-- The manifest of a package is the one text below its root that the verifier parses. -/
structure Opened (tools : Tools) (zipBytes : List UInt8) (content : List Char → List UInt8)
    (rawEntries : List RawZipEntry) (root : List Char) (manifest : Json) : Prop where
  entries : inspectZipCentralDirectory zipBytes = .ok rawEntries
  rooted : packageRoot ((filesOf rawEntries).map RawZipEntry.name) = .ok root
  stored : root ++ manifestName ∈ (filesOf rawEntries).map RawZipEntry.name
  parsed : tools.parseJson (tools.decodeText (content (root ++ manifestName))) = some manifest

/-- The signature covers the exact manifest, the manifest covers every file, and the package
has nothing else. -/
structure Genuine (tools : Tools) (content : List Char → List UInt8)
    (rawEntries : List RawZipEntry) (root : List Char) (manifest : Json) : Prop where
  signed : ∃ spki, tools.pemToDer (tools.decodeText
      (content (root ++ "public-key.pem".toList))) = .ok spki ∧
    expectedFingerprint manifest = .text (fingerprintForSpki tools spki) ∧
    tools.verifyEd25519 spki (content (root ++ "signature.sig".toList))
      (content (root ++ manifestName)) = .ok true
  listed : ∀ entry ∈ filesOf rawEntries, ∃ relative, entry.name = root ++ relative ∧
    (relative ∈ structuralFiles ∨ ∃ file ∈ listedFiles manifest,
      asText (file.get "path") = some relative ∧
      isNumber (file.get "bytes") (content entry.name).length = true ∧
      asText (file.get "sha256") = some (tools.sha256Hex (content entry.name)))
  present : ∀ file ∈ listedFiles manifest, ∃ relative,
    asText (file.get "path") = some relative ∧
    root ++ relative ∈ (filesOf rawEntries).map RawZipEntry.name
  distinct : (rawEntries.map RawZipEntry.name).Nodup

theorem verified_cases {zipBytes : List UInt8} {result : VerificationResult}
    (ok : verifyCertificateZip tools zipBytes = .ok result) :
    ∃ rawEntries zip root manifestBytes manifest publicKeyBytes spki photographs,
      inspectZipCentralDirectory zipBytes = .ok rawEntries ∧
      tools.loadAsync zipBytes = .ok zip ∧
      packageRoot ((filesOf rawEntries).map RawZipEntry.name) = .ok root ∧
      zip (root ++ manifestName) = .ok manifestBytes ∧
      tools.parseJson (tools.decodeText manifestBytes) = some manifest ∧
      zip (root ++ "public-key.pem".toList) = .ok publicKeyBytes ∧
      tools.pemToDer (tools.decodeText publicKeyBytes) = .ok spki ∧
      result.valid = (allChecks tools zip root ((filesOf rawEntries).map RawZipEntry.name)
        manifestBytes manifest (tools.decodeText publicKeyBytes)
        (fingerprintForSpki tools spki) photographs).all fun check => check.status ≠ .fail := by
  unfold verifyCertificateZip at ok
  obtain ⟨_, ok⟩ := guard_ok ok
  obtain ⟨rawEntries, inspected, ok⟩ := except_bind_ok ok
  obtain ⟨_, ok⟩ := guard_ok ok
  obtain ⟨_, _, ok⟩ := except_bind_ok ok
  obtain ⟨zip, loaded, ok⟩ := except_bind_ok ok
  obtain ⟨root, rooted, ok⟩ := except_bind_ok ok
  obtain ⟨manifestBytes, manifestRead, ok⟩ := except_bind_ok ok
  split at ok
  · cases ok
  · cases ok
  · next manifest _ parsed =>
    obtain ⟨publicKeyBytes, keyRead, ok⟩ := except_bind_ok ok
    obtain ⟨spki, der, ok⟩ := except_bind_ok ok
    obtain ⟨photographs, _, ok⟩ := except_bind_ok ok
    cases ok
    exact ⟨rawEntries, zip, root, manifestBytes, manifest, publicKeyBytes, spki, photographs,
      inspected, loaded, rooted, readBytes_ok manifestRead, parsed, readBytes_ok keyRead, der, rfl⟩

theorem checks_passed {zip : Zip} {root : List Char} {entries : List (List Char)}
    {manifestBytes : List UInt8} {manifest : Json} {publicKeyPem actual : List Char}
    {photographs : List VerificationCheck}
    (valid : ((allChecks tools zip root entries manifestBytes manifest publicKeyPem actual
      photographs).all fun check => check.status ≠ .fail) = true)
    (recognised : known (validateManifestVersion tools manifest).version = true) :
    fingerprintCheck manifest actual ≠ .fail ∧
      signatureCheck tools zip root manifestBytes publicKeyPem ≠ .fail ∧
      evidenceCheck tools zip root manifest ≠ .fail ∧
      inventoryCheck tools root entries manifest ≠ .fail := by
  rw [List.all_eq_true] at valid
  have each : ∀ label status,
      ⟨label, status⟩ ∈ allChecks tools zip root entries manifestBytes manifest publicKeyPem
        actual photographs → status ≠ .fail := by
    intro label status member
    exact of_decide_eq_true (valid ⟨label, status⟩ member)
  refine ⟨each "Public-key fingerprint" _ ?_, each "Ed25519 signature" _ ?_,
    each "Signed evidence files" _ ?_, each "Package inventory" _ ?_⟩
  · simp [allChecks]
  · simp [allChecks]
  · simp [allChecks]
  · simp [allChecks, recognised]

theorem expectedFingerprint_text {manifest : Json} {actual : List Char}
    (passed : fingerprintCheck manifest actual ≠ .fail) :
    expectedFingerprint manifest = .text actual := by
  have same := passIf_passed passed
  rw [beq_iff_eq] at same
  cases stated : expectedFingerprint manifest <;> rw [stated] at same <;> cases same
  rfl

/-- A package that the verifier calls valid was opened at one manifest; when that manifest is
of a known version, its signature and its inventory are what they say. -/
theorem valid_package_is_genuine {zipBytes : List UInt8} {content : List Char → List UInt8}
    (returns : ReturnsEntries tools zipBytes content) {result : VerificationResult}
    (verified : verifyCertificateZip tools zipBytes = .ok result) (valid : result.valid = true) :
    ∃ rawEntries root manifest, Opened tools zipBytes content rawEntries root manifest ∧
      (known (validateManifestVersion tools manifest).version = true →
        Genuine tools content rawEntries root manifest) := by
  obtain ⟨rawEntries, zip, root, manifestBytes, manifest, publicKeyBytes, spki, _, inspected,
    loaded, rooted, manifestRead, parsed, keyRead, der, checked⟩ := verified_cases verified
  have content_of : ∀ {name : List Char} {bytes : List UInt8}, zip name = .ok bytes →
      name ∈ (filesOf rawEntries).map RawZipEntry.name ∧ bytes = content name :=
    fun read => returns zip rawEntries _ _ loaded inspected read
  obtain ⟨manifestStored, rfl⟩ := content_of manifestRead
  obtain ⟨_, rfl⟩ := content_of keyRead
  refine ⟨rawEntries, root, manifest, ⟨inspected, rooted, manifestStored, parsed⟩,
    fun recognised => ?_⟩
  obtain ⟨fingerprint, signature, evidence, inventory⟩ :=
    checks_passed (checked.symm.trans valid) recognised
  have allMatch := passIf_passed evidence
  rw [Bool.and_eq_true, List.all_eq_true] at allMatch
  obtain ⟨inside, complete⟩ := inventory_facts inventory
  obtain ⟨signatureBytes, signatureRead, accepted⟩ := signature_facts der signature
  obtain ⟨_, rfl⟩ := content_of signatureRead
  refine ⟨⟨spki, der, expectedFingerprint_text fingerprint, accepted⟩, ?_, ?_,
    inspected_distinct inspected⟩
  · intro entry member
    obtain ⟨relative, same, expected⟩ := inside entry.name (List.mem_map_of_mem member)
    refine ⟨relative, same, ?_⟩
    rcases expectedFiles_iff.1 expected with ⟨file, inList, path⟩ | structural
    · obtain ⟨stated, bytes, text, read, hash, length⟩ := evidence_facts (allMatch.2 file inList)
      rw [listedPath_text text] at path
      subst path
      obtain ⟨_, rfl⟩ := content_of read
      rw [same]
      exact Or.inr ⟨file, inList, text, length, hash⟩
    · exact Or.inl structural
  · intro file inList
    obtain ⟨stated, bytes, text, read, _, _⟩ := evidence_facts (allMatch.2 file inList)
    exact ⟨stated, text, complete stated
      (expectedFiles_iff.2 (Or.inl ⟨file, inList, listedPath_text text⟩))⟩

/-! ## A package with a directory beside its root -/

def ascii (text : String) : List UInt8 := text.toUTF8.data.toList

def charBytes (text : List Char) : List UInt8 := text.map fun c => UInt8.ofNat c.toNat

def byteChars (bytes : List UInt8) : List Char := bytes.map fun byte => Char.ofNat byte.toNat

/-- The fields that a local header and a record of the directory share, for a stored file. -/
def storedHeader : List UInt8 := le16 20 ++ le16 0x800 ++ le16 0 ++ le32 0 ++ le32 0

def localRecord (file : List Char × List UInt8) : List UInt8 :=
  le32 0x04034b50 ++ storedHeader ++ le32 file.2.length ++ le32 file.2.length ++
    le16 file.1.length ++ le16 0 ++ charBytes file.1 ++ file.2

/-- A file whose name and sizes fit the fields of a record. -/
structure Storable (file : List Char × List UInt8) : Prop where
  decoded : decodeFatal (charBytes file.1) = some file.1
  content : file.2.length < 65536 * 65536
  name : (charBytes file.1).length < 65536

theorem plain_fits : ([] : List UInt8).length < 65536 := by decide

def directoryEntry (file : List Char × List UInt8) (offset : Nat) (storable : Storable file) :
    DirectoryEntry where
  name := file.1
  nameBytes := charBytes file.1
  compressedBytes := file.2.length
  uncompressedBytes := file.2.length
  header := le16 20 ++ storedHeader
  extra := []
  comment := []
  attributes := le16 0 ++ le16 0 ++ le32 0 ++ le32 offset
  decoded := storable.decoded
  compressedFits := storable.content
  uncompressedFits := storable.content
  headerFits := rfl
  attributesFit := rfl
  nameFits := storable.name
  extraFits := plain_fits
  commentFits := plain_fits

/-- The records of files whose local records begin at the offset. -/
def directoryEntries (offset : Nat) : (files : List (List Char × List UInt8)) →
    (∀ file ∈ files, Storable file) → List DirectoryEntry
  | [], _ => []
  | file :: rest, storable =>
    directoryEntry file offset (storable file List.mem_cons_self) ::
      directoryEntries (offset + (localRecord file).length) rest
        fun other member => storable other (List.mem_cons_of_mem _ member)

theorem directoryEntries_raw {files : List (List Char × List UInt8)} :
    ∀ {offset : Nat} (storable : ∀ file ∈ files, Storable file),
      (directoryEntries offset files storable).map DirectoryEntry.raw =
        files.map fun file => ⟨file.1, file.2.length, file.2.length⟩ := by
  induction files with
  | nil => exact fun _ => rfl
  | cons file rest ih =>
    intro offset storable
    rw [directoryEntries, List.map_cons, List.map_cons, ih]
    rfl

def sampleKey : List UInt8 := ascii "key"

/-- The digest of the key is known, the others are computed. -/
def sampleDigest (bytes : List UInt8) : List Char :=
  if bytes = sampleKey then
    byteChars (ascii "2c70e12b7a0646f92279f427c7b38e73" ++ ascii "34d8e5389cff167a1dc30e73f826b683")
  else HexText.toHex (Sha256.sha256 bytes)

example (bytes : List UInt8) : sampleDigest bytes = HexText.toHex (Sha256.sha256 bytes) := by
  rw [sampleDigest]
  split
  · next same =>
    rw [same]
    decide
  · rfl

def sampleManifestText : List Char := byteChars
  (ascii "\x7b\"$schema\":" ++ ascii "\"coa-manifest-v1.schema.json\"," ++
    ascii "\"schemaVersion\":\"1.0.0\"," ++ ascii "\"packageVersion\":1," ++
    ascii "\"issuer\":\x7b" ++ ascii "\"publicKeyFingerprint\":\"" ++
    charBytes (formatFingerprint (sampleDigest sampleKey)) ++
    ascii "\"\x7d,\"files\":[\x7b\"path\":" ++ ascii "\"public-key.pem\"," ++
    ascii "\"sha256\":\"" ++ charBytes (sampleDigest sampleKey) ++ ascii "\",\"bytes\":3\x7d]\x7d")

def sampleManifest : Json :=
  .object [("$schema", .text "coa-manifest-v1.schema.json".toList),
    ("schemaVersion", .text "1.0.0".toList), ("packageVersion", .number 1),
    ("issuer", .object [("publicKeyFingerprint",
      .text (formatFingerprint (sampleDigest sampleKey)))]),
    ("files", .array [.object [("path", .text "public-key.pem".toList),
      ("sha256", .text (sampleDigest sampleKey)), ("bytes", .number 3)]])]

def sampleFiles : List (List Char × List UInt8) :=
  [("package/manifest.json".toList, charBytes sampleManifestText),
   ("package/public-key.pem".toList, sampleKey),
   ("package/signature.sig".toList, ascii "signature"),
   ("package/sha256sums.txt".toList,
     charBytes (sampleDigest sampleKey) ++ ascii "  public-key.pem\n")]

/-- The files, and the directory outside the root. -/
def storedFiles : List (List Char × List UInt8) := sampleFiles ++ [("other/".toList, [])]

def sampleMembers : List UInt8 := storedFiles.flatMap localRecord

theorem files_storable : ∀ file ∈ storedFiles, Storable file := by
  have names : ∀ file ∈ storedFiles, decodeFatal (charBytes file.1) = some file.1 := by
    decide +kernel
  have sizes : ∀ file ∈ storedFiles, file.2.length < 65536 ∧ (charBytes file.1).length < 65536 := by
    decide +kernel
  intro file member
  obtain ⟨content, name⟩ := sizes file member
  exact ⟨names file member, by omega, name⟩

def sampleDirectory : List DirectoryEntry := directoryEntries 0 storedFiles files_storable

def sampleZip : List UInt8 := archive sampleMembers sampleDirectory []

def sampleContent (name : List Char) : List UInt8 := (sampleFiles.lookup name).getD []

def sampleRead (name : List Char) : Except String (List UInt8) :=
  match sampleFiles.lookup name with
  | some bytes => .ok bytes
  | none => .error "no such file"

def sampleTools : Tools where
  loadAsync _ := .ok sampleRead
  decodeText := byteChars
  parseJson text := if text = sampleManifestText then some sampleManifest else none
  otherString _ := []
  validateV1 _ := true
  validateV2 _ := false
  sha256Hex := sampleDigest
  pemToDer text := .ok (charBytes text)
  verifyEd25519 spki signature _ := .ok (spki == sampleKey && signature == ascii "signature")
  photographs _ _ _ := .ok .pass

def sampleEntries : List RawZipEntry :=
  storedFiles.map fun file => ⟨file.1, file.2.length, file.2.length⟩

theorem sample_wellFormed : WellFormed sampleMembers sampleDirectory [] := by
  refine ⟨by decide, ?_, ?_, by decide, ?_⟩
  · decide +kernel
  · decide +kernel
  · decide +kernel

theorem sample_inspected : inspectZipCentralDirectory sampleZip = .ok sampleEntries :=
  (inspect_archive sample_wellFormed (noLaterSignature_plain _ _)).trans
    (congrArg Except.ok (directoryEntries_raw files_storable))

theorem sample_files :
    (filesOf sampleEntries).map RawZipEntry.name = sampleFiles.map Prod.fst := by
  decide

theorem sample_valid :
    ((verifyCertificateZip sampleTools sampleZip).toOption.map fun result => result.valid) =
      some true := by
  unfold verifyCertificateZip
  rw [if_neg (by decide +kernel), sample_inspected]
  decide +kernel

theorem sample_parsed : sampleTools.parseJson (sampleTools.decodeText
    (sampleContent ("package/".toList ++ manifestName))) = some sampleManifest := by
  have reads : ∀ text, sampleTools.parseJson text =
      if text = sampleManifestText then some sampleManifest else none := fun _ => rfl
  rw [reads, if_pos (by decide +kernel)]

theorem toOption_some {ε α β : Type} {read : Except ε α} {f : α → β} {value : β}
    (ok : (read.toOption.map f) = some value) : ∃ result, read = .ok result ∧ f result = value := by
  cases read with
  | error failure => cases ok
  | ok result => exact ⟨result, rfl, Option.some.inj ok⟩

theorem lookup_key {name : List Char} {bytes : List UInt8} :
    ∀ {files : List (List Char × List UInt8)}, files.lookup name = some bytes →
      name ∈ files.map Prod.fst := by
  intro files
  induction files with
  | nil =>
    intro found
    cases found
  | cons file rest ih =>
    intro found
    rw [List.lookup_cons] at found
    by_cases same : name = file.1
    · exact same ▸ List.mem_cons_self
    · rw [beq_false_of_ne same] at found
      exact List.mem_cons_of_mem _ (ih found)

theorem sample_returns : ReturnsEntries sampleTools sampleZip sampleContent := by
  intro zip rawEntries name bytes loaded inspected read
  have load : sampleTools.loadAsync sampleZip = .ok sampleRead := rfl
  rw [load] at loaded
  cases loaded
  rw [sample_inspected] at inspected
  cases inspected
  rw [sample_files]
  unfold sampleRead at read
  cases found : sampleFiles.lookup name with
  | none =>
    rw [found] at read
    cases read
  | some stored =>
    rw [found] at read
    cases read
    exact ⟨lookup_key found, by rw [sampleContent, found]; rfl⟩

theorem sample_is_genuine : ∃ rawEntries root manifest,
    Opened sampleTools sampleZip sampleContent rawEntries root manifest ∧
      (known (validateManifestVersion sampleTools manifest).version = true →
        Genuine sampleTools sampleContent rawEntries root manifest) := by
  obtain ⟨result, verified, valid⟩ := toOption_some sample_valid
  exact valid_package_is_genuine sample_returns verified valid

/-- A directory entry may lie outside the root of a valid package of version 1. -/
theorem directory_outside_the_root : ∃ result,
    verifyCertificateZip sampleTools sampleZip = .ok result ∧ result.valid = true ∧
      inspectZipCentralDirectory sampleZip = .ok sampleEntries ∧
      packageRoot ((filesOf sampleEntries).map RawZipEntry.name) = .ok "package/".toList ∧
      sampleTools.parseJson (sampleTools.decodeText
        (sampleContent ("package/".toList ++ manifestName))) = some sampleManifest ∧
      known (validateManifestVersion sampleTools sampleManifest).version = true ∧
      ReturnsEntries sampleTools sampleZip sampleContent ∧
      ∃ entry ∈ sampleEntries, ¬ "package/".toList <+: entry.name := by
  obtain ⟨result, verified, valid⟩ := toOption_some sample_valid
  refine ⟨result, verified, valid, sample_inspected, ?_, sample_parsed, by decide,
    sample_returns, ⟨"other/".toList, 0, 0⟩, ?_, by decide⟩
  · rw [sample_files]
    decide
  · exact List.mem_map.2 ⟨_, List.mem_append_right _ List.mem_cons_self, rfl⟩

end PackageVerifier
