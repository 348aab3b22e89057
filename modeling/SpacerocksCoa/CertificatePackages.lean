import SpacerocksCoa.FileNames
import SpacerocksCoa.PhotographMetadata

/-!
# Certificate packages

What the builder puts into the ZIP: the rendered and collected files with the manifest that lists
them, its signature and a file of checksums, all below one root. The builder checks the manifest
with the verifier's own validator before it prints it.

The browser is a parameter: hashes and signatures, the normalization of names, the order of the
file list, the library that writes and reads the ZIP, the decoder of images and the compiled
schemas. The rendered contents are the ones that `ManifestSchema` leaves open.
-/
namespace CertificatePackages
open JsonText (Text Json NumberFormat units substitute)
open CodeUnits (chars toLowerCase)
open JsNumbers (JsNumber)
open ManifestSchema
open Utf16Texts (utf8)
open ReadManifests (record Number printable)
open ZipDirectory (decodeFatal inspectZipCentralDirectory)
open PackageVerifier (Tools Zip filesOf)
open PhotographMetadata (DecodedDimensions)

/-! ## The manifest as a value -/

def statusText : CertificateStatus → String
  | .active => "active"
  | .superseded => "superseded"
  | .revoked => "revoked"
  | .transferred => "transferred"

def styleText : CertificateStyle → String
  | .regalArchive => "regal-archive"
  | .museumLedger => "museum-ledger"
  | .celestialFormal => "celestial-formal"
  | .museumType => "museum-type"

def themeText : CertificateTheme → String
  | .observatoryNavy => "observatory-navy"
  | .museumBurgundy => "museum-burgundy"
  | .fieldArchive => "field-archive"
  | .charcoalGold => "charcoal-gold"
  | .desertCopper => "desert-copper"
  | .celestialTeal => "celestial-teal"
  | .royalAmethyst => "royal-amethyst"
  | .arcticSlate => "arctic-slate"
  | .monochromeInk => "monochrome-ink"

def identityText : MeteoriteIdentity → String
  | .official => "official"
  | .unclassified => "unclassified"

section Values
variable {N : Type} (ofNumber : JsNumber → Number N)

def text (s : Text) : Option (Json (Number N)) := some (.text s)

def word (s : String) : Option (Json (Number N)) := text (units s)

def optionalText (s : Option Text) : Option (Json (Number N)) := s.map .text

def number (n : JsNumber) : Option (Json (Number N)) := some (.number (ofNumber n))

/-- A count of bytes or a version. -/
def count (n : Nat) : Option (Json (Number N)) := number ofNumber (.finite false n 0)

def certificateValue (c : Certificate) : Json (Number N) :=
  record [("id", text c.certificateId), ("issueDate", text c.issueDate),
    ("version", text c.version), ("status", word (statusText c.status)),
    ("visualStyle", word (styleText c.visualStyle)),
    ("visualTheme", word (themeText c.visualTheme)), ("recordFile", text c.recordFile),
    ("recordSha256", text c.recordSha256), ("supersedes", optionalText c.supersedes),
    ("notes", optionalText c.notes)]

def issuerValue (issuer : Issuer) : Json (Number N) :=
  record [("name", text issuer.name), ("collection", text issuer.collection),
    ("email", optionalText issuer.email), ("phone", optionalText issuer.phone),
    ("address", optionalText issuer.address), ("website", optionalText issuer.website),
    ("logoFile", optionalText issuer.logoFile),
    ("publicKeyAlgorithm", text issuer.publicKeyAlgorithm),
    ("publicKeyFile", text issuer.publicKeyFile),
    ("publicKeyFingerprint", text issuer.publicKeyFingerprint),
    ("publicKeyFingerprintMethod", text issuer.publicKeyFingerprintMethod)]

def fallValue (fall : Fall) : Json (Number N) :=
  record [("status", text fall.status), ("date", optionalText fall.date),
    ("country", text fall.country), ("region", optionalText fall.region),
    ("locality", optionalText fall.locality), ("latitude", optionalText fall.latitude),
    ("longitude", optionalText fall.longitude), ("metbullCode", optionalText fall.metbullCode),
    ("officialReferenceUrl", optionalText fall.officialReferenceUrl),
    ("finderName", optionalText fall.finderName),
    ("recoveryInformation", optionalText fall.recoveryInformation)]

def provenanceValue (p : Provenance) : Json (Number N) :=
  record [("statement", optionalText p.statement), ("previousOwner", optionalText p.previousOwner),
    ("intermediaryPurchaserName", optionalText p.intermediaryPurchaserName),
    ("buyer", optionalText p.buyer), ("transferDate", optionalText p.transferDate),
    ("invoiceReference", optionalText p.invoiceReference),
    ("transferNotes", optionalText p.transferNotes)]

def specimenValue (s : Specimen) : Json (Number N) :=
  record [("meteorite", text s.meteorite),
    ("meteoriteIdentity", word (identityText s.meteoriteIdentity)),
    ("meteoriteType", text s.meteoriteType), ("classification", text s.classification),
    ("meteoriteSubclass", text s.meteoriteSubclass),
    ("suspectedType", optionalText s.suspectedType),
    ("officialNameVerified", s.officialNameVerified.map .bool),
    ("weightGrams", number ofNumber s.weightGrams),
    ("weightPrecision", number ofNumber s.weightPrecision), ("form", text s.form),
    ("dimensions", optionalText s.dimensions),
    ("numberOfPieces", number ofNumber s.numberOfPieces),
    ("preparationState", optionalText s.preparationState),
    ("identifyingMarks", optionalText s.identifyingMarks),
    ("recordedOwner", optionalText s.recordedOwner), ("fall", some (fallValue s.fall)),
    ("provenance", some (provenanceValue s.provenance))]

def photographValue (photo : PhotoRecord) : Json (Number N) :=
  record [("path", text photo.path), ("originalFilename", text photo.originalFilename),
    ("caption", optionalText photo.caption), ("mediaType", text photo.mediaType),
    ("bytes", count ofNumber photo.bytes), ("sha256", text photo.sha256),
    ("captureDate", optionalText photo.captureDate),
    ("isUnmodifiedOriginal", some (.bool photo.isUnmodifiedOriginal)),
    ("pixelWidth", number ofNumber photo.pixelWidth),
    ("pixelHeight", number ofNumber photo.pixelHeight)]

def fileValue (file : ManifestFile) : Json (Number N) :=
  record [("path", text file.path), ("role", text file.role), ("mediaType", text file.mediaType),
    ("bytes", count ofNumber file.bytes), ("sha256", text file.sha256)]

def signatureValue (s : Signature) : Json (Number N) :=
  record [("algorithm", text s.algorithm), ("signedFile", text s.signedFile),
    ("signatureFile", text s.signatureFile), ("signatureEncoding", text s.signatureEncoding)]

def generationValue (g : Generation) : Json (Number N) :=
  record [("application", text g.application), ("version", text g.version),
    ("generatedAt", text g.generatedAt), ("manifestSerialization", text g.manifestSerialization)]

def manifestValue (m : Manifest) : Json (Number N) :=
  record [("$schema", text m.schema), ("schemaVersion", text m.schemaVersion),
    ("packageFormat", text m.packageFormat), ("packageVersion", count ofNumber m.packageVersion),
    ("recordType", text m.recordType), ("certificate", some (certificateValue m.certificate)),
    ("issuer", some (issuerValue m.issuer)),
    ("specimen", some (specimenValue ofNumber m.specimen)),
    ("photographs", some (.array (m.photographs.map (photographValue ofNumber)))),
    ("files", some (.array (m.files.map (fileValue ofNumber)))),
    ("signature", some (signatureValue m.signature)),
    ("generation", some (generationValue m.generation))]

end Values

/-! ## The browser -/

/-- The value of an integer that is not negative. -/
def natValue : JsNumber → Nat
  | .finite _ significand exponent =>
    if 0 ≤ exponent then significand * 2 ^ exponent.toNat
    else significand / 2 ^ (-exponent).toNat
  | _ => 0

/-- What the browser and the libraries bring along. An integer is printed as what it is, and the
decoder that replaces agrees with the one that throws on texts that this one takes. -/
structure Browser (formats : Formats) (N : Type) where
  sha256 : List UInt8 → List UInt8
  sha256_length : ∀ bytes, (sha256 bytes).length = 32
  normalize : Text → Text
  sortFiles : List ManifestFile → List ManifestFile
  sortFiles_perm : ∀ files, (sortFiles files).Perm files
  generatedAt : Text
  generatedAt_format : formats.dateTime generatedAt = true
  numbers : NumberFormat N
  ofNumber : JsNumber → N
  double : N → Rat
  double_integer : ∀ n, n.isInteger = true → n.nonNegative = true →
    double (ofNumber n) = (natValue n : Rat)
  decodeText : List UInt8 → List Char
  decodeText_fatal : ∀ bytes text, decodeFatal bytes = some text → decodeText bytes = text
  otherString : Option PackageVerifier.Json → List Char
  validateV1 : PackageVerifier.Json → Bool
  validateV2 : PackageVerifier.Json → Bool
  pemToDer : List Char → Except String (List UInt8)
  sign : List UInt8 → List UInt8
  verifyEd25519 : List UInt8 → List UInt8 → List UInt8 → Except String Bool
  decodeImageDimensions : List UInt8 → List Char → Except String DecodedDimensions
  generateAsync : List (Text × List UInt8) → List UInt8
  loadAsync : List UInt8 → Except String Zip

variable {formats : Formats} {N : Type} (browser : Browser formats N)

/-- `uniqueFileName`, with the names that were given so far. -/
def uniqueName (normalize : Text → Text) (name : Text) (used : List Text) : Text :=
  ((FileNames.uniqueFileName normalize (used.length + 1) name
    (used.map toLowerCase)).map Prod.fst).getD []

def Browser.platform : Platform formats where
  sha256 := browser.sha256
  sha256_length := browser.sha256_length
  uniqueFileName := uniqueName browser.normalize
  sanitizeFileName := FileNames.sanitizeFileName browser.normalize
  sortFiles := browser.sortFiles
  sortFiles_perm := browser.sortFiles_perm
  generatedAt := browser.generatedAt
  generatedAt_format := browser.generatedAt_format

def Browser.tools : Tools where
  loadAsync := browser.loadAsync
  decodeText := browser.decodeText
  parseJson := ReadManifests.parseJson browser.numbers browser.double
  otherString := browser.otherString
  validateV1 := browser.validateV1
  validateV2 := browser.validateV2
  sha256Hex := fun bytes => chars (browser.platform.sha256Hex bytes)
  pemToDer := browser.pemToDer
  verifyEd25519 := browser.verifyEd25519
  photographs := PhotographMetadata.photographCheck browser.decodeImageDimensions

/-- A number of the form as the language has it. -/
def Browser.number (n : JsNumber) : Number N :=
  match n with
  | .nan => .nan
  | .infinite negative => .infinite negative
  | .finite _ _ _ => .finite (browser.ofNumber n)

/-- What a validator sees of a number in memory; a form has no number that is none. -/
def Browser.seen : Number N → PackageVerifier.Json
  | .nan => .null
  | .infinite negative => .infinite negative
  | .finite value => .number (browser.double value)

/-! ## The builder -/

/-- `Map.prototype.set` -/
def setFile (files : List (Text × List UInt8)) (path : Text) (content : List UInt8) :
    List (Text × List UInt8) :=
  if files.any fun file => file.1 = path then
    files.map fun file => if file.1 = path then (path, content) else file
  else files ++ [(path, content)]

def setFiles (files added : List (Text × List UInt8)) : List (Text × List UInt8) :=
  added.foldl (fun files file => setFile files file.1 file.2) files

/-- The files that the manifest lists, in the order in which they are added. -/
def evidence (contents : Contents) (identity : SigningIdentity) (photos : List PhotoInput)
    (logo : Option File) : List (Text × List UInt8) :=
  [(units "certificate-record.json", contents.certificateRecord),
    (units "certificate.pdf", contents.pdf), (units "certificate.png", contents.png),
    (units "certificate.txt", contents.certificateText),
    (units "audit-log.json", contents.auditLog)] ++
  ((preparePhotos browser.platform [] photos).zip photos).map
    (fun prepared => (prepared.1.path, prepared.2.file.content)) ++
  logo.toList.map (fun file => (logoPath browser.platform file, file.content)) ++
  [(units "public-key.pem", identity.publicKeyPem),
    (units "coa-manifest-v2.schema.json", contents.schema),
    (units "README-FIRST.txt", contents.readme),
    (units "verification-instructions.txt", contents.instructions),
    (units "verify.py", contents.verifier)]

def manifestText (manifest : Manifest) : Text :=
  ManifestJson.stableStringify browser.numbers
    (substitute printable (manifestValue browser.number manifest))

/-- The manifest in memory, as the validator of the schema sees it. -/
def manifestInMemory (manifest : Manifest) : PackageVerifier.Json :=
  ReadManifests.reading browser.seen (manifestValue browser.number manifest)

/-- `assertV2Manifest` does not throw. -/
def assertV2Manifest (manifest : Manifest) : Bool :=
  let result :=
    PackageVerifier.validateManifestVersion browser.tools (manifestInMemory browser manifest)
  decide (result.version = .v2) && result.valid

def checksumText (files : List (Text × List UInt8)) : Text :=
  let sorted := files.mergeSort fun first second => decide (JsonText.KeyLe first.1 second.1)
  let checksumLines := sorted.map fun file =>
    browser.platform.sha256Hex file.2 ++ units "  " ++ file.1
  [10].intercalate checksumLines ++ [10]

def packageFiles (manifest : Manifest) (listed : List (Text × List UInt8)) :
    List (Text × List UInt8) :=
  let manifestBytes := utf8 (manifestText browser manifest)
  let files := setFiles [] (listed ++ [(units "manifest.json", manifestBytes),
    (units "signature.sig", browser.sign manifestBytes)])
  setFile files (units "sha256sums.txt") (utf8 (checksumText browser files))

/-- `sanitizeFileName(values.certificateId) || "certificate"` -/
def safeId (certificateId : Text) : Text :=
  let safe := FileNames.sanitizeFileName browser.normalize certificateId
  if safe = [] then units "certificate" else safe

structure Package where
  manifest : Manifest
  root : Text
  files : List (Text × List UInt8)

/-- The entries that are stored in the ZIP. -/
def Package.entries (package : Package) : List (Text × List UInt8) :=
  package.files.map fun file => (package.root ++ 47 :: file.1, file.2)

/-- The package of a form that is accepted; `none` is an exception. -/
def buildCertificatePackage (contents : Contents) (identity : SigningIdentity)
    (values : FormValues) (photos : List PhotoInput) (logo : Option File) : Option Package := do
  let validatedValues ← validateFormValues formats values
  if photosAccepted photos logo = false then none
  else
    let manifest := generatedManifest browser.platform contents identity validatedValues photos logo
    if assertV2Manifest browser manifest = false then none
    else
      some {
        manifest := manifest
        root := safeId browser validatedValues.certificateId
        files := packageFiles browser manifest (evidence browser contents identity photos logo) }

end CertificatePackages
