import SpacerocksCoa.CertificateForm
import SpacerocksCoa.JsonOrder
import SpacerocksCoa.Sha256

/-!
# The form and the manifest schema

The manifest that is built from an accepted form, and the schema it is checked against before it
is signed. What the form accepts the schema takes too, apart from coordinates just above the
largest value or padded to three digits, and from an address of the issuer that the one library
takes for valid and the other does not; and the number of pieces is the one numeric field whose
check lets an infinity through.

A property without a value is absent. The hash, the names of files, the order of the file list
and the rendered contents are parameters, and so are the formats of the validators.
-/
namespace ManifestSchema
open JsonText (Text units)
open CodeUnits JsNumbers CertificateForm

/-! ## The form -/

inductive CertificateStatus
  | active | superseded | revoked | transferred
  deriving DecidableEq

inductive CertificateStyle
  | regalArchive | museumLedger | celestialFormal | museumType
  deriving DecidableEq

inductive CertificateTheme
  | observatoryNavy | museumBurgundy | fieldArchive | charcoalGold | desertCopper
  | celestialTeal | royalAmethyst | arcticSlate | monochromeInk
  deriving DecidableEq

inductive MeteoriteIdentity
  | official | unclassified
  deriving DecidableEq

structure FormValues where
  issuerName : Text
  collectionName : Text
  issuerEmail : Text
  issuerPhone : Text
  issuerAddress : Text
  issuerWebsite : Text
  certificateId : Text
  issueDate : Text
  certificateVersion : Text
  certificateStatus : CertificateStatus
  certificateStyle : CertificateStyle
  certificateTheme : CertificateTheme
  supersededCertificateId : Text
  certificateNotes : Text
  meteoriteIdentity : MeteoriteIdentity
  meteoriteName : Text
  meteoriteType : Text
  classification : Text
  meteoriteSubclass : Text
  suspectedType : Text
  officialNameVerified : Bool
  officialClassificationExceptionAttested : Option Bool
  weightGrams : Text
  weightPrecision : Text
  specimenForm : Text
  dimensions : Text
  numberOfPieces : Text
  preparationState : Text
  identifyingMarks : Text
  recordedOwner : Text
  fallStatus : Text
  fallDate : Text
  country : Text
  region : Text
  locality : Text
  latitude : Text
  longitude : Text
  metbullCode : Text
  officialReferenceUrl : Text
  finderName : Text
  recoveryInformation : Text
  provenance : Text
  previousOwner : Text
  intermediaryPurchaserName : Text
  buyer : Text
  transferDate : Text
  invoiceReference : Text
  transferNotes : Text

/-- The fields whose schema trims. -/
def trimmed (values : FormValues) : FormValues :=
  { values with
    issuerName := trim values.issuerName
    collectionName := trim values.collectionName
    issuerEmail := trim values.issuerEmail
    issuerWebsite := trim values.issuerWebsite
    certificateId := trim values.certificateId
    issueDate := trim values.issueDate
    certificateVersion := trim values.certificateVersion
    meteoriteName := trim values.meteoriteName
    weightGrams := trim values.weightGrams
    weightPrecision := trim values.weightPrecision
    specimenForm := trim values.specimenForm
    numberOfPieces := trim values.numberOfPieces
    fallStatus := trim values.fallStatus
    fallDate := trim values.fallDate
    country := trim values.country
    transferDate := trim values.transferDate }

def metbullBase : Text := units "https://www.lpi.usra.edu/meteor/metbull.cfm?code="

/-- The formats of the form's library and of the schema validator. A full date is a date for
the validator, and the address of a MetBull entry is an address. -/
structure Formats where
  formEmail : Text → Bool
  formUrl : Text → Bool
  email : Text → Bool
  uri : Text → Bool
  date : Text → Bool
  dateTime : Text → Bool
  date_iso : ∀ s, isValidIsoDate s = true → date s = true
  uri_metbull : ∀ code, code ≠ [] → code.all digit = true → uri (metbullBase ++ code) = true

def requiredText (value : Text) : Bool := value != []

def optionalField (check : Text → Bool) (value : Text) : Bool := value == [] || check value

def positiveNumber (value : Text) : Bool := (number value).isFinite && (number value).positive

def nonNegativeNumber (value : Text) : Bool :=
  (number value).isFinite && (number value).nonNegative

def positiveInteger (value : Text) : Bool :=
  value != [] && value.all digit && (number value).atLeast 1

/-- `^[A-Za-z0-9][A-Za-z0-9._-]{1,119}$` -/
def certificateIdPattern (s : Text) : Bool :=
  s.head?.any alphanumeric && s.all (fun c => alphanumeric c || (units "._-").contains c) &&
    2 ≤ s.length && s.length ≤ 120

/-- The checks of the fields on their own. -/
def fieldsAccepted (formats : Formats) (v : FormValues) : Bool :=
  requiredText v.issuerName && requiredText v.collectionName &&
  optionalField formats.formEmail v.issuerEmail &&
  optionalField formats.formUrl v.issuerWebsite &&
  certificateIdPattern v.certificateId && isValidIsoDate v.issueDate &&
  requiredText v.certificateVersion && requiredText v.meteoriteName &&
  positiveNumber v.weightGrams && nonNegativeNumber v.weightPrecision &&
  requiredText v.specimenForm && positiveInteger v.numberOfPieces &&
  requiredText v.fallStatus && optionalField isValidIsoDate v.fallDate &&
  requiredText v.country && optionalField isValidIsoDate v.transferDate

def unavailable (value : Text) : Bool :=
  value == [] ||
    ["unclassified", "n/a", "na", "not applicable"].any fun word => toLowerCase value == units word

def supersedesRecorded (v : FormValues) : Bool :=
  v.certificateStatus != .superseded || trim v.supersededCertificateId != []

def locationRecorded (v : FormValues) : Bool :=
  if (trim v.latitude == []) != (trim v.longitude == []) then false
  else if trim v.latitude != [] then
    isValidCoordinate (trim v.latitude) .latitude && isValidCoordinate (trim v.longitude) .longitude
  else trim v.locality != [] || trim v.region != []

def attested (v : FormValues) : Bool := v.officialClassificationExceptionAttested.getD false

def officialAccepted (v : FormValues) : Bool :=
  let missing := unavailable (trim v.meteoriteType) || unavailable (trim v.meteoriteSubclass)
  trim v.classification != [] && toLowerCase (trim v.classification) != units "unclassified" &&
  missing == attested v &&
  trim v.metbullCode != [] && (trim v.metbullCode).all digit &&
  trim v.officialReferenceUrl == metbullBase ++ trim v.metbullCode &&
  v.officialNameVerified

/-- `superRefine` adds no issue. -/
def refined (v : FormValues) : Bool :=
  supersedesRecorded v && locationRecorded v &&
    (v.meteoriteIdentity != .official || officialAccepted v)

/-- The values of an accepted form. -/
def validateFormValues (formats : Formats) (values : FormValues) : Option FormValues :=
  if fieldsAccepted formats (trimmed values) && refined (trimmed values) then
    some (trimmed values)
  else none

/-! ## Photographs -/

/-- A file, with its type in lower case. -/
structure File where
  name : Text
  type : Text
  content : List UInt8
  lowercase : toLowerCase type = type

structure PhotoInput where
  file : File
  caption : Text
  captureDate : Text
  isUnmodifiedOriginal : Bool
  pixelWidth : JsNumber
  pixelHeight : JsNumber

def photoTypes : List Text := ["image/jpeg", "image/png", "image/webp"].map units

def isSupportedPhotoMimeType (type : Text) : Bool := photoTypes.contains (toLowerCase type)

def matchesPhotoMimeSignature (type : Text) (bytes : List UInt8) : Bool :=
  if toLowerCase type = units "image/jpeg" then bytes.take 3 == [0xff, 0xd8, 0xff]
  else if toLowerCase type = units "image/png" then
    bytes.take 8 == [0x89, 0x50, 0x4e, 0x47, 0x0d, 0x0a, 0x1a, 0x0a]
  else if toLowerCase type = units "image/webp" then
    12 ≤ bytes.length && bytes.take 4 == [82, 73, 70, 70] &&
      (bytes.drop 8).take 4 == [87, 69, 66, 80]
  else false

/-- `analyzePhotoDimensions` finds the dimension valid. -/
def dimensionValid (n : JsNumber) : Bool := n.isInteger && n.positive && n.atMost 100000

def maxPhotoCount : Nat := 100
def maxPhotoBytes : Nat := 100 * 1024 * 1024
def maxSourceBytes : Nat := 200 * 1024 * 1024

def photoAccepted (photo : PhotoInput) : Bool :=
  isSupportedPhotoMimeType photo.file.type && photo.file.content.length ≤ maxPhotoBytes &&
  optionalField isValidIsoDate (trim photo.captureDate) &&
  matchesPhotoMimeSignature photo.file.type (photo.file.content.take 12) &&
  dimensionValid photo.pixelWidth && dimensionValid photo.pixelHeight

def photosAccepted (photos : List PhotoInput) (logo : Option File) : Bool :=
  !photos.isEmpty && photos.length ≤ maxPhotoCount && photos.all photoAccepted &&
  (photos.map fun photo => photo.file.content.length).sum +
    (logo.map fun file => file.content.length).getD 0 ≤ maxSourceBytes &&
  photos.all (·.isUnmodifiedOriginal)

/-! ## The manifest -/

structure ManifestFile where
  path : Text
  role : Text
  mediaType : Text
  bytes : Nat
  sha256 : Text

/-- What the browser brings along. -/
structure Platform (formats : Formats) where
  sha256 : List UInt8 → List UInt8
  sha256_length : ∀ bytes, (sha256 bytes).length = 32
  uniqueFileName : Text → List Text → Text
  sanitizeFileName : Text → Text
  sortFiles : List ManifestFile → List ManifestFile
  sortFiles_perm : ∀ files, (sortFiles files).Perm files
  generatedAt : Text
  generatedAt_format : formats.dateTime generatedAt = true

variable {formats : Formats}

def bytesToHex (bytes : List UInt8) : Text :=
  bytes.flatMap fun byte =>
    [JsonText.hexDigit (byte.toNat / 16), JsonText.hexDigit (byte.toNat % 16)]

def Platform.sha256Hex (platform : Platform formats) (bytes : List UInt8) : Text :=
  bytesToHex (platform.sha256 bytes)

/-- A signing identity, by the encoding of its public key. -/
structure SigningIdentity where
  spki : List UInt8
  publicKeyPem : List UInt8

def Platform.fingerprint (platform : Platform formats) (identity : SigningIdentity) : Text :=
  formatFingerprint (platform.sha256Hex identity.spki)

structure PhotoRecord where
  path : Text
  originalFilename : Text
  caption : Option Text
  mediaType : Text
  bytes : Nat
  sha256 : Text
  captureDate : Option Text
  isUnmodifiedOriginal : Bool
  pixelWidth : JsNumber
  pixelHeight : JsNumber

structure Certificate where
  certificateId : Text
  issueDate : Text
  version : Text
  status : CertificateStatus
  visualStyle : CertificateStyle
  visualTheme : CertificateTheme
  recordFile : Text
  recordSha256 : Text
  supersedes : Option Text
  notes : Option Text

structure Issuer where
  name : Text
  collection : Text
  email : Option Text
  phone : Option Text
  address : Option Text
  website : Option Text
  logoFile : Option Text
  publicKeyAlgorithm : Text
  publicKeyFile : Text
  publicKeyFingerprint : Text
  publicKeyFingerprintMethod : Text

structure Fall where
  status : Text
  date : Option Text
  country : Text
  region : Option Text
  locality : Option Text
  latitude : Option Text
  longitude : Option Text
  metbullCode : Option Text
  officialReferenceUrl : Option Text
  finderName : Option Text
  recoveryInformation : Option Text

structure Provenance where
  statement : Option Text
  previousOwner : Option Text
  intermediaryPurchaserName : Option Text
  buyer : Option Text
  transferDate : Option Text
  invoiceReference : Option Text
  transferNotes : Option Text

structure Specimen where
  meteorite : Text
  meteoriteIdentity : MeteoriteIdentity
  meteoriteType : Text
  classification : Text
  meteoriteSubclass : Text
  suspectedType : Option Text
  officialNameVerified : Option Bool
  weightGrams : JsNumber
  weightPrecision : JsNumber
  form : Text
  dimensions : Option Text
  numberOfPieces : JsNumber
  preparationState : Option Text
  identifyingMarks : Option Text
  recordedOwner : Option Text
  fall : Fall
  provenance : Provenance

structure Signature where
  algorithm : Text
  signedFile : Text
  signatureFile : Text
  signatureEncoding : Text

structure Generation where
  application : Text
  version : Text
  generatedAt : Text
  manifestSerialization : Text

structure Manifest where
  schema : Text
  schemaVersion : Text
  packageFormat : Text
  packageVersion : Nat
  recordType : Text
  certificate : Certificate
  issuer : Issuer
  specimen : Specimen
  photographs : List PhotoRecord
  files : List ManifestFile
  signature : Signature
  generation : Generation

def metbullNotProvided : Text := units "Not provided by Meteoritical Bulletin"

def officialClassificationDetail (value : Text) (exceptionAttested : Bool) : Text :=
  if unavailable (trim value) && exceptionAttested then metbullNotProvided else trim value

def isOfficial (v : FormValues) : Bool := v.meteoriteIdentity == .official

def buildSpecimen (v : FormValues) : Specimen where
  meteorite := trim v.meteoriteName
  meteoriteIdentity := v.meteoriteIdentity
  meteoriteType :=
    if isOfficial v then officialClassificationDetail v.meteoriteType (attested v)
    else units "Unclassified"
  classification := if isOfficial v then trim v.classification else units "Unclassified"
  meteoriteSubclass :=
    if isOfficial v then officialClassificationDetail v.meteoriteSubclass (attested v)
    else units "Unclassified"
  suspectedType := if isOfficial v then none else optional v.suspectedType
  officialNameVerified := if isOfficial v then some true else none
  weightGrams := number v.weightGrams
  weightPrecision := number v.weightPrecision
  form := trim v.specimenForm
  dimensions := optional v.dimensions
  numberOfPieces := number v.numberOfPieces
  preparationState := optional v.preparationState
  identifyingMarks := optional v.identifyingMarks
  recordedOwner := optional v.issuerName
  fall := {
    status := trim v.fallStatus
    date := optional v.fallDate
    country := trim v.country
    region := optional v.region
    locality := optional v.locality
    latitude := optional v.latitude
    longitude := optional v.longitude
    metbullCode := if isOfficial v then some (trim v.metbullCode) else none
    officialReferenceUrl := if isOfficial v then some (trim v.officialReferenceUrl) else none
    finderName := optional v.finderName
    recoveryInformation := optional v.recoveryInformation }
  provenance := {
    statement := optional v.provenance
    previousOwner := optional v.previousOwner
    intermediaryPurchaserName := optional v.intermediaryPurchaserName
    buyer := optional v.buyer
    transferDate := optional v.transferDate
    invoiceReference := optional v.invoiceReference
    transferNotes := optional v.transferNotes }

def buildIssuer (platform : Platform formats) (v : FormValues) (identity : SigningIdentity)
    (logoPath : Option Text) : Issuer where
  name := trim v.issuerName
  collection := trim v.collectionName
  email := optional v.issuerEmail
  phone := optional v.issuerPhone
  address := optional v.issuerAddress
  website := optional v.issuerWebsite
  logoFile := logoPath
  publicKeyAlgorithm := units "Ed25519"
  publicKeyFile := units "public-key.pem"
  publicKeyFingerprint := platform.fingerprint identity
  publicKeyFingerprintMethod := units "SHA-256 of SubjectPublicKeyInfo DER"

def mediaTypeForFile (file : File) : Text :=
  if file.type = [] then units "application/octet-stream" else file.type

def photoRecord (platform : Platform formats) (fileName : Text) (photo : PhotoInput) :
    PhotoRecord where
  path := units "original-photographs/" ++ fileName
  originalFilename := photo.file.name
  caption := CertificateForm.optional photo.caption
  mediaType := mediaTypeForFile photo.file
  bytes := photo.file.content.length
  sha256 := platform.sha256Hex photo.file.content
  captureDate := CertificateForm.optional photo.captureDate
  isUnmodifiedOriginal := true
  pixelWidth := photo.pixelWidth
  pixelHeight := photo.pixelHeight

/-- The records of the photographs, with the file names taken so far. -/
def preparePhotos (platform : Platform formats) : List Text → List PhotoInput → List PhotoRecord
  | _, [] => []
  | used, photo :: rest =>
    let fileName := platform.uniqueFileName photo.file.name used
    photoRecord platform fileName photo :: preparePhotos platform (fileName :: used) rest

/-- The texts and pictures that are built for the package. -/
structure Contents where
  certificateRecord : List UInt8
  pdf : List UInt8
  png : List UInt8
  certificateText : List UInt8
  auditLog : List UInt8
  schema : List UInt8
  readme : List UInt8
  instructions : List UInt8
  verifier : List UInt8

def addEvidenceFile (platform : Platform formats) (path role mediaType : Text)
    (content : List UInt8) : ManifestFile :=
  ⟨path, role, mediaType, content.length, platform.sha256Hex content⟩

def photoFile (photo : PhotoRecord) : ManifestFile :=
  ⟨photo.path, units "exact original specimen photograph", photo.mediaType, photo.bytes,
    photo.sha256⟩

def logoPath (platform : Platform formats) (logo : File) : Text :=
  units "issuer-assets/" ++ platform.sanitizeFileName logo.name

def evidenceFiles (platform : Platform formats) (contents : Contents) (identity : SigningIdentity)
    (photographs : List PhotoRecord) (logo : Option File) : List ManifestFile :=
  let add := fun path role mediaType =>
    addEvidenceFile platform (units path) (units role) (units mediaType)
  [add "certificate-record.json" "immutable certificate record" "application/json"
      contents.certificateRecord,
    add "certificate.pdf" "visual certificate" "application/pdf" contents.pdf,
    add "certificate.png" "visual certificate" "image/png" contents.png,
    add "certificate.txt" "plain-text archival duplicate" "text/plain; charset=utf-8"
      contents.certificateText,
    add "audit-log.json" "append-only issuance event" "application/json" contents.auditLog] ++
  photographs.map photoFile ++
  logo.toList.map (fun file => addEvidenceFile platform (logoPath platform file)
    (units "issuer logo") (mediaTypeForFile file) file.content) ++
  [add "public-key.pem" "issuer public key" "application/x-pem-file" identity.publicKeyPem,
    add "coa-manifest-v2.schema.json" "manifest JSON Schema" "application/schema+json"
      contents.schema,
    add "README-FIRST.txt" "package entry instructions" "text/plain; charset=utf-8"
      contents.readme,
    add "verification-instructions.txt" "offline verification instructions"
      "text/plain; charset=utf-8" contents.instructions,
    add "verify.py" "offline Python verifier" "text/x-python; charset=utf-8" contents.verifier]

/-- The values of an unclassified specimen carry no official evidence. -/
def withoutEvidence (v : FormValues) : FormValues :=
  if v.meteoriteIdentity = .unclassified then
    { v with
      meteoriteType := units "Unclassified"
      classification := units "Unclassified"
      meteoriteSubclass := units "Unclassified"
      officialNameVerified := false
      metbullCode := []
      officialReferenceUrl := [] }
  else v

/-- The manifest that `buildCertificatePackage` generates from validated values. -/
def generatedManifest (platform : Platform formats) (contents : Contents)
    (identity : SigningIdentity) (validatedValues : FormValues) (photos : List PhotoInput)
    (logo : Option File) : Manifest :=
  let values := withoutEvidence validatedValues
  let photographs := preparePhotos platform [] photos
  { schema := units "coa-manifest-v2.schema.json"
    schemaVersion := units "2.2.0"
    packageFormat := units "Spacerocks Self-Contained COA Package"
    packageVersion := 2
    recordType := units "meteorite-certificate-of-authenticity"
    certificate := {
      certificateId := trim values.certificateId
      issueDate := values.issueDate
      version := trim values.certificateVersion
      status := values.certificateStatus
      visualStyle := values.certificateStyle
      visualTheme := values.certificateTheme
      recordFile := units "certificate-record.json"
      recordSha256 := platform.sha256Hex contents.certificateRecord
      supersedes := optional values.supersededCertificateId
      notes := optional values.certificateNotes }
    issuer := buildIssuer platform values identity (logo.map (logoPath platform))
    specimen := buildSpecimen values
    photographs := photographs
    files := platform.sortFiles (evidenceFiles platform contents identity photographs logo)
    signature := {
      algorithm := units "Ed25519"
      signedFile := units "manifest.json"
      signatureFile := units "signature.sig"
      signatureEncoding := units "raw 64-byte Ed25519 signature" }
    generation := {
      application := units "Spacerocks COA Studio"
      version := units "1.0.0"
      generatedAt := platform.generatedAt
      manifestSerialization :=
        units "UTF-8, sorted keys, two-space indentation, LF, final newline, no BOM" } }

/-! ## The schema -/

/-- `minLength: 1` -/
def filled (s : Text) : Bool := s != []

/-- A property that is absent or passes. -/
def ifPresent (check : Text → Bool) (value : Option Text) : Bool := value.all check

def upperHex (c : Nat) : Bool := digit c || (65 ≤ c && c ≤ 70)

/-- `^([A-F0-9]{2}:){n}[A-F0-9]{2}$` -/
def fingerprintPattern : Nat → Text → Bool
  | 0, [a, b] => upperHex a && upperHex b
  | n + 1, a :: b :: 58 :: rest => upperHex a && upperHex b && fingerprintPattern n rest
  | _, _ => false

/-- The validator's integers: a remainder of zero or, for an infinity, no remainder. -/
def schemaInteger (n : JsNumber) : Bool :=
  match n with
  | .infinite _ => true
  | n => n.isInteger

/-- A text with a character that is no white space, other than "unclassified" in any case. -/
def officialClassification (s : Text) : Bool :=
  filled s && s.any (fun c => !isWhite c) && toLowerCase (trim s) != units "unclassified"

def certificateConforms (formats : Formats) (c : Certificate) : Bool :=
  filled c.certificateId && c.certificateId.length ≤ 120 && formats.date c.issueDate &&
  filled c.version && c.recordFile == units "certificate-record.json" &&
  sha256Pattern c.recordSha256 && ifPresent filled c.supersedes &&
  (c.status != .superseded || c.supersedes.isSome)

def issuerConforms (formats : Formats) (issuer : Issuer) : Bool :=
  filled issuer.name && filled issuer.collection && ifPresent formats.email issuer.email &&
  ifPresent formats.uri issuer.website && issuer.publicKeyAlgorithm == units "Ed25519" &&
  issuer.publicKeyFile == units "public-key.pem" &&
  fingerprintPattern 31 issuer.publicKeyFingerprint &&
  issuer.publicKeyFingerprintMethod == units "SHA-256 of SubjectPublicKeyInfo DER"

/-- `^https://www\.lpi\.usra\.edu/meteor/metbull\.cfm\?code=[0-9]+$` -/
def metbullPattern (s : Text) : Bool :=
  metbullBase.isPrefixOf s && s.drop metbullBase.length != [] &&
    (s.drop metbullBase.length).all digit

def fallConforms (formats : Formats) (fall : Fall) : Bool :=
  filled fall.status && ifPresent formats.date fall.date && filled fall.country &&
  ifPresent filled fall.region && ifPresent filled fall.locality &&
  ifPresent (coordinatePattern .latitude) fall.latitude &&
  ifPresent (coordinatePattern .longitude) fall.longitude &&
  ifPresent (fun code => code != [] && code.all digit) fall.metbullCode &&
  ifPresent (fun url => formats.uri url && metbullPattern url) fall.officialReferenceUrl &&
  ifPresent filled fall.finderName && fall.latitude.isSome == fall.longitude.isSome &&
  (fall.locality.isSome || fall.region.isSome || (fall.latitude.isSome && fall.longitude.isSome))

def provenanceConforms (formats : Formats) (p : Provenance) : Bool :=
  ifPresent filled p.statement && ifPresent formats.date p.transferDate

/-- The branches for an official and for an unclassified specimen. -/
def identityConforms (s : Specimen) : Bool :=
  if s.meteoriteIdentity = .official then
    officialClassification s.meteoriteType && officialClassification s.classification &&
    officialClassification s.meteoriteSubclass && s.officialNameVerified == some true &&
    s.suspectedType.isNone && s.fall.metbullCode.isSome && s.fall.officialReferenceUrl.isSome
  else
    s.meteoriteType == units "Unclassified" && s.classification == units "Unclassified" &&
    s.meteoriteSubclass == units "Unclassified" && s.officialNameVerified.isNone &&
    s.fall.metbullCode.isNone && s.fall.officialReferenceUrl.isNone

def specimenConforms (formats : Formats) (s : Specimen) : Bool :=
  identityConforms s && filled s.meteorite && filled s.meteoriteType &&
  filled s.classification && filled s.meteoriteSubclass && ifPresent filled s.suspectedType &&
  s.weightGrams.positive && s.weightPrecision.nonNegative && filled s.form &&
  schemaInteger s.numberOfPieces && s.numberOfPieces.atLeast 1 &&
  ifPresent filled s.recordedOwner && fallConforms formats s.fall &&
  provenanceConforms formats s.provenance

def dimensionConforms (n : JsNumber) : Bool :=
  schemaInteger n && n.atLeast 1 && n.atMost 100000

/-- A photograph of a manifest with schema version 2.2.0; a generated one has no crop. -/
def photographConforms (formats : Formats) (p : PhotoRecord) : Bool :=
  (units "original-photographs/").isPrefixOf p.path && filled p.originalFilename &&
  photoTypes.contains p.mediaType && p.bytes ≤ 104857600 && sha256Pattern p.sha256 &&
  ifPresent formats.date p.captureDate && p.isUnmodifiedOriginal &&
  dimensionConforms p.pixelWidth && dimensionConforms p.pixelHeight

def fileConforms (file : ManifestFile) : Bool :=
  filled file.path && filled file.role && filled file.mediaType && sha256Pattern file.sha256

def signatureConforms (s : Signature) : Bool :=
  s.algorithm == units "Ed25519" && s.signedFile == units "manifest.json" &&
  s.signatureFile == units "signature.sig" &&
  s.signatureEncoding == units "raw 64-byte Ed25519 signature"

def generationConforms (formats : Formats) (g : Generation) : Bool :=
  g.application == units "Spacerocks COA Studio" && filled g.version &&
  formats.dateTime g.generatedAt && g.manifestSerialization ==
    units "UTF-8, sorted keys, two-space indentation, LF, final newline, no BOM"

/-- `assertV2Manifest` on a manifest that names schema version 2.2.0. -/
def assertV2Manifest (formats : Formats) (m : Manifest) : Bool :=
  m.schema == units "coa-manifest-v2.schema.json" && m.schemaVersion == units "2.2.0" &&
  m.packageVersion == 2 && m.packageFormat == units "Spacerocks Self-Contained COA Package" &&
  m.recordType == units "meteorite-certificate-of-authenticity" &&
  certificateConforms formats m.certificate && issuerConforms formats m.issuer &&
  specimenConforms formats m.specimen && !m.photographs.isEmpty &&
  m.photographs.all (photographConforms formats) && !m.files.isEmpty && m.files.all fileConforms &&
  signatureConforms m.signature && generationConforms formats m.generation

/-! ## Where both agree -/

/-- The numbers of a specimen are finite and in the range of the schema. -/
def numbersInRange (s : Specimen) : Bool :=
  s.weightGrams.isFinite && s.weightGrams.positive && s.weightPrecision.isFinite &&
  s.weightPrecision.nonNegative && s.numberOfPieces.isInteger && s.numberOfPieces.atLeast 1

def absentOr (check : Text → Bool) (value : Text) : Bool :=
  (CertificateForm.optional value).all check

/-- The inputs whose manifest the schema accepts. -/
structure Agrees (formats : Formats) (values : FormValues) (photos : List PhotoInput) : Prop where
  latitude : absentOr (withinBounds .latitude) values.latitude = true
  longitude : absentOr (withinBounds .longitude) values.longitude = true
  pieces : natOf (trim values.numberOfPieces) < overflow
  email : absentOr formats.email values.issuerEmail = true
  website : absentOr formats.uri values.issuerWebsite = true
  names : ∀ photo ∈ photos, photo.file.name ≠ []

/-! ## Texts -/

theorem dropWhile_kept {p : Nat → Bool} {s t : Text} (start : s <+: t)
    (kept : t.dropWhile p = t) : s.dropWhile p = s := by
  cases s with
  | nil => rfl
  | cons c rest =>
    obtain ⟨tail, rfl⟩ := start
    have first : p c = false := by
      rw [List.cons_append, List.dropWhile_cons] at kept
      by_contra holds
      rw [Bool.not_eq_false] at holds
      rw [if_pos holds] at kept
      have shorter := List.length_dropWhile_le p (rest ++ tail)
      rw [kept] at shorter
      simp only [List.length_cons, List.length_append] at shorter
      omega
    rw [List.dropWhile_cons, first]
    rfl

theorem trim_trim (s : Text) : trim (trim s) = trim s := by
  have kept : (trim s).dropWhile isWhite = trim s :=
    dropWhile_kept (List.rdropWhile_prefix _ _) (List.dropWhile_idempotent ..)
  rw [trim, kept]
  exact List.rdropWhile_idempotent ..

theorem optional_trim (s : Text) : CertificateForm.optional (trim s) =
    CertificateForm.optional s := by
  simp only [CertificateForm.optional, trim_trim]

theorem optional_filled (s : Text) : ifPresent filled (CertificateForm.optional s) = true := by
  unfold CertificateForm.optional
  split
  next => rfl
  next nonempty => simpa [ifPresent, filled] using nonempty

/-- A check that an optional field of the form passed, or a stronger one. -/
theorem optional_checked {check stronger : Text → Bool} {s : Text}
    (implied : ∀ s, stronger s = true → check s = true)
    (accepted : optionalField stronger (trim s) = true) :
    ifPresent check (CertificateForm.optional s) = true := by
  unfold CertificateForm.optional
  split
  next => rfl
  next nonempty =>
    rw [optionalField, Bool.or_eq_true, beq_iff_eq] at accepted
    exact implied _ (accepted.resolve_left nonempty)

theorem optional_isSome {s : Text} : (CertificateForm.optional s).isSome = (trim s != []) := by
  unfold CertificateForm.optional
  split
  next blank => simp [blank]
  next nonempty => simp [nonempty]

/-! ## Hashes -/

theorem hexDigit_small {n : Nat} (small : n < 16) :
    (digit (JsonText.hexDigit n) || (97 ≤ JsonText.hexDigit n && JsonText.hexDigit n ≤ 102)) =
      true ∧ upperHex (upperUnit (JsonText.hexDigit n)) = true := by
  have every : ∀ n < 16, (digit (JsonText.hexDigit n) ||
      (97 ≤ JsonText.hexDigit n && JsonText.hexDigit n ≤ 102)) = true ∧
      upperHex (upperUnit (JsonText.hexDigit n)) = true := by decide
  exact every n small

theorem bytesToHex_cons (byte : UInt8) (rest : List UInt8) :
    bytesToHex (byte :: rest) = JsonText.hexDigit (byte.toNat / 16) ::
      JsonText.hexDigit (byte.toNat % 16) :: bytesToHex rest := rfl

theorem bytesToHex_length (bytes : List UInt8) :
    (bytesToHex bytes).length = 2 * bytes.length := by
  induction bytes with
  | nil => rfl
  | cons byte rest ih =>
    rw [bytesToHex_cons]
    simp only [List.length_cons, ih]
    omega

theorem bytesToHex_digits (bytes : List UInt8) :
    (bytesToHex bytes).all (fun c => digit c || (97 ≤ c && c ≤ 102)) = true := by
  induction bytes with
  | nil => rfl
  | cons byte rest ih =>
    have bound := byte.toNat_lt
    have high := (hexDigit_small (show byte.toNat / 16 < 16 by omega)).1
    have low := (hexDigit_small (show byte.toNat % 16 < 16 by omega)).1
    rw [bytesToHex_cons, List.all_cons, List.all_cons, high, low, ih]
    rfl

theorem sha256Hex_pattern (platform : Platform formats) (bytes : List UInt8) :
    sha256Pattern (platform.sha256Hex bytes) = true := by
  have length := bytesToHex_length (platform.sha256 bytes)
  rw [platform.sha256_length] at length
  rw [sha256Pattern, Platform.sha256Hex, length, bytesToHex_digits]
  rfl

theorem formatFingerprint_pattern (bytes : List UInt8) (n : Nat)
    (length : bytes.length = n + 1) :
    fingerprintPattern n (formatFingerprint (bytesToHex bytes)) = true := by
  induction n generalizing bytes with
  | zero =>
    obtain ⟨byte, rfl⟩ := List.length_eq_one_iff.1 length
    have bound := byte.toNat_lt
    have high := (hexDigit_small (show byte.toNat / 16 < 16 by omega)).2
    have low := (hexDigit_small (show byte.toNat % 16 < 16 by omega)).2
    rw [bytesToHex_cons]
    show (upperHex _ && upperHex _) = true
    rw [high, low]
    rfl
  | succ n ih =>
    obtain ⟨byte, rest, rfl⟩ := List.exists_cons_of_length_eq_add_one length
    rw [List.length_cons, Nat.add_right_cancel_iff] at length
    obtain ⟨next, others, rfl⟩ := List.exists_cons_of_length_eq_add_one length
    have bound := byte.toNat_lt
    have high := (hexDigit_small (show byte.toNat / 16 < 16 by omega)).2
    have low := (hexDigit_small (show byte.toNat % 16 < 16 by omega)).2
    have rest := ih (next :: others) length
    rw [bytesToHex_cons] at rest ⊢
    show (upperHex _ && upperHex _ && fingerprintPattern n _) = true
    rw [high, low]
    exact rest

theorem fingerprint_pattern (platform : Platform formats) (identity : SigningIdentity) :
    fingerprintPattern 31 (platform.fingerprint identity) = true :=
  formatFingerprint_pattern _ 31 (platform.sha256_length _)

/-! ## What an accepted form carries -/

structure Accepted (formats : Formats) (v : FormValues) : Prop where
  issuerName : requiredText (trim v.issuerName) = true
  collectionName : requiredText (trim v.collectionName) = true
  certificateId : certificateIdPattern (trim v.certificateId) = true
  issueDate : isValidIsoDate (trim v.issueDate) = true
  certificateVersion : requiredText (trim v.certificateVersion) = true
  meteoriteName : requiredText (trim v.meteoriteName) = true
  weightGrams : positiveNumber (trim v.weightGrams) = true
  weightPrecision : nonNegativeNumber (trim v.weightPrecision) = true
  specimenForm : requiredText (trim v.specimenForm) = true
  numberOfPieces : positiveInteger (trim v.numberOfPieces) = true
  fallStatus : requiredText (trim v.fallStatus) = true
  fallDate : optionalField isValidIsoDate (trim v.fallDate) = true
  country : requiredText (trim v.country) = true
  transferDate : optionalField isValidIsoDate (trim v.transferDate) = true
  supersedes : supersedesRecorded v = true
  location : locationRecorded v = true
  identity : v.meteoriteIdentity = .official → officialAccepted v = true

theorem validate_accepted {values data : FormValues}
    (valid : validateFormValues formats values = some data) :
    data = trimmed values ∧ Accepted formats values := by
  unfold validateFormValues at valid
  split at valid
  next checks =>
    refine ⟨(Option.some.inj valid).symm, ?_⟩
    simp only [fieldsAccepted, refined, trimmed, Bool.and_eq_true] at checks
    obtain ⟨⟨⟨⟨⟨⟨⟨⟨⟨⟨⟨⟨⟨⟨⟨⟨issuerName, collectionName⟩, _⟩, _⟩, certificateId⟩, issueDate⟩,
      certificateVersion⟩, meteoriteName⟩, weightGrams⟩, weightPrecision⟩, specimenForm⟩,
      numberOfPieces⟩, fallStatus⟩, fallDate⟩, country⟩, transferDate⟩,
      ⟨supersedes, location⟩, identity⟩ := checks
    refine ⟨issuerName, collectionName, certificateId, issueDate, certificateVersion,
      meteoriteName, weightGrams, weightPrecision, specimenForm, numberOfPieces, fallStatus,
      fallDate, country, transferDate, supersedes, location, ?_⟩
    intro official
    rw [Bool.or_eq_true, bne_iff_ne] at identity
    exact identity.resolve_left (not_not_intro official)
  next => cases valid

theorem requiredText_filled {s : Text} (required : requiredText (trim s) = true) :
    filled (trim (trim s)) = true := by
  rw [trim_trim]
  exact required

/-! ## The sections of the manifest -/

theorem withoutEvidence_frame (v : FormValues) :
    ∃ meteoriteType classification meteoriteSubclass verified metbullCode url,
      withoutEvidence v = { v with
        meteoriteType := meteoriteType
        classification := classification
        meteoriteSubclass := meteoriteSubclass
        officialNameVerified := verified
        metbullCode := metbullCode
        officialReferenceUrl := url } := by
  unfold withoutEvidence
  split
  · exact ⟨_, _, _, _, _, _, rfl⟩
  · exact ⟨_, _, _, _, _, _, rfl⟩

theorem certificate_conforms (platform : Platform formats) (contents : Contents)
    (identity : SigningIdentity) {values : FormValues} (photos : List PhotoInput)
    (logo : Option File) (accepted : Accepted formats values) :
    certificateConforms formats
      (generatedManifest platform contents identity (trimmed values) photos logo).certificate =
      true := by
  obtain ⟨_, _, _, _, _, _, frame⟩ := withoutEvidence_frame (trimmed values)
  have pattern := accepted.certificateId
  simp only [certificateIdPattern, Bool.and_eq_true, decide_eq_true_eq] at pattern
  have supersedes : (values.certificateStatus != .superseded ||
      (CertificateForm.optional values.supersededCertificateId).isSome) = true := by
    rw [optional_isSome]
    exact accepted.supersedes
  have named : filled (trim values.certificateId) = true := by
    rw [filled, bne_iff_ne]
    intro blank
    rw [blank] at pattern
    exact absurd pattern.1.2 (by decide)
  unfold generatedManifest
  rw [frame]
  simp only [certificateConforms, trimmed, trim_trim, Bool.and_eq_true, decide_eq_true_eq,
    beq_self_eq_true]
  exact ⟨⟨⟨⟨⟨⟨⟨named, pattern.2⟩, formats.date_iso _ accepted.issueDate⟩,
    accepted.certificateVersion⟩, trivial⟩, sha256Hex_pattern platform _⟩,
    optional_filled _⟩, supersedes⟩

theorem issuer_conforms_iff (platform : Platform formats) (contents : Contents)
    (identity : SigningIdentity) {values : FormValues} (photos : List PhotoInput)
    (logo : Option File) (accepted : Accepted formats values) :
    issuerConforms formats
        (generatedManifest platform contents identity (trimmed values) photos logo).issuer = true ↔
      absentOr formats.email values.issuerEmail = true ∧
        absentOr formats.uri values.issuerWebsite = true := by
  obtain ⟨_, _, _, _, _, _, frame⟩ := withoutEvidence_frame (trimmed values)
  have name : filled (trim values.issuerName) = true := accepted.issuerName
  have collection : filled (trim values.collectionName) = true := accepted.collectionName
  unfold generatedManifest
  rw [frame]
  simp only [issuerConforms, buildIssuer, trimmed, trim_trim, optional_trim, name, collection,
    fingerprint_pattern, beq_self_eq_true, Bool.true_and, Bool.and_true, Bool.and_eq_true]
  rfl

/-- What the location of an accepted form is. -/
structure Located (values : FormValues) : Prop where
  latitude : trim values.latitude ≠ [] → isValidCoordinate (trim values.latitude) .latitude = true
  longitude : trim values.longitude ≠ [] →
    isValidCoordinate (trim values.longitude) .longitude = true
  both : (trim values.latitude != []) = (trim values.longitude != [])
  somewhere : (trim values.locality != [] || trim values.region != [] ||
    (trim values.latitude != [] && trim values.longitude != [])) = true

theorem located {values : FormValues} (recorded : locationRecorded values = true) :
    Located values := by
  unfold locationRecorded at recorded
  by_cases latitude : trim values.latitude = [] <;>
    by_cases longitude : trim values.longitude = []
  · rw [latitude, longitude] at recorded
    refine ⟨fun given => absurd latitude given, fun given => absurd longitude given, ?_, ?_⟩
    · rw [latitude, longitude]
    · rw [latitude, longitude]
      exact (Bool.or_false _).trans recorded
  · have given := beq_false_of_ne longitude
    rw [latitude, given] at recorded
    cases recorded
  · have given := beq_false_of_ne latitude
    rw [longitude, given] at recorded
    cases recorded
  · have first := beq_false_of_ne latitude
    have second := beq_false_of_ne longitude
    rw [bne, bne, first, second] at recorded
    have valid : (isValidCoordinate (trim values.latitude) .latitude &&
        isValidCoordinate (trim values.longitude) .longitude) = true := recorded
    rw [Bool.and_eq_true] at valid
    refine ⟨fun _ => valid.1, fun _ => valid.2, ?_, ?_⟩
    · rw [bne, bne, first, second]
    · simp only [bne, first, second, Bool.not_false, Bool.and_self, Bool.or_true]

theorem coordinate_agrees {axis : Axis} {s : Text}
    (accepted : trim s ≠ [] → isValidCoordinate (trim s) axis = true) :
    ifPresent (coordinatePattern axis) (CertificateForm.optional s) =
      absentOr (withinBounds axis) s := by
  unfold absentOr CertificateForm.optional
  split
  next => rfl
  next nonempty =>
    have agree := coordinate_pattern_iff (accepted nonempty)
    rw [trim_trim] at agree
    exact agree

theorem positive_atLeast {n : JsNumber} (integer : n.isInteger = true)
    (positive : n.positive = true) : n.atLeast 1 = true := by
  cases n with
  | nan => cases positive
  | infinite => cases integer
  | finite negative significand exponent =>
    simp only [JsNumber.isInteger, JsNumber.positive, JsNumber.atLeast, Bool.or_eq_true,
      Bool.and_eq_true, decide_eq_true_eq, beq_iff_eq, bne_iff_ne, Nat.one_mul] at *
    refine ⟨positive.1, ?_⟩
    split
    next up =>
      have power : 0 < 2 ^ exponent.toNat := Nat.two_pow_pos _
      exact decide_eq_true (Nat.mul_pos (Nat.pos_of_ne_zero positive.2) power)
    next down =>
      exact decide_eq_true (Nat.le_of_dvd (Nat.pos_of_ne_zero positive.2)
        (Nat.dvd_of_mod_eq_zero (integer.resolve_left down)))

/-! ## Numbers -/

/-- The number of pieces is an integer unless it is so large that it becomes an infinity. -/
theorem pieces_integer_iff {s : Text} (accepted : positiveInteger s = true) :
    (number s).isInteger = true ↔ natOf s < overflow := by
  simp only [positiveInteger, Bool.and_eq_true, bne_iff_ne] at accepted
  rw [number_digits accepted.1.2 accepted.1.1]
  constructor
  · intro integer
    by_contra large
    rw [nearest_infinite (by omega)] at integer
    cases integer
  · exact nearest_integer false _

theorem pieces_conform {s : Text} (accepted : positiveInteger s = true) :
    schemaInteger (number s) = true := by
  by_cases small : natOf s < overflow
  · have integer := (pieces_integer_iff accepted).2 small
    unfold schemaInteger
    split
    next => rfl
    next => exact integer
  · simp only [positiveInteger, Bool.and_eq_true, bne_iff_ne] at accepted
    rw [number_digits accepted.1.2 accepted.1.1, nearest_infinite (by omega)]
    rfl

theorem numbers_inRange_iff {values : FormValues} (accepted : Accepted formats values) :
    numbersInRange (buildSpecimen (withoutEvidence (trimmed values))) = true ↔
      natOf (trim values.numberOfPieces) < overflow := by
  obtain ⟨_, _, _, _, _, _, frame⟩ := withoutEvidence_frame (trimmed values)
  have weight := accepted.weightGrams
  have precision := accepted.weightPrecision
  have pieces := accepted.numberOfPieces
  rw [← pieces_integer_iff pieces]
  rw [positiveNumber, Bool.and_eq_true] at weight
  rw [nonNegativeNumber, Bool.and_eq_true] at precision
  rw [positiveInteger, Bool.and_eq_true] at pieces
  rw [frame]
  simp only [numbersInRange, buildSpecimen, trimmed, weight, precision, pieces, Bool.true_and,
    Bool.and_true]

/-! ## The specimen -/

theorem classification_conforms {s : Text} (trimmedText : trim s = s) (nonempty : s ≠ [])
    (classified : (toLowerCase s != units "unclassified") = true) :
    officialClassification s = true := by
  obtain ⟨c, rest, rfl⟩ := List.exists_cons_of_ne_nil nonempty
  have first : isWhite c = false := by
    by_contra white
    rw [Bool.not_eq_false] at white
    have shorter : (trim (c :: rest)).length ≤ rest.length := by
      rw [trim, List.dropWhile_cons, if_pos white]
      exact (List.rdropWhile_prefix _ _).length_le.trans (List.length_dropWhile_le ..)
    rw [trimmedText] at shorter
    exact absurd shorter (Nat.not_succ_le_self _)
  rw [officialClassification, trimmedText, classified, List.any_cons, first]
  rfl

theorem unavailable_unclassified {s : Text} (available : unavailable s = false) :
    s ≠ [] ∧ (toLowerCase s != units "unclassified") = true := by
  rw [unavailable, Bool.or_eq_false_iff] at available
  refine ⟨fun blank => ?_, ?_⟩
  · rw [blank] at available
    cases available.1
  · rw [List.any_cons, Bool.or_eq_false_iff] at available
    rw [bne, available.2.1]
    rfl

theorem metbullNotProvided_conforms : officialClassification metbullNotProvided = true := by
  decide

theorem detail_conforms {value : Text} {exception : Bool}
    (covered : unavailable (trim value) = true → exception = true) :
    officialClassification (officialClassificationDetail value exception) = true := by
  unfold officialClassificationDetail
  cases missing : unavailable (trim value) with
  | true =>
    rw [covered missing]
    exact metbullNotProvided_conforms
  | false =>
    obtain ⟨nonempty, classified⟩ := unavailable_unclassified missing
    exact classification_conforms (trim_trim value) nonempty classified

theorem officialClassification_filled {s : Text} (official : officialClassification s = true) :
    filled s = true := by
  rw [officialClassification, Bool.and_eq_true, Bool.and_eq_true] at official
  exact official.1.1

/-- What an accepted official specimen carries. -/
structure OfficialParts (v : FormValues) : Prop where
  meteoriteType : officialClassification
    (officialClassificationDetail v.meteoriteType (attested v)) = true
  classification : officialClassification (trim v.classification) = true
  meteoriteSubclass : officialClassification
    (officialClassificationDetail v.meteoriteSubclass (attested v)) = true
  code : (trim v.metbullCode != [] && (trim v.metbullCode).all digit) = true
  url : trim v.officialReferenceUrl = metbullBase ++ trim v.metbullCode

theorem official_parts {v : FormValues} (accepted : officialAccepted v = true) :
    OfficialParts v := by
  simp only [officialAccepted, Bool.and_eq_true, beq_iff_eq] at accepted
  obtain ⟨⟨⟨⟨⟨⟨named, classified⟩, missing⟩, code⟩, digits⟩, url⟩, _⟩ := accepted
  refine ⟨detail_conforms ?_, ?_, detail_conforms ?_, ?_, url⟩
  · intro unknown
    rw [← missing, unknown, Bool.true_or]
  · exact classification_conforms (trim_trim _) (bne_iff_ne.1 named) classified
  · intro unknown
    rw [← missing, unknown, Bool.or_true]
  · rw [code, digits]
    rfl

theorem metbull_conforms {code : Text} (numeric : (code != [] && code.all digit) = true) :
    (formats.uri (metbullBase ++ code) && metbullPattern (metbullBase ++ code)) = true := by
  rw [Bool.and_eq_true] at numeric
  have isPrefix : metbullBase.isPrefixOf (metbullBase ++ code) = true :=
    List.isPrefixOf_iff_prefix.2 (List.prefix_append ..)
  rw [formats.uri_metbull code (bne_iff_ne.1 numeric.1) numeric.2, metbullPattern, isPrefix,
    List.drop_left, numeric.1, numeric.2]
  rfl

/-- What the specimen of an accepted form carries. -/
structure SpecimenParts (formats : Formats) (v : FormValues) : Prop where
  located : Located v
  identity : identityConforms (buildSpecimen v) = true
  meteoriteType : filled (buildSpecimen v).meteoriteType = true
  classification : filled (buildSpecimen v).classification = true
  meteoriteSubclass : filled (buildSpecimen v).meteoriteSubclass = true
  suspectedType : ifPresent filled (buildSpecimen v).suspectedType = true
  meteorite : filled (buildSpecimen v).meteorite = true
  form : filled (buildSpecimen v).form = true
  weightGrams : positiveNumber v.weightGrams = true
  weightPrecision : nonNegativeNumber v.weightPrecision = true
  numberOfPieces : positiveInteger v.numberOfPieces = true
  transferDate : ifPresent formats.date (buildSpecimen v).provenance.transferDate = true
  status : filled (buildSpecimen v).fall.status = true
  country : filled (buildSpecimen v).fall.country = true
  date : ifPresent formats.date (buildSpecimen v).fall.date = true
  code : ifPresent (fun code => code != [] && code.all digit)
    (buildSpecimen v).fall.metbullCode = true
  url : ifPresent (fun url => formats.uri url && metbullPattern url)
    (buildSpecimen v).fall.officialReferenceUrl = true

theorem fall_conforms_iff {v : FormValues} (parts : SpecimenParts formats v) :
    fallConforms formats (buildSpecimen v).fall = true ↔
      absentOr (withinBounds .latitude) v.latitude = true ∧
        absentOr (withinBounds .longitude) v.longitude = true := by
  have located := parts.located
  have both : ((CertificateForm.optional v.latitude).isSome ==
      (CertificateForm.optional v.longitude).isSome) = true := by
    rw [optional_isSome, optional_isSome, located.both, beq_self_eq_true]
  have somewhere : ((CertificateForm.optional v.locality).isSome ||
      (CertificateForm.optional v.region).isSome || ((CertificateForm.optional v.latitude).isSome &&
        (CertificateForm.optional v.longitude).isSome)) = true := by
    rw [optional_isSome, optional_isSome, optional_isSome, optional_isSome]
    exact located.somewhere
  rw [← coordinate_agrees located.latitude, ← coordinate_agrees located.longitude]
  rw [fallConforms, parts.status, parts.date, parts.country, parts.code, parts.url]
  simp only [buildSpecimen, both, somewhere, optional_filled, Bool.true_and, Bool.and_true,
    Bool.and_eq_true]

theorem specimen_conforms_iff {v : FormValues} (parts : SpecimenParts formats v) :
    specimenConforms formats (buildSpecimen v) = true ↔
      absentOr (withinBounds .latitude) v.latitude = true ∧
        absentOr (withinBounds .longitude) v.longitude = true := by
  rw [← fall_conforms_iff parts]
  have weight := parts.weightGrams
  have precision := parts.weightPrecision
  have pieces := parts.numberOfPieces
  have count : schemaInteger (buildSpecimen v).numberOfPieces = true := pieces_conform pieces
  rw [positiveNumber, Bool.and_eq_true] at weight
  rw [nonNegativeNumber, Bool.and_eq_true] at precision
  rw [positiveInteger, Bool.and_eq_true] at pieces
  have grams : (buildSpecimen v).weightGrams.positive = true := weight.2
  have error : (buildSpecimen v).weightPrecision.nonNegative = true := precision.2
  have one : (buildSpecimen v).numberOfPieces.atLeast 1 = true := pieces.2
  have owner : ifPresent filled (buildSpecimen v).recordedOwner = true := optional_filled _
  have statement : ifPresent filled (buildSpecimen v).provenance.statement = true :=
    optional_filled _
  rw [specimenConforms, provenanceConforms, parts.identity, parts.meteoriteType,
    parts.classification, parts.meteoriteSubclass, parts.suspectedType, parts.meteorite,
    parts.form, parts.transferDate, owner, statement, grams, error, count, one]
  simp only [Bool.true_and, Bool.and_true]

theorem identity_official {v : FormValues} (official : v.meteoriteIdentity = .official)
    (parts : OfficialParts v) : identityConforms (buildSpecimen v) = true := by
  have named : (buildSpecimen v).meteoriteIdentity = .official := official
  have isOfficial : isOfficial v = true := by
    rw [ManifestSchema.isOfficial, official]
    rfl
  rw [identityConforms, if_pos named]
  simp only [buildSpecimen, isOfficial, if_true, parts.meteoriteType, parts.classification,
    parts.meteoriteSubclass, Bool.true_and]
  rfl

theorem located_trimmed {values : FormValues} (accepted : Accepted formats values) :
    Located (trimmed values) := by
  obtain ⟨latitude, longitude, both, somewhere⟩ := located accepted.location
  exact ⟨latitude, longitude, both, somewhere⟩

/-- An official specimen keeps its evidence. -/
theorem official_specimen {values : FormValues} (accepted : Accepted formats values)
    (official : values.meteoriteIdentity = .official) :
    SpecimenParts formats (trimmed values) := by
  have parts := official_parts (accepted.identity official)
  have isOfficial : isOfficial (trimmed values) = true := by
    have named : (trimmed values).meteoriteIdentity = .official := official
    rw [ManifestSchema.isOfficial, named]
    rfl
  refine ⟨located_trimmed accepted,
    identity_official official ⟨parts.meteoriteType, parts.classification,
      parts.meteoriteSubclass, parts.code, parts.url⟩, ?_, ?_, ?_, ?_,
    requiredText_filled accepted.meteoriteName, requiredText_filled accepted.specimenForm,
    accepted.weightGrams, accepted.weightPrecision, accepted.numberOfPieces, ?_,
    requiredText_filled accepted.fallStatus, requiredText_filled accepted.country, ?_, ?_, ?_⟩
  · simp only [buildSpecimen, isOfficial, if_true]
    exact officialClassification_filled parts.meteoriteType
  · simp only [buildSpecimen, isOfficial, if_true]
    exact officialClassification_filled parts.classification
  · simp only [buildSpecimen, isOfficial, if_true]
    exact officialClassification_filled parts.meteoriteSubclass
  · simp only [buildSpecimen, isOfficial, if_true]
    rfl
  · simp only [buildSpecimen, trimmed, optional_trim]
    exact optional_checked formats.date_iso accepted.transferDate
  · simp only [buildSpecimen, trimmed, optional_trim]
    exact optional_checked formats.date_iso accepted.fallDate
  · simp only [buildSpecimen, isOfficial, if_true]
    exact parts.code
  · simp only [buildSpecimen, isOfficial, if_true]
    rw [show trim (trimmed values).officialReferenceUrl = _ from parts.url]
    exact metbull_conforms parts.code

/-- An unclassified specimen has none. -/
theorem unclassified_specimen {values : FormValues} (accepted : Accepted formats values)
    (unclassified : values.meteoriteIdentity = .unclassified) :
    SpecimenParts formats (withoutEvidence (trimmed values)) := by
  have named : (trimmed values).meteoriteIdentity = .unclassified := unclassified
  obtain ⟨latitude, longitude, both, somewhere⟩ := located accepted.location
  rw [withoutEvidence, if_pos named]
  have notOfficial : (values.meteoriteIdentity == .official) = false := by
    rw [unclassified]
    rfl
  refine ⟨⟨latitude, longitude, both, somewhere⟩, ?_, ?_, ?_, ?_, ?_,
    requiredText_filled accepted.meteoriteName, requiredText_filled accepted.specimenForm,
    accepted.weightGrams, accepted.weightPrecision, accepted.numberOfPieces, ?_,
    requiredText_filled accepted.fallStatus, requiredText_filled accepted.country, ?_, ?_, ?_⟩
  · rw [identityConforms, if_neg]
    · simp only [buildSpecimen, isOfficial, trimmed, notOfficial]
      rfl
    · intro same
      rw [show values.meteoriteIdentity = .official from same] at unclassified
      cases unclassified
  · simp only [buildSpecimen, isOfficial, trimmed, notOfficial]
    rfl
  · simp only [buildSpecimen, isOfficial, trimmed, notOfficial]
    rfl
  · simp only [buildSpecimen, isOfficial, trimmed, notOfficial]
    rfl
  · simp only [buildSpecimen, isOfficial, trimmed, notOfficial]
    exact optional_filled _
  · simp only [buildSpecimen, trimmed, optional_trim]
    exact optional_checked formats.date_iso accepted.transferDate
  · simp only [buildSpecimen, trimmed, optional_trim]
    exact optional_checked formats.date_iso accepted.fallDate
  · simp only [buildSpecimen, isOfficial, trimmed, notOfficial]
    rfl
  · simp only [buildSpecimen, isOfficial, trimmed, notOfficial]
    rfl

theorem accepted_specimen {values : FormValues} (accepted : Accepted formats values) :
    SpecimenParts formats (withoutEvidence (trimmed values)) := by
  cases identity : values.meteoriteIdentity with
  | official =>
    have named : (trimmed values).meteoriteIdentity ≠ .unclassified := by
      intro same
      rw [show values.meteoriteIdentity = .unclassified from same] at identity
      cases identity
    rw [withoutEvidence, if_neg named]
    exact official_specimen accepted identity
  | unclassified => exact unclassified_specimen accepted identity

/-! ## Photographs and files -/

theorem mediaType_filled (file : File) : filled (mediaTypeForFile file) = true := by
  unfold mediaTypeForFile
  split
  next => rfl
  next typed => exact bne_iff_ne.2 typed

theorem dimension_conforms {n : JsNumber} (valid : dimensionValid n = true) :
    dimensionConforms n = true := by
  simp only [dimensionValid, Bool.and_eq_true] at valid
  have integer : schemaInteger n = true := by
    unfold schemaInteger
    split
    next => rfl
    next => exact valid.1.1
  rw [dimensionConforms, integer, positive_atLeast valid.1.1 valid.1.2, valid.2]
  rfl

theorem photograph_conforms_iff (platform : Platform formats) (fileName : Text)
    {photo : PhotoInput} (accepted : photoAccepted photo = true) :
    photographConforms formats (photoRecord platform fileName photo) = true ↔
      photo.file.name ≠ [] := by
  simp only [photoAccepted, Bool.and_eq_true, decide_eq_true_eq] at accepted
  obtain ⟨⟨⟨⟨⟨supported, size⟩, captured⟩, _⟩, width⟩, height⟩ := accepted
  rw [isSupportedPhotoMimeType, photo.file.lowercase] at supported
  have typed : photo.file.type ≠ [] := by
    intro blank
    rw [blank] at supported
    exact absurd supported (by decide)
  have mediaType : mediaTypeForFile photo.file = photo.file.type := if_neg typed
  have folder : (units "original-photographs/").isPrefixOf
      (units "original-photographs/" ++ fileName) = true :=
    List.isPrefixOf_iff_prefix.2 (List.prefix_append ..)
  have small : decide (photo.file.content.length ≤ 104857600) = true := decide_eq_true size
  have date := optional_checked formats.date_iso captured
  rw [photographConforms]
  simp only [photoRecord, folder, mediaType, supported, small, sha256Hex_pattern, date,
    dimension_conforms width, dimension_conforms height, Bool.true_and, Bool.and_true]
  exact bne_iff_ne

theorem photographs_conform_iff (platform : Platform formats) (used : List Text)
    {photos : List PhotoInput} (accepted : photos.all photoAccepted = true) :
    (preparePhotos platform used photos).all (photographConforms formats) = true ↔
      ∀ photo ∈ photos, photo.file.name ≠ [] := by
  induction photos generalizing used with
  | nil => exact ⟨fun _ _ member => absurd member List.not_mem_nil, fun _ => rfl⟩
  | cons photo rest ih =>
    rw [List.all_cons, Bool.and_eq_true] at accepted
    rw [preparePhotos, List.all_cons, Bool.and_eq_true,
      photograph_conforms_iff platform _ accepted.1, ih _ accepted.2, List.forall_mem_cons]

theorem evidence_conforms (platform : Platform formats) {path role mediaType : Text}
    (content : List UInt8)
    (named : (filled path && filled role && filled mediaType) = true) :
    fileConforms (addEvidenceFile platform path role mediaType content) = true := by
  rw [fileConforms, addEvidenceFile, named, sha256Hex_pattern]
  rfl

theorem photoFile_conforms (platform : Platform formats) (used : List Text)
    (photos : List PhotoInput) :
    ∀ file ∈ (preparePhotos platform used photos).map photoFile, fileConforms file = true := by
  induction photos generalizing used with
  | nil =>
    intro file member
    cases member
  | cons photo rest ih =>
    intro file member
    rcases List.mem_cons.1 member with rfl | later
    · rw [fileConforms]
      simp only [photoFile, photoRecord, mediaType_filled, sha256Hex_pattern, Bool.and_true]
      rfl
    · exact ih _ file later

theorem files_conform (platform : Platform formats) (contents : Contents)
    (identity : SigningIdentity) (photos : List PhotoInput) (logo : Option File) :
    (evidenceFiles platform contents identity (preparePhotos platform [] photos) logo).all
      fileConforms = true := by
  have photographs := photoFile_conforms platform [] photos
  have logos : (logo.toList.map fun file => addEvidenceFile platform (logoPath platform file)
      (units "issuer logo") (mediaTypeForFile file) file.content).all fileConforms = true := by
    rw [List.all_map, List.all_eq_true]
    intro file _
    apply evidence_conforms
    rw [mediaType_filled]
    rfl
  rw [evidenceFiles, List.all_append, List.all_append, List.all_append, logos,
    List.all_eq_true.2 photographs]
  simp only [List.all_cons, List.all_nil, Bool.and_true, Bool.and_eq_true]
  exact ⟨⟨evidence_conforms _ _ rfl, evidence_conforms _ _ rfl, evidence_conforms _ _ rfl,
    evidence_conforms _ _ rfl, evidence_conforms _ _ rfl⟩, evidence_conforms _ _ rfl,
    evidence_conforms _ _ rfl, evidence_conforms _ _ rfl, evidence_conforms _ _ rfl,
    evidence_conforms _ _ rfl⟩

theorem sortedFiles_conform (platform : Platform formats) {files : List ManifestFile}
    (conform : files.all fileConforms = true) (some_file : files.isEmpty = false) :
    (!(platform.sortFiles files).isEmpty && (platform.sortFiles files).all fileConforms) =
      true := by
  have perm := platform.sortFiles_perm files
  rw [Bool.and_eq_true, Bool.not_eq_true', perm.isEmpty_eq]
  refine ⟨some_file, List.all_eq_true.2 ?_⟩
  intro file member
  exact List.all_eq_true.1 conform file (perm.mem_iff.1 member)

/-! ## The two validators -/

theorem evidenceFiles_some (platform : Platform formats) (contents : Contents)
    (identity : SigningIdentity) (photographs : List PhotoRecord) (logo : Option File) :
    (evidenceFiles platform contents identity photographs logo).isEmpty = false := rfl

theorem preparePhotos_some (platform : Platform formats) {photos : List PhotoInput}
    (some_photo : (!photos.isEmpty) = true) :
    (!(preparePhotos platform [] photos).isEmpty) = true := by
  cases photos with
  | nil => cases some_photo
  | cons => rfl

/-- The manifest of an accepted form conforms when its sections do that the form leaves open. -/
theorem manifest_conforms_iff (platform : Platform formats) (contents : Contents)
    (identity : SigningIdentity) {values : FormValues} {photos : List PhotoInput}
    {logo : Option File} (accepted : Accepted formats values)
    (valid : photosAccepted photos logo = true) :
    assertV2Manifest formats
        (generatedManifest platform contents identity (trimmed values) photos logo) = true ↔
      (absentOr formats.email values.issuerEmail = true ∧
        absentOr formats.uri values.issuerWebsite = true) ∧
      (absentOr (withinBounds .latitude) values.latitude = true ∧
        absentOr (withinBounds .longitude) values.longitude = true) ∧
      ∀ photo ∈ photos, photo.file.name ≠ [] := by
  simp only [photosAccepted, Bool.and_eq_true] at valid
  obtain ⟨⟨⟨⟨some_photo, _⟩, photosValid⟩, _⟩, _⟩ := valid
  have certificate :=
    certificate_conforms platform contents identity photos logo accepted
  have issuer := issuer_conforms_iff platform contents identity photos logo accepted
  have parts := accepted_specimen accepted
  have specimen := specimen_conforms_iff parts
  obtain ⟨_, _, _, _, _, _, frame⟩ := withoutEvidence_frame (trimmed values)
  have coordinates : (withoutEvidence (trimmed values)).latitude = values.latitude ∧
      (withoutEvidence (trimmed values)).longitude = values.longitude := by
    rw [frame]
    exact ⟨rfl, rfl⟩
  rw [coordinates.1, coordinates.2] at specimen
  have photographs := photographs_conform_iff platform [] photosValid
  have files := sortedFiles_conform platform
    (files_conform platform contents identity photos logo) (evidenceFiles_some ..)
  rw [Bool.and_eq_true] at files
  have signature : signatureConforms (generatedManifest platform contents identity
      (trimmed values) photos logo).signature = true := by
    simp only [generatedManifest, signatureConforms, beq_self_eq_true, Bool.and_self]
  have generation : generationConforms formats (generatedManifest platform contents identity
      (trimmed values) photos logo).generation = true := by
    simp only [generatedManifest, generationConforms, beq_self_eq_true, Bool.true_and,
      Bool.and_true, platform.generatedAt_format]
    rfl
  rw [← issuer, ← specimen, ← photographs]
  simp only [assertV2Manifest, Bool.and_eq_true, certificate, signature, generation]
  simp only [generatedManifest, beq_self_eq_true, files, preparePhotos_some platform some_photo,
    true_and, and_true, and_assoc]

/-- The manifest of an accepted form conforms, with numbers in range, exactly when the
coordinates are exactly within bounds, the number of pieces is no infinity, both libraries take
the addresses of the issuer and every photograph has a name; and the form's check of a coordinate
implies the pattern exactly within those bounds. -/
theorem form_agrees_with_schema (platform : Platform formats) (contents : Contents)
    (identity : SigningIdentity) {values data : FormValues} {photos : List PhotoInput}
    {logo : Option File} (accepted : validateFormValues formats values = some data)
    (valid : photosAccepted photos logo = true) :
    ((assertV2Manifest formats
          (generatedManifest platform contents identity data photos logo) = true ∧
        numbersInRange
          (generatedManifest platform contents identity data photos logo).specimen = true) ↔
      Agrees formats values photos) ∧
    ∀ (axis : Axis) (s : Text), isValidCoordinate s axis = true →
      (coordinatePattern axis (trim s) = true ↔ withinBounds axis (trim s) = true) := by
  obtain ⟨rfl, facts⟩ := validate_accepted accepted
  have conforms := manifest_conforms_iff platform contents identity facts valid
  have numbers := numbers_inRange_iff facts
  refine ⟨⟨?_, ?_⟩, ?_⟩
  · rintro ⟨passes, finite⟩
    obtain ⟨⟨email, website⟩, ⟨latitude, longitude⟩, names⟩ := conforms.1 passes
    exact ⟨latitude, longitude, numbers.1 finite, email, website, names⟩
  · intro agrees
    exact ⟨conforms.2 ⟨⟨agrees.email, agrees.website⟩, ⟨agrees.latitude, agrees.longitude⟩,
      agrees.names⟩, numbers.2 agrees.pieces⟩
  · intro axis s check
    rw [coordinate_pattern_iff check]

/-! ## A padded longitude -/

def sampleFormats : Formats where
  formEmail := fun s => s.contains 64
  formUrl := fun s => (units "https://").isPrefixOf s
  email := fun s => s.contains 64
  uri := fun s => (units "https://").isPrefixOf s
  date := isValidIsoDate
  dateTime := fun s => isValidIsoDate (s.take 10) && (s.drop 10).length == 14
  date_iso := fun _ valid => valid
  uri_metbull := fun _ _ _ => rfl

theorem sampleTime : sampleFormats.dateTime (units "2026-01-01T00:00:00.000Z") = true := by decide

/-- The order of `localeCompare` on the paths of a package: case makes no difference. -/
def sortByPath (files : List ManifestFile) : List ManifestFile :=
  files.insertionSort fun first second =>
    JsonText.KeyLe (toLowerCase first.path) (toLowerCase second.path)

theorem sortByPath_perm (files : List ManifestFile) : (sortByPath files).Perm files :=
  List.perm_insertionSort _ files

def samplePlatform : Platform sampleFormats where
  sha256 := Sha256.sha256
  sha256_length := Sha256.sha256_length
  uniqueFileName := fun name _ => name
  sanitizeFileName := fun name => name
  sortFiles := sortByPath
  sortFiles_perm := sortByPath_perm
  generatedAt := units "2026-01-01T00:00:00.000Z"
  generatedAt_format := sampleTime

def sampleValues (longitude pieces : Text) : FormValues where
  issuerName := units "I"
  collectionName := units "C"
  issuerEmail := []
  issuerPhone := []
  issuerAddress := []
  issuerWebsite := []
  certificateId := units "A1"
  issueDate := units "2026-01-01"
  certificateVersion := units "1"
  certificateStatus := .active
  certificateStyle := .museumLedger
  certificateTheme := .fieldArchive
  supersededCertificateId := []
  certificateNotes := []
  meteoriteIdentity := .unclassified
  meteoriteName := units "M"
  meteoriteType := []
  classification := []
  meteoriteSubclass := []
  suspectedType := []
  officialNameVerified := false
  officialClassificationExceptionAttested := none
  weightGrams := units "1.5"
  weightPrecision := units "0"
  specimenForm := units "F"
  dimensions := []
  numberOfPieces := pieces
  preparationState := []
  identifyingMarks := []
  recordedOwner := []
  fallStatus := units "Find"
  fallDate := []
  country := units "K"
  region := []
  locality := []
  latitude := units "45"
  longitude := longitude
  metbullCode := []
  officialReferenceUrl := []
  finderName := []
  recoveryInformation := []
  provenance := []
  previousOwner := []
  intermediaryPurchaserName := []
  buyer := []
  transferDate := []
  invoiceReference := []
  transferNotes := []

theorem png_lowercase : toLowerCase (units "image/png") = units "image/png" := by decide

/-- A black pixel. -/
def samplePng : List UInt8 :=
  [0x89, 0x50, 0x4e, 0x47, 0x0d, 0x0a, 0x1a, 0x0a, 0x00, 0x00, 0x00, 0x0d, 0x49, 0x48, 0x44,
   0x52, 0x00, 0x00, 0x00, 0x01, 0x00, 0x00, 0x00, 0x01, 0x08, 0x00, 0x00, 0x00, 0x00, 0x3a,
   0x7e, 0x9b, 0x55, 0x00, 0x00, 0x00, 0x0a, 0x49, 0x44, 0x41, 0x54, 0x78, 0xda, 0x63, 0x60,
   0x00, 0x00, 0x00, 0x02, 0x00, 0x01, 0xe5, 0x27, 0xde, 0xfc, 0x00, 0x00, 0x00, 0x00, 0x49,
   0x45, 0x4e, 0x44, 0xae, 0x42, 0x60, 0x82]

def samplePhoto : PhotoInput where
  file := ⟨units "p.png", units "image/png", samplePng, png_lowercase⟩
  caption := []
  captureDate := []
  isUnmodifiedOriginal := true
  pixelWidth := .finite false 1 0
  pixelHeight := .finite false 1 0

def sampleContents : Contents := ⟨[], [], [], [], [], [], [], [], []⟩

def sampleSpki : List UInt8 :=
  [0x30, 0x2a, 0x30, 0x05, 0x06, 0x03, 0x2b, 0x65, 0x70, 0x03, 0x21, 0x00, 0x79, 0xb5, 0x56,
   0x2e, 0x8f, 0xe6, 0x54, 0xf9, 0x40, 0x78, 0xb1, 0x12, 0xe8, 0xa9, 0x8b, 0xa7, 0x90, 0x1f,
   0x85, 0x3a, 0xe6, 0x95, 0xbe, 0xd7, 0xe0, 0xe3, 0x91, 0x0b, 0xad, 0x04, 0x96, 0x64]

def samplePem : Text :=
  units "-----BEGIN PUBLIC KEY-----\n" ++
    units "MCowBQYDK2VwAyEAebVWLo/mVPlAeLES6KmLp5AfhTrmlb7X4OORC60ElmQ=\n" ++
    units "-----END PUBLIC KEY-----\n"

def sampleIdentity : SigningIdentity := ⟨sampleSpki, samplePem.map UInt8.ofNat⟩

theorem samplePhoto_accepted : photosAccepted [samplePhoto] none = true := by decide

theorem form_agrees_with_schema_plain :
    (assertV2Manifest sampleFormats (generatedManifest samplePlatform sampleContents
        sampleIdentity (trimmed (sampleValues (units "75.7 W") (units "1"))) [samplePhoto] none) =
      true ∧
      numbersInRange (generatedManifest samplePlatform sampleContents sampleIdentity
        (trimmed (sampleValues (units "75.7 W") (units "1"))) [samplePhoto] none).specimen =
      true) ∧
    (coordinatePattern .longitude (trim (units "5")) = true ↔
      withinBounds .longitude (trim (units "5")) = true) := by
  have result := @form_agrees_with_schema sampleFormats samplePlatform sampleContents
    sampleIdentity (sampleValues (units "75.7 W") (units "1")) _ [samplePhoto] none
    (if_pos (by decide +kernel)) samplePhoto_accepted
  have agrees : Agrees sampleFormats (sampleValues (units "75.7 W") (units "1")) [samplePhoto] := by
    refine ⟨by decide, by decide, by decide +kernel, by decide, by decide, ?_⟩
    intro photo member
    rw [List.mem_singleton.1 member]
    decide
  exact ⟨result.1.2 agrees, result.2 .longitude (units "5") (by decide +kernel)⟩

/-- The form accepts a longitude of `005` and the schema refuses it, and 309 nines are an accepted
number of pieces that is not finite. -/
theorem padded_longitude_is_refused :
    (validateFormValues sampleFormats (sampleValues (units "005") (units "1")) =
        some (trimmed (sampleValues (units "005") (units "1"))) ∧
      photosAccepted [samplePhoto] none = true ∧
      isValidCoordinate (units "005") .longitude = true ∧
      coordinatePattern .longitude (units "005") = false ∧
      assertV2Manifest sampleFormats (generatedManifest samplePlatform sampleContents
        sampleIdentity (trimmed (sampleValues (units "005") (units "1"))) [samplePhoto] none) =
        false) ∧
    (validateFormValues sampleFormats (sampleValues (units "5") (List.replicate 309 57)) =
        some (trimmed (sampleValues (units "5") (List.replicate 309 57))) ∧
      (number (List.replicate 309 57)).isFinite = false) := by
  have accepted : validateFormValues sampleFormats (sampleValues (units "005") (units "1")) =
      some (trimmed (sampleValues (units "005") (units "1"))) := if_pos (by decide +kernel)
  have conforms := manifest_conforms_iff samplePlatform sampleContents sampleIdentity
    (validate_accepted accepted).2 samplePhoto_accepted
  refine ⟨⟨accepted, samplePhoto_accepted, by decide +kernel, by decide, ?_⟩,
    if_pos (by decide +kernel), by decide +kernel⟩
  rw [Bool.eq_false_iff]
  intro passes
  have longitude := (conforms.1 passes).2.1.2
  exact absurd longitude (by decide)

end ManifestSchema
