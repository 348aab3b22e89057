import SpacerocksCoa.KeyBackups
import SpacerocksCoa.PackageRoundTrip

/-!
# Signing keys in a session

The page holds at most one signing identity. It is generated, imported or forgotten, and a
certificate is issued only when the backup of the identity was downloaded or the identity came
from one. An operation on the keys starts and settles later; any number of them may be under way,
in any order, which includes what the disabled buttons of the page rule out.
-/
namespace KeySessions
open JsonText (Text units)
open CodeUnits (isHigh isLow unitChar chars)
open Utf16Texts
open CertificatePackages (Browser)
open PackageVerdict (KeyLaws)
open ManifestSchema (sampleSpki)
open PackageRoundTrip (sampleBrowser signSample verifySample)
open KeyBackups

variable {N Private Public Aes : Type}

/-! ## A key in its packages -/

/-- The identity as the packages contain it. -/
def packageIdentity (subtle : Subtle N Private Public Aes)
    (identity : SigningIdentity Private Public) : ManifestSchema.SigningIdentity :=
  ⟨subtle.exportSpki identity.publicKey, utf8 identity.publicKeyPem⟩

/-- The browser of the package code is the one of the keys. -/
structure Uses {formats : ManifestSchema.Formats} {M : Type} (browser : Browser formats M)
    (subtle : Subtle N Private Public Aes) (identity : SigningIdentity Private Public) : Prop where
  sha256 : browser.sha256 = subtle.sha256
  pemToDer : ∀ text der, KeyBackups.pemToDer (utf16 text) = some der →
    browser.pemToDer text = .ok der
  sign : ∀ message, browser.sign message = subtle.sign identity.privateKey message
  verify : ∀ spki key signature message, subtle.importSpki spki = .ok key →
    browser.verifyEd25519 spki signature message = .ok (subtle.verify key signature message)

theorem derToPem_ascii (der : List UInt8) {label : Text} (ascii : Ascii label) :
    Ascii (derToPem der label) := by
  have body : Ascii ([10].intercalate (chunks 64 (bytesToBase64 der))) := by
    intro c member
    rcases mem_lines _ c member with rfl | inside
    · decide
    · rw [chunks_flatten (by decide)] at inside
      exact (bytesToBase64_plain der c inside).2.2.2
  have line : ∀ {s : Text}, Ascii s → Ascii (10 :: s) := fun plain =>
    @ascii_append [10] _ (by decide) plain
  have last : Ascii (dashes ++ [10]) := by decide
  have closing := ascii_append (show Ascii (units "-----END ") by decide)
    (ascii_append ascii last)
  have inner := ascii_append (show Ascii dashes by decide)
    (line (ascii_append body (line closing)))
  exact ascii_append (show Ascii (units "-----BEGIN ") by decide) (ascii_append ascii inner)

theorem derToPem_read {formats : ManifestSchema.Formats} {M : Type} (browser : Browser formats M)
    (der : List UInt8) {label : Text} (ascii : Ascii label) :
    utf16 (browser.decodeText (utf8 (derToPem der label))) = derToPem der label := by
  have plain := derToPem_ascii der ascii
  have decoded : browser.decodeText (utf8 (derToPem der label)) = chars (derToPem der label) :=
    PackageReading.decodeText_utf8 browser rfl (show 45 < 127 by decide)
  rw [decoded]
  apply utf16_chars
  · exact wellFormed_small fun c member => Nat.lt_trans (plain c member) (by decide)
  · exact fun c member => Nat.lt_trans (plain c member) (by decide)

/-- The keys of a package are those of the identity that signs it. -/
theorem generated_keyLaws {subtle : Subtle N Private Public Aes} (laws : Laws subtle)
    {drawn : Drawn subtle} {passphrase backup : Text} {identity : SigningIdentity Private Public}
    (done : generateSigningIdentity subtle drawn passphrase = .ok (identity, backup))
    {formats : ManifestSchema.Formats} {M : Type} {browser : Browser formats M}
    (uses : Uses browser subtle identity) :
    KeyLaws browser (packageIdentity subtle identity) ∧
      browser.platform.fingerprint (packageIdentity subtle identity) = identity.fingerprint := by
  obtain ⟨key, encrypted, generated⟩ := generated_of done
  obtain ⟨filled, plain⟩ := publicKey_label
  have made := generated.made
  subst made
  refine ⟨⟨?_, fun message => ?_⟩, ?_⟩
  · apply uses.pemToDer
    have read := derToPem_read browser (subtle.exportSpki drawn.publicKey)
      (show Ascii (units "PUBLIC KEY") by decide)
    exact (congrArg KeyBackups.pemToDer read).trans (pemToDer_derToPem _ filled plain)
  · have verified := uses.verify _ _ (browser.sign message) message (laws.spki drawn.publicKey)
    rw [uses.sign, drawn.pair message] at verified
    rw [uses.sign]
    exact verified
  · have hash := congrFun uses.sha256 (subtle.exportSpki drawn.publicKey)
    exact congrArg (fun digest => CodeUnits.formatFingerprint
      (ManifestSchema.bytesToHex digest)) hash

/-! ## A backup -/

def samplePkcs8 : List UInt8 :=
  [0x30, 0x2e, 0x02, 0x01, 0x00, 0x30, 0x05, 0x06, 0x03, 0x2b, 0x65, 0x70, 0x04, 0x22, 0x04,
   0x20, 0x01, 0x02, 0x03, 0x04, 0x05, 0x06, 0x07, 0x08, 0x09, 0x0a, 0x0b, 0x0c, 0x0d, 0x0e,
   0x0f, 0x10, 0x11, 0x12, 0x13, 0x14, 0x15, 0x16, 0x17, 0x18, 0x19, 0x1a, 0x1b, 0x1c, 0x1d,
   0x1e, 0x1f, 0x20]

def sampleSalt : List UInt8 :=
  [0xa0, 0xa1, 0xa2, 0xa3, 0xa4, 0xa5, 0xa6, 0xa7, 0xa8, 0xa9, 0xaa, 0xab, 0xac, 0xad, 0xae, 0xaf]

def sampleIv : List UInt8 :=
  [0xc0, 0xc1, 0xc2, 0xc3, 0xc4, 0xc5, 0xc6, 0xc7, 0xc8, 0xc9, 0xca, 0xcb]

/-- What the passphrase and the salt give. -/
def sampleAes : List UInt8 :=
  [0x01, 0xa4, 0x06, 0x29, 0x57, 0x8e, 0x64, 0x5a, 0xef, 0x87, 0x52, 0xd3, 0x8b, 0x53, 0x0b,
   0xb0, 0x2c, 0xf2, 0x8f, 0x40, 0x1d, 0xf9, 0xee, 0xb2, 0xd4, 0x81, 0x6f, 0x90, 0x05, 0xa9,
   0x0c, 0x6c]

/-- The private key, encrypted. -/
def sampleSecret : List UInt8 :=
  [0x5c, 0x6a, 0xdb, 0x2d, 0x07, 0xa8, 0xb9, 0x35, 0x81, 0xe6, 0xac, 0xaf, 0xec, 0x08, 0x60,
   0x3d, 0x1e, 0x73, 0x73, 0xa5, 0x6c, 0x74, 0xee, 0x74, 0xcb, 0xff, 0xce, 0xa4, 0xe1, 0x50,
   0x37, 0x73, 0x3f, 0xe0, 0x97, 0x37, 0x22, 0xff, 0x57, 0xe2, 0x34, 0xfc, 0x24, 0xe1, 0xc2,
   0x54, 0x8b, 0x3a, 0x94, 0xeb, 0xd3, 0x96, 0x4c, 0x98, 0x9b, 0x06, 0xd3, 0x98, 0x2a, 0x00,
   0x2f, 0x9f, 0x64, 0x94]

def samplePassphrase : Text := units "a passphrase"

def sampleChallenge : List UInt8 := (List.range 32).map fun i => UInt8.ofNat (64 + i)

/-- The parameters of the encryption. -/
def Sealed (key iv context : List UInt8) (tag : Option (JsonText.Json Nat)) : Prop :=
  key = sampleAes ∧ iv = sampleIv ∧ context = authenticatedContext ∧ isNumber tag 128 = true

instance (key iv context : List UInt8) (tag : Option (JsonText.Json Nat)) :
    Decidable (Sealed key iv context tag) := instDecidableAnd

def deriveSample (passphrase : Text) (salt : List UInt8)
    (iterations : Option (JsonText.Json Nat)) : Except Text (List UInt8) :=
  if passphrase = samplePassphrase ∧ salt = sampleSalt ∧ isNumber iterations 600000 = true then
    .ok sampleAes
  else .error (units "OperationError")

def encryptSample (key iv context : List UInt8) (tag : Option (JsonText.Json Nat))
    (plain : List UInt8) : Except Text (List UInt8) :=
  if Sealed key iv context tag ∧ plain = samplePkcs8 then .ok sampleSecret
  else .error (units "OperationError")

def decryptSample (key iv context : List UInt8) (tag : Option (JsonText.Json Nat))
    (secret : List UInt8) : Except Text (List UInt8) :=
  if Sealed key iv context tag ∧ secret = sampleSecret then .ok samplePkcs8
  else .error (units "OperationError")

def importSample (known bytes : List UInt8) : Except Text Unit :=
  if bytes = known then .ok () else .error (units "DataError")

theorem deriveSample_known :
    deriveSample samplePassphrase sampleSalt (some (.number 600000)) = .ok sampleAes :=
  if_pos ⟨rfl, rfl, rfl⟩

theorem encryptSample_known :
    encryptSample sampleAes sampleIv authenticatedContext (some (.number 128)) samplePkcs8 =
      .ok sampleSecret :=
  if_pos ⟨⟨rfl, rfl, rfl, rfl⟩, rfl⟩

theorem importSample_known (known : List UInt8) : importSample known known = .ok () := if_pos rfl

theorem decryptSample_encrypted {key iv context plain secret : List UInt8}
    {tag : Option (JsonText.Json Nat)}
    (encrypted : encryptSample key iv context tag plain = .ok secret) :
    decryptSample key iv context tag secret = .ok plain := by
  unfold encryptSample at encrypted
  split at encrypted
  · next known =>
    have result := Except.ok.inj encrypted
    rw [decryptSample, if_pos ⟨known.1, result.symm⟩, known.2]
  · cases encrypted

/-- The browser knows one pair of keys and what a passphrase makes of it. -/
def sampleSubtle : Subtle Nat Unit Unit (List UInt8) where
  numbers := PackageRoundTrip.decimalFormat
  ofNat n := n
  sha256 := Sha256.sha256
  deriveKey := deriveSample
  encrypt := encryptSample
  decrypt := decryptSample
  exportPkcs8 _ := samplePkcs8
  importPkcs8 := importSample samplePkcs8
  exportSpki _ := sampleSpki
  importSpki := importSample sampleSpki
  sign _ := signSample
  verify _ signature message := signature == signSample message
  typeError := units "TypeError"
  invalidCharacter := units "InvalidCharacterError"

theorem sample_laws : Laws sampleSubtle where
  decrypts _ _ _ _ _ _ := decryptSample_encrypted
  pkcs8 _ := importSample_known samplePkcs8
  spki _ := importSample_known sampleSpki

def sampleDrawn : Drawn sampleSubtle where
  privateKey := ()
  publicKey := ()
  pair _ := beq_self_eq_true _
  salt := sampleSalt
  iv := sampleIv
  now := units "2026-01-01T00:00:00.000Z"

def sampleKey : SigningIdentity Unit Unit where
  privateKey := ()
  publicKey := ()
  publicKeyPem := derToPem sampleSpki (units "PUBLIC KEY")
  fingerprint := sampleSubtle.fingerprintForSpki sampleSpki
  source := .generated

def sampleBackup : Text :=
  bundleText sampleSubtle ⟨sampleDrawn.now, sampleKey.fingerprint, sampleKey.publicKeyPem,
    bytesToBase64 sampleSecret, bytesToBase64 sampleSalt, bytesToBase64 sampleIv⟩

theorem sample_generated :
    generateSigningIdentity sampleSubtle sampleDrawn samplePassphrase =
      .ok (sampleKey, sampleBackup) := by
  have derived : sampleSubtle.deriveKey samplePassphrase sampleDrawn.salt
      (some (sampleSubtle.number pbkdf2Iterations)) = .ok sampleAes := deriveSample_known
  have encrypted : sampleSubtle.encrypt sampleAes sampleDrawn.iv authenticatedContext
      (some (sampleSubtle.number 128)) (sampleSubtle.exportPkcs8 sampleDrawn.privateKey) =
        .ok sampleSecret := encryptSample_known
  simp only [generateSigningIdentity, derived, encrypted, bind, Except.bind]
  rfl

/-- The browser of the packages, with these keys. -/
def keyBrowser : Browser ManifestSchema.sampleFormats Nat :=
  { sampleBrowser with
    pemToDer := fun text =>
      match KeyBackups.pemToDer (utf16 text) with
      | some der => .ok der
      | none => .error "InvalidCharacterError" }

theorem sample_uses : Uses keyBrowser sampleSubtle sampleKey where
  sha256 := rfl
  pemToDer text der read := by
    change (match KeyBackups.pemToDer (utf16 text) with
      | some der => Except.ok der
      | none => .error "InvalidCharacterError") = .ok der
    rw [read]
  sign _ := rfl
  verify spki key signature message imported := by
    have known : spki = sampleSpki := by
      by_contra other
      have refused : sampleSubtle.importSpki spki = .error (units "DataError") := if_neg other
      rw [refused] at imported
      cases imported
    subst known
    exact show verifySample sampleSpki signature message = _ from if_pos rfl

/-- A generated identity comes back from its backup, whatever challenge is drawn, and its packages
verify under its key and show its fingerprint. -/
theorem key_backup_round_trip [DecidableEq N] {subtle : Subtle N Private Public Aes}
    (laws : Laws subtle) {drawn : Drawn subtle} {passphrase backup : Text}
    {identity : SigningIdentity Private Public}
    (done : generateSigningIdentity subtle drawn passphrase = .ok (identity, backup)) :
    (∀ challenge, importSigningIdentity subtle backup passphrase challenge =
        .ok { identity with source := .imported }) ∧
      publicKeyFingerprint subtle identity.publicKeyPem = some identity.fingerprint ∧
      ∀ (formats : ManifestSchema.Formats) (M : Type) (browser : Browser formats M),
        Uses browser subtle identity →
          KeyLaws browser (packageIdentity subtle identity) ∧
          browser.platform.fingerprint (packageIdentity subtle identity) =
            identity.fingerprint :=
  ⟨generated_restores laws done, (generated_consistent laws done).fingerprint,
    fun _ _ _ uses => generated_keyLaws laws done uses⟩

theorem key_backup_round_trip_sample :
    importSigningIdentity sampleSubtle sampleBackup samplePassphrase sampleChallenge =
        .ok { sampleKey with source := .imported } ∧
      publicKeyFingerprint sampleSubtle sampleKey.publicKeyPem = some sampleKey.fingerprint ∧
      KeyLaws keyBrowser (packageIdentity sampleSubtle sampleKey) ∧
      keyBrowser.platform.fingerprint (packageIdentity sampleSubtle sampleKey) =
        sampleKey.fingerprint := by
  obtain ⟨restores, printed, packages⟩ := key_backup_round_trip sample_laws sample_generated
  exact ⟨restores sampleChallenge, printed, packages _ _ keyBrowser sample_uses⟩

/-! ## The session -/

/-- What is under way. -/
inductive KeyOperation where
  | generate (passphrase : Text)
  | open_ (backup passphrase : Text)

/-- The state of the page, beside the files that were saved or opened and the identities of the
certificates that were issued. -/
structure Session (Private Public : Type) where
  identity : Option (SigningIdentity Private Public)
  encryptedBundle : Text
  backupDownloaded : Bool
  keyStatus : Text
  generationStatus : Text
  operations : List KeyOperation
  downloads : List Text
  opened : List Text
  issued : List (SigningIdentity Private Public)

def start : Session Private Public where
  identity := none
  encryptedBundle := []
  backupDownloaded := false
  keyStatus := units "No signing key is loaded."
  generationStatus := []
  operations := []
  downloads := []
  opened := []
  issued := []

def generateKey (s : Session Private Public) (generatePassphrase confirmPassphrase : Text) :
    Session Private Public :=
  if generatePassphrase.length < 12 then
    { s with keyStatus := units "Use a passphrase of at least 12 characters." }
  else if generatePassphrase ≠ confirmPassphrase then
    { s with keyStatus := units "The two passphrases do not match." }
  else
    { s with
      keyStatus := units "Generating and encrypting an Ed25519 key locally..."
      operations := s.operations ++ [.generate generatePassphrase] }

/-- The rest of `generateKey`, after the key was generated. -/
def keyGenerated (s : Session Private Public)
    (result : Except Text (SigningIdentity Private Public × Text)) : Session Private Public :=
  match result with
  | .ok (identity, encryptedBundle) =>
    { s with
      identity := some identity
      encryptedBundle := encryptedBundle
      backupDownloaded := false
      keyStatus := units ("New signing identity created. " ++
        "Download the encrypted backup before issuing a certificate.") }
  | .error message => { s with keyStatus := message }

def downloadKeyBackup (s : Session Private Public) : Session Private Public :=
  if s.encryptedBundle = [] then s
  else
    { s with
      downloads := s.downloads ++ [s.encryptedBundle]
      backupDownloaded := true
      keyStatus := units ("Encrypted key backup downloaded. " ++
        "Keep the file and its passphrase in separate secure locations.") }

def importKey (s : Session Private Public) (importFile : Option Text) (importPassphrase : Text) :
    Session Private Public :=
  match importFile with
  | none =>
    { s with keyStatus := units "Choose an encrypted key backup and enter its passphrase." }
  | some file =>
    if importPassphrase = [] then
      { s with keyStatus := units "Choose an encrypted key backup and enter its passphrase." }
    else
      { s with
        keyStatus := units "Decrypting and validating the key pair locally..."
        operations := s.operations ++ [.open_ file importPassphrase] }

/-- The rest of `importKey`, after the backup was opened. -/
def keyImported (s : Session Private Public) (file : Text)
    (result : Except Text (SigningIdentity Private Public)) : Session Private Public :=
  match result with
  | .ok imported =>
    { s with
      identity := some imported
      encryptedBundle := []
      backupDownloaded := true
      keyStatus := units "Existing signing identity loaded and matched to its public key."
      opened := s.opened ++ [file] }
  | .error message => { s with keyStatus := message }

def forgetKey (s : Session Private Public) : Session Private Public :=
  { s with
    identity := none
    encryptedBundle := []
    backupDownloaded := false
    keyStatus := units "The signing key was removed from this browser session." }

def unattested : Text :=
  units ("Confirm that every listed source file is an unmodified original photograph of this " ++
    "exact specimen.")

/-- A photograph is whether it was attested. -/
def generatePackage (s : Session Private Public) (photos : List Bool) : Session Private Public :=
  match s.identity with
  | none =>
    { s with generationStatus :=
        units "Generate or import a signing identity before issuing the certificate." }
  | some identity =>
    if s.backupDownloaded = false then
      { s with generationStatus :=
          units "Download the encrypted signing-key backup before issuing the first certificate." }
    else if photos.length = 0 then
      { s with generationStatus :=
          units "Add at least one source-original photograph of this specimen." }
    else if photos.any (!·) = true then
      { s with generationStatus := unattested }
    else
      { s with
        generationStatus :=
          units "Rendering, hashing, signing, and packaging entirely in this browser..."
        issued := s.issued ++ [identity] }

def issueReady (s : Session Private Public) (isValid : Bool) (photos : List Bool) : Bool :=
  isValid && s.identity.isSome && s.backupDownloaded &&
    (decide (photos.length > 0) && photos.all id) && decide (photos.length > 0)

def submitPackage (s : Session Private Public) (isValid : Bool) (photos : List Bool) :
    Session Private Public :=
  if issueReady s isValid photos = false then
    { s with generationStatus :=
        units "Complete the listed requirements before issuing the COA." }
  else generatePackage s photos

/-! ## Runs -/

section Runs
variable [DecidableEq N] (subtle : Subtle N Private Public Aes)

/-- What the user does, and the end of an operation with what the browser draws for it. -/
inductive Event where
  | generateKey (generatePassphrase confirmPassphrase : Text)
  | downloadKeyBackup
  | importKey (importFile : Option Text) (importPassphrase : Text)
  | forgetKey
  | submitPackage (isValid : Bool) (photos : List Bool)
  | settled (operation : Nat) (drawn : Drawn subtle) (challenge : List UInt8)

def settle (s : Session Private Public) (operation : KeyOperation) (drawn : Drawn subtle)
    (challenge : List UInt8) : Session Private Public :=
  match operation with
  | .generate passphrase => keyGenerated s (generateSigningIdentity subtle drawn passphrase)
  | .open_ backup passphrase =>
    keyImported s backup (importSigningIdentity subtle backup passphrase challenge)

def step (s : Session Private Public) : Event subtle → Session Private Public
  | .generateKey generatePassphrase confirmPassphrase =>
    generateKey s generatePassphrase confirmPassphrase
  | .downloadKeyBackup => downloadKeyBackup s
  | .importKey importFile importPassphrase => importKey s importFile importPassphrase
  | .forgetKey => forgetKey s
  | .submitPackage isValid photos => submitPackage s isValid photos
  | .settled i drawn challenge =>
    match s.operations[i]? with
    | none => s
    | some operation =>
      settle subtle { s with operations := s.operations.eraseIdx i } operation drawn challenge

def run (s : Session Private Public) (events : List (Event subtle)) : Session Private Public :=
  events.foldl (step subtle) s

/-- The backup opens with the passphrase, whatever is drawn, as the identity that was generated. -/
def Restores (backup passphrase : Text) (identity : SigningIdentity Private Public) : Prop :=
  12 ≤ passphrase.length ∧ ∀ challenge,
    importSigningIdentity subtle backup passphrase challenge =
      .ok { identity with source := .imported }

/-- The user has a file that the identity can be read from. -/
structure Recoverable (downloads opened : List Text) (identity : SigningIdentity Private Public) :
    Prop where
  consistent : Consistent subtle identity
  saved : (identity.source = .generated ∧
      ∃ backup ∈ downloads, ∃ passphrase, Restores subtle backup passphrase identity) ∨
    identity.source = .imported ∧ ∃ backup ∈ opened, ∃ passphrase challenge,
      importSigningIdentity subtle backup passphrase challenge = .ok identity

/-- What holds between any two events. -/
structure Kept (s : Session Private Public) : Prop where
  bundle : ∀ identity, s.identity = some identity → s.encryptedBundle ≠ [] →
    Consistent subtle identity ∧ identity.source = .generated ∧
      ∃ passphrase, Restores subtle s.encryptedBundle passphrase identity
  downloaded : ∀ identity, s.identity = some identity → s.backupDownloaded = true →
    Recoverable subtle s.downloads s.opened identity
  issued : ∀ identity ∈ s.issued, Recoverable subtle s.downloads s.opened identity
  long : ∀ passphrase, .generate passphrase ∈ s.operations → 12 ≤ passphrase.length

variable {subtle}

theorem Recoverable.mono {downloads downloads' opened opened' : List Text}
    {identity : SigningIdentity Private Public}
    (recoverable : Recoverable subtle downloads opened identity)
    (downloads_sub : downloads ⊆ downloads') (opened_sub : opened ⊆ opened') :
    Recoverable subtle downloads' opened' identity := by
  refine ⟨recoverable.consistent, ?_⟩
  rcases recoverable.saved with ⟨source, backup, member, restores⟩ | ⟨source, backup, member, imports⟩
  · exact .inl ⟨source, backup, downloads_sub member, restores⟩
  · exact .inr ⟨source, backup, opened_sub member, imports⟩

theorem kept_start : Kept subtle (start : Session Private Public) where
  bundle _ held := nomatch held
  downloaded _ held := nomatch held
  issued _ member := absurd member List.not_mem_nil
  long _ member := absurd member List.not_mem_nil

/-- A message changes nothing else. -/
theorem Kept.status {s : Session Private Public} (kept : Kept subtle s) (keyStatus : Text) :
    Kept subtle { s with keyStatus := keyStatus } :=
  ⟨kept.bundle, kept.downloaded, kept.issued, kept.long⟩

theorem Kept.generation {s : Session Private Public} (kept : Kept subtle s)
    (generationStatus : Text) : Kept subtle { s with generationStatus := generationStatus } :=
  ⟨kept.bundle, kept.downloaded, kept.issued, kept.long⟩

/-- An operation is begun: a key is generated under a passphrase of twelve characters at least. -/
theorem Kept.begun {s : Session Private Public} (kept : Kept subtle s) {operation : KeyOperation}
    (long : ∀ passphrase, operation = .generate passphrase → 12 ≤ passphrase.length)
    (keyStatus : Text) :
    Kept subtle { s with keyStatus := keyStatus, operations := s.operations ++ [operation] } := by
  refine ⟨kept.bundle, kept.downloaded, kept.issued, fun passphrase member => ?_⟩
  rcases List.mem_append.1 member with old | new
  · exact kept.long passphrase old
  · exact long passphrase (List.mem_singleton.1 new).symm

theorem generateKey_kept {s : Session Private Public} (kept : Kept subtle s)
    (generatePassphrase confirmPassphrase : Text) :
    Kept subtle (generateKey s generatePassphrase confirmPassphrase) := by
  unfold generateKey
  split
  · exact kept.status _
  · next long =>
    split
    · exact kept.status _
    · apply kept.begun
      intro passphrase same
      cases same
      exact Nat.not_lt.1 long

theorem importKey_kept {s : Session Private Public} (kept : Kept subtle s)
    (importFile : Option Text) (importPassphrase : Text) :
    Kept subtle (importKey s importFile importPassphrase) := by
  unfold importKey
  split
  · exact kept.status _
  · split
    · exact kept.status _
    · apply kept.begun
      intro passphrase same
      cases same

/-- The backup of the identity that is held is saved. -/
theorem downloadKeyBackup_kept {s : Session Private Public} (kept : Kept subtle s) :
    Kept subtle (downloadKeyBackup s) := by
  unfold downloadKeyBackup
  split
  · exact kept
  · next filled =>
    refine ⟨kept.bundle, fun identity held _ => ?_, fun identity member => ?_, kept.long⟩
    · obtain ⟨consistent, source, restores⟩ := kept.bundle identity held filled
      exact ⟨consistent, .inl ⟨source, _, List.mem_append_right _ List.mem_cons_self, restores⟩⟩
    · exact (kept.issued identity member).mono (List.subset_append_left _ _) (List.Subset.refl _)

theorem forgetKey_kept {s : Session Private Public} (kept : Kept subtle s) :
    Kept subtle (forgetKey s) where
  bundle _ held := nomatch held
  downloaded _ held := nomatch held
  issued := kept.issued
  long := kept.long

/-- Only an identity whose backup exists is issued. -/
theorem generatePackage_kept {s : Session Private Public} (kept : Kept subtle s)
    (photos : List Bool) : Kept subtle (generatePackage s photos) := by
  unfold generatePackage
  split
  · exact kept.generation _
  · next identity held =>
    split
    · exact kept.generation _
    · next downloaded =>
      split
      · exact kept.generation _
      · split
        · exact kept.generation _
        · refine ⟨kept.bundle, kept.downloaded, fun other member => ?_, kept.long⟩
          rcases List.mem_append.1 member with old | new
          · exact kept.issued other old
          · rw [List.mem_singleton.1 new]
            exact kept.downloaded identity held (Bool.not_eq_false _ ▸ downloaded)

theorem submitPackage_kept {s : Session Private Public} (kept : Kept subtle s) (isValid : Bool)
    (photos : List Bool) : Kept subtle (submitPackage s isValid photos) := by
  unfold submitPackage
  split
  · exact kept.generation _
  · exact generatePackage_kept kept photos

/-- The new identity is held with the backup that it was written to, and no longer counts as
saved. -/
theorem keyGenerated_kept {s : Session Private Public} (laws : Laws subtle)
    (kept : Kept subtle s) {passphrase : Text} (long : 12 ≤ passphrase.length)
    (drawn : Drawn subtle) :
    Kept subtle (keyGenerated s (generateSigningIdentity subtle drawn passphrase)) := by
  cases generated : generateSigningIdentity subtle drawn passphrase with
  | error message => exact kept.status message
  | ok result =>
    refine ⟨fun identity held _ => ?_, fun _ _ downloaded => (Bool.noConfusion downloaded),
      kept.issued, kept.long⟩
    cases held
    have source : result.1.source = .generated := by
      obtain ⟨key, encrypted, made⟩ := generated_of generated
      rw [made.made]
    exact ⟨generated_consistent laws generated, source, passphrase, long,
      generated_restores laws generated⟩

/-- The imported identity is the one of the file. -/
theorem keyImported_kept {s : Session Private Public} (kept : Kept subtle s)
    (backup passphrase : Text) (challenge : List UInt8) :
    Kept subtle (keyImported s backup
      (importSigningIdentity subtle backup passphrase challenge)) := by
  cases imported : importSigningIdentity subtle backup passphrase challenge with
  | error message => exact kept.status message
  | ok found =>
    refine ⟨fun _ _ filled => absurd rfl filled, fun identity held _ => ?_,
      fun identity member => ?_, kept.long⟩
    · cases held
      obtain ⟨consistent, source, _⟩ := import_checked imported
      exact ⟨consistent, .inr ⟨source, backup, List.mem_append_right _ List.mem_cons_self,
        passphrase, challenge, imported⟩⟩
    · exact (kept.issued identity member).mono (List.Subset.refl _) (List.subset_append_left _ _)

theorem step_kept (laws : Laws subtle) {s : Session Private Public} (kept : Kept subtle s)
    (event : Event subtle) : Kept subtle (step subtle s event) := by
  cases event with
  | generateKey generatePassphrase confirmPassphrase => exact generateKey_kept kept _ _
  | downloadKeyBackup => exact downloadKeyBackup_kept kept
  | importKey importFile importPassphrase => exact importKey_kept kept _ _
  | forgetKey => exact forgetKey_kept kept
  | submitPackage isValid photos => exact submitPackage_kept kept _ _
  | settled i drawn challenge =>
    change Kept subtle (match s.operations[i]? with
      | none => s
      | some operation =>
        settle subtle { s with operations := s.operations.eraseIdx i } operation drawn challenge)
    cases found : s.operations[i]? with
    | none => exact kept
    | some operation =>
      have fewer : Kept subtle { s with operations := s.operations.eraseIdx i } :=
        ⟨kept.bundle, kept.downloaded, kept.issued, fun passphrase member =>
          kept.long passphrase (List.mem_of_mem_eraseIdx member)⟩
      cases operation with
      | generate passphrase =>
        exact keyGenerated_kept laws fewer (kept.long passphrase (List.mem_of_getElem? found)) drawn
      | open_ backup passphrase => exact keyImported_kept fewer backup passphrase challenge

theorem run_kept (laws : Laws subtle) {s : Session Private Public} (kept : Kept subtle s)
    (events : List (Event subtle)) : Kept subtle (run subtle s events) := by
  induction events generalizing s with
  | nil => exact kept
  | cons event events ih => exact ih (step_kept laws kept event)

/-- Whatever is done in a session and in whatever order its operations settle, each identity that
a certificate was issued with can be read from a file of the user: one that was generated here,
from a downloaded backup, under a passphrase of twelve characters at least. -/
theorem issuing_keys_are_recoverable (laws : Laws subtle) (events : List (Event subtle)) :
    ∀ identity ∈ (run subtle (start : Session Private Public) events).issued,
      Recoverable subtle (run subtle (start : Session Private Public) events).downloads
        (run subtle (start : Session Private Public) events).opened identity :=
  (run_kept laws kept_start events).issued

end Runs

/-- A key is generated, saved, used and forgotten. -/
def sampleEvents : List (Event sampleSubtle) :=
  [.generateKey samplePassphrase samplePassphrase, .settled 0 sampleDrawn sampleChallenge,
    .downloadKeyBackup, .submitPackage true [true], .forgetKey]

theorem sample_issued : (run sampleSubtle start sampleEvents).issued = [sampleKey] := rfl

theorem issuing_keys_are_recoverable_sample :
    Recoverable sampleSubtle (run sampleSubtle start sampleEvents).downloads
      (run sampleSubtle start sampleEvents).opened sampleKey := by
  have issued : sampleKey ∈ (run sampleSubtle start sampleEvents).issued := by
    rw [sample_issued]
    exact List.mem_cons_self
  exact issuing_keys_are_recoverable sample_laws sampleEvents sampleKey issued

end KeySessions
