import Mathlib.Algebra.Order.BigOperators.Group.List
import SpacerocksCoa.PackageVerdict
import SpacerocksCoa.StoredArchives

/-!
# Built packages and the verifier

Which of the packages that the builder hands out the verifier accepts. A form may give a number
of pieces that is an infinity, and an uploaded file may be called `manifest.json`; the builder
lets both pass.
-/
namespace PackageRoundTrip
open JsonText (Text hexDigit hex4 escapeChar units substitute)
open ManifestSchema
open CodeUnits (chars digit natText natText_digit natText_nonempty readNat readNat_natText)
open Utf16Texts
open ManifestJson (quoteUnit quoteUnits sortJson)
open ReadManifests (Reordered reordered_get reading sameShape_of_same)
open CertificatePackages
open PackageFiles
open PackageReading
open PackageChecks
open PackageVerdict
open JsNumbers (JsNumber trim natOf overflow)
open StoredArchives
open PhotographMetadata (DecodedDimensions)
open ZipDirectory (decodeFatal inspectZipCentralDirectory)
open PackageVerifier (Json filesOf verifyCertificateZip
  endsWith)

/-! ## Numbers and a schema -/

/-- Numbers from here on are written with an exponent. -/
def exponentFrom : Nat := 10 ^ 21

def jsNumber (n : Nat) : Text :=
  if n < exponentFrom then natText n else natText n ++ units "e0"

def fromJsNumber (s : Text) : Option Nat := some (readNat (s.takeWhile digit))

theorem natText_digits (n : Nat) : ∀ c ∈ natText n, digit c = true := by
  intro c member
  have range := natText_digit n c member
  rw [digit, Bool.and_eq_true, decide_eq_true_eq, decide_eq_true_eq]
  exact range

theorem jsNumber_digits (n : Nat) : (jsNumber n).takeWhile digit = natText n := by
  unfold jsNumber
  split
  · exact List.takeWhile_eq_self_iff.2 (natText_digits n)
  · rw [List.takeWhile_append_of_pos (natText_digits n)]
    exact List.append_nil _

theorem number_read (n : Nat) : fromJsNumber (jsNumber n) = some n := by
  rw [fromJsNumber, jsNumber_digits, readNat_natText]

theorem number_numeric (n : Nat) : ∀ c ∈ jsNumber n, JsonText.isNumeric c = true := by
  have digits : ∀ c ∈ natText n, JsonText.isNumeric c = true := by
    intro c member
    have range := natText_digit n c member
    simp only [JsonText.isNumeric, range.1, range.2, decide_true, Bool.and_self, Bool.true_or]
  unfold jsNumber
  split
  · exact digits
  · exact List.forall_mem_append.2 ⟨digits, by decide⟩

theorem number_nonempty (n : Nat) : jsNumber n ≠ [] := by
  intro empty
  have nothing := jsNumber_digits n
  rw [empty] at nothing
  exact natText_nonempty n nothing.symm

def decimalFormat : JsonText.NumberFormat Nat where
  write := jsNumber
  read := fromJsNumber
  read_write := number_read
  numeric := number_numeric
  nonempty := number_nonempty

theorem fatal_default (bytes : List UInt8) (text : List Char)
    (decoded : decodeFatal bytes = some text) : (decodeFatal bytes).getD [] = text := by
  rw [decoded, Option.getD_some]

theorem natValue_cast (n : JsNumber) (_ : n.isInteger = true) (_ : n.nonNegative = true) :
    ((natValue n : Nat) : Rat) = (natValue n : Rat) := rfl

def isStated : Option Json → Bool
  | some (.number _) => true
  | some (.infinite _) => true
  | _ => false

/-- The schema of the sample asks for the number of pieces only. -/
def statesPieces (json : Json) : Bool :=
  isStated (PackageVerifier.optionalGet (json.get "specimen") "numberOfPieces")

section Order
variable {N : Type} {number : N → Json}

theorem reordered_stated {a b : Json} (reordered : Reordered number a b) :
    isStated (some a) = isStated (some b) := by
  obtain ⟨w, rfl, parsed, rfl, same, distinct⟩ := reordered
  cases sameShape_of_same same distinct with
  | leaf => rfl
  | array => rw [reading, reading]; rfl
  | object => rw [reading, reading]; rfl

theorem reordered_pieces (scalar : ∀ n key, (number n).get key = none) {a b : Json}
    (reordered : Reordered number a b) : statesPieces a = statesPieces b := by
  have specimens := reordered_get scalar reordered (show Plain "specimen" by decide)
  rw [statesPieces, statesPieces]
  generalize a.get "specimen" = first at specimens ⊢
  generalize b.get "specimen" = second at specimens ⊢
  cases specimens with
  | none => rfl
  | @some c d one =>
    have pieces := reordered_get scalar one (show Plain "numberOfPieces" by decide)
    change isStated (c.get "numberOfPieces") = isStated (d.get "numberOfPieces")
    generalize c.get "numberOfPieces" = first at pieces ⊢
    generalize d.get "numberOfPieces" = second at pieces ⊢
    cases pieces with
    | none => rfl
    | some two => exact reordered_stated two

end Order

/-! ## A library -/

/-- An entry that an archive can hold. -/
def FitsEntry (entry : Text × List UInt8) : Prop :=
  decodeFatal (utf8 entry.1) = some (chars entry.1) ∧ entry.2.length < 65536 * 65536 ∧
    (utf8 entry.1).length < 65536

instance (entry : Text × List UInt8) : Decidable (FitsEntry entry) :=
  instDecidableAnd

def storedFile (entry : Text × List UInt8) : Option StoredFile :=
  if fits : FitsEntry entry then
    some ⟨chars entry.1, utf8 entry.1, entry.2, fits.1, fits.2.1, fits.2.2⟩
  else none

def generateSample (entries : List (Text × List UInt8)) : List UInt8 :=
  storedArchive (entries.filterMap storedFile)

theorem storedFiles_all {entries : List (Text × List UInt8)}
    (fits : ∀ entry ∈ entries, FitsEntry entry) :
    (entries.filterMap storedFile).map (fun file => (file.name, file.nameBytes, file.content)) =
      entries.map fun entry => (chars entry.1, utf8 entry.1, entry.2) := by
  induction entries with
  | nil => rfl
  | cons entry entries ih =>
    have own : storedFile entry = some _ := dif_pos (fits entry List.mem_cons_self)
    rw [List.filterMap_cons_some own, List.map_cons, List.map_cons,
      ih fun other member => fits other (List.mem_cons_of_mem _ member)]

/-- The entries of an archive that can be read again. -/
structure FitsZip (entries : List (Text × List UInt8)) : Prop where
  each : ∀ entry ∈ entries, FitsEntry entry
  count : entries.length < 0xffff
  size : (entries.map fun entry => 46 + (utf8 entry.1).length).sum < 0xffffffff
  offset : (entries.map fun entry => entry.2.length).sum < 0xffffffff
  distinct : (entries.map fun entry => chars entry.1).Nodup
  plain : ∀ entry ∈ entries, endsWith (chars entry.1) ['/'] = false

section Lengths
variable {entries : List (Text × List UInt8)} (fits : ∀ entry ∈ entries, FitsEntry entry)
include fits

theorem storedFiles_names : (entries.filterMap storedFile).map StoredFile.name =
    entries.map fun entry => chars entry.1 := by
  have parts := congrArg (List.map Prod.fst) (storedFiles_all fits)
  rwa [List.map_map, List.map_map] at parts

theorem storedFiles_directory :
    (ZipDirectory.directory ((entries.filterMap storedFile).map StoredFile.entry)).length =
      (entries.map fun entry => 46 + (utf8 entry.1).length).sum := by
  have parts := congrArg (List.map fun part => 46 + part.2.1.length) (storedFiles_all fits)
  have record : (fun entry => entry.record.length) ∘ StoredFile.entry =
      (fun part => 46 + part.2.1.length) ∘ fun file : StoredFile =>
        (file.name, file.nameBytes, file.content) := by
    funext file
    exact ZipDirectory.record_length file.entry
  rw [ZipDirectory.directory, List.length_flatMap, List.map_map, record, ← List.map_map, parts,
    List.map_map]
  rfl

theorem storedFiles_contents : (contents (entries.filterMap storedFile)).length =
    (entries.map fun entry => entry.2.length).sum := by
  have parts := congrArg (List.map fun part => part.2.2.length) (storedFiles_all fits)
  rw [List.map_map, List.map_map] at parts
  rw [contents, List.length_flatMap]
  exact congrArg List.sum parts

end Lengths

theorem FitsZip.archive {entries : List (Text × List UInt8)} (fits : FitsZip entries) :
    FitsArchive (entries.filterMap storedFile) where
  count := by
    have count := congrArg List.length (storedFiles_all fits.each)
    rw [List.length_map, List.length_map] at count
    rw [count]
    exact fits.count
  size := by
    rw [storedFiles_directory fits.each]
    exact fits.size
  offset := by
    rw [storedFiles_contents fits.each]
    exact fits.offset
  distinct := by
    rw [storedFiles_names fits.each]
    exact fits.distinct

theorem generated_listed {entries : List (Text × List UInt8)} (fits : FitsZip entries) :
    ∃ rawEntries, inspectZipCentralDirectory (generateSample entries) = .ok rawEntries ∧
      ((filesOf rawEntries).map fun raw => (raw.name, raw.uncompressedBytes)).Perm
        (entries.map fun entry => (chars entry.1, entry.2.length)) := by
  refine ⟨_, inspect_stored fits.archive, ?_⟩
  have pairs : (entries.filterMap storedFile).map (fun file =>
      (file.name, file.content.length)) =
        entries.map fun entry => (chars entry.1, entry.2.length) := by
    have parts := congrArg (List.map fun part => (part.1, part.2.2.length))
      (storedFiles_all fits.each)
    rwa [List.map_map, List.map_map] at parts
  have all : filesOf ((entries.filterMap storedFile).map StoredFile.raw) =
      (entries.filterMap storedFile).map StoredFile.raw := by
    rw [filesOf, List.filter_eq_self]
    intro raw member
    obtain ⟨file, inside, rfl⟩ := List.mem_map.1 member
    have named : (file.name, file.content.length) ∈
        entries.map fun entry => (chars entry.1, entry.2.length) := by
      rw [← pairs]
      exact List.mem_map.2 ⟨file, inside, rfl⟩
    obtain ⟨entry, given, same⟩ := List.mem_map.1 named
    have name : file.raw.name = chars entry.1 := (congrArg Prod.fst same).symm
    rw [name, fits.plain entry given]
    rfl
  rw [all, List.map_map]
  exact .of_eq pairs

theorem generated_opened {entries : List (Text × List UInt8)} (fits : FitsZip entries) :
    ∃ zip, openStored (generateSample entries) = .ok zip ∧
      ∀ entry ∈ entries, zip (chars entry.1) = .ok entry.2 := by
  obtain ⟨zip, opened, returns⟩ := openStored_stored fits.archive
  refine ⟨zip, opened, fun entry member => ?_⟩
  have named : (chars entry.1, utf8 entry.1, entry.2) ∈
      (entries.filterMap storedFile).map fun file => (file.name, file.nameBytes, file.content) := by
    rw [storedFiles_all fits.each]
    exact List.mem_map.2 ⟨entry, member, rfl⟩
  obtain ⟨file, inside, same⟩ := List.mem_map.1 named
  have name : file.name = chars entry.1 := congrArg Prod.fst same
  have content : file.content = entry.2 := congrArg (fun part => part.2.2) same
  rw [← name, ← content]
  exact returns file inside

/-! ## A sample -/

/-- What the key of the sample signs: the digests of two manifests and of a challenge, each with
its signature. -/
def signatures : List (List UInt8 × List UInt8) :=
  [([0x90, 0x52, 0x5f, 0xe5, 0x6a, 0xf9, 0xd8, 0x01, 0x8b, 0x6b, 0x48, 0x2a, 0x97, 0x21, 0xc4,
     0x78, 0x2a, 0x23, 0x83, 0x43, 0x88, 0xef, 0x29, 0x8d, 0xaa, 0xf5, 0xd1, 0x2e, 0x29, 0xad,
     0xb8, 0x59],
    [0x0a, 0xdf, 0x7e, 0x57, 0x2c, 0x96, 0xba, 0x8e, 0xc4, 0x7c, 0x04, 0x6f, 0xfa, 0x1c, 0x43,
     0x07, 0x2f, 0x8d, 0xa3, 0xf0, 0x12, 0xe0, 0xd8, 0x19, 0x29, 0x5a, 0xe9, 0x0d, 0x4c, 0xff,
     0x78, 0x96, 0x32, 0x29, 0xcb, 0x94, 0x59, 0x24, 0xc0, 0xeb, 0xcd, 0xcf, 0x71, 0x84, 0xbf,
     0x96, 0x64, 0x70, 0x34, 0xe1, 0x69, 0xbd, 0x8d, 0x77, 0x27, 0xa3, 0x22, 0x4e, 0x9a, 0xbf,
     0x26, 0x08, 0x49, 0x04]),
   ([0x0b, 0x9b, 0xf2, 0x95, 0xbc, 0xbd, 0xe4, 0xaf, 0xbe, 0x39, 0xbb, 0x48, 0x90, 0xac, 0x2b,
     0xe2, 0xe7, 0x47, 0x3e, 0x28, 0xb9, 0x5a, 0x65, 0x40, 0xc7, 0x15, 0xd6, 0xcc, 0xa6, 0xf0,
     0xb6, 0x62],
    [0xe5, 0x68, 0xdf, 0xe7, 0xb3, 0x2a, 0x0d, 0x57, 0x83, 0xa9, 0xab, 0xcd, 0x8a, 0x15, 0x56,
     0xa0, 0x76, 0x79, 0x43, 0xda, 0x98, 0xfa, 0xa6, 0x32, 0xb5, 0x5e, 0x63, 0xf4, 0xde, 0xde,
     0x43, 0x38, 0xd7, 0x1a, 0x52, 0xf3, 0x2b, 0x6a, 0x64, 0x2b, 0x3d, 0x7d, 0x4f, 0xc1, 0x72,
     0x81, 0x44, 0x9e, 0x59, 0xcd, 0x28, 0x84, 0x3f, 0x26, 0xd0, 0x0d, 0xf9, 0xb5, 0xee, 0xa7,
     0x70, 0x97, 0x07, 0x08]),
   ([0xca, 0x2a, 0x4f, 0xe7, 0x27, 0xfa, 0xae, 0xcf, 0x16, 0xec, 0xd1, 0x30, 0xa8, 0x6e, 0x08,
     0x85, 0xc5, 0x54, 0x0c, 0x05, 0x37, 0x53, 0x40, 0x44, 0x50, 0x71, 0xc0, 0x65, 0x75, 0x55,
     0xfd, 0x42],
    [0x4f, 0x26, 0xbb, 0x30, 0x4a, 0x12, 0xb6, 0xef, 0x73, 0x17, 0xfd, 0x9c, 0xa9, 0x99, 0x2a,
     0xd5, 0x58, 0x82, 0x08, 0x3a, 0x59, 0x76, 0x00, 0x88, 0x32, 0x6a, 0xe7, 0xfa, 0xd0, 0x30,
     0x4c, 0xb4, 0x6d, 0xd2, 0x9c, 0xf0, 0x5a, 0x4e, 0x18, 0x18, 0x4f, 0x1a, 0x9d, 0xa4, 0xb4,
     0x3b, 0xfc, 0x61, 0xcd, 0x73, 0x46, 0x3b, 0x0a, 0x7f, 0xe2, 0x33, 0x37, 0x73, 0x49, 0xe1,
     0x77, 0xd5, 0x8f, 0x07])]

def signSample (message : List UInt8) : List UInt8 :=
  ((signatures.find? fun known => known.1 == Sha256.sha256 message).map Prod.snd).getD []

def pemToDerSample (pem : List Char) : Except String (List UInt8) :=
  if pem = samplePem.map Char.ofNat then .ok sampleSpki else .error "InvalidCharacterError"

def verifySample (spki signature message : List UInt8) : Except String Bool :=
  if spki = sampleSpki then .ok (signature == signSample message) else .error "DataError"

def decodeSample (bytes : List UInt8) (_ : List Char) : Except String DecodedDimensions :=
  if bytes = samplePng then .ok ⟨1, 1⟩ else .error "InvalidStateError"

def sampleBrowser : Browser sampleFormats Nat where
  sha256 := Sha256.sha256
  sha256_length := Sha256.sha256_length
  normalize name := name
  sortFiles := sortByPath
  sortFiles_perm := sortByPath_perm
  generatedAt := units "2026-01-01T00:00:00.000Z"
  generatedAt_format := sampleTime
  numbers := decimalFormat
  ofNumber := natValue
  double n := (n : Rat)
  double_integer := natValue_cast
  decodeText bytes := (decodeFatal bytes).getD []
  decodeText_fatal := fatal_default
  otherString _ := []
  validateV1 _ := false
  validateV2 := statesPieces
  pemToDer := pemToDerSample
  sign := signSample
  verifyEd25519 := verifySample
  decodeImageDimensions := decodeSample
  generateAsync := generateSample
  loadAsync := openStored

theorem sample_laws : SchemaLaws sampleBrowser where
  order v w same distinct := by
    have scalar : ∀ n key, (sampleBrowser.seen n).get key = none := by
      intro n key
      cases n with
      | nan => rfl
      | infinite negative => rfl
      | finite value => rfl
    exact reordered_pieces scalar ⟨w, rfl, v, rfl, same, distinct⟩
  pieces json null := by
    change isStated _ = false
    rw [null]
    rfl

theorem pem_read :
    sampleBrowser.decodeText sampleIdentity.publicKeyPem = samplePem.map Char.ofNat := by
  decide

theorem pem_known : pemToDerSample (samplePem.map Char.ofNat) = .ok sampleSpki := if_pos rfl

theorem sample_keys : KeyLaws sampleBrowser sampleIdentity where
  key := by
    rw [pem_read]
    exact pem_known
  signs message := by
    change verifySample sampleSpki (signSample message) message = .ok true
    rw [verifySample, if_pos rfl, beq_self_eq_true]

def sampleForm : FormValues :=
  { sampleValues (units "5") (units "1") with weightGrams := units "2" }

def namedPhoto (name : Text) : PhotoInput where
  file := ⟨name, units "image/png", samplePng, png_lowercase⟩
  caption := []
  captureDate := []
  isUnmodifiedOriginal := true
  pixelWidth := .finite false 1 0
  pixelHeight := .finite false 1 0

def sampleManifest (name : Text) : Manifest :=
  generatedManifest sampleBrowser.platform sampleContents sampleIdentity (trimmed sampleForm)
    [namedPhoto name] none

def samplePackage (name : Text) : Package where
  manifest := sampleManifest name
  root := safeId sampleBrowser (trimmed sampleForm).certificateId
  files := packageFiles sampleBrowser (sampleManifest name)
    (evidence sampleBrowser sampleContents sampleIdentity [namedPhoto name] none)

theorem sample_accepted : validateFormValues sampleFormats sampleForm = some (trimmed sampleForm) :=
  if_pos (by decide +kernel)

theorem sample_built {name : Text} (photo : photosAccepted [namedPhoto name] none = true)
    (schema : CertificatePackages.assertV2Manifest sampleBrowser (sampleManifest name) = true) :
    buildCertificatePackage sampleBrowser sampleContents sampleIdentity sampleForm
      [namedPhoto name] none = some (samplePackage name) := by
  have accepts : ¬ photosAccepted [namedPhoto name] none = false := by
    rw [photo]
    decide
  have conforms : ¬ CertificatePackages.assertV2Manifest sampleBrowser
      (generatedManifest sampleBrowser.platform sampleContents sampleIdentity (trimmed sampleForm)
        [namedPhoto name] none) = false := by
    rw [sampleManifest] at schema
    rw [schema]
    decide
  rw [buildCertificatePackage]
  refine Option.bind_eq_some_iff.2 ⟨_, sample_accepted, ?_⟩
  rw [if_neg accepts]
  dsimp only
  rw [if_neg conforms, samplePackage, sampleManifest]

theorem checksumText_length {formats : Formats} {N : Type} (browser : Browser formats N)
    {signed : List (Text × List UInt8)} (some_file : signed ≠ []) :
    (checksumText browser signed).length =
      (signed.map fun file => 67 + file.1.length).sum := by
  obtain ⟨sorted, perm, written⟩ : ∃ sorted, List.Perm sorted signed ∧
      checksumText browser signed =
        [10].intercalate (sorted.map (checksumLineOf browser)) ++ [10] :=
    ⟨_, List.mergeSort_perm _ _, rfl⟩
  have some_line : sorted.map (checksumLineOf browser) ≠ [] := by
    intro empty
    exact some_file (List.map_eq_nil_iff.1 empty ▸ perm).nil_eq.symm
  have hash : ∀ bytes, (browser.platform.sha256Hex bytes).length = 64 := by
    intro bytes
    change (bytesToHex (browser.sha256 bytes)).length = 64
    rw [bytesToHex_length, browser.sha256_length]
  have line : (fun file : Text × List UInt8 => (checksumLineOf browser file ++ [10]).length) =
      fun file => 67 + file.1.length := by
    funext file
    rw [checksumLineOf, List.length_append, List.length_append, List.length_append, hash]
    have blank : (units "  ").length = 2 := rfl
    rw [blank, List.length_singleton]
    omega
  rw [written, lines_joined some_line, List.length_flatMap, List.map_map]
  have same : (fun line : Text => (line ++ [10]).length) ∘ checksumLineOf browser =
      fun file => 67 + file.1.length := line
  rw [same, (perm.map _).sum_nat]

theorem signedFiles_sum {formats : Formats} {N : Type} (browser : Browser formats N)
    (manifest : Manifest) (listed : List (Text × List UInt8)) (path : Text) (bytes : List UInt8) :
    ((signedFiles browser manifest listed ++ [(path, bytes)]).map fun file => file.2.length).sum =
      (listed.map fun file => file.2.length).sum +
        ((utf8 (manifestText browser manifest)).length +
          (browser.sign (utf8 (manifestText browser manifest))).length) + bytes.length := by
  simp only [signedFiles, List.map_append, List.sum_append, List.map_cons, List.map_nil,
    List.sum_cons, List.sum_nil, Nat.add_zero]

/-! ## Printed texts -/

/-- At most so many units, all of them of a string. -/
structure Within (s : Text) (size : Nat) : Prop where
  string : IsString s
  length : s.length ≤ size

instance (s : Text) : Decidable (IsString s) := List.decidableBAll (fun c => c < 65536) s

theorem within_nil : Within [] 0 := ⟨List.forall_mem_nil _, Nat.le_refl _⟩

theorem within_cons {c size : Nat} {s : Text} (small : c < 65536) (rest : Within s size) :
    Within (c :: s) (1 + size) := by
  refine ⟨List.forall_mem_cons.2 ⟨small, rest.string⟩, ?_⟩
  have length := rest.length
  rw [List.length_cons]
  omega

theorem within_append {s t : Text} {m n : Nat} (first : Within s m) (second : Within t n) :
    Within (s ++ t) (m + n) := by
  refine ⟨fun c member => ?_, ?_⟩
  · rcases List.mem_append.1 member with inside | inside
    · exact first.string c inside
    · exact second.string c inside
  · rw [List.length_append]
    exact Nat.add_le_add first.length second.length

theorem hexDigit_bound {n : Nat} (digit : n < 16) : hexDigit n < 65536 := by
  have small := ReadManifests.hexDigit_small n digit
  omega

theorem escaped_within {c : Nat} (small : c < 65536) : Within (92 :: 117 :: hex4 c) 6 := by
  refine ⟨fun d member => ?_, Nat.le_refl _⟩
  simp only [hex4, List.mem_cons, List.not_mem_nil, or_false] at member
  rcases member with rfl | rfl | rfl | rfl | rfl | rfl
  · decide
  · decide
  all_goals exact hexDigit_bound (by omega)

theorem escapeChar_within {c : Nat} (small : c < 65536) : Within (escapeChar c) 6 := by
  have pair : ∀ d < 65536, Within [92, d] 6 := fun d bound =>
    ⟨List.forall_mem_cons.2 ⟨by decide, List.forall_mem_cons.2 ⟨bound, List.forall_mem_nil _⟩⟩,
      show 2 ≤ 6 by decide⟩
  unfold escapeChar
  split_ifs
  any_goals exact pair _ (by decide)
  · exact escaped_within small
  · exact ⟨fun d member => List.mem_singleton.1 member ▸ small, show 1 ≤ 6 by decide⟩

theorem quoteUnit_within {c : Nat} (small : c < 65536) : Within (quoteUnit c) 6 := by
  unfold quoteUnit
  split
  · exact escaped_within small
  · exact escapeChar_within small

theorem quoteUnits_within (s : Text) (string : IsString s) :
    Within (quoteUnits s) (6 * s.length) := by
  fun_induction quoteUnits s with
  | case1 => exact within_nil
  | case2 c => exact quoteUnit_within (string c List.mem_cons_self)
  | case3 c d rest both ih =>
    obtain ⟨first, others⟩ := List.forall_mem_cons.1 string
    obtain ⟨second, others⟩ := List.forall_mem_cons.1 others
    have whole := within_cons first (within_cons second (ih others))
    refine ⟨whole.string, ?_⟩
    have length := whole.length
    simp only [List.length_cons] at length ⊢
    omega
  | case4 c d rest single ih =>
    obtain ⟨first, others⟩ := List.forall_mem_cons.1 string
    have whole := within_append (quoteUnit_within first) (ih others)
    refine ⟨whole.string, ?_⟩
    have length := whole.length
    simp only [List.length_cons] at length ⊢
    omega


section Printed
variable {N : Type} (numbers : JsonText.NumberFormat N)

mutual

/-- The texts and the keys are strings. -/
def strings : JsonText.Json N → Bool
  | .text s => s.all fun c => c < 65536
  | .array items => stringsItems items
  | .object fields => stringsFields fields
  | _ => true

def stringsItems : List (JsonText.Json N) → Bool
  | [] => true
  | item :: items => strings item && stringsItems items

def stringsFields : List (Text × JsonText.Json N) → Bool
  | [] => true
  | (key, item) :: fields => (key.all fun c => c < 65536) && strings item && stringsFields fields

end

mutual

/-- The printed value has at most so many units. -/
def printBound (level : Nat) : JsonText.Json N → Nat
  | .null => 4
  | .bool _ => 5
  | .number n => (numbers.write n).length
  | .text s => 6 * s.length + 2
  | .array items => 2 * level + 3 + printItemsBound (level + 1) items
  | .object fields => 2 * level + 3 + printFieldsBound (level + 1) fields

def printItemsBound (level : Nat) : List (JsonText.Json N) → Nat
  | [] => 0
  | item :: items => 2 * level + 2 + printBound level item + printItemsBound level items

def printFieldsBound (level : Nat) : List (Text × JsonText.Json N) → Nat
  | [] => 0
  | (key, item) :: fields =>
    2 * level + 6 + 6 * key.length + printBound level item + printFieldsBound level fields

end

theorem all_string {s : Text} (strings : (s.all fun c => c < 65536) = true) : IsString s := by
  intro c member
  exact of_decide_eq_true (List.all_eq_true.1 strings c member)

theorem indent_within (level : Nat) : Within (ManifestJson.indent level) (2 * level + 1) := by
  refine ⟨fun c member => ?_, ?_⟩
  · rcases List.mem_cons.1 member with rfl | blank
    · decide
    · rw [List.eq_of_mem_replicate blank]
      decide
  · rw [ManifestJson.indent, List.length_cons, List.length_replicate]

theorem write_within (n : N) : Within (numbers.write n) (numbers.write n).length := by
  refine ⟨fun c member => ?_, Nat.le_refl _⟩
  have numeric := numbers.numeric n c member
  simp only [JsonText.isNumeric, Bool.or_eq_true, Bool.and_eq_true, decide_eq_true_eq,
    beq_iff_eq] at numeric
  omega

theorem Within.mono {s : Text} {m n : Nat} (within : Within s m) (le : m ≤ n) : Within s n :=
  ⟨within.string, within.length.trans le⟩

theorem quoted_within {s : Text} (string : IsString s) :
    Within ((ManifestJson.pretty numbers).quoted s) (6 * s.length + 2) := by
  have closed := within_append (quoteUnits_within s string) (within_cons (c := 34) (by decide) within_nil)
  exact (within_cons (c := 34) (by decide) closed).mono (by omega)

theorem blank_within : Within (ManifestJson.pretty numbers).afterColon 1 :=
  within_cons (by decide) within_nil

mutual

theorem print_within (v : JsonText.Json N) (level : Nat) (string : strings v = true) :
    Within (JsonText.print (ManifestJson.pretty numbers) level v) (printBound numbers level v) := by
  match v with
  | .null =>
    rw [JsonText.print]
    exact ⟨by decide, Nat.le_refl _⟩
  | .bool true =>
    rw [JsonText.print]
    exact ⟨by decide, show 4 ≤ 5 by decide⟩
  | .bool false =>
    rw [JsonText.print]
    exact ⟨by decide, Nat.le_refl _⟩
  | .number n => exact write_within numbers n
  | .text s => exact quoted_within numbers (all_string string)
  | .array [] =>
    rw [JsonText.print]
    exact ⟨by decide, show 2 ≤ 2 * level + 3 + 0 by omega⟩
  | .array (item :: items) =>
    rw [strings, stringsItems, Bool.and_eq_true] at string
    have closed := within_append (indent_within level) (within_cons (c := 93) (by decide) within_nil)
    have rest := within_append (printItems_within items (level + 1) string.2) closed
    have printed := within_append (print_within item (level + 1) string.1) rest
    rw [JsonText.print]
    refine (within_cons (by decide) (within_append (indent_within _) printed)).mono ?_
    rw [printBound, printItemsBound]
    omega
  | .object [] =>
    rw [JsonText.print]
    exact ⟨by decide, show 2 ≤ 2 * level + 3 + 0 by omega⟩
  | .object ((key, item) :: fields) =>
    rw [strings, stringsFields, Bool.and_eq_true, Bool.and_eq_true] at string
    have closed :=
      within_append (indent_within level) (within_cons (c := 125) (by decide) within_nil)
    have rest := within_append (printFields_within fields (level + 1) string.2) closed
    have printed := within_append (print_within item (level + 1) string.1.2) rest
    have colon := within_cons (c := 58) (by decide) (within_append (blank_within numbers) printed)
    have named := within_append (quoted_within numbers (all_string string.1.1)) colon
    rw [JsonText.print]
    refine (within_cons (by decide) (within_append (indent_within _) named)).mono ?_
    rw [printBound, printFieldsBound]
    omega

theorem printItems_within (items : List (JsonText.Json N)) (level : Nat)
    (string : stringsItems items = true) :
    Within (JsonText.printItems (ManifestJson.pretty numbers) level items)
      (printItemsBound numbers level items) := by
  match items with
  | [] => exact within_nil
  | item :: items =>
    rw [stringsItems, Bool.and_eq_true] at string
    have printed := within_append (print_within item level string.1)
      (printItems_within items level string.2)
    rw [JsonText.printItems]
    refine (within_cons (by decide) (within_append (indent_within _) printed)).mono ?_
    rw [printItemsBound]
    omega

theorem printFields_within (fields : List (Text × JsonText.Json N)) (level : Nat)
    (string : stringsFields fields = true) :
    Within (JsonText.printFields (ManifestJson.pretty numbers) level fields)
      (printFieldsBound numbers level fields) := by
  match fields with
  | [] => exact within_nil
  | (key, item) :: fields =>
    rw [stringsFields, Bool.and_eq_true, Bool.and_eq_true] at string
    have printed := within_append (print_within item level string.1.2)
      (printFields_within fields level string.2)
    have colon := within_cons (c := 58) (by decide) (within_append (blank_within numbers) printed)
    have named := within_append (quoted_within numbers (all_string string.1.1)) colon
    rw [JsonText.printFields]
    refine (within_cons (by decide) (within_append (indent_within _) named)).mono ?_
    rw [printFieldsBound]
    omega

end

theorem stringsFields_append (first second : List (Text × JsonText.Json N)) :
    stringsFields (first ++ second) = (stringsFields first && stringsFields second) := by
  induction first with
  | nil => rw [List.nil_append, stringsFields, Bool.true_and]
  | cons field first ih =>
    simp only [List.cons_append, stringsFields, ih, Bool.and_assoc]

theorem printFieldsBound_append (level : Nat) (first second : List (Text × JsonText.Json N)) :
    printFieldsBound numbers level (first ++ second) =
      printFieldsBound numbers level first + printFieldsBound numbers level second := by
  induction first with
  | nil => rw [List.nil_append, printFieldsBound, Nat.zero_add]
  | cons field first ih =>
    simp only [List.cons_append, printFieldsBound, ih, Nat.add_assoc]

theorem stableStringify_within {v : JsonText.Json N}
    (string : strings (ManifestJson.sortJson v) = true) :
    Within (ManifestJson.stableStringify numbers v)
      (printBound numbers 0 (ManifestJson.sortJson v) + 1) :=
  within_append (print_within numbers _ 0 string) (within_cons (by decide) within_nil)

end Printed

/-! ## The sample as a whole -/

/-- The names of the entries are distinct. -/
theorem entries_distinct {formats : Formats} {N : Type} {browser : Browser formats N}
    {contents : Contents} {identity : SigningIdentity} {values : FormValues}
    {photos : List PhotoInput} {logo : Option File} {package : Package}
    (built : Built browser contents identity values photos logo package) :
    (package.entries.map fun entry => chars entry.1).Nodup := by
  have injective : Function.Injective fun path => chars package.root ++ '/' :: path := by
    intro a b same
    exact (List.cons.inj (List.append_cancel_left same)).2
  have distinct := (names_nodup built.distinct built.safe).map injective
  rw [List.map_map] at distinct
  have same : package.files.map (fun file => chars (package.root ++ 47 :: file.1)) =
      package.files.map fun file => chars package.root ++ '/' :: chars file.1 :=
    List.map_congr_left built.stored_path
  rw [Package.entries, List.map_map]
  have shape : (fun entry : Text × List UInt8 => chars entry.1) ∘
      (fun file : Text × List UInt8 => (package.root ++ 47 :: file.1, file.2)) =
      fun file => chars (package.root ++ 47 :: file.1) := rfl
  rw [shape, same]
  exact distinct

/-- The value that is printed for a sample. -/
def sortedManifest (name : Text) : JsonText.Json Nat :=
  sortJson (substitute ReadManifests.printable
    (manifestValue sampleBrowser.number (sampleManifest name)))

/-- The sections of the manifest of a sample, as they are printed. -/
def sections (name : Text) : List (Text × JsonText.Json Nat) :=
  match sortedManifest name with
  | .object fields => fields
  | _ => []

theorem sortedManifest_sections (name : Text) : sortedManifest name = .object (sections name) := rfl

/-- Sections of strings that print in a few units. -/
def brief (part : List (Text × JsonText.Json Nat)) : Bool :=
  stringsFields part && decide (printFieldsBound decimalFormat 1 part ≤ 15000)

theorem brief_facts {part : List (Text × JsonText.Json Nat)} (checked : brief part = true) :
    stringsFields part = true ∧ printFieldsBound decimalFormat 1 part ≤ 15000 := by
  rwa [brief, Bool.and_eq_true, decide_eq_true_eq] at checked

/-- What is computed of a sample beside its text. -/
def sampleChecks (name : Text) : Bool :=
  photosAccepted [namedPhoto name] none &&
  CertificatePackages.assertV2Manifest sampleBrowser (sampleManifest name) &&
  decide (((samplePackage name).entries.map fun entry => 46 + 4 * entry.1.length).sum ≤ 10000) &&
  decide (((signedFiles sampleBrowser (sampleManifest name) (evidence sampleBrowser sampleContents
    sampleIdentity [namedPhoto name] none)).map fun file => 67 + file.1.length).sum ≤ 10000) &&
  (samplePackage name).entries.all fun entry => !endsWith (chars entry.1) ['/']

structure Sample (name : Text) : Prop where
  photo : photosAccepted [namedPhoto name] none = true
  schema : CertificatePackages.assertV2Manifest sampleBrowser (sampleManifest name) = true
  text : Within (manifestText sampleBrowser (sampleManifest name)) 50000
  names : ((samplePackage name).entries.map fun entry => 46 + 4 * entry.1.length).sum ≤ 10000
  lines : ((signedFiles sampleBrowser (sampleManifest name) (evidence sampleBrowser sampleContents
    sampleIdentity [namedPhoto name] none)).map fun file => 67 + file.1.length).sum ≤ 10000
  plain : ∀ entry ∈ (samplePackage name).entries, endsWith (chars entry.1) ['/'] = false

/-- A text whose sections are brief, whichever value it is printed from. -/
theorem brief_text {v : JsonText.Json Nat} {fields : List (Text × JsonText.Json Nat)}
    (sorted : sortJson v = .object fields) (first : brief (fields.take 2) = true)
    (files : brief ((fields.drop 2).take 1) = true)
    (others : brief ((fields.drop 2).drop 1) = true) :
    Within (ManifestJson.stableStringify decimalFormat v) 50000 := by
  obtain ⟨firstStrings, firstBound⟩ := brief_facts first
  obtain ⟨fileStrings, fileBound⟩ := brief_facts files
  obtain ⟨otherStrings, otherBound⟩ := brief_facts others
  have split : fields = fields.take 2 ++ ((fields.drop 2).take 1 ++ (fields.drop 2).drop 1) := by
    rw [List.take_append_drop, List.take_append_drop]
  have string : strings (sortJson v) = true := by
    rw [sorted, strings, split, stringsFields_append, stringsFields_append, firstStrings,
      fileStrings, otherStrings]
    rfl
  have bound : printBound decimalFormat 0 (sortJson v) ≤ 45003 := by
    rw [sorted]
    change 3 + printFieldsBound decimalFormat 1 fields ≤ 45003
    rw [split, printFieldsBound_append, printFieldsBound_append]
    omega
  exact (stableStringify_within decimalFormat string).mono (by omega)

theorem sample_text {name : Text} (first : brief ((sections name).take 2) = true)
    (files : brief (((sections name).drop 2).take 1) = true)
    (others : brief (((sections name).drop 2).drop 1) = true) :
    Within (manifestText sampleBrowser (sampleManifest name)) 50000 :=
  brief_text (sortedManifest_sections name) first files others

theorem sample_of_checks {name : Text} (checked : sampleChecks name = true)
    (text : Within (manifestText sampleBrowser (sampleManifest name)) 50000) : Sample name := by
  simp only [sampleChecks, Bool.and_eq_true, decide_eq_true_eq, List.all_eq_true,
    Bool.not_eq_true'] at checked
  obtain ⟨⟨⟨⟨photo, schema⟩, names⟩, lines⟩, plain⟩ := checked
  exact ⟨photo, schema, text, names, lines, plain⟩

def plainName : Text := units "p.png"

def reservedName : Text := units "manifest.json"

-- The sections are computed one after another, since the literals in them are slow to unfold.
set_option maxRecDepth 100000 in
theorem first_checked :
    [plainName, reservedName].all (fun name => brief ((sections name).take 2)) = true := by
  decide

set_option maxRecDepth 100000 in
theorem files_checked :
    [plainName, reservedName].all (fun name => brief (((sections name).drop 2).take 1)) = true := by
  decide +kernel

set_option maxRecDepth 100000 in
theorem others_checked :
    [plainName, reservedName].all (fun name => brief (((sections name).drop 2).drop 1)) = true := by
  decide +kernel

set_option maxRecDepth 100000 in
theorem samples_checked : [plainName, reservedName].all sampleChecks = true := by
  decide +kernel

theorem sample_of_name {name : Text} (member : name ∈ [plainName, reservedName]) : Sample name :=
  sample_of_checks (List.all_eq_true.1 samples_checked name member)
    (sample_text (List.all_eq_true.1 first_checked name member)
      (List.all_eq_true.1 files_checked name member)
      (List.all_eq_true.1 others_checked name member))

namespace Sample
variable {name : Text} (sample : Sample name)
include sample

theorem built : buildCertificatePackage sampleBrowser sampleContents sampleIdentity sampleForm
    [namedPhoto name] none = some (samplePackage name) :=
  sample_built sample.photo sample.schema

theorem facts : Built sampleBrowser sampleContents sampleIdentity sampleForm [namedPhoto name] none
    (samplePackage name) := built_of sample.built

omit sample in
theorem evidence_size (name : Text) : ((evidence sampleBrowser sampleContents sampleIdentity
    [namedPhoto name] none).map fun file => file.2.length).sum = 180 := by
  have image : samplePng.length = 67 := by decide
  have pem : sampleIdentity.publicKeyPem.length = 113 := by decide
  have contents : (evidence sampleBrowser sampleContents sampleIdentity [namedPhoto name]
      none).map Prod.snd = [[], [], [], [], [], samplePng, sampleIdentity.publicKeyPem, [], [], [],
        []] := rfl
  have sizes := congrArg (fun contents => (contents.map List.length).sum) contents
  rw [List.map_map] at sizes
  refine sizes.trans ?_
  simp only [List.map_cons, List.map_nil, List.sum_cons, List.sum_nil, List.length_nil, image, pem,
    Nat.zero_add, Nat.add_zero, Nat.reduceAdd]

omit sample in
theorem sign_length (message : List UInt8) : (sampleBrowser.sign message).length ≤ 64 := by
  have each : ∀ known ∈ signatures, known.2.length ≤ 64 := by decide
  change (signSample message).length ≤ 64
  rw [signSample]
  cases found : signatures.find? fun known => known.1 == Sha256.sha256 message with
  | none => exact Nat.zero_le _
  | some known => exact each known (List.mem_of_find?_eq_some found)

theorem manifest_length :
    (utf8 (manifestText sampleBrowser (sampleManifest name))).length ≤ 200000 := by
  have bytes := utf8_length (manifestText sampleBrowser (sampleManifest name))
  have short := sample.text.length
  omega

theorem total : ((samplePackage name).files.map fun file => file.2.length).sum ≤ 300000 := by
  have manifest : (samplePackage name).manifest = sampleManifest name := rfl
  have split := sample.facts.signed_files
  have collected := evidence_size name
  have text := sample.manifest_length
  have signature := sign_length (utf8 (manifestText sampleBrowser (sampleManifest name)))
  have some_signed : signedFiles sampleBrowser (sampleManifest name) (evidence sampleBrowser
      sampleContents sampleIdentity [namedPhoto name] none) ≠ [] :=
    List.append_ne_nil_of_left_ne_nil (List.cons_ne_nil _ _) _
  have sums := utf8_length (checksumText sampleBrowser (signedFiles sampleBrowser
    (sampleManifest name) (evidence sampleBrowser sampleContents sampleIdentity [namedPhoto name]
      none)))
  have lines := sample.lines
  rw [checksumText_length sampleBrowser some_signed] at sums
  rw [manifest] at split
  rw [split, signedFiles_sum, collected]
  omega

theorem content_bound : ∀ file ∈ (samplePackage name).files, file.2.length ≤ 300000 := by
  intro file member
  have part := List.single_le_sum (fun _ _ => Nat.zero_le _) _
    (List.mem_map_of_mem (f := fun file => file.2.length) member)
  exact Nat.le_trans part sample.total

theorem entry_sum :
    ((samplePackage name).entries.map fun entry => entry.2.length).sum ≤ 300000 := by
  have same : (samplePackage name).entries.map (fun entry => entry.2.length) =
      (samplePackage name).files.map fun file => file.2.length := by
    rw [Package.entries, List.map_map]
    rfl
  rw [same]
  exact sample.total

theorem header_sum :
    ((samplePackage name).entries.map fun entry => 46 + (utf8 entry.1).length).sum ≤ 10000 := by
  refine Nat.le_trans (List.sum_le_sum fun entry _ => ?_) sample.names
  have bytes := utf8_length entry.1
  omega

theorem fitsZip : FitsZip (samplePackage name).entries := by
  have root := sample.facts.root
  refine ⟨?_, ?_, ?_, ?_, ?_, sample.plain⟩
  · intro entry member
    obtain ⟨file, inside, rfl⟩ := List.mem_map.1 member
    have ascii : Ascii ((samplePackage name).root ++ 47 :: file.1) :=
      ascii_append (safeName_ascii root)
        (ascii_append (s := [47]) (by decide) (sample.facts.safe file inside).1)
    obtain ⟨c, rest, begins⟩ := List.exists_cons_of_ne_nil root.filled
    have first : chars ((samplePackage name).root ++ 47 :: file.1) =
        Char.ofNat c :: (rest ++ 47 :: file.1).map Char.ofNat := by
      rw [chars_small ascii, begins]
      rfl
    have small : c < 128 := safeName_ascii root c (begins ▸ List.mem_cons_self)
    have value := ascii_toNat small
    refine ⟨decodeFatal_utf8 first (by omega), ?_, ?_⟩
    · have bound := sample.content_bound file inside
      exact Nat.lt_of_le_of_lt bound (by decide)
    · have part := List.single_le_sum (fun _ _ => Nat.zero_le _) _
        (List.mem_map_of_mem (f := fun entry => 46 + (utf8 entry.1).length) member)
      have bound := sample.header_sum
      omega
  · have count := @files_length sampleFormats Nat sampleBrowser sampleContents sampleIdentity
      [namedPhoto name] none (sampleManifest name)
    rw [Package.entries, List.length_map, samplePackage, count, List.length_singleton]
    decide
  · exact Nat.lt_of_le_of_lt sample.header_sum (by decide)
  · exact Nat.lt_of_le_of_lt sample.entry_sum (by decide)
  · exact entries_distinct sample.facts

theorem stored : Stored sampleBrowser (samplePackage name).entries :=
  ⟨generated_listed sample.fitsZip, generated_opened sample.fitsZip⟩

theorem string : IsString (manifestText sampleBrowser (samplePackage name).manifest) :=
  sample.text.string

theorem limits : WithinLimits sampleBrowser (samplePackage name) where
  zip := by
    have fits := sample.fitsZip.each
    change (storedArchive ((samplePackage name).entries.filterMap storedFile)).length ≤ _
    rw [StoredArchives.storedArchive_length, storedFiles_contents fits, storedFiles_directory fits]
    have contents := sample.entry_sum
    have headers := sample.header_sum
    unfold PackageVerifier.maxZipBytes
    omega
  entry file member := Nat.le_trans (sample.content_bound file member) (by decide)
  total := Nat.le_trans sample.total (by decide)

end Sample

theorem sample_decodes (name : Text) : Decodes sampleBrowser [namedPhoto name] := by
  intro photo member
  rw [List.mem_singleton.1 member]
  rfl

/-! ## The packages that verify -/

section Main
variable {formats : Formats} {N : Type} {browser : Browser formats N}
variable {contents : Contents} {identity : SigningIdentity} {values : FormValues}
  {photos : List PhotoInput} {logo : Option File} {package : Package}

/-- What the form has to give for a package that the verifier accepts. -/
structure Verifiable (browser : Browser formats N) (contents : Contents)
    (identity : SigningIdentity) (values : FormValues) (photos : List PhotoInput)
    (logo : Option File) : Prop where
  pieces : natOf (trim values.numberOfPieces) < overflow
  names : ¬ Collides browser photos logo
  limits : WithinLimits browser (rendered browser contents identity values photos logo)

/-- A package that was built is accepted exactly when its number of pieces is no infinity, no
photograph and no logo is stored as `manifest.json`, and the verifier's limits hold. -/
theorem built_package_verifies_iff
    (built : buildCertificatePackage browser contents identity values photos logo = some package)
    (string : IsString (manifestText browser package.manifest)) (laws : SchemaLaws browser)
    (keys : KeyLaws browser identity) (decodes : Decodes browser photos)
    (stored : Stored browser package.entries) :
    Verifies browser package ↔ Verifiable browser contents identity values photos logo := by
  have facts := built_of built
  obtain ⟨json, parsed, prints⟩ := manifest_read string
  obtain ⟨rawEntries, inspected, listed⟩ := stored.listed
  obtain ⟨zip, loaded, returns⟩ := stored.opened
  have opens := facts.opens returns
  have names := facts.names listed
  constructor
  · rintro ⟨result, verified, valid⟩
    obtain ⟨small, others, inspected', sizes⟩ := verified_guards verified
    cases inspected.symm.trans inspected'
    obtain ⟨others, zip', root, manifestBytes, manifest, publicKeyBytes, spki, photographs,
      inspected', loaded', rooted, manifestRead, parsed', _, _, checks⟩ :=
        PackageVerifier.verified_cases verified
    cases inspected.symm.trans inspected'
    cases loaded.symm.trans loaded'
    have apart : ¬ Collides browser photos logo := by
      intro collides
      rw [facts.root_collides names collides] at rooted
      cases rooted
    rw [facts.root_clean names apart] at rooted
    cases rooted
    have read := PackageVerifier.readBytes_ok (facts.manifest_stored opens)
    have stored_manifest := Except.ok.inj (manifestRead.symm.trans read)
    rw [stored_manifest, parsed] at parsed'
    have same := Option.some.inj parsed'
    obtain ⟨entry, total⟩ := (sizes_iff listed).1 sizes
    refine ⟨?_, apart, facts.rendered ▸ ⟨small, entry, total⟩⟩
    apply (facts.schema_iff prints laws).1
    rw [valid, eq_comm, List.all_eq_true] at checks
    have schema := checks ⟨"Manifest schema", _⟩ List.mem_cons_self
    rw [← same, facts.version prints] at schema
    by_contra refused
    rw [Bool.not_eq_true] at refused
    rw [PackageVerifier.schemaCheck, refused] at schema
    exact absurd schema (by decide)
  · rintro ⟨pieces, apart, limits⟩
    rw [← facts.rendered] at limits
    obtain ⟨checks, all, ok⟩ := verified_of limits.zip inspected (facts.few names)
      ((sizes_iff listed).2 ⟨limits.entry, limits.total⟩) loaded
      (facts.root_clean names apart) (facts.manifest_stored opens) parsed
      (object_of_get (facts.reads prints).schema) (facts.key_stored opens) keys.key
      (facts.photographs_pass opens prints decodes)
    refine ⟨_, ok, ?_⟩
    rw [all]
    exact facts.checks_pass opens prints laws keys pieces names

end Main

theorem plain_sample : Sample plainName :=
  sample_of_name List.mem_cons_self

theorem built_package_verifies_plain :
    Verifiable sampleBrowser sampleContents sampleIdentity sampleForm [namedPhoto plainName] none ∧
      Verifies sampleBrowser (samplePackage plainName) := by
  have verifiable : Verifiable sampleBrowser sampleContents sampleIdentity sampleForm
      [namedPhoto plainName] none := by
    refine ⟨by decide +kernel, ?_, plain_sample.facts.rendered ▸ plain_sample.limits⟩
    rintro (named | ⟨file, logo, _⟩)
    · exact absurd named (by decide)
    · cases logo
  exact ⟨verifiable, (built_package_verifies_iff plain_sample.built plain_sample.string sample_laws
    sample_keys (sample_decodes plainName) plain_sample.stored).2 verifiable⟩

theorem reserved_sample : Sample reservedName :=
  sample_of_name (List.mem_cons_of_mem _ List.mem_cons_self)

/-- The builder accepts a photograph that is called `manifest.json`, and the verifier throws. -/
theorem manifest_photograph_is_refused :
    buildCertificatePackage sampleBrowser sampleContents sampleIdentity sampleForm
        [namedPhoto reservedName] none = some (samplePackage reservedName) ∧
      IsString (manifestText sampleBrowser (samplePackage reservedName).manifest) ∧
      SchemaLaws sampleBrowser ∧ KeyLaws sampleBrowser sampleIdentity ∧
      Decodes sampleBrowser [namedPhoto reservedName] ∧
      Stored sampleBrowser (samplePackage reservedName).entries ∧
      WithinLimits sampleBrowser (samplePackage reservedName) ∧
      verifyCertificateZip sampleBrowser.tools
          (sampleBrowser.generateAsync (samplePackage reservedName).entries) =
        .error "The ZIP contains multiple package manifests." ∧
      ¬ Verifies sampleBrowser (samplePackage reservedName) := by
  have sample := reserved_sample
  have collides : Collides sampleBrowser [namedPhoto reservedName] none := Or.inl (by decide)
  have refused := sample.facts.collision_refused sample.stored sample.limits collides
  refine ⟨sample.built, sample.string, sample_laws, sample_keys, sample_decodes reservedName,
    sample.stored, sample.limits, refused, ?_⟩
  rintro ⟨result, verified, _⟩
  rw [refused] at verified
  cases verified

end PackageRoundTrip
