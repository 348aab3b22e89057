import SpacerocksCoa.PackageReading

/-!
# The checks on a built package

The verifier opens the files of a package below its root and compares them with the manifest that
it read back. Each of its checks passes when the library returns the files that were stored.
-/
namespace PackageChecks
open JsonText (Text units)
open ManifestSchema
open FileNames (SafeName photographPath)
open CodeUnits (isHigh isLow unitChar chars upperUnit joinPairs formatFingerprint)
open Utf16Texts
open ReadManifests (Prints prints_record hexDigit_small)
open CertificatePackages
open PackageFiles
open PackageReading
open JsNumbers (JsNumber trim)
open PackageVerifier (Json Zip readBytes isSafeRelativePath asText isText isNumber evidenceMatches
  evidenceCheck inventoryCheck recordCheck checksumsCheck signatureCheck fingerprintCheck passIf
  arrayOrEmpty listedFiles expectedFiles structuralFiles)
open PhotographMetadata (Shot Recorded strictlyEqual)

variable {formats : Formats} {N : Type} {browser : Browser formats N}

/-! ## The stored files -/

/-- The ZIP returns every file of the package below the root. -/
def Opens (zip : Zip) (root : List Char) (files : List (Text × List UInt8)) : Prop :=
  ∀ file ∈ files, zip (root ++ '/' :: chars file.1) = .ok file.2

/-- Every path is a safe one. -/
def SafePaths (files : List (Text × List UInt8)) : Prop :=
  ∀ file ∈ files, Ascii file.1 ∧ isSafeRelativePath (chars file.1) = true

theorem read_stored {zip : Zip} {root : List Char} {files : List (Text × List UInt8)}
    (opens : Opens zip root files) (safe : SafePaths files) {file : Text × List UInt8}
    (member : file ∈ files) : readBytes zip (root ++ ['/']) (chars file.1) = .ok file.2 := by
  rw [readBytes, if_pos (safe file member).2, List.append_assoc]
  exact opens file member

section Package
variable (contents : Contents) (identity : SigningIdentity) (photos : List PhotoInput)
  (logo : Option File) (manifest : Manifest)

theorem files_paths : (packageFiles browser manifest
    (evidence browser contents identity photos logo)).map Prod.fst =
      (evidence browser contents identity photos logo).map Prod.fst ++ structuralPaths := by
  rw [packageFiles_eq, signedFiles, List.map_append, List.map_append, List.append_assoc]
  rfl

theorem path_cases {path : Text} (member : path ∈ (packageFiles browser manifest
    (evidence browser contents identity photos logo)).map Prod.fst) :
    path ∈ firstPaths ++ lastPaths ++ structuralPaths ∨ ∃ folder, InFolder folder path := by
  rw [files_paths, List.mem_append] at member
  rcases member with listed | structural
  · exact evidence_paths browser contents identity photos logo listed
  · exact Or.inl (List.mem_append_right _ structural)

theorem files_safe : SafePaths (packageFiles browser manifest
    (evidence browser contents identity photos logo)) := by
  intro file member
  have path := List.mem_map_of_mem (f := Prod.fst) member
  rcases path_cases contents identity photos logo manifest path with fixed | ⟨folder, inside⟩
  · exact (fixed_atRoot _ fixed).2
  · exact ⟨inside.ascii, inside.safe⟩

theorem files_length : (packageFiles browser manifest
    (evidence browser contents identity photos logo)).length =
      13 + photos.length + logo.toList.length := by
  have paths := congrArg List.length (@files_paths formats N browser contents identity photos logo
    manifest)
  rw [List.length_map, evidence_names] at paths
  simp only [List.length_append, List.length_map, photoNames_length] at paths
  have first : firstPaths.length = 5 := rfl
  have last : lastPaths.length = 5 := rfl
  have structural : structuralPaths.length = 3 := rfl
  omega

/-- What the manifest says of a file. -/
def fact (browser : Browser formats N) (file : Text × List UInt8) : Text × Nat × Text :=
  (file.1, file.2.length, browser.platform.sha256Hex file.2)

def stated (file : ManifestFile) : Text × Nat × Text := (file.path, file.bytes, file.sha256)

theorem stated_photos (used : List Text) :
    ((preparePhotos browser.platform used photos).map photoFile).map stated =
      (((preparePhotos browser.platform used photos).zip photos).map fun prepared =>
        (prepared.1.path, prepared.2.file.content)).map (fact browser) := by
  induction photos generalizing used with
  | nil => rfl
  | cons photo photos ih =>
    rw [preparePhotos, List.zip_cons_cons, List.map_cons, List.map_cons, ih, List.map_cons,
      List.map_cons]
    rfl

theorem stated_evidence : (evidenceFiles browser.platform contents identity
    (preparePhotos browser.platform [] photos) logo).map stated =
      (evidence browser contents identity photos logo).map (fact browser) := by
  simp only [evidenceFiles, evidence, List.map_append, stated_photos]
  cases logo with
  | none => rfl
  | some file => rfl

end Package

/-! ## The checks -/

section Checks
variable {json : Json} {m : Manifest} {zip : Zip} {root : List Char}
  {files listed : List (Text × List UInt8)}

/-- The manifest lists these files. -/
def ListsEvidence (browser : Browser formats N) (m : Manifest)
    (listed : List (Text × List UInt8)) : Prop :=
  (m.files.map stated).Perm (listed.map (fact browser))

theorem forall₂_mem {A B : Type} {R : A → B → Prop} {as : List A} {bs : List B}
    (pairs : List.Forall₂ R as bs) {a : A} (member : a ∈ as) : ∃ b ∈ bs, R a b := by
  induction pairs with
  | nil => cases member
  | cons one _ ih =>
    rcases List.mem_cons.1 member with rfl | later
    · exact ⟨_, List.mem_cons_self, one⟩
    · obtain ⟨b, inside, related⟩ := ih later
      exact ⟨b, List.mem_cons_of_mem _ inside, related⟩

theorem file_listed (lists : ListsEvidence browser m listed) {file : ManifestFile}
    (member : file ∈ m.files) : ∃ source ∈ listed, stated file = fact browser source := by
  obtain ⟨source, inside, same⟩ := List.mem_map.1 (lists.mem_iff.1 (List.mem_map_of_mem member))
  exact ⟨source, inside, same.symm⟩

theorem listed_file (lists : ListsEvidence browser m listed) {source : Text × List UInt8}
    (member : source ∈ listed) : ∃ file ∈ m.files, stated file = fact browser source := by
  obtain ⟨file, inside, same⟩ := List.mem_map.1 (lists.mem_iff.2 (List.mem_map_of_mem member))
  exact ⟨file, inside, same⟩

theorem evidence_passes (reads : ReadManifest browser json m)
    (lists : ListsEvidence browser m listed)
    (some_file : listed ≠ []) (within : listed ⊆ files) (opens : Opens zip root files)
    (safe : SafePaths files) :
    evidenceCheck browser.tools zip (root ++ ['/']) json = .pass := by
  obtain ⟨seen, here, pairs⟩ := reads.files
  have array : listedFiles json = seen := by rw [listedFiles, here]; rfl
  have filled : 0 < seen.length := by
    rw [pairs.length_eq, ← List.length_map stated, lists.length_eq, List.length_map]
    exact List.length_pos_of_ne_nil some_file
  have each : seen.all (evidenceMatches browser.tools zip (root ++ ['/'])) = true := by
    rw [List.all_eq_true]
    intro j member
    obtain ⟨file, inside, read⟩ := forall₂_mem pairs member
    obtain ⟨source, found, same⟩ := file_listed lists inside
    simp only [stated, fact, Prod.mk.injEq] at same
    obtain ⟨path, bytes, sha256⟩ := same
    have stored := read_stored opens safe (within found)
    rw [← path] at stored
    have safePath : isSafeRelativePath (chars file.path) = true := path ▸ (safe _ (within found)).2
    have text : asText (j.get "path") = some (chars file.path) := by rw [read.path]; rfl
    have hash : asText (j.get "sha256") = some (chars file.sha256) := by rw [read.sha256]; rfl
    have length : isNumber (j.get "bytes") (source.2.length : Rat) = true := by
      rw [read.bytes, bytes]
      exact beq_self_eq_true _
    have same : browser.tools.sha256Hex source.2 = chars file.sha256 := by rw [sha256]; rfl
    simp only [evidenceMatches, text, safePath, stored, hash, length, same, beq_self_eq_true,
      Bool.true_eq_false, if_false, Bool.and_self]
  rw [evidenceCheck, array, each, decide_eq_true filled]
  rfl

theorem record_passes (reads : ReadManifest browser json m) {path : Text} {content : List UInt8}
    (recordFile : m.certificate.recordFile = path)
    (recordSha256 : m.certificate.recordSha256 = browser.platform.sha256Hex content)
    (member : (path, content) ∈ files) (opens : Opens zip root files) (safe : SafePaths files) :
    recordCheck browser.tools zip (root ++ ['/']) json = .pass := by
  obtain ⟨seen, here, file, hash⟩ := reads.certificate
  have stored := read_stored opens safe member
  have name : asText (PackageVerifier.optionalGet (json.get "certificate") "recordFile") =
      some (chars path) := by
    rw [here, ← recordFile]
    exact congrArg asText file
  have expected : asText (PackageVerifier.optionalGet (json.get "certificate") "recordSha256") =
      some (chars (browser.platform.sha256Hex content)) := by
    rw [here, ← recordSha256]
    exact congrArg asText hash
  have same : browser.tools.sha256Hex content = chars (browser.platform.sha256Hex content) := rfl
  simp only [recordCheck, name, expected, stored, same, beq_self_eq_true, passIf, if_true]

theorem signature_passes {identity : SigningIdentity} {manifestBytes : List UInt8}
    {publicKeyPem : List Char}
    (key : browser.pemToDer publicKeyPem = .ok identity.spki)
    (signs : ∀ message, browser.verifyEd25519 identity.spki (browser.sign message) message =
      .ok true)
    (member : (units "signature.sig", browser.sign manifestBytes) ∈ files)
    (opens : Opens zip root files) (safe : SafePaths files) :
    signatureCheck browser.tools zip (root ++ ['/']) manifestBytes publicKeyPem = .pass := by
  have stored := read_stored opens safe member
  have name : chars (units "signature.sig") = "signature.sig".toList := chars_units (by decide)
  rw [name] at stored
  have verified : PackageVerifier.verifySignature browser.tools zip (root ++ ['/']) manifestBytes
      publicKeyPem = .ok true := by
    have spki : browser.tools.pemToDer publicKeyPem = .ok identity.spki := key
    have accepted : browser.tools.verifyEd25519 identity.spki (browser.sign manifestBytes)
        manifestBytes = .ok true := signs manifestBytes
    simp only [PackageVerifier.verifySignature, spki, stored, accepted, bind, Except.bind]
  simp only [signatureCheck, verified, passIf, if_true]

/-! ## The fingerprint -/

theorem formatFingerprint_chars {s : Text} (ascii : Ascii s) :
    PackageVerifier.formatFingerprint (s.map Char.ofNat) =
      (formatFingerprint s).map Char.ofNat := by
  have back : (s.map Char.ofNat).map Char.toNat = s := by
    rw [List.map_map]
    exact (List.map_congr_left fun c member => ascii_toNat (ascii c member)).trans (List.map_id s)
  rw [PackageVerifier.formatFingerprint, back]

theorem joinPairs_ascii {s : Text} (ascii : Ascii s) : Ascii (joinPairs s) := by
  induction s using CodeUnits.joinPairs.induct with
  | case1 a b c rest ih =>
    have tail : Ascii (c :: rest) := fun d member =>
      ascii d (List.mem_cons_of_mem _ (List.mem_cons_of_mem _ member))
    intro d member
    rw [joinPairs] at member
    rcases List.mem_cons.1 member with rfl | member
    · exact ascii _ (by simp)
    · rcases List.mem_cons.1 member with rfl | member
      · exact ascii _ (by simp)
      · rcases List.mem_cons.1 member with rfl | member
        · decide
        · exact ih tail d member
  | case2 s short =>
    have same : joinPairs s = s := by
      cases s with
      | nil => rfl
      | cons a s =>
        cases s with
        | nil => rfl
        | cons b s =>
          cases s with
          | nil => rfl
          | cons c s => exact absurd rfl (short a b c s)
    rw [same]
    exact ascii

theorem sha256Hex_ascii (browser : Browser formats N) (bytes : List UInt8) :
    Ascii (browser.platform.sha256Hex bytes) := by
  intro c member
  obtain ⟨byte, _, inside⟩ := List.mem_flatMap.1 member
  have small := byte.toNat_lt
  rcases List.mem_cons.1 inside with rfl | last
  · exact hexDigit_small _ (by omega)
  · rw [List.mem_singleton.1 last]
    exact hexDigit_small _ (by omega)

theorem fingerprint_passes {identity : SigningIdentity} (reads : ReadManifest browser json m)
    (stated : m.issuer.publicKeyFingerprint = browser.platform.fingerprint identity) :
    fingerprintCheck json (PackageVerifier.fingerprintForSpki browser.tools identity.spki) =
      .pass := by
  obtain ⟨seen, here, fingerprint⟩ := reads.issuer
  have ascii := sha256Hex_ascii browser identity.spki
  have upper : Ascii (browser.platform.fingerprint identity) := by
    apply joinPairs_ascii
    intro c member
    obtain ⟨d, inside, rfl⟩ := List.mem_map.1 member
    have small := ascii d inside
    unfold upperUnit
    split <;> omega
  have actual : PackageVerifier.fingerprintForSpki browser.tools identity.spki =
      chars (browser.platform.fingerprint identity) := by
    have hex : browser.tools.sha256Hex identity.spki =
        chars (browser.platform.sha256Hex identity.spki) := rfl
    rw [PackageVerifier.fingerprintForSpki, hex, chars_small ascii,
      formatFingerprint_chars ascii, chars_small upper]
    rfl
  have expected : PackageVerifier.expectedFingerprint json =
      .text (chars (browser.platform.fingerprint identity)) := by
    rw [PackageVerifier.expectedFingerprint, here]
    simp only [PackageVerifier.optionalGet, Option.bind_some, fingerprint, stated]
  rw [fingerprintCheck, expected, actual]
  simp only [asText, beq_self_eq_true, passIf, if_true]

/-! ## The inventory -/

theorem names_nodup (distinct : (files.map Prod.fst).Nodup) (safe : SafePaths files) :
    (files.map fun file => chars file.1).Nodup := by
  have injective : ∀ file ∈ files, ∀ other ∈ files, chars file.1 = chars other.1 →
      file.1 = other.1 := fun file member other inside same =>
    chars_injective (safe file member).1 (safe other inside).1 same
  rw [List.nodup_map_iff_inj_on (List.Nodup.of_map Prod.fst distinct)]
  intro file member other inside same
  exact List.inj_on_of_nodup_map distinct member inside (injective file member other inside same)

theorem expected_files (reads : ReadManifest browser json m)
    (lists : ListsEvidence browser m listed)
    (paths : files.map Prod.fst = listed.map Prod.fst ++ structuralPaths) (name : List Char) :
    name ∈ expectedFiles browser.tools json ↔ name ∈ files.map fun file => chars file.1 := by
  obtain ⟨seen, here, pairs⟩ := reads.files
  have array : listedFiles json = seen := by rw [listedFiles, here]; rfl
  have structural : structuralFiles = structuralPaths.map chars := by decide
  have all : files.map (fun file => chars file.1) =
      (listed.map Prod.fst).map chars ++ structuralPaths.map chars := by
    rw [← List.map_append, ← paths, List.map_map]
    rfl
  rw [PackageVerifier.expectedFiles_iff, array, all, structural, List.mem_append]
  have path : ∀ {j : Json} {file : ManifestFile}, ReadFile j file →
      PackageVerifier.listedPath browser.tools j = chars file.path := by
    intro j file read
    apply PackageVerifier.listedPath_text
    rw [read.path]
    rfl
  refine or_congr_left ?_
  constructor
  · rintro ⟨j, member, rfl⟩
    obtain ⟨file, inside, read⟩ := forall₂_mem pairs member
    obtain ⟨source, found, same⟩ := file_listed lists inside
    rw [path read, List.map_map]
    exact List.mem_map.2 ⟨source, found, congrArg chars (congrArg Prod.fst same).symm⟩
  · intro member
    rw [List.map_map] at member
    obtain ⟨source, found, rfl⟩ := List.mem_map.1 member
    obtain ⟨file, inside, same⟩ := listed_file lists found
    obtain ⟨j, within, read⟩ := forall₂_mem pairs.flip inside
    exact ⟨j, within, (path read).trans (congrArg chars (congrArg Prod.fst same))⟩

theorem inventory_passes {entries : List (List Char)} (reads : ReadManifest browser json m)
    (lists : ListsEvidence browser m listed)
    (paths : files.map Prod.fst = listed.map Prod.fst ++ structuralPaths)
    (distinct : (files.map Prod.fst).Nodup) (safe : SafePaths files)
    (stored : entries.Perm (files.map fun file => root ++ '/' :: chars file.1)) :
    inventoryCheck browser.tools (root ++ ['/']) entries json = .pass := by
  have starts : ∀ name ∈ entries, (root ++ ['/']).isPrefixOf name = true := by
    intro name member
    obtain ⟨file, _, rfl⟩ := List.mem_map.1 (stored.mem_iff.1 member)
    rw [List.isPrefixOf_iff_prefix]
    exact ⟨chars file.1, by rw [List.append_assoc]; rfl⟩
  have inside : entries.filter (root ++ ['/']).isPrefixOf = entries :=
    List.filter_eq_self.2 starts
  have outside : entries.filter (fun name => !(root ++ ['/']).isPrefixOf name) = [] := by
    rw [List.filter_eq_nil_iff]
    intro name member
    rw [starts name member]
    decide
  have relative : (entries.map fun name => name.drop (root ++ ['/']).length).Perm
      (files.map fun file => chars file.1) := by
    have dropped := stored.map fun name => name.drop (root ++ ['/']).length
    rw [List.map_map] at dropped
    have same : (fun name : List Char => name.drop (root ++ ['/']).length) ∘
        (fun file : Text × List UInt8 => root ++ '/' :: chars file.1) =
        fun file => chars file.1 := by
      funext file
      have shape : root ++ '/' :: chars file.1 = (root ++ ['/']) ++ chars file.1 := by
        rw [List.append_assoc]
        rfl
      rw [Function.comp, shape, List.drop_left]
    rwa [same] at dropped
  have expected : ∀ name, name ∈ expectedFiles browser.tools json ↔
      name ∈ files.map fun file => chars file.1 := by
    exact expected_files reads lists paths
  have own : (entries.map fun name => name.drop (root ++ ['/']).length).Nodup :=
    relative.nodup_iff.2 (names_nodup distinct safe)
  have known : ∀ name ∈ entries.map (fun name => name.drop (root ++ ['/']).length),
      name ∈ expectedFiles browser.tools json := by
    intro name member
    exact (expected name).2 (relative.mem_iff.1 member)
  have present : ∀ name ∈ expectedFiles browser.tools json,
      name ∈ entries.map fun name => name.drop (root ++ ['/']).length := by
    intro name member
    exact relative.mem_iff.2 ((expected name).1 member)
  have lengths : (entries.map fun name => name.drop (root ++ ['/']).length).length =
      (expectedFiles browser.tools json).length := by
    have unique : (expectedFiles browser.tools json).Nodup := List.nodup_dedup _
    exact ((List.perm_ext_iff_of_nodup own unique).2 fun name =>
      ⟨known name, present name⟩).length_eq
  have unexpected : (entries.map fun name => name.drop (root ++ ['/']).length).filter
      (fun name => !(expectedFiles browser.tools json).contains name) = [] := by
    rw [List.filter_eq_nil_iff]
    intro name member
    simp [known name member]
  have missing : (expectedFiles browser.tools json).filter (fun name =>
      !(entries.map fun name => name.drop (root ++ ['/']).length).contains name) = [] := by
    rw [List.filter_eq_nil_iff]
    intro name member
    have found := present name member
    simpa using found
  simp only [inventoryCheck, inside, outside, unexpected, missing, lengths, List.isEmpty_nil,
    decide_eq_true own, beq_self_eq_true, Bool.and_self, passIf, if_true]

/-! ## The checksums -/

theorem lines_joined {lines : List Text} (some_line : lines ≠ []) :
    [10].intercalate lines ++ [10] = lines.flatMap fun line => line ++ [10] := by
  induction lines with
  | nil => exact absurd rfl some_line
  | cons line lines ih =>
    cases lines with
    | nil => simp [List.intercalate]
    | cons next lines =>
      have more := ih (by simp)
      rw [List.flatMap_cons, ← more]
      simp [List.intercalate]

theorem char_line {c : Nat} (small : c < 127) (printed : 32 ≤ c) :
    (Char.ofNat c).toNat = c ∧ Char.ofNat c ≠ '\n' ∧ Char.ofNat c ≠ '\r' := by
  have value : (Char.ofNat c).toNat = c := ascii_toNat (by omega)
  refine ⟨value, ?_, ?_⟩
  · intro same
    rw [same] at value
    have : '\n'.toNat = 10 := rfl
    omega
  · intro same
    rw [same] at value
    have : '\r'.toNat = 13 := rfl
    omega

theorem splitLines_line {line : Text} (plain : Line line) (rest : List Char) :
    PackageVerifier.splitLines (line.map Char.ofNat ++ '\n' :: rest) =
      line.map Char.ofNat :: PackageVerifier.splitLines rest := by
  induction line with
  | nil => rfl
  | cons c line ih =>
    have here := plain c List.mem_cons_self
    obtain ⟨_, noFeed, noReturn⟩ := char_line here.2 here.1
    have next := ih fun d member => plain d (List.mem_cons_of_mem _ member)
    rw [List.map_cons, List.cons_append, PackageVerifier.splitLines, if_neg (by
      rintro (feed | ⟨ret, _⟩)
      · exact noFeed feed
      · exact noReturn ret), next]
    rfl

theorem splitLines_lines {lines : List Text} (plain : ∀ line ∈ lines, Line line) :
    PackageVerifier.splitLines ((lines.flatMap fun line => line ++ [10]).map Char.ofNat) =
      lines.map (fun line => line.map Char.ofNat) ++ [[]] := by
  induction lines with
  | nil => rfl
  | cons line lines ih =>
    have next := ih fun other member => plain other (List.mem_cons_of_mem _ member)
    have shape : ((line :: lines).flatMap fun line => line ++ [10]).map Char.ofNat =
        line.map Char.ofNat ++ '\n' :: (lines.flatMap fun line => line ++ [10]).map Char.ofNat := by
      rw [List.flatMap_cons, List.map_append, List.map_append, List.append_assoc]
      rfl
    rw [shape, splitLines_line (plain line List.mem_cons_self), next]
    rfl

theorem checksumLine_eq {hash path : List Char} (length : hash.length = 64)
    (hex : hash.all CheckoutUrls.hexDigit = true) (filled : path ≠ [])
    (plain : path.any PackageVerifier.lineTerminator = false) :
    PackageVerifier.checksumLine (hash ++ (' ' :: ' ' :: path)) = some (hash, path) := by
  have first : (hash ++ (' ' :: ' ' :: path)).take 64 = hash := by rw [← length, List.take_left]
  have rest : (hash ++ (' ' :: ' ' :: path)).drop 64 = ' ' :: ' ' :: path := by
    rw [← length, List.drop_left]
  have last : (hash ++ (' ' :: ' ' :: path)).drop 66 = path := by
    have two : (hash ++ (' ' :: ' ' :: path)).drop (64 + 2) = (' ' :: ' ' :: path).drop 2 := by
      rw [← List.drop_drop, rest]
    exact two
  simp only [PackageVerifier.checksumLine, first, rest, last]
  exact if_pos ⟨length, hex, rfl, filled, plain⟩

theorem hexUnit_char {n : Nat} (small : n < 16) :
    CheckoutUrls.hexDigit (Char.ofNat (JsonText.hexDigit n)) = true ∧
      PackageVerifier.lowerHex (Char.ofNat (JsonText.hexDigit n)) =
        Char.ofNat (JsonText.hexDigit n) := by
  have all : ∀ k : Fin 16, CheckoutUrls.hexDigit (Char.ofNat (JsonText.hexDigit k)) = true ∧
      PackageVerifier.lowerHex (Char.ofNat (JsonText.hexDigit k)) =
        Char.ofNat (JsonText.hexDigit k) := by
    decide
  exact all ⟨n, small⟩

theorem sha256Hex_char (bytes : List UInt8) : ∀ c ∈ chars (browser.platform.sha256Hex bytes),
    CheckoutUrls.hexDigit c = true ∧ PackageVerifier.lowerHex c = c := by
  rw [chars_small (sha256Hex_ascii browser bytes)]
  intro c member
  obtain ⟨n, inside, rfl⟩ := List.mem_map.1 member
  obtain ⟨byte, _, digit⟩ := List.mem_flatMap.1 inside
  have small := byte.toNat_lt
  rcases List.mem_cons.1 digit with rfl | last
  · exact hexUnit_char (by omega)
  · rw [List.mem_singleton.1 last]
    exact hexUnit_char (by omega)

theorem sha256Hex_length (browser : Browser formats N) (bytes : List UInt8) :
    (chars (browser.platform.sha256Hex bytes)).length = 64 := by
  rw [chars_small (sha256Hex_ascii browser bytes), List.length_map]
  change (bytesToHex (browser.sha256 bytes)).length = 64
  rw [bytesToHex_length, browser.sha256_length]

theorem sha256Hex_line (browser : Browser formats N) (bytes : List UInt8) :
    Line (browser.platform.sha256Hex bytes) := by
  intro c member
  obtain ⟨byte, _, digit⟩ := List.mem_flatMap.1 member
  have small := byte.toNat_lt
  have hex : ∀ n, n < 16 → 32 ≤ JsonText.hexDigit n ∧ JsonText.hexDigit n < 127 := by
    intro n small
    unfold JsonText.hexDigit
    split <;> omega
  rcases List.mem_cons.1 digit with rfl | last
  · exact hex _ (by omega)
  · rw [List.mem_singleton.1 last]
    exact hex _ (by omega)

/-- The line of one file. -/
def checksumLineOf (browser : Browser formats N) (file : Text × List UInt8) : Text :=
  browser.platform.sha256Hex file.2 ++ units "  " ++ file.1

theorem checksum_matches (opens : Opens zip root files) (safe : SafePaths files)
    {file : Text × List UInt8} (member : file ∈ files) (line : Line file.1) :
    PackageVerifier.checksumMatches browser.tools zip (root ++ ['/'])
      ((checksumLineOf browser file).map Char.ofNat) = true := by
  have ascii := sha256Hex_ascii browser file.2
  have shape : (checksumLineOf browser file).map Char.ofNat =
      chars (browser.platform.sha256Hex file.2) ++ (' ' :: ' ' :: chars file.1) := by
    rw [checksumLineOf, List.map_append, List.map_append, chars_small ascii,
      chars_small (safe file member).1, List.append_assoc]
    rfl
  have filled : chars file.1 ≠ [] := by
    intro empty
    have path := (safe file member).2
    rw [empty] at path
    exact absurd path (by decide)
  have plain : (chars file.1).any PackageVerifier.lineTerminator = false := by
    rw [List.any_eq_false]
    intro c inside
    rw [chars_small (safe file member).1] at inside
    obtain ⟨n, here, rfl⟩ := List.mem_map.1 inside
    have range := line n here
    obtain ⟨value, noFeed, noReturn⟩ := char_line range.2 range.1
    simp only [PackageVerifier.lineTerminator, value, Bool.or_eq_true, beq_iff_eq]
    rintro (((feed | ret) | separator) | separator)
    · exact noFeed feed
    · exact noReturn ret
    · omega
    · omega
  have hex : (chars (browser.platform.sha256Hex file.2)).all CheckoutUrls.hexDigit = true :=
    List.all_eq_true.2 fun c inside => (sha256Hex_char file.2 c inside).1
  have lower : (chars (browser.platform.sha256Hex file.2)).map PackageVerifier.lowerHex =
      chars (browser.platform.sha256Hex file.2) :=
    (List.map_congr_left fun c inside => (sha256Hex_char file.2 c inside).2).trans (List.map_id _)
  have read := checksumLine_eq (sha256Hex_length browser file.2) hex filled plain
  have stored := read_stored opens safe member
  have same : browser.tools.sha256Hex file.2 = chars (browser.platform.sha256Hex file.2) := rfl
  simp only [PackageVerifier.checksumMatches, shape, read, (safe file member).2, stored, same,
    lower, Bool.true_eq_false, if_false, beq_self_eq_true]

/-- The line as the verifier sees it. -/
def seenLine (browser : Browser formats N) (file : Text × List UInt8) : List Char :=
  (checksumLineOf browser file).map Char.ofNat

theorem checksum_begins (browser : Browser formats N) (file : Text × List UInt8) : ∃ c rest,
    checksumLineOf browser file = c :: rest ∧ 32 ≤ c ∧ c < 127 := by
  have length := sha256Hex_length browser file.2
  have line := sha256Hex_line browser file.2
  rw [checksumLineOf]
  cases hash : browser.platform.sha256Hex file.2 with
  | nil =>
    rw [hash] at length
    cases length
  | cons c rest =>
    rw [hash] at line
    exact ⟨c, _, rfl, line c List.mem_cons_self⟩

theorem checksums_pass {signed : List (Text × List UInt8)} (within : signed ⊆ files)
    (some_file : signed ≠ []) (lines : ∀ file ∈ signed, Line file.1)
    (sums : (units "sha256sums.txt", utf8 (checksumText browser signed)) ∈ files)
    (opens : Opens zip root files) (safe : SafePaths files) :
    checksumsCheck browser.tools zip (root ++ ['/']) = .pass := by
  have stored := read_stored opens safe sums
  have name : chars (units "sha256sums.txt") = "sha256sums.txt".toList := chars_units (by decide)
  rw [name] at stored
  obtain ⟨sorted, perm, written⟩ : ∃ sorted, List.Perm sorted signed ∧
      checksumText browser signed =
        [10].intercalate (sorted.map (checksumLineOf browser)) ++ [10] :=
    ⟨_, List.mergeSort_perm _ _, rfl⟩
  cases sorted with
  | nil => exact absurd perm.symm.eq_nil some_file
  | cons file sorted =>
    have plain : ∀ line ∈ (file :: sorted).map (checksumLineOf browser), Line line := by
      intro line member
      obtain ⟨other, inside, rfl⟩ := List.mem_map.1 member
      have path := lines other (perm.mem_iff.1 inside)
      exact line_append (line_append (sha256Hex_line browser other.2) (by decide)) path
    rw [lines_joined (by simp)] at written
    have ascii : Ascii (checksumText browser signed) := by
      rw [written]
      intro c member
      obtain ⟨line, inside, here⟩ := List.mem_flatMap.1 member
      exact ascii_append (line_ascii (plain line inside)) (by decide) c here
    have decoded : browser.tools.decodeText (utf8 (checksumText browser signed)) =
        chars (checksumText browser signed) := by
      obtain ⟨c, rest, begins, range⟩ := checksum_begins browser file
      have shape : checksumText browser signed = c :: (rest ++ 10 ::
          ((sorted.map (checksumLineOf browser)).flatMap fun line => line ++ [10])) := by
        rw [written, List.map_cons, List.flatMap_cons, begins, List.append_assoc]
        rfl
      exact decodeText_utf8 browser shape range.2
    have split : PackageVerifier.splitLines (chars (checksumText browser signed)) =
        (file :: sorted).map (seenLine browser) ++ [[]] := by
      rw [chars_small ascii, written, splitLines_lines plain, List.map_map]
      rfl
    have kept : ((file :: sorted).map (seenLine browser) ++ [[]]).filter
        (fun line => decide (line ≠ [])) = (file :: sorted).map (seenLine browser) := by
      have blank : [([] : List Char)].filter (fun line => decide (line ≠ [])) = [] := rfl
      rw [List.filter_append, blank, List.append_nil, List.filter_eq_self]
      intro line member
      obtain ⟨other, _, rfl⟩ := List.mem_map.1 member
      obtain ⟨c, rest, begins, _⟩ := checksum_begins browser other
      rw [seenLine, begins]
      exact decide_eq_true (List.cons_ne_nil _ _)
    have each : ((file :: sorted).map (seenLine browser)).all
        (PackageVerifier.checksumMatches browser.tools zip (root ++ ['/'])) = true := by
      rw [List.all_eq_true]
      intro line member
      obtain ⟨other, here, rfl⟩ := List.mem_map.1 member
      have source := perm.mem_iff.1 here
      exact checksum_matches opens safe (within source) (lines other source)
    have some_line : decide (((file :: sorted).map (seenLine browser)).length > 0) = true :=
      decide_eq_true (Nat.succ_pos _)
    simp only [checksumsCheck, stored, decoded, split, kept, each, some_line, Bool.and_self, passIf,
      if_true]

end Checks
/-! ## The photographs -/

section Photographs
variable {json : Json} {m : Manifest} {zip : Zip} {root : List Char}
  {files listed : List (Text × List UInt8)}

theorem prepared_photo (used : List Text) (photos : List PhotoInput) :
    ∀ photo ∈ preparePhotos browser.platform used photos, ∃ source ∈ photos, ∃ name,
      photo = photoRecord browser.platform name source ∧ (photo.path, source.file.content) ∈
        ((preparePhotos browser.platform used photos).zip photos).map fun prepared =>
          (prepared.1.path, prepared.2.file.content) := by
  induction photos generalizing used with
  | nil =>
    intro photo member
    cases member
  | cons source photos ih =>
    intro photo member
    rw [preparePhotos] at member ⊢
    rw [List.zip_cons_cons, List.map_cons]
    rcases List.mem_cons.1 member with rfl | later
    · exact ⟨source, List.mem_cons_self, _, rfl, List.mem_cons_self⟩
    · obtain ⟨other, inside, name, same, found⟩ := ih _ photo later
      exact ⟨other, List.mem_cons_of_mem _ inside, name, same, List.mem_cons_of_mem _ found⟩

def shotOf (photo : PhotoRecord) : Shot :=
  ⟨chars photo.path, chars photo.mediaType, natValue photo.pixelWidth, natValue photo.pixelHeight⟩

theorem pixelDimension_of {found : Option Json} {n : JsNumber} (valid : dimensionValid n = true)
    (read : found = some (.number (natValue n : Rat))) :
    PhotographMetadata.pixelDimension found = some (natValue n) := by
  obtain ⟨_, _, least, most⟩ := dimension_facts valid
  rw [read, PhotographMetadata.pixelDimension]
  have whole : ((natValue n : Rat)).den = 1 ∧ 1 ≤ ((natValue n : Rat)).num ∧
      ((natValue n : Rat)).num ≤ PhotographMetadata.photoMaximumDimension := by
    rw [Rat.den_natCast, Rat.num_natCast]
    unfold PhotographMetadata.photoMaximumDimension
    omega
  rw [if_pos whole, Rat.num_natCast]
  rfl

/-- The file list has one entry for a path. -/
theorem filter_one {seen : List Json} {stored : List ManifestFile}
    (pairs : List.Forall₂ ReadFile seen stored) (distinct : (stored.map ManifestFile.path).Nodup)
    (ascii : ∀ file ∈ stored, Ascii file.path) {file : ManifestFile} (member : file ∈ stored) :
    ∃ entry, seen.filter (fun entry => strictlyEqual (entry.get "path")
        (some (.text (chars file.path)))) = [entry] ∧ ReadFile entry file := by
  have hit : ∀ {entry : Json} {other : ManifestFile}, ReadFile entry other → Ascii other.path →
      Ascii file.path →
      strictlyEqual (entry.get "path") (some (.text (chars file.path))) =
        decide (other.path = file.path) := by
    intro entry other read first second
    rw [read.path]
    by_cases same : other.path = file.path
    · rw [decide_eq_true same, same]
      exact decide_eq_true rfl
    · rw [decide_eq_false same]
      exact decide_eq_false fun text => same (chars_injective first second text)
  induction pairs with
  | nil => cases member
  | @cons entry other seen stored one rest ih =>
    rw [List.map_cons, List.nodup_cons] at distinct
    have own := ascii file member
    have matched := hit one (ascii other List.mem_cons_self) own
    rcases List.mem_cons.1 member with rfl | later
    · refine ⟨entry, ?_, one⟩
      rw [List.filter_cons_of_pos (by rw [matched]; exact decide_eq_true rfl)]
      refine congrArg _ (List.filter_eq_nil_iff.2 fun next inside => ?_)
      obtain ⟨another, found, read⟩ := forall₂_mem rest inside
      rw [hit read (ascii another (List.mem_cons_of_mem _ found)) own, decide_eq_true_eq]
      intro same
      exact distinct.1 (same ▸ List.mem_map_of_mem found)
    · have differs : other.path ≠ file.path := by
        intro same
        exact distinct.1 (same ▸ List.mem_map_of_mem later)
      obtain ⟨found, only, read⟩ := ih distinct.2
        (fun next inside => ascii next (List.mem_cons_of_mem _ inside)) later
      refine ⟨found, ?_, read⟩
      rw [List.filter_cons_of_neg (by
        rw [matched]
        exact fun same => differs (of_decide_eq_true same)), only]

theorem photoType {file : File} (supported : isSupportedPhotoMimeType file.type = true) :
    mediaTypeForFile file = file.type ∧ utf16 (chars file.type) = file.type := by
  rw [isSupportedPhotoMimeType, file.lowercase, List.contains_iff_mem] at supported
  have known : ∀ type ∈ photoTypes, type ≠ [] ∧ Ascii type := by decide
  obtain ⟨filled, ascii⟩ := known file.type supported
  refine ⟨if_neg filled, utf16_chars (wellFormed_small ?_) ?_⟩
  · intro c member
    have := ascii c member
    omega
  · intro c member
    have := ascii c member
    omega

/-- What an accepted photograph gives the check. -/
structure PhotoFacts (browser : Browser formats N) (source : PhotoInput) : Prop where
  type : mediaTypeForFile source.file = source.file.type
  units : utf16 (chars source.file.type) = source.file.type
  width : dimensionValid source.pixelWidth = true
  height : dimensionValid source.pixelHeight = true
  signature : matchesPhotoMimeSignature source.file.type (source.file.content.take 12) = true

theorem photo_facts (browser : Browser formats N) {source : PhotoInput}
    (accepted : photoAccepted source = true) : PhotoFacts browser source := by
  simp only [photoAccepted, Bool.and_eq_true] at accepted
  obtain ⟨⟨⟨⟨⟨supported, _⟩, _⟩, signature⟩, width⟩, height⟩ := accepted
  exact ⟨(photoType supported).1, (photoType supported).2, width, height, signature⟩

theorem photographs_checked {photos : List PhotoInput} {logo : Option File}
    (reads : ReadManifest browser json m) (version : m.schemaVersion = units "2.2.0")
    (prepared : m.photographs = preparePhotos browser.platform [] photos)
    (accepted : photosAccepted photos logo = true)
    (photoFiles : ∀ photo ∈ m.photographs, photoFile photo ∈ m.files)
    (distinct : (m.files.map ManifestFile.path).Nodup) (ascii : ∀ file ∈ m.files, Ascii file.path)
    (contents : ∀ file ∈ ((preparePhotos browser.platform [] photos).zip photos).map
      (fun prepared => (prepared.1.path, prepared.2.file.content)), file ∈ files)
    (decodes : ∀ photo ∈ photos, browser.decodeImageDimensions photo.file.content
      (chars (mediaTypeForFile photo.file)) =
        .ok ⟨natValue photo.pixelWidth, natValue photo.pixelHeight⟩)
    (opens : Opens zip root files) (safe : SafePaths files) :
    PhotographMetadata.photographCheck browser.decodeImageDimensions json zip (root ++ ['/']) =
      .ok .pass := by
  simp only [photosAccepted, Bool.and_eq_true, List.all_eq_true] at accepted
  obtain ⟨⟨⟨⟨some_photo, _⟩, each⟩, _⟩, _⟩ := accepted
  obtain ⟨seenFiles, filesHere, filePairs⟩ := reads.files
  obtain ⟨seen, here, pairs⟩ := reads.photographs
  have array : arrayOrEmpty (json.get "files") = seenFiles := by rw [filesHere]; rfl
  have facts : ∀ photo ∈ m.photographs, ∃ source ∈ photos, PhotoFacts browser source ∧
      photo.mediaType = source.file.type ∧ photo.pixelWidth = source.pixelWidth ∧
      photo.pixelHeight = source.pixelHeight ∧ (photo.path, source.file.content) ∈ files := by
    intro photo member
    rw [prepared] at member
    obtain ⟨source, inside, name, rfl, stored⟩ := prepared_photo [] photos photo member
    have known := photo_facts browser (each source inside)
    exact ⟨source, inside, known, known.type, rfl, rfl, contents _ stored⟩
  have recorded : List.Forall₂ (Recorded (arrayOrEmpty (json.get "files"))) seen
      (m.photographs.map shotOf) := by
    rw [List.forall₂_map_right_iff, array]
    refine List.forall₂_iff_zip.2 ⟨pairs.length_eq, fun {j photo} inside => ?_⟩
    have member := (List.of_mem_zip inside).2
    have read := List.forall₂_zip pairs inside
    obtain ⟨source, _, known, _, width, height, _⟩ := facts photo member
    obtain ⟨entry, only, file⟩ := filter_one filePairs distinct ascii (photoFiles photo member)
    have path : (photoFile photo).path = photo.path := rfl
    rw [path] at only
    refine ⟨read.path, read.mediaType, ?_, ?_, read.displayCrop, entry, ?_, ?_, ?_, ?_⟩
    · exact pixelDimension_of (width ▸ known.width) read.pixelWidth
    · exact pixelDimension_of (height ▸ known.height) read.pixelHeight
    · rw [read.path]
      exact only
    · cases entry with
      | null =>
        have text := file.path
        cases text
      | _ => rfl
    · have role : (photoFile photo).role = units "exact original specimen photograph" := rfl
      rw [file.role, role, chars_units (by decide)]
      exact beq_self_eq_true _
    · intro property named
      simp only [List.mem_cons, List.not_mem_nil, or_false] at named
      rcases named with rfl | rfl | rfl
      · rw [read.sha256, file.sha256]
        exact decide_eq_true rfl
      · rw [read.bytes, file.bytes]
        exact beq_self_eq_true _
      · rw [read.mediaType, file.mediaType]
        exact decide_eq_true rfl
  have filled : m.photographs ≠ [] := by
    rw [prepared]
    cases photos with
    | nil => cases some_photo
    | cons photo photos => exact List.cons_ne_nil _ _
  have some_seen : seen ≠ [] := by
    intro empty
    have lengths := pairs.length_eq
    rw [empty, List.length_nil] at lengths
    exact filled (List.length_eq_zero_iff.1 lengths.symm)
  have version_read : json.get "schemaVersion" = some (.text "2.2.0".toList) := by
    rw [reads.schemaVersion, version, chars_units (by decide)]
  have apart : ((m.photographs.map shotOf).map Shot.path).Nodup := by
    have paths : (m.photographs.map PhotoRecord.path).Nodup := by
      rw [prepared, photoNames_paths]
      exact (photoNames_safe browser photos).2.map fun a b same => List.append_cancel_left same
    rw [List.map_map, List.nodup_map_iff_inj_on (List.Nodup.of_map _ paths)]
    intro photo member other inside same
    apply List.inj_on_of_nodup_map paths member inside
    exact chars_injective (ascii _ (photoFiles photo member)) (ascii _ (photoFiles other inside))
      same
  refine PhotographMetadata.photographs_pass browser.decodeImageDimensions version_read here
    some_seen recorded apart ?_
  intro shot member
  obtain ⟨photo, inside, rfl⟩ := List.mem_map.1 member
  obtain ⟨source, given, known, type, width, height, stored⟩ := facts photo inside
  have read := read_stored opens safe stored
  have image := decodes source given
  rw [known.type] at image
  simp only [PhotographMetadata.decodePhotograph, shotOf, read, bind, Except.bind, type,
    known.units, known.signature, width, height, image]
  rfl

end Photographs

/-! ## The identity of the meteorite -/

section Identity
variable {json : Json} {m : Manifest}

theorem version_read (reads : ReadManifest browser json m)
    (schema : m.schema = units "coa-manifest-v2.schema.json")
    (schemaVersion : m.schemaVersion = units "2.2.0") (packageVersion : m.packageVersion = 2) :
    PackageVerifier.validateManifestVersion browser.tools json =
      ⟨.v2, browser.validateV2 json⟩ := by
  have first : json.get "$schema" = some (.text "coa-manifest-v2.schema.json".toList) := by
    rw [reads.schema, schema, chars_units (by decide)]
  have second : json.get "schemaVersion" = some (.text "2.2.0".toList) := by
    rw [reads.schemaVersion, schemaVersion, chars_units (by decide)]
  have third : json.get "packageVersion" = some (.number 2) := by
    rw [reads.packageVersion, packageVersion]
    rfl
  rw [PackageVerifier.validateManifestVersion, first, second, third]
  rfl

theorem object_of_get {json : Json} {key : String} {value : Json}
    (found : json.get key = some value) : PackageVerifier.isObject (some json) = true := by
  cases json with
  | object fields => rfl
  | _ => cases found

theorem digits_chars {s : Text} (digits : s.all CodeUnits.digit = true) :
    Ascii s ∧ (chars s).all CheckoutUrls.digit = true := by
  have ascii : Ascii s := by
    intro c member
    have digit := List.all_eq_true.1 digits c member
    simp only [CodeUnits.digit, Bool.and_eq_true, decide_eq_true_eq] at digit
    omega
  refine ⟨ascii, ?_⟩
  rw [chars_small ascii, List.all_eq_true]
  intro c member
  obtain ⟨n, inside, rfl⟩ := List.mem_map.1 member
  have digit := List.all_eq_true.1 digits n inside
  simp only [CodeUnits.digit, Bool.and_eq_true, decide_eq_true_eq] at digit
  simp only [CheckoutUrls.digit, ascii_toNat (ascii n inside), digit.1, digit.2, decide_true,
    Bool.and_self]

theorem identity_passes {values : FormValues} (accepted : Accepted formats values)
    (reads : ReadManifest browser json m)
    (specimen : m.specimen = buildSpecimen (withoutEvidence (trimmed values))) :
    PackageVerifier.validateOfficialMeteoriteIdentity (json.get "specimen") = true := by
  obtain ⟨seen, here, prints⟩ := reads.specimen
  have mode : seen.get "meteoriteIdentity" =
      some (.text (identityText m.specimen.meteoriteIdentity).toList) :=
    read_word (by cases m.specimen.meteoriteIdentity <;> decide)
      (prints_record prints (of_decide_eq_true rfl) (by decide) 1 rfl)
  obtain ⟨fall, fallHere, fallPrints⟩ :=
    rel_some (prints_record prints (of_decide_eq_true rfl) (by decide) 15 rfl)
  have code := read_optional (prints_record fallPrints (of_decide_eq_true rfl)
    (show Plain "metbullCode" by decide) 7 rfl)
  have url := read_optional (prints_record fallPrints (of_decide_eq_true rfl)
    (show Plain "officialReferenceUrl" by decide) 8 rfl)
  obtain ⟨_, _, _, _, _, _, frame⟩ := withoutEvidence_frame (trimmed values)
  have identity : m.specimen.meteoriteIdentity = values.meteoriteIdentity := by
    rw [specimen, frame]
    rfl
  rw [here]
  cases kind : values.meteoriteIdentity with
  | unclassified =>
    rw [identity, kind] at mode
    have unclassified : isText (PackageVerifier.optionalGet (some seen) "meteoriteIdentity")
        "unclassified" = true := by
      change isText (seen.get "meteoriteIdentity") "unclassified" = true
      rw [mode]
      decide
    simp only [PackageVerifier.validateOfficialMeteoriteIdentity, object_of_get mode, unclassified,
      Bool.true_eq_false, if_false, if_true]
  | official =>
    have parts := official_parts (accepted.identity kind)
    have kept : withoutEvidence (trimmed values) = trimmed values := by
      apply if_neg
      change ¬ values.meteoriteIdentity = .unclassified
      rw [kind]
      decide
    have isOfficial : isOfficial (trimmed values) = true := by
      change (values.meteoriteIdentity == .official) = true
      rw [kind]
      rfl
    have stated : m.specimen.fall.metbullCode = some (trim values.metbullCode) ∧
        m.specimen.fall.officialReferenceUrl = some (trim values.officialReferenceUrl) := by
      rw [specimen, kept]
      simp only [buildSpecimen, isOfficial, if_true]
      exact ⟨rfl, rfl⟩
    rw [stated.1, Option.map_some] at code
    rw [stated.2, Option.map_some, parts.url] at url
    have numeric := parts.code
    rw [Bool.and_eq_true, bne_iff_ne] at numeric
    obtain ⟨ascii, digits⟩ := digits_chars numeric.2
    have base : chars (metbullBase ++ trim values.metbullCode) =
        "https://www.lpi.usra.edu/meteor/metbull.cfm?code=".toList ++
          chars (trim values.metbullCode) := by
      rw [chars_append (by decide) ascii, metbullBase, chars_units (by decide)]
    rw [base] at url
    have filled : decide (chars (trim values.metbullCode) ≠ []) = true := by
      apply decide_eq_true
      rw [chars_small ascii]
      exact fun empty => numeric.1 (List.map_eq_nil_iff.1 empty)
    have unclassified : isText (PackageVerifier.optionalGet (some seen) "meteoriteIdentity")
        "unclassified" = false := by
      change isText (seen.get "meteoriteIdentity") "unclassified" = false
      rw [mode, identity, kind]
      decide
    have official : isText (PackageVerifier.optionalGet (some seen) "meteoriteIdentity")
        "official" = true := by
      change isText (seen.get "meteoriteIdentity") "official" = true
      rw [mode, identity, kind]
      decide
    have fallSeen : PackageVerifier.optionalGet (some seen) "fall" = some fall := fallHere
    have codeSeen : asText (PackageVerifier.optionalGet (some fall) "metbullCode") =
        some (chars (trim values.metbullCode)) := congrArg asText code
    have urlSeen := congrArg asText url
    simp only [PackageVerifier.validateOfficialMeteoriteIdentity, object_of_get mode, unclassified,
      official, fallSeen, object_of_get code, codeSeen, filled, digits, Bool.true_eq_false,
      if_false, Bool.false_eq_true, Bool.and_self, Bool.true_and]
    exact beq_iff_eq.2 urlSeen

end Identity
end PackageChecks
