import SpacerocksCoa.ManifestSchema
import SpacerocksCoa.ReadManifests

/-!
# The photographs of a package

The verifier compares every photograph of a manifest with its entry in the file list, with the
format of its version and with the image that its bytes decode to. The decoder of images is a
parameter. A photograph that is null makes the comparison throw.
-/
namespace PhotographMetadata
open PackageVerifier (Json Zip CheckStatus readBytes asText isText isNumber arrayOrEmpty passIf)
open Utf16Texts (utf16)

/-! ## Values -/

/-- `===` between properties of two objects of a parsed text. -/
def strictlyEqual : Option Json → Option Json → Bool
  | none, none => true
  | some .null, some .null => true
  | some (.bool a), some (.bool b) => a == b
  | some (.number a), some (.number b) => a == b
  | some (.infinite a), some (.infinite b) => a == b
  | some (.text a), some (.text b) => decide (a = b)
  | _, _ => false

def isNull : Json → Bool
  | .null => true
  | _ => false

def truthy : Option Json → Bool
  | none | some .null | some (.bool false) | some (.text []) => false
  | some (.number n) => n != 0
  | _ => true

def photoMaximumDimension : Nat := 100000

/-- A dimension that is an integer within bounds. -/
def pixelDimension : Option Json → Option Nat
  | some (.number n) =>
    if n.den = 1 ∧ 1 ≤ n.num ∧ n.num ≤ photoMaximumDimension then some n.num.toNat else none
  | _ => none

structure DecodedDimensions where
  pixelWidth : Nat
  pixelHeight : Nat

abbrev Decoded := List (List Char × DecodedDimensions)

/-- `decodedDimensions?.get(photo.path)` -/
def decodedOf (decoded : Decoded) (path : Option Json) : Option DecodedDimensions :=
  (asText path).bind fun text => (decoded.find? fun entry => decide (entry.1 = text)).map Prod.snd

/-- The crop that a manifest of version 2.1.0 records; the doubles are exact here. -/
def matchesLegacyRecordedCrop (pixelWidth pixelHeight : Nat) (displayCrop : Option Json) : Bool :=
  let scale := min (pixelWidth / 112) (pixelHeight / 91)
  let cropWidth := 112 * scale
  let cropHeight := 91 * scale
  let sourceArea := pixelWidth * pixelHeight
  let cropArea := cropWidth * cropHeight
  let suitable := decide (5 ≤ scale ∧ (sourceArea - cropArea) * 20 ≤ sourceArea)
  match displayCrop with
  | none => !suitable
  | some crop =>
    suitable && isNumber (crop.get "x") ((pixelWidth - cropWidth) / 2 : Nat) &&
      isNumber (crop.get "y") ((pixelHeight - cropHeight) / 2 : Nat) &&
      isNumber (crop.get "width") cropWidth && isNumber (crop.get "height") cropHeight &&
      isText (crop.get "targetAspect") "112:91" && isText (crop.get "algorithm") "center-cover-v1"

/-! ## The metadata -/

def typeError : String := "Cannot read properties of null"

def failIf (bad : Bool) (failure : String) : List String := if bad then [failure] else []

/-- The comparison with the entry of the file list. -/
def fileFailures (hasDimensions : Bool) (label : String) (files : List Json) (photo : Json) :
    Except String (List String) :=
  match files.filter fun entry => strictlyEqual (entry.get "path") (photo.get "path") with
  | [fileEntry] =>
    if isNull photo || isNull fileEntry then .error typeError
    else .ok (
      ["sha256", "bytes", "mediaType"].flatMap (fun property =>
        failIf (!strictlyEqual (photo.get property) (fileEntry.get property))
          s!"{label} {property} disagrees with its file entry") ++
      failIf (hasDimensions &&
          !isText (fileEntry.get "role") "exact original specimen photograph")
        s!"{label} file role is not exact original specimen photograph")
  | _ => .ok [s!"{label} must match exactly one manifest file entry"]

def cropFailures (label : String) (index pixelWidth pixelHeight : Nat) (crop : Option Json) :
    List String :=
  if truthy crop then
    failIf (!matchesLegacyRecordedCrop pixelWidth pixelHeight crop)
      s!"{label} crop is not the deterministic centered 112:91 rectangle"
  else
    failIf (!matchesLegacyRecordedCrop pixelWidth pixelHeight none)
      s!"{label} is display-suitable but has no signed display crop" ++
    failIf (index == 0) "the primary photograph has no valid signed display crop"

/-- The dimensions and, by version, the crop. -/
def dimensionFailures (isContainFormat : Bool) (label : String) (index : Nat) (decoded : Decoded)
    (photo : Json) : Except String (List String) :=
  if isNull photo then .error typeError
  else
    match pixelDimension (photo.get "pixelWidth"), pixelDimension (photo.get "pixelHeight") with
    | some pixelWidth, some pixelHeight =>
      let disagrees := (decodedOf decoded (photo.get "path")).any fun found =>
        found.pixelWidth != pixelWidth || found.pixelHeight != pixelHeight
      .ok (failIf disagrees s!"{label} decoded dimensions disagree with its signed dimensions" ++
        if isContainFormat then
          failIf (photo.get "displayCrop").isSome
            s!"{label} has unexpected crop metadata in schema 2.2"
        else cropFailures label index pixelWidth pixelHeight (photo.get "displayCrop"))
    | _, _ => .ok [s!"{label} has invalid or unbounded decoded pixel dimensions"]

/-- The loop over the photographs, with the paths seen so far. -/
def photographFailures (isLegacyCropFormat isContainFormat : Bool) (files : List Json)
    (decoded : Decoded) : Nat → List (List Char) → List Json → Except String (List String)
  | _, _, [] => .ok []
  | index, seenPhotoPaths, photo :: rest => do
    let label := s!"photograph {index + 1}"
    let hasDimensions := isLegacyCropFormat || isContainFormat
    let path := asText (photo.get "path")
    let fileFacts ← fileFailures hasDimensions label files photo
    let dimensions ← if hasDimensions then
        dimensionFailures isContainFormat label index decoded photo
      else .ok []
    let others ← photographFailures isLegacyCropFormat isContainFormat files decoded (index + 1)
      (path.toList ++ seenPhotoPaths) rest
    return failIf (path.any fun text => seenPhotoPaths.any fun seen => seen = text)
        s!"{label} duplicates an earlier photograph path" ++ fileFacts ++ dimensions ++ others

/-- The failures; none of them means that the metadata is valid. -/
def validatePhotographMetadata (manifest : Json) (decoded : Decoded) :
    Except String (List String) := do
  let photographs := arrayOrEmpty (manifest.get "photographs")
  let schemaVersion := manifest.get "schemaVersion"
  let failures ← photographFailures (isText schemaVersion "2.1.0") (isText schemaVersion "2.2.0")
    (arrayOrEmpty (manifest.get "files")) decoded 0 [] photographs
  return failures ++ failIf photographs.isEmpty "no source-original photographs are recorded"

/-! ## The images -/

variable (decodeImageDimensions : List UInt8 → List Char → Except String DecodedDimensions)

def decodePhotograph (zip : Zip) (root path mediaType : List Char) :
    Except String DecodedDimensions := do
  let bytes ← readBytes zip root path
  if ManifestSchema.matchesPhotoMimeSignature (utf16 mediaType) (bytes.take 12) = false then
    throw "encoded signature does not match media type"
  decodeImageDimensions bytes mediaType

/-- The loop over the images: the dimensions found so far, and the failures. -/
def decodePhotographs (zip : Zip) (root : List Char) :
    Nat → Decoded → List Json → Decoded × List String
  | _, decoded, [] => (decoded, [])
  | index, decoded, photo :: rest =>
    let label := s!"photograph {index + 1}"
    match asText (photo.get "path"), asText (photo.get "mediaType") with
    | some path, some mediaType =>
      match decodePhotograph decodeImageDimensions zip root path mediaType with
      | .ok found => decodePhotographs zip root (index + 1) ((path, found) :: decoded) rest
      | .error error =>
        let others := decodePhotographs zip root (index + 1) decoded rest
        (others.1, s!"{label} decode failed: {error}" :: others.2)
    | _, _ =>
      let others := decodePhotographs zip root (index + 1) decoded rest
      (others.1,
        s!"{label} cannot be decoded because its path or media type is invalid" :: others.2)

/-- The check of the photographs of a manifest of version 2. -/
def photographCheck (manifest : Json) (zip : Zip) (root : List Char) :
    Except String CheckStatus := do
  let preflight ← validatePhotographMetadata manifest []
  let schemaVersion := manifest.get "schemaVersion"
  let decodes := preflight.isEmpty &&
    (isText schemaVersion "2.1.0" || isText schemaVersion "2.2.0")
  let photographs := if decodes then arrayOrEmpty (manifest.get "photographs") else []
  let images := decodePhotographs decodeImageDimensions zip root 0 [] photographs
  let metadata ← validatePhotographMetadata manifest images.1
  return passIf (preflight ++ metadata ++ images.2).isEmpty

/-! ## Photographs that match -/

/-- What a photograph of version 2.2.0 records. -/
structure Shot where
  path : List Char
  mediaType : List Char
  pixelWidth : Nat
  pixelHeight : Nat

/-- The record of a shot, with its entry in the file list. -/
structure Recorded (files : List Json) (photo : Json) (shot : Shot) : Prop where
  path : photo.get "path" = some (.text shot.path)
  mediaType : photo.get "mediaType" = some (.text shot.mediaType)
  pixelWidth : pixelDimension (photo.get "pixelWidth") = some shot.pixelWidth
  pixelHeight : pixelDimension (photo.get "pixelHeight") = some shot.pixelHeight
  uncropped : photo.get "displayCrop" = none
  listed : ∃ fileEntry,
    files.filter (fun entry => strictlyEqual (entry.get "path") (photo.get "path")) = [fileEntry] ∧
    isNull fileEntry = false ∧
    isText (fileEntry.get "role") "exact original specimen photograph" = true ∧
    ∀ property ∈ ["sha256", "bytes", "mediaType"],
      strictlyEqual (photo.get property) (fileEntry.get property) = true

theorem Recorded.object {files : List Json} {photo : Json} {shot : Shot}
    (recorded : Recorded files photo shot) : isNull photo = false := by
  cases photo with
  | null =>
    have path := recorded.path
    cases path
  | _ => rfl

theorem fileFailures_none {files : List Json} {photo : Json} {shot : Shot}
    (recorded : Recorded files photo shot) (label : String) :
    fileFailures true label files photo = .ok [] := by
  obtain ⟨fileEntry, only, object, role, equal⟩ := recorded.listed
  have sha256 := equal "sha256" (by decide)
  have bytes := equal "bytes" (by decide)
  have mediaType := equal "mediaType" (by decide)
  simp only [fileFailures, only, recorded.object, object, role, sha256, bytes, mediaType, failIf,
    List.flatMap_cons, List.flatMap_nil, Bool.or_self, Bool.not_true, Bool.and_false,
    Bool.false_eq_true, if_false, List.append_nil]

theorem dimensionFailures_none {files : List Json} {photo : Json} {shot : Shot}
    (recorded : Recorded files photo shot) (label : String) (index : Nat) {decoded : Decoded}
    (agrees : ∀ entry ∈ decoded, entry.1 = shot.path →
      entry.2 = ⟨shot.pixelWidth, shot.pixelHeight⟩) :
    dimensionFailures true label index decoded photo = .ok [] := by
  have same : ∀ found ∈ decodedOf decoded (photo.get "path"),
      found = ⟨shot.pixelWidth, shot.pixelHeight⟩ := by
    intro found member
    rw [recorded.path] at member
    obtain ⟨entry, here, rfl⟩ := Option.map_eq_some_iff.1 member
    have named : entry.1 = shot.path := by simpa using List.find?_some here
    exact agrees entry (List.mem_of_find?_eq_some here) named
  have quiet : ((decodedOf decoded (photo.get "path")).any fun found =>
      found.pixelWidth != shot.pixelWidth || found.pixelHeight != shot.pixelHeight) = false := by
    cases found : decodedOf decoded (photo.get "path") with
    | none => rfl
    | some dimensions =>
      rw [same dimensions found]
      simp
  simp only [dimensionFailures, recorded.object, recorded.pixelWidth, recorded.pixelHeight, quiet,
    recorded.uncropped, failIf, Option.isSome_none, Bool.false_eq_true, if_false, if_true,
    List.append_nil]

theorem photographFailures_none {files : List Json} {decoded : Decoded} {photos : List Json}
    {shots : List Shot} (recorded : List.Forall₂ (Recorded files) photos shots)
    (distinct : (shots.map Shot.path).Nodup)
    (agrees : ∀ shot ∈ shots, ∀ entry ∈ decoded, entry.1 = shot.path →
      entry.2 = ⟨shot.pixelWidth, shot.pixelHeight⟩)
    (index : Nat) (seen : List (List Char)) (fresh : ∀ shot ∈ shots, shot.path ∉ seen) :
    photographFailures false true files decoded index seen photos = .ok [] := by
  induction recorded generalizing index seen with
  | nil => rfl
  | @cons photo shot photos shots first _ ih =>
    rw [List.map_cons, List.nodup_cons] at distinct
    have path : asText (photo.get "path") = some shot.path := by rw [first.path]; rfl
    have new : (seen.any fun earlier => earlier = shot.path) = false := by
      rw [List.any_eq_false]
      intro earlier member same
      exact fresh shot List.mem_cons_self (of_decide_eq_true same ▸ member)
    have others := ih distinct.2 (fun shot member => agrees shot (List.mem_cons_of_mem _ member))
      (index + 1) ((some shot.path).toList ++ seen) (by
        intro other member
        rw [Option.toList_some, List.singleton_append, List.mem_cons, not_or]
        constructor
        · intro same
          exact distinct.1 (same ▸ List.mem_map_of_mem member)
        · exact fresh other (List.mem_cons_of_mem _ member))
    simp only [photographFailures, path, fileFailures_none first, Bool.or_true, if_true,
      dimensionFailures_none first _ index (agrees shot List.mem_cons_self), others, new, failIf,
      Option.any_some, Bool.false_eq_true, if_false, bind, Except.bind, pure, Except.pure,
      List.append_nil]

theorem decodePhotographs_all {files : List Json} {zip : Zip} {root : List Char}
    {photos : List Json} {shots : List Shot}
    (recorded : List.Forall₂ (Recorded files) photos shots)
    (decodes : ∀ shot ∈ shots, decodePhotograph decodeImageDimensions zip root shot.path
      shot.mediaType = .ok ⟨shot.pixelWidth, shot.pixelHeight⟩) (index : Nat) (decoded : Decoded) :
    (decodePhotographs decodeImageDimensions zip root index decoded photos).2 = [] ∧
      ∀ entry ∈ (decodePhotographs decodeImageDimensions zip root index decoded photos).1,
        entry ∈ decoded ∨ ∃ shot ∈ shots,
          entry = (shot.path, ⟨shot.pixelWidth, shot.pixelHeight⟩) := by
  induction recorded generalizing index decoded with
  | nil => exact ⟨rfl, fun entry member => Or.inl member⟩
  | @cons photo shot photos shots first _ ih =>
    have path : asText (photo.get "path") = some shot.path := by rw [first.path]; rfl
    have mediaType : asText (photo.get "mediaType") = some shot.mediaType := by
      rw [first.mediaType]
      rfl
    have step : decodePhotographs decodeImageDimensions zip root index decoded (photo :: photos) =
        decodePhotographs decodeImageDimensions zip root (index + 1)
          ((shot.path, ⟨shot.pixelWidth, shot.pixelHeight⟩) :: decoded) photos := by
      simp only [decodePhotographs, path, mediaType, decodes shot List.mem_cons_self]
    obtain ⟨quiet, found⟩ := ih (fun shot member => decodes shot (List.mem_cons_of_mem _ member))
      (index + 1) ((shot.path, ⟨shot.pixelWidth, shot.pixelHeight⟩) :: decoded)
    rw [step]
    refine ⟨quiet, fun entry member => ?_⟩
    rcases found entry member with old | ⟨other, inside, same⟩
    · rcases List.mem_cons.1 old with here | older
      · exact Or.inr ⟨shot, List.mem_cons_self, here⟩
      · exact Or.inl older
    · exact Or.inr ⟨other, List.mem_cons_of_mem _ inside, same⟩

/-- Recorded photographs with their own paths and their own dimensions pass. -/
theorem photographs_pass {manifest : Json} {zip : Zip} {root : List Char} {photos : List Json}
    {shots : List Shot} (version : manifest.get "schemaVersion" = some (.text "2.2.0".toList))
    (listed : manifest.get "photographs" = some (.array photos)) (some_photo : photos ≠ [])
    (recorded : List.Forall₂ (Recorded (arrayOrEmpty (manifest.get "files"))) photos shots)
    (distinct : (shots.map Shot.path).Nodup)
    (decodes : ∀ shot ∈ shots, decodePhotograph decodeImageDimensions zip root shot.path
      shot.mediaType = .ok ⟨shot.pixelWidth, shot.pixelHeight⟩) :
    photographCheck decodeImageDimensions manifest zip root = .ok .pass := by
  have metadata : ∀ decoded : Decoded, (∀ shot ∈ shots, ∀ entry ∈ decoded, entry.1 = shot.path →
      entry.2 = ⟨shot.pixelWidth, shot.pixelHeight⟩) →
      validatePhotographMetadata manifest decoded = .ok [] := by
    intro decoded agrees
    have quiet := photographFailures_none recorded distinct agrees 0 []
      fun _ _ => List.not_mem_nil
    have legacy : isText (manifest.get "schemaVersion") "2.1.0" = false := by
      rw [version]
      decide
    have contain : isText (manifest.get "schemaVersion") "2.2.0" = true := by
      rw [version]
      decide
    have none_missing : photos.isEmpty = false := by simpa using some_photo
    simp only [validatePhotographMetadata, listed, arrayOrEmpty, legacy, contain, none_missing,
      failIf, Bool.false_eq_true, if_false, List.append_nil] at quiet ⊢
    rw [quiet]
    rfl
  have contain : isText (manifest.get "schemaVersion") "2.2.0" = true := by
    rw [version]
    decide
  obtain ⟨quiet, found⟩ := decodePhotographs_all decodeImageDimensions recorded decodes 0 []
  have after := metadata _ (by
    intro shot member entry inside named
    rcases found entry inside with none | ⟨other, here, rfl⟩
    · cases none
    · have same : other = shot := List.inj_on_of_nodup_map distinct here member named
      rw [same])
  have before := metadata [] fun _ _ _ none => absurd none List.not_mem_nil
  simp only [photographCheck, before, listed, arrayOrEmpty, contain, Bool.or_true, List.isEmpty_nil,
    Bool.and_self, if_true, bind, Except.bind, pure, Except.pure, after, quiet, List.append_nil,
    passIf]

end PhotographMetadata
