import SpacerocksCoa.PackageVerifier

/-!
# Archives of stored files

The plainest archive holds the contents one after the other, as they are, and then the directory.
The names of the directory find every content again.
-/
namespace StoredArchives
open PackageVerifier (Zip)
open ZipDirectory

structure StoredFile where
  name : List Char
  nameBytes : List UInt8
  content : List UInt8
  decoded : decodeFatal nameBytes = some name
  contentFits : content.length < 65536 * 65536
  nameFits : nameBytes.length < 65536

theorem header_length : (List.replicate 16 (0 : UInt8)).length = 16 := rfl

theorem attributes_length : (List.replicate 12 (0 : UInt8)).length = 12 := rfl

theorem empty_length : ([] : List UInt8).length < 65536 := by decide

def StoredFile.entry (file : StoredFile) : DirectoryEntry where
  name := file.name
  nameBytes := file.nameBytes
  compressedBytes := file.content.length
  uncompressedBytes := file.content.length
  header := List.replicate 16 0
  extra := []
  comment := []
  attributes := List.replicate 12 0
  decoded := file.decoded
  compressedFits := file.contentFits
  uncompressedFits := file.contentFits
  headerFits := header_length
  attributesFit := attributes_length
  nameFits := file.nameFits
  extraFits := empty_length
  commentFits := empty_length

def StoredFile.raw (file : StoredFile) : RawZipEntry :=
  ⟨file.name, file.content.length, file.content.length⟩

def contents (files : List StoredFile) : List UInt8 := files.flatMap StoredFile.content

def storedArchive (files : List StoredFile) : List UInt8 :=
  archive (contents files) (files.map StoredFile.entry) []

/-- The content of a name, by the sizes of the entries before it. -/
def contentAt (bytes : List UInt8) (name : List Char) :
    Nat → List RawZipEntry → Except String (List UInt8)
  | _, [] => .error "no such file"
  | offset, entry :: rest =>
    if entry.name = name then .ok ((bytes.drop offset).take entry.compressedBytes)
    else contentAt bytes name (offset + entry.compressedBytes) rest

def openStored (bytes : List UInt8) : Except String Zip := do
  let entries ← inspectZipCentralDirectory bytes
  return fun name => contentAt bytes name 0 entries

/-- The fields of the end record hold the counts and sizes. -/
structure FitsArchive (files : List StoredFile) : Prop where
  count : files.length < 0xffff
  size : (directory (files.map StoredFile.entry)).length < 0xffffffff
  offset : (contents files).length < 0xffffffff
  distinct : (files.map StoredFile.name).Nodup

theorem storedArchive_length (files : List StoredFile) : (storedArchive files).length =
    (contents files).length + (directory (files.map StoredFile.entry)).length + 22 := by
  simp only [storedArchive, archive, endRecord, List.length_append, le32_length, le16_length,
    List.length_nil]

theorem inspect_stored {files : List StoredFile} (fits : FitsArchive files) :
    inspectZipCentralDirectory (storedArchive files) = .ok (files.map StoredFile.raw) := by
  have formed : WellFormed (contents files) (files.map StoredFile.entry) [] := by
    refine ⟨?_, fits.size, fits.offset, empty_length, ?_⟩
    · rw [List.length_map]
      exact fits.count
    · rw [List.map_map]
      exact fits.distinct
  have inspected := inspect_archive formed (noLaterSignature_plain _ _)
  rw [List.map_map] at inspected
  exact inspected

theorem contentAt_stored {bytes : List UInt8} {files : List StoredFile} {offset : Nat}
    {after : List UInt8} (here : bytes.drop offset = contents files ++ after)
    (distinct : (files.map StoredFile.name).Nodup) {file : StoredFile} (member : file ∈ files) :
    contentAt bytes file.name offset (files.map StoredFile.raw) = .ok file.content := by
  induction files generalizing offset with
  | nil => cases member
  | cons first files ih =>
    rw [List.map_cons, List.nodup_cons] at distinct
    have split : bytes.drop offset = first.content ++ (contents files ++ after) := by
      rw [here, contents, List.flatMap_cons, List.append_assoc]
      rfl
    rw [List.map_cons, contentAt]
    rcases List.mem_cons.1 member with rfl | later
    · have own : file.raw.name = file.name := rfl
      have size : file.raw.compressedBytes = file.content.length := rfl
      rw [if_pos own, split, size, List.take_left]
    · have other : first.raw.name ≠ file.name := by
        intro same
        have given : first.name = file.name := same
        exact distinct.1 (given ▸ List.mem_map_of_mem later)
      rw [if_neg other]
      exact ih (drop_past split _ rfl) distinct.2 later

/-- Every file is found again. -/
theorem openStored_stored {files : List StoredFile} (fits : FitsArchive files) :
    ∃ zip, openStored (storedArchive files) = .ok zip ∧
      ∀ file ∈ files, zip file.name = .ok file.content := by
  refine ⟨_, FallibleSteps.bind_pass (inspect_stored fits) rfl, fun file member => ?_⟩
  have start : (storedArchive files).drop 0 = contents files ++
      (directory (files.map StoredFile.entry) ++ endRecord (files.map StoredFile.entry).length
        (directory (files.map StoredFile.entry)).length (contents files).length []) := by
    rw [List.drop_zero, storedArchive, archive, List.append_assoc]
  exact contentAt_stored start fits.distinct member

end StoredArchives
