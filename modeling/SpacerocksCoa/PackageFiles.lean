import SpacerocksCoa.CertificatePackages

/-!
# The files of a package

The files that the builder collects: their names, that all of them are distinct and safe, and
which of them the verifier could take for a manifest.
-/
namespace PackageFiles
open JsonText (Text units)
open ManifestSchema
open FileNames (SafeName safeChar photographPath sanitizeFileName candidates)
open CodeUnits (alphanumeric_iff chars toLowerCase)
open Utf16Texts
open CertificatePackages
open CheckoutUrls (segments)
open PackageVerifier (isSafeRelativePath)

/-! ## Paths -/

/-- A list is cut in one way at the first place of a separator. -/
theorem split_unique {A : Type} {a : A} {s t s' t' : List A} (single : a ∉ s) (single' : a ∉ s')
    (same : s ++ a :: t = s' ++ a :: t') : s = s' ∧ t = t' := by
  induction s generalizing s' with
  | nil =>
    cases s' with
    | nil => exact ⟨rfl, (List.cons.inj same).2⟩
    | cons b s' =>
      rw [List.mem_cons, not_or] at single'
      exact absurd (List.cons.inj same).1 single'.1
  | cons b s ih =>
    rw [List.mem_cons, not_or] at single
    cases s' with
    | nil => exact absurd (List.cons.inj same).1.symm single.1
    | cons d s' =>
      rw [List.mem_cons, not_or] at single'
      obtain ⟨rfl, rest⟩ := List.cons.inj same
      obtain ⟨rfl, tail⟩ := ih single.2 single'.2 rest
      exact ⟨rfl, tail⟩

theorem safeChar_plain {c : Nat} (safe : safeChar c = true) : c < 128 ∧ c ≠ 47 ∧ c ≠ 92 := by
  simp only [safeChar, alphanumeric_iff, Bool.or_eq_true, beq_iff_eq] at safe
  omega

theorem safeName_ascii {s : Text} (safe : SafeName s) : Ascii s := by
  intro c member
  exact (safeChar_plain (List.all_eq_true.1 safe.characters c member)).1

theorem safeName_single {s : Text} (safe : SafeName s) : 47 ∉ s := by
  intro member
  exact (safeChar_plain (List.all_eq_true.1 safe.characters _ member)).2.1 rfl

theorem segments_single {s : List Char} (single : '/' ∉ s) : segments s = [s] := by
  induction s with
  | nil => rfl
  | cons c rest ih =>
    rw [List.mem_cons, not_or] at single
    rw [segments, if_neg fun same => single.1 same.symm, ih single.2]
    rfl

theorem segments_folder {folder : List Char} (single : '/' ∉ folder) (rest : List Char) :
    segments (folder ++ '/' :: rest) = folder :: segments rest := by
  induction folder with
  | nil => rfl
  | cons c folder ih =>
    rw [List.mem_cons, not_or] at single
    rw [List.cons_append, segments, if_neg fun same => single.1 same.symm, ih single.2]
    rfl

theorem no_slash {s : Text} (ascii : Ascii s) (single : 47 ∉ s) : '/' ∉ chars s :=
  fun member => single (mem_of_chars ascii member)

theorem chars_in_folder {folder s : Text} (first : Ascii folder) (second : Ascii s) :
    chars (folder ++ 47 :: s) = chars folder ++ '/' :: chars s := by
  have tail : Ascii (47 :: s) := @ascii_append [47] s (by decide) second
  rw [chars_append first tail, chars_small tail, chars_small second]
  rfl

theorem chars_safeName {s : Text} (safe : SafeName s) :
    chars s ≠ [] ∧ '/' ∉ chars s ∧ '\\' ∉ chars s ∧ chars s ≠ ['.', '.'] := by
  have ascii := safeName_ascii safe
  refine ⟨?_, no_slash ascii (safeName_single safe), ?_, ?_⟩
  · intro empty
    rw [chars_small ascii, List.map_eq_nil_iff] at empty
    exact safe.filled empty
  · intro member
    have unit := mem_of_chars ascii member
    exact (safeChar_plain (List.all_eq_true.1 safe.characters _ unit)).2.2 rfl
  · intro dots
    exact safe.parent (chars_injective ascii (by decide) dots)

/-- A safe name in a folder is a safe path. -/
theorem safe_in_folder {folder s : Text} (named : chars folder ≠ []) (single : '/' ∉ chars folder)
    (plain : '\\' ∉ chars folder) (inside : chars folder ≠ ['.', '.']) (ascii : Ascii folder)
    (safe : SafeName s) : isSafeRelativePath (chars (folder ++ 47 :: s)) = true := by
  obtain ⟨_, noSlash, noBackslash, noDots⟩ := chars_safeName safe
  have split := chars_in_folder ascii (safeName_ascii safe)
  have head : (chars folder ++ '/' :: chars s).head? ≠ some '/' := by
    cases shape : chars folder with
    | nil => exact absurd shape named
    | cons c rest =>
      rw [shape] at single
      intro same
      exact single (Option.some.inj same ▸ List.mem_cons_self)
  have slashes : '\\' ∉ chars folder ++ '/' :: chars s := by
    rw [List.mem_append, List.mem_cons]
    rintro (member | slash | member)
    · exact plain member
    · exact absurd slash (by decide)
    · exact noBackslash member
  have dots : ['.', '.'] ∉ segments (chars folder ++ '/' :: chars s) := by
    rw [segments_folder single, segments_single noSlash]
    intro member
    rcases List.mem_cons.1 member with same | rest
    · exact inside same.symm
    · exact noDots (List.mem_singleton.1 rest).symm
  have filled : chars folder ++ '/' :: chars s ≠ [] := by
    rw [← List.length_pos_iff, List.length_append, List.length_cons]
    omega
  simp only [split, isSafeRelativePath, Bool.and_eq_true, decide_eq_true_eq, Bool.not_eq_true',
    List.contains_eq_mem, decide_eq_false_iff_not]
  exact ⟨⟨⟨filled, head⟩, slashes⟩, dots⟩

/-! ## The names of the photographs -/

variable {formats : Formats} {N : Type} (browser : Browser formats N)

/-- The names that the photographs get, after those that are taken. -/
def photoNames : List Text → List PhotoInput → List Text
  | _, [] => []
  | used, photo :: rest =>
    let fileName := browser.platform.uniqueFileName photo.file.name used
    fileName :: photoNames (fileName :: used) rest

theorem photoNames_paths (used : List Text) (photos : List PhotoInput) :
    (preparePhotos browser.platform used photos).map PhotoRecord.path =
      (photoNames browser used photos).map photographPath := by
  induction photos generalizing used with
  | nil => rfl
  | cons photo photos ih =>
    rw [preparePhotos, photoNames, List.map_cons, List.map_cons, ih]
    rfl

theorem photoNames_length (used : List Text) (photos : List PhotoInput) :
    (photoNames browser used photos).length = photos.length := by
  induction photos generalizing used with
  | nil => rfl
  | cons photo photos ih => rw [photoNames, List.length_cons, List.length_cons, ih]

/-- They are the names of `fileNames`, whatever fuel it has beyond the number of names. -/
theorem fileNames_photoNames (used : List Text) (photos : List PhotoInput) (fuel : Nat)
    (enough : used.length + photos.length < fuel) :
    FileNames.fileNames browser.normalize fuel (photos.map fun photo => photo.file.name)
        (used.map toLowerCase) = some (photoNames browser used photos) := by
  induction photos generalizing used with
  | nil => rfl
  | cons photo photos ih =>
    rw [List.length_cons] at enough
    obtain ⟨candidate, _, _, ends⟩ := FileNames.uniqueFileName_ends browser.normalize
      photo.file.name (used.map toLowerCase)
    have named : browser.platform.uniqueFileName photo.file.name used = candidate := by
      have found := ends (used.length + 1) (by rw [List.length_map]; omega)
      change uniqueName browser.normalize photo.file.name used = candidate
      rw [uniqueName, found]
      rfl
    have others := ih (candidate :: used) (by rw [List.length_cons]; omega)
    rw [List.map_cons] at others
    rw [List.map_cons, photoNames, named]
    simp only [FileNames.fileNames, ends fuel (by rw [List.length_map]; omega), others]

theorem photoNames_safe (photos : List PhotoInput) :
    (∀ name ∈ photoNames browser [] photos, SafeName name) ∧
      (photoNames browser [] photos).Nodup := by
  obtain ⟨outputs, ends, _, safe, distinct, _⟩ := FileNames.fileNames_from browser.normalize
    (photos.map fun photo => photo.file.name) []
  have enough : ([] : List Text).length + photos.length < photos.length + 1 := by
    rw [List.length_nil]
    omega
  have found := ends (photos.length + 1) (by rwa [List.length_map])
  have same := fileNames_photoNames browser [] photos (photos.length + 1) enough
  rw [List.map_nil, found] at same
  rw [← Option.some.inj same]
  exact ⟨safe, List.Nodup.of_map toLowerCase distinct⟩

/-! ## The files of a package -/

theorem setFile_new {files : List (Text × List UInt8)} {path : Text} (content : List UInt8)
    (new : path ∉ files.map Prod.fst) : setFile files path content = files ++ [(path, content)] := by
  have none : ¬ (files.any fun file => file.1 = path) = true := by
    intro found
    obtain ⟨file, member, same⟩ := List.any_eq_true.1 found
    exact new (List.mem_map.2 ⟨file, member, of_decide_eq_true same⟩)
  rw [setFile, if_neg none]

theorem setFiles_distinct {files added : List (Text × List UInt8)}
    (distinct : ((files ++ added).map Prod.fst).Nodup) : setFiles files added = files ++ added := by
  induction added generalizing files with
  | nil => exact (List.append_nil files).symm
  | cons file added ih =>
    have new : file.1 ∉ files.map Prod.fst := by
      intro old
      rw [List.map_append, List.map_cons] at distinct
      exact (List.nodup_append.1 distinct).2.2 _ old _ List.mem_cons_self rfl
    have shape : files ++ file :: added = files ++ [file] ++ added := by
      rw [List.append_assoc, List.singleton_append]
    rw [shape] at distinct ⊢
    rw [← ih distinct, setFiles, List.foldl_cons, setFile_new file.2 new]
    rfl

/-- The names of the files that every package has, before and after the collected ones. -/
def firstPaths : List Text :=
  ["certificate-record.json", "certificate.pdf", "certificate.png", "certificate.txt",
    "audit-log.json"].map units

def lastPaths : List Text :=
  ["public-key.pem", "coa-manifest-v2.schema.json", "README-FIRST.txt",
    "verification-instructions.txt", "verify.py"].map units

def structuralPaths : List Text := ["manifest.json", "signature.sig", "sha256sums.txt"].map units

variable (contents : Contents) (identity : SigningIdentity) (photos : List PhotoInput)
  (logo : Option File)

theorem zip_paths (used : List Text) (photos : List PhotoInput) :
    ((preparePhotos browser.platform used photos).zip photos).map (fun prepared =>
        prepared.1.path) = (photoNames browser used photos).map photographPath := by
  induction photos generalizing used with
  | nil => rfl
  | cons photo photos ih =>
    rw [preparePhotos, List.zip_cons_cons, List.map_cons, ih, photoNames, List.map_cons]
    rfl

theorem evidence_names : (evidence browser contents identity photos logo).map Prod.fst =
    firstPaths ++ (photoNames browser [] photos).map photographPath ++
      logo.toList.map (logoPath browser.platform) ++ lastPaths := by
  rw [← zip_paths, evidence, List.map_append, List.map_append, List.map_append, List.map_map,
    List.map_map]
  rfl

/-- A path at the root of the package. -/
def AtRoot (path : Text) : Prop := 47 ∉ path ∧ Ascii path ∧ isSafeRelativePath (chars path) = true

instance (path : Text) : Decidable (AtRoot path) :=
  instDecidableAnd

theorem fixed_atRoot : ∀ path ∈ firstPaths ++ lastPaths ++ structuralPaths, AtRoot path := by
  decide

def folders : List Text := ["original-photographs", "issuer-assets"].map units

/-- A path in one of the two folders. -/
structure InFolder (folder path : Text) : Prop where
  known : folder ∈ folders
  named : ∃ name, path = folder ++ 47 :: name ∧ SafeName name

theorem folders_plain : ∀ folder ∈ folders, 47 ∉ folder ∧ Ascii folder ∧ chars folder ≠ [] ∧
    '/' ∉ chars folder ∧ '\\' ∉ chars folder ∧ chars folder ≠ ['.', '.'] := by
  decide

theorem photograph_folder (name : Text) :
    photographPath name = units "original-photographs" ++ 47 :: name := by
  have folder : units "original-photographs/" = units "original-photographs" ++ [47] := by decide
  have path : photographPath name = units "original-photographs/" ++ name := rfl
  rw [path, folder, List.append_assoc]
  rfl

theorem logo_folder (file : File) : logoPath browser.platform file =
    units "issuer-assets" ++ 47 :: FileNames.sanitizeFileName browser.normalize file.name := by
  have folder : units "issuer-assets/" = units "issuer-assets" ++ [47] := by decide
  have path : logoPath browser.platform file =
      units "issuer-assets/" ++ FileNames.sanitizeFileName browser.normalize file.name := rfl
  rw [path, folder, List.append_assoc]
  rfl

theorem photograph_inFolder {name : Text} (given : name ∈ photoNames browser [] photos) :
    InFolder (units "original-photographs") (photographPath name) :=
  ⟨by decide, name, photograph_folder name, (photoNames_safe browser photos).1 name given⟩

theorem logo_inFolder (file : File) :
    InFolder (units "issuer-assets") (logoPath browser.platform file) :=
  ⟨by decide, _, logo_folder browser file, FileNames.sanitizeFileName_safe _ _⟩

theorem InFolder.slash {folder path : Text} (inside : InFolder folder path) : 47 ∈ path := by
  obtain ⟨name, rfl, _⟩ := inside.named
  exact List.mem_append_right _ List.mem_cons_self

theorem InFolder.ascii {folder path : Text} (inside : InFolder folder path) : Ascii path := by
  obtain ⟨name, rfl, safe⟩ := inside.named
  have tail : Ascii (47 :: name) := @ascii_append [47] name (by decide) (safeName_ascii safe)
  exact ascii_append (folders_plain folder inside.known).2.1 tail

theorem InFolder.safe {folder path : Text} (inside : InFolder folder path) :
    isSafeRelativePath (chars path) = true := by
  obtain ⟨name, rfl, safe⟩ := inside.named
  obtain ⟨_, ascii, named, single, plain, dots⟩ := folders_plain folder inside.known
  exact safe_in_folder named single plain dots ascii safe

/-- Where a listed file comes from. -/
theorem evidence_paths {path : Text}
    (member : path ∈ (evidence browser contents identity photos logo).map Prod.fst) :
    path ∈ firstPaths ++ lastPaths ++ structuralPaths ∨ ∃ folder, InFolder folder path := by
  rw [evidence_names] at member
  simp only [List.mem_append] at member ⊢
  rcases member with ((first | photo) | issuer) | last
  · exact Or.inl (Or.inl (Or.inl first))
  · obtain ⟨name, given, rfl⟩ := List.mem_map.1 photo
    exact Or.inr ⟨_, photograph_inFolder browser photos given⟩
  · obtain ⟨file, _, rfl⟩ := List.mem_map.1 issuer
    exact Or.inr ⟨_, logo_inFolder browser file⟩
  · exact Or.inl (Or.inl (Or.inr last))

theorem collected_distinct : ((photoNames browser [] photos).map photographPath ++
    logo.toList.map (logoPath browser.platform)).Nodup := by
  apply List.Nodup.append
  · exact (photoNames_safe browser photos).2.map fun a b same => List.append_cancel_left same
  · cases logo with
    | none => exact List.nodup_nil
    | some file => exact List.nodup_singleton _
  · intro path photo issuer
    obtain ⟨name, _, rfl⟩ := List.mem_map.1 photo
    obtain ⟨file, _, same⟩ := List.mem_map.1 issuer
    rw [logo_folder, photograph_folder] at same
    have folders := (split_unique (by decide) (by decide) same).1
    exact absurd folders (by decide)

theorem evidence_distinct :
    ((evidence browser contents identity photos logo).map Prod.fst ++ structuralPaths).Nodup := by
  have fixed : (firstPaths ++ (lastPaths ++ structuralPaths)).Nodup := by decide
  have apart : List.Disjoint ((photoNames browser [] photos).map photographPath ++
      logo.toList.map (logoPath browser.platform))
      (firstPaths ++ (lastPaths ++ structuralPaths)) := by
    intro path collected known
    have root := (fixed_atRoot path (by rwa [List.append_assoc])).1
    rcases List.mem_append.1 collected with photo | issuer
    · obtain ⟨name, given, rfl⟩ := List.mem_map.1 photo
      exact root (photograph_inFolder browser photos given).slash
    · obtain ⟨file, _, rfl⟩ := List.mem_map.1 issuer
      exact root (logo_inFolder browser file).slash
  have all := (collected_distinct browser photos logo).append fixed apart
  refine (List.Perm.nodup_iff ?_).1 all
  rw [evidence_names]
  have moved := (@List.perm_append_comm _ ((photoNames browser [] photos).map photographPath ++
    logo.toList.map (logoPath browser.platform)) firstPaths).append_right
    (lastPaths ++ structuralPaths)
  simpa only [List.append_assoc] using moved

section Package
variable (manifest : Manifest)

/-- The files that the checksums cover. -/
def signedFiles (listed : List (Text × List UInt8)) : List (Text × List UInt8) :=
  listed ++ [(units "manifest.json", utf8 (manifestText browser manifest)),
    (units "signature.sig", browser.sign (utf8 (manifestText browser manifest)))]

theorem packageFiles_eq :
    packageFiles browser manifest (evidence browser contents identity photos logo) =
      signedFiles browser manifest (evidence browser contents identity photos logo) ++
        [(units "sha256sums.txt", utf8 (checksumText browser
          (signedFiles browser manifest (evidence browser contents identity photos logo))))] := by
  have distinct := evidence_distinct browser contents identity photos logo
  have three : structuralPaths =
      [units "manifest.json", units "signature.sig"] ++ [units "sha256sums.txt"] := rfl
  rw [three, ← List.append_assoc] at distinct
  have signed : setFiles [] (signedFiles browser manifest
      (evidence browser contents identity photos logo)) =
      signedFiles browser manifest (evidence browser contents identity photos logo) := by
    apply setFiles_distinct
    rw [List.nil_append, signedFiles, List.map_append]
    exact distinct.of_append_left
  have new : units "sha256sums.txt" ∉ (signedFiles browser manifest
      (evidence browser contents identity photos logo)).map Prod.fst := by
    intro old
    rw [signedFiles, List.map_append] at old
    exact (List.nodup_append.1 distinct).2.2 _ old _ List.mem_cons_self rfl
  change setFile (setFiles [] (signedFiles browser manifest _)) _ _ = _
  rw [signed, setFile_new _ new]
  rw [← signedFiles, signed]

end Package

/-! ## Lines -/

/-- No line break, and no other control character. -/
def Line (s : Text) : Prop := ∀ c ∈ s, 32 ≤ c ∧ c < 127

instance (s : Text) : Decidable (Line s) := inferInstanceAs (Decidable (∀ c ∈ s, _))

theorem line_append {s t : Text} (first : Line s) (second : Line t) : Line (s ++ t) := by
  intro c member
  rcases List.mem_append.1 member with inside | inside
  · exact first c inside
  · exact second c inside

theorem line_ascii {s : Text} (line : Line s) : Ascii s := by
  intro c member
  have := line c member
  omega

theorem safeChar_line {c : Nat} (safe : safeChar c = true) : 32 ≤ c ∧ c < 127 := by
  simp only [safeChar, alphanumeric_iff, Bool.or_eq_true, beq_iff_eq] at safe
  omega

theorem fixed_line : ∀ path ∈ firstPaths ++ lastPaths ++ structuralPaths, Line path := by
  decide +kernel

theorem folders_line : ∀ folder ∈ folders, Line folder := by
  decide

theorem InFolder.line {folder path : Text} (inside : InFolder folder path) : Line path := by
  obtain ⟨name, rfl, safe⟩ := inside.named
  apply line_append (folders_line folder inside.known)
  apply @line_append [47] name (by decide)
  exact fun c member => safeChar_line (List.all_eq_true.1 safe.characters c member)

/-! ## A file with the name of the manifest -/

/-- The name of a stored file is the one of a manifest. -/
def Reserved (path : Text) : Prop :=
  path = units "manifest.json" ∨ ∃ folder ∈ folders, path = folder ++ 47 :: units "manifest.json"

/-- A photograph is stored as `manifest.json`: among the safe names that are this one in some
case, the first is exactly this one. -/
def namesManifest (normalize : Text → Text) (photos : List PhotoInput) : Bool :=
  let safeNames := photos.map fun photo => sanitizeFileName normalize photo.file.name
  safeNames.find? (fun safe => toLowerCase safe == units "manifest.json") ==
    some (units "manifest.json")

theorem uniqueName_candidate (normalize : Text → Text) (name : Text) (used : List Text) :
    ∃ index, uniqueName normalize name used = candidates (sanitizeFileName normalize name) index ∧
      toLowerCase (uniqueName normalize name used) ∉ used.map toLowerCase ∧
      (toLowerCase (sanitizeFileName normalize name) ∉ used.map toLowerCase →
        index = 0) := by
  have loop := FileNames.freeName_eq (sanitizeFileName normalize name)
    (used.map toLowerCase) (used.length + 1) 0
  obtain ⟨index, ended⟩ := FreshSearch.search_ends
    (FileNames.candidates_injective (sanitizeFileName normalize name))
    (show (used.map toLowerCase).length < used.length + 1 by
      rw [List.length_map]
      exact Nat.lt_succ_self _) 0
  rw [ended, Option.map_some] at loop
  have first : candidates (sanitizeFileName normalize name) 0 = sanitizeFileName normalize name :=
    rfl
  rw [first] at loop
  have named : uniqueName normalize name used =
      candidates (sanitizeFileName normalize name) index := by
    rw [uniqueName, FileNames.uniqueFileName]
    simp only [loop, Option.map_some, Option.getD_some]
  refine ⟨index, named, named ▸ FreshSearch.search_fresh ended, fun free => ?_⟩
  rw [FreshSearch.search, first, if_neg free] at ended
  exact (Option.some.inj ended).symm

theorem numbered_other (safe : Text) (suffix : Nat) :
    toLowerCase (FileNames.numbered safe suffix) ≠ units "manifest.json" := by
  intro same
  have hyphen : 45 ∈ FileNames.numbered safe suffix := List.mem_append_right _ List.mem_cons_self
  have kept : 45 ∈ toLowerCase (FileNames.numbered safe suffix) :=
    List.mem_map.2 ⟨45, hyphen, rfl⟩
  rw [same] at kept
  exact absurd kept (by decide)

theorem lower_manifest : toLowerCase (units "manifest.json") = units "manifest.json" := by
  decide

/-- Once the name is taken in some case, no photograph gets it. -/
theorem photoNames_taken (used : List Text) (photos : List PhotoInput)
    (taken : units "manifest.json" ∈ used.map toLowerCase) :
    units "manifest.json" ∉ photoNames browser used photos := by
  induction photos generalizing used with
  | nil => exact List.not_mem_nil
  | cons photo photos ih =>
    obtain ⟨index, _, fresh, _⟩ := uniqueName_candidate browser.normalize photo.file.name used
    rw [photoNames, List.mem_cons, not_or]
    constructor
    · intro same
      apply fresh
      have given : units "manifest.json" = uniqueName browser.normalize photo.file.name used := same
      rwa [← given, lower_manifest]
    · apply ih
      rw [List.map_cons]
      exact List.mem_cons_of_mem _ taken

theorem photoNames_manifest (used : List Text) (photos : List PhotoInput)
    (free : units "manifest.json" ∉ used.map toLowerCase) :
    units "manifest.json" ∈ photoNames browser used photos ↔
      namesManifest browser.normalize photos = true := by
  induction photos generalizing used with
  | nil =>
    constructor
    · intro member
      cases member
    · intro named
      cases named
  | cons photo photos ih =>
    obtain ⟨index, given, fresh, first⟩ :=
      uniqueName_candidate browser.normalize photo.file.name used
    have step : photoNames browser used (photo :: photos) =
        uniqueName browser.normalize photo.file.name used ::
          photoNames browser (uniqueName browser.normalize photo.file.name used :: used) photos :=
      rfl
    rw [step, List.mem_cons]
    rw [namesManifest, List.map_cons, List.find?_cons]
    by_cases here : toLowerCase (sanitizeFileName browser.normalize photo.file.name) =
        units "manifest.json"
    · rw [here, beq_self_eq_true]
      have zero := first (here ▸ free)
      rw [zero] at given
      have own : uniqueName browser.normalize photo.file.name used =
          sanitizeFileName browser.normalize photo.file.name := given
      rw [own]
      have later := photoNames_taken browser
        (sanitizeFileName browser.normalize photo.file.name :: used) photos (by
          rw [List.map_cons, here]
          exact List.mem_cons_self)
      simp only [beq_iff_eq, Option.some.injEq]
      constructor
      · rintro (same | rest)
        · exact same.symm
        · exact absurd rest later
      · intro same
        exact Or.inl same.symm
    · have differs : (toLowerCase (sanitizeFileName browser.normalize photo.file.name) ==
          units "manifest.json") = false := beq_eq_false_iff_ne.2 here
      have other : toLowerCase (uniqueName browser.normalize photo.file.name used) ≠
          units "manifest.json" := by
        rw [given]
        cases index with
        | zero => exact here
        | succ index => exact numbered_other _ _
      have still : units "manifest.json" ∉
          (uniqueName browser.normalize photo.file.name used :: used).map
            toLowerCase := by
        rw [List.map_cons, List.mem_cons, not_or]
        exact ⟨fun same => other same.symm, free⟩
      rw [differs, ih _ still, namesManifest]
      constructor
      · rintro (same | rest)
        · exact absurd (same ▸ lower_manifest) other
        · exact rest
      · exact Or.inr

/-- The collected files that the verifier takes for a manifest. -/
def Collides : Prop :=
  namesManifest browser.normalize photos = true ∨
    ∃ file ∈ logo, sanitizeFileName browser.normalize file.name = units "manifest.json"

theorem collected_reserved : (∃ path ∈ (photoNames browser [] photos).map photographPath ++
    logo.toList.map (logoPath browser.platform), Reserved path) ↔ Collides browser photos logo := by
  have fresh : units "manifest.json" ∉ ([] : List Text).map toLowerCase :=
    List.not_mem_nil
  have folder_reserved : ∀ {folder name : Text}, folder ∈ folders →
      (Reserved (folder ++ 47 :: name) ↔ name = units "manifest.json") := by
    intro folder name known
    constructor
    · rintro (same | ⟨other, inside, same⟩)
      · have slash : 47 ∈ units "manifest.json" :=
          same ▸ List.mem_append_right _ List.mem_cons_self
        exact absurd slash (by decide)
      · exact (split_unique (folders_plain folder known).1 (folders_plain other inside).1 same).2
    · rintro rfl
      exact Or.inr ⟨folder, known, rfl⟩
  constructor
  · rintro ⟨path, member, reserved⟩
    rcases List.mem_append.1 member with photo | issuer
    · obtain ⟨name, given, rfl⟩ := List.mem_map.1 photo
      rw [photograph_folder, folder_reserved (by decide)] at reserved
      exact Or.inl ((photoNames_manifest browser [] photos fresh).1 (reserved ▸ given))
    · obtain ⟨file, inside, rfl⟩ := List.mem_map.1 issuer
      rw [logo_folder, folder_reserved (by decide)] at reserved
      exact Or.inr ⟨file, Option.mem_toList.1 inside, reserved⟩
  · rintro (named | ⟨file, inside, same⟩)
    · have given := (photoNames_manifest browser [] photos fresh).2 named
      refine ⟨_, List.mem_append_left _ (List.mem_map_of_mem given), ?_⟩
      rw [photograph_folder, folder_reserved (by decide)]
    · refine ⟨_, List.mem_append_right _ (List.mem_map_of_mem (Option.mem_toList.2 inside)), ?_⟩
      rw [logo_folder, folder_reserved (by decide)]
      exact same

end PackageFiles
