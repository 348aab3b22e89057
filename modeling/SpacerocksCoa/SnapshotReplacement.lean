import SpacerocksCoa.MetbullPipeline
import SpacerocksCoa.Receipts

/-!
# Replacement of the snapshot files

The updater builds a database and the metadata that certify it as temporary files and renames
one after the other into place; a reader opens the two installed files and checks each against
the other. A run of the updater is a sequence of states, and a stop at any point is a state that
no step follows. A step that fails goes to the cleanup, which removes the temporary files only.

Between the two renames the new database stands beside the old metadata. The reader refuses
that pair, and a run that stops or fails there leaves it installed.

What SQLite reads and writes, what a JSON file of metadata says and the digest of a file are
parameters. A time is its parts, as in the receipts.
-/
namespace SnapshotReplacement
open MetbullPipeline OrderStates
open Receipts (DateTime IsoText maxCivil hexText sha256Hex)
open FallibleSteps

/-! ## Files -/

/-- What SQLite reads from a database file. -/
structure Database where
  applicationId : Int
  userVersion : Int
  objects : List (String × String)
  columns : List (String × String × Nat × Nat)
  integrityOk : Bool
  internal : List (String × String)
  records : List StoredRecord
  deriving DecidableEq

inductive MetaValue where
  | null
  | int (value : Int)
  | text (value : String)
  | time (value : IsoText)
  | object (fields : List (String × String))
  deriving DecidableEq

abbrev Metadata := List (String × MetaValue)

/-- The two kinds of files: each reads back what was written. A file of metadata that is too
large or no JSON object says nothing. -/
structure Formats (File Doc : Type) where
  writeDatabase : Database → File
  readDatabase : File → Option Database
  sha256 : File → Sha256
  dump : Metadata → Doc
  loads : Doc → Option Metadata
  read_write : ∀ database, readDatabase (writeDatabase database) = some database
  loads_dump : ∀ metadata, loads (dump metadata) = some metadata

variable {File Doc : Type}

/-! ## The reader -/

def sourceUrl : String :=
  "https://www.lpi.usra.edu/meteor/metbull.cfm?sea=%25&sfor=names&stype=contains&csv=1"

def applicationId : Int := 0x4D42554C
def schemaVersion : Int := 2
def minimumRows : Nat := 80000

def metadataKeys : List String :=
  ["schema_version", "source", "retrieved_at_utc", "source_sha256", "database_sha256", "row_count",
   "official_database_updated_utc"]

def sourceFields : List (String × String) :=
  [("name", "Meteoritical Bulletin Database"), ("publisher", "Lunar and Planetary Institute"),
   ("url", sourceUrl)]

def sameKeys {α : Type} (fields : List (String × α)) (expected : List String) : Bool :=
  fields.all (fun field => expected.contains field.1) &&
    expected.all (fun key => (fields.map Prod.fst).contains key)

/-- Equality with a `dict`, whatever the order. -/
def sameDict (fields expected : List (String × String)) : Bool :=
  sameKeys fields (expected.map Prod.fst) &&
    expected.all fun field => fields.lookup field.1 == some field.2

/-- `_UTC_TIMESTAMP` and `strptime`. -/
def utcTimestamp (t : IsoText) : Bool :=
  t.zone == .z && t.fraction == none && 0 ≤ t.civilSecond && t.civilSecond < maxCivil

def validateUtcTimestamp (value : Option MetaValue) (nullable : Bool) : Except String Unit :=
  match value with
  | some .null => if nullable then .ok () else .error "metbull_snapshot_metadata_invalid"
  | some (.time t) =>
    if utcTimestamp t then .ok () else .error "metbull_snapshot_metadata_invalid"
  | _ => .error "metbull_snapshot_metadata_invalid"

def isDigest (value : Option MetaValue) : Bool :=
  match value with
  | some (.text text) => sha256Hex text
  | _ => false

def sourceMatches (value : Option MetaValue) : Bool :=
  match value with
  | some (.object fields) => sameDict fields sourceFields
  | _ => false

def enoughRows (value : Option MetaValue) : Bool :=
  match value with
  | some (.int count) => (minimumRows : Int) ≤ count
  | _ => false

/-- `_load_metadata`, after the files were found. -/
def loadMetadata (formats : Formats File Doc) (database : File) (metadata : Doc) :
    Except String Metadata :=
  match formats.loads metadata with
  | none => .error "metbull_snapshot_metadata_invalid"
  | some raw => do
    if sameKeys raw metadataKeys = false then throw "metbull_snapshot_metadata_invalid"
    if sourceMatches (raw.lookup "source") = false then throw "metbull_snapshot_metadata_invalid"
    if raw.lookup "schema_version" ≠ some (.int schemaVersion) then
      throw "metbull_snapshot_metadata_invalid"
    if enoughRows (raw.lookup "row_count") = false then throw "metbull_snapshot_metadata_invalid"
    if isDigest (raw.lookup "source_sha256") = false then
      throw "metbull_snapshot_metadata_invalid"
    if isDigest (raw.lookup "database_sha256") = false then
      throw "metbull_snapshot_metadata_invalid"
    validateUtcTimestamp (raw.lookup "retrieved_at_utc") false
    validateUtcTimestamp (raw.lookup "official_database_updated_utc") true
    if some (.text (hexText (formats.sha256 database).value)) ≠ raw.lookup "database_sha256" then
      throw "metbull_snapshot_hash_mismatch"
    return raw

def expectedObjects : List (String × String) :=
  [("records", "table"), ("records_country_idx", "index"), ("snapshot_metadata", "table")]

def expectedColumns : List (String × String × Nat × Nat) :=
  [("code", "INTEGER", 0, 1), ("canonical_name", "TEXT", 1, 0), ("record_status", "TEXT", 1, 0),
   ("recommended_classification", "TEXT", 1, 0), ("fall_or_find", "TEXT", 1, 0),
   ("year_found", "INTEGER", 0, 0), ("country", "TEXT", 0, 0), ("latitude", "TEXT", 0, 0),
   ("longitude", "TEXT", 0, 0)]

/-- The metadata inside the database. -/
def internalMetadata (sourceSha256 : String) (rowCount : Int) : List (String × String) :=
  [("schema_version", toString schemaVersion), ("source_url", sourceUrl),
   ("source_sha256", sourceSha256), ("row_count", toString rowCount)]

def digestText (value : Option MetaValue) : String :=
  match value with
  | some (.text text) => text
  | _ => ""

def countOf (value : Option MetaValue) : Int :=
  match value with
  | some (.int count) => count
  | _ => 0

def sentinelOf (records : List StoredRecord) : Option StoredRecord :=
  records.find? fun record => record.code = 87447

/-- `_validate_database` -/
def validateDatabase (formats : Formats File Doc) (database : File) (metadata : Metadata) :
    Except String Unit :=
  match formats.readDatabase database with
  | none => .error "metbull_snapshot_invalid"
  | some d => do
    if d.applicationId ≠ applicationId then throw "metbull_snapshot_schema_invalid"
    if d.userVersion ≠ schemaVersion then throw "metbull_snapshot_schema_invalid"
    if d.objects ≠ expectedObjects then throw "metbull_snapshot_schema_invalid"
    if d.columns ≠ expectedColumns then throw "metbull_snapshot_schema_invalid"
    if d.integrityOk = false then throw "metbull_snapshot_integrity_invalid"
    if sameDict d.internal (internalMetadata (digestText (metadata.lookup "source_sha256"))
        (countOf (metadata.lookup "row_count"))) = false then
      throw "metbull_snapshot_metadata_invalid"
    if (d.records.length : Int) ≠ countOf (metadata.lookup "row_count") then
      throw "metbull_snapshot_row_count_invalid"
    if sentinelOf d.records ≠ some expectedSentinel then throw "metbull_snapshot_sentinel_invalid"

/-- The two installed files, where there are any. -/
structure Installed (File Doc : Type) where
  database : Option File
  metadata : Option Doc

/-- The start of a reader. -/
def openSnapshot (formats : Formats File Doc) (files : Installed File Doc) :
    Except String Unit :=
  match files.database, files.metadata with
  | some database, some metadata => do
    let raw ← loadMetadata formats database metadata
    validateDatabase formats database raw
  | _, _ => .error "metbull_snapshot_missing"

/-! ## The updater -/

/-- A table as the CSV reader gave it, the digest of its bytes, and the two times; a time of
retrieval without a zone is `none`. -/
structure Download where
  header : List (List Char)
  rows : List (List (List Char))
  sourceSha256 : Sha256
  retrievedAt : Option DateTime
  officialUpdated : Option IsoText

/-- `_utc_timestamp` -/
def utcText (value : Option DateTime) : Except String IsoText :=
  match value with
  | none => .error "retrieval timestamp must be timezone-aware"
  | some d =>
    match d.astimezoneUtc with
    | .error e => .error e
    | .ok instant => .ok ⟨instant / 1000000, none, .z⟩

/-- `_validate_optional_utc_timestamp` -/
def validateOptional (value : Option IsoText) : Except String Unit :=
  match value with
  | none => .ok ()
  | some t => if utcTimestamp t then .ok ()
    else .error "official database update timestamp is invalid"

/-- What is written: the database, and the metadata for the digest of its file. -/
structure Plan where
  database : Database
  metadata : Sha256 → Metadata

def builtDatabase (records : List StoredRecord) (sourceSha256 : Sha256) : Database where
  applicationId := applicationId
  userVersion := schemaVersion
  objects := expectedObjects
  columns := expectedColumns
  integrityOk := true
  internal := internalMetadata (hexText sourceSha256.value) records.length
  records := records

def builtMetadata (records : List StoredRecord) (sourceSha256 : Sha256) (retrieved : IsoText)
    (official : Option IsoText) (databaseSha256 : Sha256) : Metadata :=
  [("schema_version", .int schemaVersion), ("source", .object sourceFields),
   ("retrieved_at_utc", .time retrieved), ("source_sha256", .text (hexText sourceSha256.value)),
   ("database_sha256", .text (hexText databaseSha256.value)), ("row_count", .int records.length),
   ("official_database_updated_utc", official.elim .null .time)]

/-- What `build_snapshot` does before it makes a file. -/
def prepare (download : Download) : Except String Plan := do
  let records ← validatedRows minimumRows download.header download.rows
  let retrieved ← utcText download.retrievedAt
  validateOptional download.officialUpdated
  return ⟨builtDatabase records download.sourceSha256,
    builtMetadata records download.sourceSha256 retrieved download.officialUpdated⟩

def Plan.file (formats : Formats File Doc) (plan : Plan) : File :=
  formats.writeDatabase plan.database

def Plan.doc (formats : Formats File Doc) (plan : Plan) : Doc :=
  formats.dump (plan.metadata (formats.sha256 (plan.file formats)))

/-- How far the body of the `try` got. -/
inductive Phase where
  | databaseMade
  | databaseWritten
  | databaseChecked
  | metadataMade
  | metadataWritten
  | databaseReadOnly
  | metadataReadOnly
  | databaseReplaced
  | metadataReplaced
  | synced
  deriving DecidableEq

def Phase.next : Phase → Option Phase
  | .databaseMade => some .databaseWritten
  | .databaseWritten => some .databaseChecked
  | .databaseChecked => some .metadataMade
  | .metadataMade => some .metadataWritten
  | .metadataWritten => some .databaseReadOnly
  | .databaseReadOnly => some .metadataReadOnly
  | .metadataReadOnly => some .databaseReplaced
  | .databaseReplaced => some .metadataReplaced
  | .metadataReplaced => some .synced
  | .synced => none

structure Directory (File Doc : Type) where
  installed : Installed File Doc
  databaseTemp : Option File
  metadataTemp : Option Doc

/-- The step that ends in a phase. -/
def perform (formats : Formats File Doc) (plan : Plan) (dir : Directory File Doc) :
    Phase → Directory File Doc
  | .databaseWritten => { dir with databaseTemp := some (plan.file formats) }
  | .metadataWritten => { dir with metadataTemp := some (plan.doc formats) }
  | .databaseReplaced =>
    { dir with
      installed := { dir.installed with database := dir.databaseTemp }
      databaseTemp := none }
  | .metadataReplaced =>
    { dir with
      installed := { dir.installed with metadata := dir.metadataTemp }
      metadataTemp := none }
  | _ => dir

inductive Mode where
  | body
  | cleanup
  deriving DecidableEq

structure BuildState (File Doc : Type) where
  phase : Phase
  mode : Mode
  dir : Directory File Doc

/-- One step of a run. The content of a temporary file is arbitrary while it is written, and
the body is left for the cleanup at any point. -/
inductive Step (formats : Formats File Doc) (plan : Plan) :
    BuildState File Doc → BuildState File Doc → Prop where
  | advance {phase next : Phase} {dir : Directory File Doc} (follows : phase.next = some next) :
      Step formats plan ⟨phase, .body, dir⟩ ⟨next, .body, perform formats plan dir next⟩
  | writeDatabase {dir : Directory File Doc} (part : Option File) :
      Step formats plan ⟨.databaseMade, .body, dir⟩
        ⟨.databaseMade, .body, { dir with databaseTemp := part }⟩
  | writeMetadata {dir : Directory File Doc} (part : Option Doc) :
      Step formats plan ⟨.metadataMade, .body, dir⟩
        ⟨.metadataMade, .body, { dir with metadataTemp := part }⟩
  | leave {phase : Phase} {dir : Directory File Doc} :
      Step formats plan ⟨phase, .body, dir⟩ ⟨phase, .cleanup, dir⟩
  | unlinkDatabase {phase : Phase} {dir : Directory File Doc} :
      Step formats plan ⟨phase, .cleanup, dir⟩
        ⟨phase, .cleanup, { dir with databaseTemp := none }⟩
  | unlinkMetadata {phase : Phase} {dir : Directory File Doc} :
      Step formats plan ⟨phase, .cleanup, dir⟩
        ⟨phase, .cleanup, { dir with metadataTemp := none }⟩

/-- The states of `build_snapshot` on a download: none of its steps touches a file when the
download is refused. -/
inductive Visited (formats : Formats File Doc) (download : Download) (old : Directory File Doc) :
    BuildState File Doc → Prop where
  | start : Visited formats download old ⟨.databaseMade, .body, old⟩
  | step {plan : Plan} {s s' : BuildState File Doc} (prepared : prepare download = .ok plan)
      (before : Visited formats download old s) (step : Step formats plan s s') :
      Visited formats download old s'

/-! ## What is installed -/

def Phase.databaseInstalled : Phase → Bool
  | .databaseReplaced => true
  | .metadataReplaced => true
  | .synced => true
  | _ => false

def Phase.metadataInstalled : Phase → Bool
  | .metadataReplaced => true
  | .synced => true
  | _ => false

/-- The temporary database is whole and not yet renamed. -/
def Phase.databaseHeld : Phase → Bool
  | .databaseMade => false
  | phase => !phase.databaseInstalled

def Phase.metadataHeld : Phase → Bool
  | .metadataWritten => true
  | .databaseReadOnly => true
  | .metadataReadOnly => true
  | .databaseReplaced => true
  | _ => false

/-- The installed files and, in the body, the temporary ones, by the phase of a run. -/
structure Tracks (formats : Formats File Doc) (plan : Plan) (old : Directory File Doc)
    (s : BuildState File Doc) : Prop where
  database : s.dir.installed.database =
    if s.phase.databaseInstalled then some (plan.file formats) else old.installed.database
  metadata : s.dir.installed.metadata =
    if s.phase.metadataInstalled then some (plan.doc formats) else old.installed.metadata
  databaseTemp : s.mode = .body → s.phase.databaseHeld = true →
    s.dir.databaseTemp = some (plan.file formats)
  metadataTemp : s.mode = .body → s.phase.metadataHeld = true →
    s.dir.metadataTemp = some (plan.doc formats)

theorem not_held {P : Prop} (held : false = true) : P := Bool.noConfusion held

theorem not_body {P : Prop} (body : Mode.cleanup = .body) : P := Mode.noConfusion body

section
variable {formats : Formats File Doc} {plan : Plan} {old : Directory File Doc}

theorem tracks_advance {phase next : Phase} {dir : Directory File Doc}
    (follows : phase.next = some next) (tracks : Tracks formats plan old ⟨phase, .body, dir⟩) :
    Tracks formats plan old ⟨next, .body, perform formats plan dir next⟩ := by
  obtain ⟨database, metadata, databaseTemp, metadataTemp⟩ := tracks
  cases phase <;> cases follows
  case databaseMade =>
    exact ⟨database, metadata, fun _ _ => rfl, fun _ held => not_held held⟩
  case databaseWritten =>
    exact ⟨database, metadata, fun _ _ => databaseTemp rfl rfl,
      fun _ held => not_held held⟩
  case databaseChecked =>
    exact ⟨database, metadata, fun _ _ => databaseTemp rfl rfl,
      fun _ held => not_held held⟩
  case metadataMade =>
    exact ⟨database, metadata, fun _ _ => databaseTemp rfl rfl, fun _ _ => rfl⟩
  case metadataWritten =>
    exact ⟨database, metadata, fun _ _ => databaseTemp rfl rfl, fun _ _ => metadataTemp rfl rfl⟩
  case databaseReadOnly =>
    exact ⟨database, metadata, fun _ _ => databaseTemp rfl rfl, fun _ _ => metadataTemp rfl rfl⟩
  case metadataReadOnly =>
    exact ⟨databaseTemp rfl rfl, metadata, fun _ held => not_held held,
      fun _ _ => metadataTemp rfl rfl⟩
  case databaseReplaced =>
    exact ⟨database, metadataTemp rfl rfl, fun _ held => not_held held,
      fun _ held => not_held held⟩
  case metadataReplaced =>
    exact ⟨database, metadata, fun _ held => not_held held,
      fun _ held => not_held held⟩

theorem tracks_step {s s' : BuildState File Doc} (tracks : Tracks formats plan old s)
    (step : Step formats plan s s') : Tracks formats plan old s' := by
  cases step with
  | advance follows => exact tracks_advance follows tracks
  | writeDatabase part =>
    exact ⟨tracks.database, tracks.metadata, fun _ held => not_held held,
      fun _ held => not_held held⟩
  | writeMetadata part =>
    exact ⟨tracks.database, tracks.metadata, tracks.databaseTemp,
      fun _ held => not_held held⟩
  | leave =>
    exact ⟨tracks.database, tracks.metadata, fun body => not_body body, fun body => not_body body⟩
  | unlinkDatabase =>
    exact ⟨tracks.database, tracks.metadata, fun body => not_body body, fun body => not_body body⟩
  | unlinkMetadata =>
    exact ⟨tracks.database, tracks.metadata, fun body => not_body body, fun body => not_body body⟩

theorem visited_tracks {download : Download} (prepared : prepare download = .ok plan)
    {s : BuildState File Doc} (visited : Visited formats download old s) :
    Tracks formats plan old s := by
  induction visited with
  | start =>
    exact ⟨rfl, rfl, fun _ held => not_held held, fun _ held => not_held held⟩
  | step other before step ih =>
    have same := Except.ok.inj (prepared.symm.trans other)
    subst same
    exact tracks_step ih step

/-- A refused download leaves the run at its start. -/
theorem visited_refused {download : Download} {reason : String}
    (refused : prepare download = .error reason) {s : BuildState File Doc}
    (visited : Visited formats download old s) : s = ⟨.databaseMade, .body, old⟩ := by
  cases visited with
  | start => rfl
  | step prepared _ _ =>
    rw [refused] at prepared
    cases prepared

end

/-! ## What the reader makes of the new pair -/

theorem validatedRows_kept {minimumRowCount : Nat} {header : List (List Char)}
    {rows : List (List (List Char))} {records : List StoredRecord}
    (ok : validatedRows minimumRowCount header rows = .ok records) :
    minimumRowCount ≤ records.length ∧ sentinelOf records = some expectedSentinel := by
  obtain ⟨_, distinct⟩ := validatedRows_spec ok
  unfold validatedRows at ok
  obtain ⟨_, ok⟩ := guard_ok ok
  obtain ⟨collected, _, ok⟩ := except_bind_ok ok
  obtain ⟨enough, ok⟩ := guard_ok ok
  obtain ⟨sentinel, ok⟩ := guard_ok ok
  cases ok
  have same := List.mergeSort_perm collected fun a b => decide (a.code ≤ b.code)
  refine ⟨same.length_eq ▸ Nat.not_lt.1 enough, ?_⟩
  have member := same.mem_iff.2 (List.mem_of_find?_eq_some (not_not.1 sentinel))
  exact find_code distinct member

theorem utcText_valid {value : Option DateTime} {retrieved : IsoText}
    (ok : utcText value = .ok retrieved) : utcTimestamp retrieved = true := by
  unfold utcText at ok
  split at ok
  · cases ok
  next d =>
    split at ok
    · cases ok
    next instant converted =>
      cases ok
      obtain ⟨⟨first, last⟩, rfl⟩ := Receipts.astimezone_ok converted
      have low : 0 ≤ d.utc / 1000000 := by omega
      have high : d.utc / 1000000 < maxCivil := by omega
      simp [utcTimestamp, low, high]

theorem prepare_parts {download : Download} {plan : Plan} (prepared : prepare download = .ok plan) :
    ∃ records retrieved, validatedRows minimumRows download.header download.rows = .ok records ∧
      utcTimestamp retrieved = true ∧ (∀ t ∈ download.officialUpdated, utcTimestamp t = true) ∧
      plan = ⟨builtDatabase records download.sourceSha256,
        builtMetadata records download.sourceSha256 retrieved download.officialUpdated⟩ := by
  unfold prepare at prepared
  obtain ⟨records, valid, prepared⟩ := except_bind_ok prepared
  obtain ⟨retrieved, written, prepared⟩ := except_bind_ok prepared
  obtain ⟨_, checked, prepared⟩ := except_bind_ok prepared
  cases prepared
  refine ⟨records, retrieved, valid, utcText_valid written, ?_, rfl⟩
  intro t member
  rw [Option.mem_def.1 member, validateOptional] at checked
  by_contra wrong
  rw [if_neg wrong] at checked
  cases checked

theorem sourceFields_same : sameDict sourceFields sourceFields = true := by decide

theorem internal_same (digest : String) (count : Int) :
    sameDict (internalMetadata digest count) (internalMetadata digest count) = true := by
  have version : (internalMetadata digest count).lookup "schema_version" =
      some (toString schemaVersion) := rfl
  have source : (internalMetadata digest count).lookup "source_url" = some sourceUrl := rfl
  have table : (internalMetadata digest count).lookup "source_sha256" = some digest := rfl
  have rows : (internalMetadata digest count).lookup "row_count" = some (toString count) := rfl
  have keys : sameKeys (internalMetadata digest count)
      ((internalMetadata digest count).map Prod.fst) = true := by
    simp [sameKeys, internalMetadata]
  rw [sameDict, keys, Bool.true_and, List.all_eq_true]
  intro field member
  simp only [internalMetadata, List.mem_cons, List.not_mem_nil, or_false] at member
  rcases member with rfl | rfl | rfl | rfl
  · rw [version, beq_self_eq_true]
  · rw [source, beq_self_eq_true]
  · rw [table, beq_self_eq_true]
  · rw [rows, beq_self_eq_true]

/-- The reader accepts the pair that a plan stands for. -/
theorem open_plan {formats : Formats File Doc} {download : Download} {plan : Plan}
    (prepared : prepare download = .ok plan) :
    openSnapshot formats ⟨some (plan.file formats), some (plan.doc formats)⟩ = .ok () := by
  obtain ⟨records, retrieved, valid, retrievedValid, officialValid, rfl⟩ := prepare_parts prepared
  obtain ⟨enough, sentinel⟩ := validatedRows_kept valid
  generalize planned : (⟨builtDatabase records download.sourceSha256,
    builtMetadata records download.sourceSha256 retrieved download.officialUpdated⟩ : Plan) = plan
  have database : plan.database = builtDatabase records download.sourceSha256 := planned ▸ rfl
  have fields : plan.metadata = builtMetadata records download.sourceSha256 retrieved
    download.officialUpdated := planned ▸ rfl
  have digests (digest : Sha256) : sha256Hex (hexText digest.value) = true :=
    Receipts.hexText_sha256 digest.length
  have rows : (minimumRows : Int) ≤ records.length := Int.ofNat_le.2 enough
  have official : validateUtcTimestamp (some (download.officialUpdated.elim .null .time)) true =
      .ok () := by
    cases updated : download.officialUpdated with
    | none => rfl
    | some t => exact if_pos (officialValid t updated)
  have loaded : loadMetadata formats (plan.file formats) (plan.doc formats) =
      .ok (plan.metadata (formats.sha256 (plan.file formats))) := by
    rw [loadMetadata, Plan.doc, formats.loads_dump, fields]
    refine guard_pass (by simp [sameKeys, builtMetadata, metadataKeys]) ?_
    refine guard_pass ?_ ?_
    · exact fun wrong => absurd (sourceFields_same.symm.trans wrong) (by decide)
    refine guard_pass (not_not.2 rfl) (guard_pass ?_ ?_)
    · exact fun wrong => absurd (decide_eq_true rows) (by
        rw [show decide ((minimumRows : Int) ≤ records.length) = false from wrong]
        decide)
    refine guard_pass ?_ (guard_pass ?_ ?_)
    · exact fun wrong => absurd ((digests download.sourceSha256).symm.trans wrong) (by decide)
    · exact fun wrong => absurd ((digests _).symm.trans wrong) (by decide)
    refine bind_pass (if_pos retrievedValid) (bind_pass official (guard_pass (not_not.2 rfl) rfl))
  have validated : validateDatabase formats (plan.file formats)
      (plan.metadata (formats.sha256 (plan.file formats))) = .ok () := by
    rw [validateDatabase, Plan.file, formats.read_write, database, fields]
    refine guard_pass (not_not.2 rfl) (guard_pass (not_not.2 rfl) (guard_pass (not_not.2 rfl)
      (guard_pass (not_not.2 rfl) (guard_pass (fun broken : true = false => not_held broken.symm)
      (guard_pass ?_ (guard_pass (not_not.2 rfl) ?_))))))
    · exact fun wrong => absurd ((internal_same _ _).symm.trans wrong) (by decide)
    · exact if_neg (not_not.2 sentinel)
  exact bind_pass loaded validated

/-! ## Replacement -/

/-- The installed pair is the old one or the new one, and a reader accepts it. -/
def Atomic (formats : Formats File Doc) (download : Download) (old : Directory File Doc)
    (s : BuildState File Doc) : Prop :=
  (s.dir.installed = old.installed ∨ ∃ plan, prepare download = .ok plan ∧
    s.dir.installed = ⟨some (plan.file formats), some (plan.doc formats)⟩) ∧
    openSnapshot formats s.dir.installed = .ok ()

/-- One of the two files that are to be written is the installed one already. -/
def Unchanged (formats : Formats File Doc) (download : Download) (old : Directory File Doc) :
    Prop :=
  ∃ plan, prepare download = .ok plan ∧
    (old.installed.database = some (plan.file formats) ∨
      old.installed.metadata = some (plan.doc formats))

theorem installed_ext {first second : Installed File Doc}
    (database : first.database = second.database)
    (metadata : first.metadata = second.metadata) : first = second := by
  cases first
  cases second
  cases database
  cases metadata
  rfl

/-- At every point of every run the pair is whole and accepted, but between the two renames. -/
theorem replacement_atomic_iff (formats : Formats File Doc) (download : Download)
    (old : Directory File Doc) (accepted : openSnapshot formats old.installed = .ok ())
    (s : BuildState File Doc) (visited : Visited formats download old s) :
    Atomic formats download old s ↔
      s.phase ≠ .databaseReplaced ∨ Unchanged formats download old := by
  cases prepared : prepare download with
  | error reason =>
    have start := visited_refused prepared visited
    subst start
    refine ⟨fun _ => .inl fun wrong => Phase.noConfusion wrong, fun _ => ⟨.inl rfl, accepted⟩⟩
  | ok plan =>
    have tracks := visited_tracks prepared visited
    have database := tracks.database
    have metadata := tracks.metadata
    have before (oldDatabase : s.phase.databaseInstalled = false)
        (oldMetadata : s.phase.metadataInstalled = false) : Atomic formats download old s := by
      rw [oldDatabase] at database
      rw [oldMetadata] at metadata
      have same := installed_ext database metadata
      exact ⟨.inl same, same ▸ accepted⟩
    have after (newDatabase : s.phase.databaseInstalled = true)
        (newMetadata : s.phase.metadataInstalled = true) : Atomic formats download old s := by
      rw [newDatabase] at database
      rw [newMetadata] at metadata
      have same : s.dir.installed = ⟨some (plan.file formats), some (plan.doc formats)⟩ :=
        installed_ext database metadata
      exact ⟨.inr ⟨plan, prepared, same⟩, same ▸ open_plan prepared⟩
    by_cases torn : s.phase = .databaseReplaced
    · rw [torn] at database metadata
      constructor
      · rintro ⟨same | ⟨other, planned, same⟩, _⟩
        · exact .inr ⟨plan, prepared, .inl (by rw [← same]; exact database)⟩
        · have equal := Except.ok.inj (prepared.symm.trans planned)
          subst equal
          refine .inr ⟨plan, prepared, .inr ?_⟩
          rw [same] at metadata
          exact metadata.symm
      · rintro (whole | ⟨other, planned, unchanged⟩)
        · exact absurd torn whole
        · have equal := Except.ok.inj (prepared.symm.trans planned)
          subst equal
          rcases unchanged with sameDatabase | sameMetadata
          · have same : s.dir.installed = old.installed :=
              installed_ext (database.trans sameDatabase.symm) metadata
            exact ⟨.inl same, same ▸ accepted⟩
          · have same : s.dir.installed = ⟨some (plan.file formats), some (plan.doc formats)⟩ :=
              installed_ext database (metadata.trans sameMetadata)
            exact ⟨.inr ⟨plan, prepared, same⟩, same ▸ open_plan prepared⟩
    · refine ⟨fun _ => .inl torn, fun _ => ?_⟩
      cases phase : s.phase with
      | databaseMade => exact before (phase ▸ rfl) (phase ▸ rfl)
      | databaseWritten => exact before (phase ▸ rfl) (phase ▸ rfl)
      | databaseChecked => exact before (phase ▸ rfl) (phase ▸ rfl)
      | metadataMade => exact before (phase ▸ rfl) (phase ▸ rfl)
      | metadataWritten => exact before (phase ▸ rfl) (phase ▸ rfl)
      | databaseReadOnly => exact before (phase ▸ rfl) (phase ▸ rfl)
      | metadataReadOnly => exact before (phase ▸ rfl) (phase ▸ rfl)
      | databaseReplaced => exact absurd phase torn
      | metadataReplaced => exact after (phase ▸ rfl) (phase ▸ rfl)
      | synced => exact after (phase ▸ rfl) (phase ▸ rfl)

/-! Two downloads of one table of eighty thousand rows whose bytes differ. -/

def digitsOf (i : Nat) : List Char :=
  [Nat.digitChar (i / 10000 % 10), Nat.digitChar (i / 1000 % 10), Nat.digitChar (i / 100 % 10),
   Nat.digitChar (i / 10 % 10), Nat.digitChar (i % 10)]

def numberedRow (i : Nat) : List (List Char) :=
  ('1' :: digitsOf i) :: ["Aachen", "", "Official", "Y", "1880", "Germany", "L5", "21 g", "", "",
    "", "", ""].map String.toList

def numberedRecord (i : Nat) : StoredRecord :=
  ⟨100000 + i, "Aachen".toList, "Official".toList, "L5".toList, "Fall".toList, some 1880,
    some "Germany".toList, none, none⟩

theorem digit_digitChar {d : Nat} (small : d < 10) :
    CheckoutUrls.digit (Nat.digitChar d) = true := by
  have every : ∀ d < 10, CheckoutUrls.digit (Nat.digitChar d) = true := by decide
  exact every d small

theorem numbered_code {i : Nat} (small : i < 100000) :
    canonicalCode ('1' :: digitsOf i) = true ∧ int ('1' :: digitsOf i) = 100000 + i := by
  constructor
  · have digits : ('1' :: digitsOf i).all CheckoutUrls.digit = true := by
      simp only [digitsOf, List.all_cons, List.all_nil, digit_digitChar (Nat.mod_lt _ (by decide)),
        Bool.and_true]
      decide
    rw [canonicalCode, digits]
    rfl
  · rw [int, Nat.ofDigitChars_cons, digitsOf,
      Nat.ofDigitChars_cons_digitChar_of_lt_ten (Nat.mod_lt _ (by decide)),
      Nat.ofDigitChars_cons_digitChar_of_lt_ten (Nat.mod_lt _ (by decide)),
      Nat.ofDigitChars_cons_digitChar_of_lt_ten (Nat.mod_lt _ (by decide)),
      Nat.ofDigitChars_cons_digitChar_of_lt_ten (Nat.mod_lt _ (by decide)),
      Nat.ofDigitChars_cons_digitChar_of_lt_ten (Nat.mod_lt _ (by decide)), Nat.ofDigitChars_nil]
    have one : '1'.toNat - '0'.toNat = 1 := rfl
    rw [one]
    omega

theorem numbered_valid {i : Nat} (small : i < 100000) (rowNumber : Nat) :
    validatedRow (numberedRow i) rowNumber = .ok (numberedRecord i) := by
  obtain ⟨canonical, code⟩ := numbered_code small
  unfold validatedRow numberedRow
  refine guard_pass (fun wrong => absurd (canonical.symm.trans wrong) (by decide)) ?_
  refine bind_pass (show Updater.boundedText "Aachen".toList 128 rowNumber "Name" = .ok () from
    if_pos (by decide)) ?_
  refine bind_pass (show Updater.boundedText "L5".toList 128 rowNumber "Type" = .ok () from
    if_pos (by decide)) ?_
  refine guard_pass (fun wrong : listed allowedStatuses "Official".toList = false =>
    absurd wrong (by decide)) ?_
  refine guard_pass (fun wrong : listed fallMarkers "Y".toList = false =>
    absurd wrong (by decide)) ?_
  refine bind_pass (show coordinatesOrNone "".toList "".toList rowNumber = .ok none from
    if_pos ⟨rfl, rfl⟩) ?_
  rw [numberedRecord, ← code]
  rfl

theorem collect_numbered (count start rowNumber : Nat) (seenCodes : List Nat)
    (seen : ∀ code ∈ seenCodes, code < 100000 + start) (fits : start + count ≤ 100000) :
    collectRows rowNumber seenCodes ((List.range' start count).map numberedRow) =
      .ok ((List.range' start count).map numberedRecord) := by
  induction count generalizing start rowNumber seenCodes with
  | zero => rfl
  | succ count ih =>
    rw [List.range'_succ, List.map_cons, List.map_cons, collectRows]
    refine bind_pass (numbered_valid (by omega) rowNumber) (guard_pass ?_ ?_)
    · intro repeated
      exact absurd (seen _ repeated) (Nat.lt_irrefl _)
    · have later : ∀ code ∈ (numberedRecord start).code :: seenCodes,
        code < 100000 + (start + 1) := by
        intro code member
        rcases List.mem_cons.1 member with here | old
        · rw [here]
          exact Nat.lt_succ_self _
        · exact Nat.lt_succ_of_lt (seen code old)
      exact bind_pass (ih (start + 1) (rowNumber + 1) _ later (by omega)) rfl

theorem sentinel_valid : validatedRow sentinelRow 2 = .ok expectedSentinel := by decide +kernel

def manyRows : List (List (List Char)) :=
  sentinelRow :: (List.range' 0 79999).map numberedRow

def manyRecords : List StoredRecord :=
  expectedSentinel :: (List.range' 0 79999).map numberedRecord

theorem many_collected : collectRows 2 [] manyRows = .ok manyRecords := by
  rw [manyRows, collectRows]
  refine bind_pass sentinel_valid (guard_pass List.not_mem_nil ?_)
  have seen : ∀ code ∈ [expectedSentinel.code], code < 100000 + 0 := by
    intro code member
    rw [List.mem_singleton.1 member]
    decide
  exact bind_pass (collect_numbered 79999 0 3 [expectedSentinel.code] seen (by decide)) rfl

theorem many_sorted :
    manyRecords.Pairwise fun a b => decide (a.code ≤ b.code) = true := by
  refine List.Pairwise.cons ?_ ?_
  · intro record member
    obtain ⟨i, _, same⟩ := List.mem_map.1 member
    refine decide_eq_true ?_
    rw [← same]
    change 87447 ≤ 100000 + i
    omega
  · rw [List.pairwise_map]
    refine (List.pairwise_lt_range' 1 Nat.one_pos).imp ?_
    intro i j before
    refine decide_eq_true ?_
    change 100000 + i ≤ 100000 + j
    omega

theorem many_length : manyRecords.length = minimumRows := by
  rw [manyRecords, List.length_cons, List.length_map, List.length_range', minimumRows]

theorem many_valid :
    validatedRows minimumRows (expectedHeader.map String.toList) manyRows = .ok manyRecords := by
  rw [← many_length]
  exact validatedRows_sorted many_collected rfl many_sorted

/-- The digest of the bytes of a table, and of a database that was built from it. -/
def tableDigest (ending : UInt8) : Sha256 := ⟨List.replicate 32 ending, List.length_replicate⟩

def sampleDownload (ending : UInt8) : Download where
  header := expectedHeader.map String.toList
  rows := manyRows
  sourceSha256 := tableDigest ending
  retrievedAt := some Receipts.firstBlockTime
  officialUpdated := none

def samplePlan (ending : UInt8) : Plan where
  database := builtDatabase manyRecords (tableDigest ending)
  metadata := builtMetadata manyRecords (tableDigest ending)
    ⟨Receipts.firstBlockTime.utc / 1000000, none, .z⟩ none

theorem sample_prepared (ending : UInt8) :
    prepare (sampleDownload ending) = .ok (samplePlan ending) := by
  have time : utcText (some Receipts.firstBlockTime) =
      .ok ⟨Receipts.firstBlockTime.utc / 1000000, none, .z⟩ := by
    rw [utcText, DateTime.astimezoneUtc, if_pos (by decide)]
  exact bind_pass many_valid (bind_pass time (bind_pass rfl rfl))

/-- Files that are what is read from them; the digest of a database goes by its table. -/
def plainDigest (database : Database) : Sha256 :=
  if database.internal.lookup "source_sha256" = some (hexText (tableDigest 10).value)
  then tableDigest 11 else tableDigest 14

theorem plain_database : ∀ database : Database, some database = some database := fun _ => rfl

theorem plain_metadata : ∀ metadata : Metadata, some metadata = some metadata := fun _ => rfl

def plainFormats : Formats Database Metadata where
  writeDatabase := id
  readDatabase := some
  sha256 := plainDigest
  dump := id
  loads := some
  read_write := plain_database
  loads_dump := plain_metadata

/-- The files that a run on the first table installed. -/
def oldDirectory : Directory Database Metadata where
  installed := ⟨some ((samplePlan 10).file plainFormats), some ((samplePlan 10).doc plainFormats)⟩
  databaseTemp := none
  metadataTemp := none

theorem old_accepted : openSnapshot plainFormats oldDirectory.installed = .ok () :=
  open_plan (sample_prepared 10)

section Visits
variable {formats : Formats File Doc} {download : Download} {plan : Plan}
  (prepared : prepare download = .ok plan) {old : Directory File Doc}
include prepared

theorem visits_next {phase next : Phase} (follows : phase.next = some next)
    (here : ∃ dir, Visited formats download old ⟨phase, .body, dir⟩) :
    ∃ dir, Visited formats download old ⟨next, .body, dir⟩ := by
  obtain ⟨dir, visited⟩ := here
  exact ⟨_, .step prepared visited (.advance follows)⟩

/-- A run gets to the point between the two renames. -/
theorem visits_replaced (old : Directory File Doc) :
    ∃ dir, Visited formats download old ⟨.databaseReplaced, .body, dir⟩ := by
  have start : ∃ dir, Visited formats download old ⟨.databaseMade, .body, dir⟩ := ⟨old, .start⟩
  have written := visits_next prepared (rfl : Phase.databaseMade.next = _) start
  have checked := visits_next prepared (rfl : Phase.databaseWritten.next = _) written
  have metadataMade := visits_next prepared (rfl : Phase.databaseChecked.next = _) checked
  have metadataWritten := visits_next prepared (rfl : Phase.metadataMade.next = _) metadataMade
  have readOnly := visits_next prepared (rfl : Phase.metadataWritten.next = _) metadataWritten
  have bothReadOnly := visits_next prepared (rfl : Phase.databaseReadOnly.next = _) readOnly
  exact visits_next prepared (rfl : Phase.metadataReadOnly.next = _) bothReadOnly

/-- A run gets to its end. -/
theorem visits_synced (old : Directory File Doc) :
    ∃ dir, Visited formats download old ⟨.synced, .body, dir⟩ := by
  have torn : ∃ dir, Visited formats download old ⟨.databaseReplaced, .body, dir⟩ :=
    visits_replaced prepared old
  have replaced := visits_next prepared (rfl : Phase.databaseReplaced.next = _) torn
  exact visits_next prepared (rfl : Phase.metadataReplaced.next = _) replaced

end Visits

theorem new_file_digest : plainDigest ((samplePlan 13).file plainFormats) = tableDigest 14 :=
  if_neg (show ¬ some (hexText (tableDigest 13).value) = some (hexText (tableDigest 10).value) by
    decide)

theorem old_file_digest : plainDigest ((samplePlan 10).file plainFormats) = tableDigest 11 :=
  if_pos (rfl : some (hexText (tableDigest 10).value) = _)

/-- The reader refuses the new database beside the old metadata. -/
theorem torn_refused : openSnapshot plainFormats
    ⟨some ((samplePlan 13).file plainFormats), some ((samplePlan 10).doc plainFormats)⟩ ≠
      .ok () := by
  intro opened
  obtain ⟨raw, loaded, _⟩ := except_bind_ok opened
  unfold loadMetadata at loaded
  obtain ⟨_, loaded⟩ := guard_ok loaded
  obtain ⟨_, loaded⟩ := guard_ok loaded
  obtain ⟨_, loaded⟩ := guard_ok loaded
  obtain ⟨_, loaded⟩ := guard_ok loaded
  obtain ⟨_, loaded⟩ := guard_ok loaded
  obtain ⟨_, loaded⟩ := guard_ok loaded
  obtain ⟨_, _, loaded⟩ := except_bind_ok loaded
  obtain ⟨_, _, loaded⟩ := except_bind_ok loaded
  obtain ⟨matching, _⟩ := guard_ok loaded
  have digests : some (MetaValue.text (hexText (plainDigest
      ((samplePlan 13).file plainFormats)).value)) =
        some (.text (hexText (plainDigest ((samplePlan 10).file plainFormats)).value)) :=
    not_not.1 matching
  rw [new_file_digest, old_file_digest] at digests
  exact absurd digests (by decide)

/-- A run that stops between the two renames leaves a pair that no reader accepts. -/
theorem torn_pair_installed : openSnapshot plainFormats oldDirectory.installed = .ok () ∧
    ∃ s, Visited plainFormats (sampleDownload 13) oldDirectory s ∧
      ¬ Atomic plainFormats (sampleDownload 13) oldDirectory s := by
  obtain ⟨dir, visited⟩ := @visits_replaced _ _ plainFormats _ _ (sample_prepared 13) oldDirectory
  have tracks := visited_tracks (sample_prepared 13) visited
  have torn : dir.installed =
      ⟨some ((samplePlan 13).file plainFormats), some ((samplePlan 10).doc plainFormats)⟩ :=
    installed_ext tracks.database tracks.metadata
  refine ⟨old_accepted, _, visited, fun atomic => torn_refused ?_⟩
  rw [← torn]
  exact atomic.2

/-- A run that ends has installed the new pair, and the pair is whole and accepted. -/
theorem replacement_atomic_synced :
    openSnapshot plainFormats oldDirectory.installed = .ok () ∧
      ∃ dir, Visited plainFormats (sampleDownload 13) oldDirectory ⟨.synced, .body, dir⟩ ∧
        dir.installed = ⟨some ((samplePlan 13).file plainFormats),
          some ((samplePlan 13).doc plainFormats)⟩ ∧
        Atomic plainFormats (sampleDownload 13) oldDirectory ⟨.synced, .body, dir⟩ := by
  obtain ⟨dir, visited⟩ := @visits_synced _ _ plainFormats _ _ (sample_prepared 13) oldDirectory
  have tracks := visited_tracks (sample_prepared 13) visited
  refine ⟨old_accepted, dir, visited, installed_ext tracks.database tracks.metadata, ?_⟩
  exact (replacement_atomic_iff plainFormats (sampleDownload 13) oldDirectory old_accepted _
    visited).2 (Or.inl Phase.noConfusion)

end SnapshotReplacement
