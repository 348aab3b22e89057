import SpacerocksCoa.FallibleSteps
import Mathlib.Data.List.Dedup

/-!
# The scan of the central directory

What the scan reads and what it finds, for every byte string: it stays inside the bytes, and
the records of the entries it returns fill the directory that the end record names. In the
other direction, an archive that was written with a list of entries is read back as that list,
when no later position of it reads as another end record.

The scan goes backwards and takes the first signature it meets, so a signature that begins in
the last fields of the end record and ends in the comment is taken for an end record.
-/
namespace ZipDirectory
open FallibleSteps

/-! ## The central directory -/

structure RawZipEntry where
  name : List Char
  compressedBytes : Nat
  uncompressedBytes : Nat
  deriving DecidableEq

def outOfBounds : String := "Offset is outside the bounds of the DataView"

def getUint16 (view : List UInt8) (offset : Nat) : Except String Nat :=
  match view[offset]?, view[offset + 1]? with
  | some low, some high => .ok (low.toNat + 256 * high.toNat)
  | _, _ => .error outOfBounds

def getUint32 (view : List UInt8) (offset : Nat) : Except String Nat := do
  let low ← getUint16 view offset
  let high ← getUint16 view (offset + 2)
  return low + 65536 * high

/-- The scan for the end record, down from `minimum + candidates - 1`. -/
def findEocd (view : List UInt8) (minimum : Nat) : Nat → Except String (Option Nat)
  | 0 => .ok none
  | candidates + 1 => do
    if (← getUint32 view (minimum + candidates)) = 0x06054b50 then
      return some (minimum + candidates)
    else findEocd view minimum candidates

/-- A strict decoder, which drops a byte order mark. -/
def decodeFatal (bytes : List UInt8) : Option (List Char) :=
  let body := if bytes.take 3 = [0xef, 0xbb, 0xbf] then bytes.drop 3 else bytes
  (ByteArray.utf8Decode? ⟨body.toArray⟩).map Array.toList

/-- The loop over the directory, with the names seen; the last offset is returned too. -/
def readEntries (view : List UInt8) (eocdOffset : Nat) :
    Nat → Nat → List (List Char) → Except String (List RawZipEntry × Nat)
  | 0, offset, _ => .ok ([], offset)
  | remaining + 1, offset, names => do
    if eocdOffset < offset + 46 then
      throw "The ZIP central directory contains an invalid entry."
    if (← getUint32 view offset) ≠ 0x02014b50 then
      throw "The ZIP central directory contains an invalid entry."
    let compressedBytes ← getUint32 view (offset + 20)
    let uncompressedBytes ← getUint32 view (offset + 24)
    let nameLength ← getUint16 view (offset + 28)
    let extraLength ← getUint16 view (offset + 30)
    let entryCommentLength ← getUint16 view (offset + 32)
    let recordLength := 46 + nameLength + extraLength + entryCommentLength
    if eocdOffset < offset + recordLength then
      throw "The ZIP central directory entry is truncated."
    match decodeFatal ((view.drop (offset + 46)).take nameLength) with
    | none => throw "The ZIP contains a filename that is not valid UTF-8."
    | some name =>
      if name ∈ names then throw s!"The ZIP contains a duplicate entry: {String.ofList name}"
      let rest ← readEntries view eocdOffset remaining (offset + recordLength) (name :: names)
      return (⟨name, compressedBytes, uncompressedBytes⟩ :: rest.1, rest.2)

def inspectZipCentralDirectory (bytes : List UInt8) : Except String (List RawZipEntry) := do
  let minimumEocdOffset := bytes.length - 65557
  match ← findEocd bytes minimumEocdOffset (bytes.length - 21 - minimumEocdOffset) with
  | none => throw "The file does not contain a valid ZIP end record."
  | some eocdOffset =>
    let diskNumber ← getUint16 bytes (eocdOffset + 4)
    let centralDisk ← getUint16 bytes (eocdOffset + 6)
    let entriesOnDisk ← getUint16 bytes (eocdOffset + 8)
    let entryCount ← getUint16 bytes (eocdOffset + 10)
    let centralSize ← getUint32 bytes (eocdOffset + 12)
    let centralOffset ← getUint32 bytes (eocdOffset + 16)
    let commentLength ← getUint16 bytes (eocdOffset + 20)
    if bytes.length < eocdOffset + 22 + commentLength then
      throw "The ZIP end record is truncated."
    if diskNumber ≠ 0 ∨ centralDisk ≠ 0 ∨ entriesOnDisk ≠ entryCount then
      throw "Multi-disk ZIP packages are not supported."
    if entryCount = 0xffff ∨ centralSize = 0xffffffff ∨ centralOffset = 0xffffffff then
      throw "ZIP64 packages are not supported by the browser verifier."
    if eocdOffset < centralOffset + centralSize then
      throw "The ZIP central directory is invalid."
    let read ← readEntries bytes eocdOffset entryCount centralOffset []
    if read.2 ≠ centralOffset + centralSize then
      throw "The ZIP central-directory size does not match its entries."
    return read.1

/-! ## Reads -/

theorem getUint16_ok (view : List UInt8) (offset : Nat) (inside : offset + 2 ≤ view.length) :
    ∃ value, getUint16 view offset = .ok value := by
  have low : view[offset]? = some view[offset] := List.getElem?_eq_getElem (by omega)
  have high : view[offset + 1]? = some view[offset + 1] := List.getElem?_eq_getElem (by omega)
  refine ⟨view[offset].toNat + 256 * view[offset + 1].toNat, ?_⟩
  rw [getUint16, low, high]

theorem getUint32_ok (view : List UInt8) (offset : Nat) (inside : offset + 4 ≤ view.length) :
    ∃ value, getUint32 view offset = .ok value := by
  obtain ⟨low, lowRead⟩ := getUint16_ok view offset (by omega)
  obtain ⟨high, highRead⟩ := getUint16_ok view (offset + 2) (by omega)
  exact ⟨low + 65536 * high, bind_pass lowRead (bind_pass highRead rfl)⟩

/-- A view of the bytes that throws where the array would silently be cut short. -/
def subarray (view : List UInt8) (start length : Nat) : Except String (List UInt8) :=
  if start + length ≤ view.length then .ok ((view.drop start).take length)
  else .error outOfBounds

section
local instance lawfulNames : LawfulBEq (List Char) := List.instLawfulBEq

/-- `readEntries`, with the access to the name checked as well. -/
def readEntriesChecked (view : List UInt8) (eocdOffset : Nat) :
    Nat → Nat → List (List Char) → Except String (List RawZipEntry × Nat)
  | 0, offset, _ => .ok ([], offset)
  | remaining + 1, offset, names => do
    if eocdOffset < offset + 46 then
      throw "The ZIP central directory contains an invalid entry."
    if (← getUint32 view offset) ≠ 0x02014b50 then
      throw "The ZIP central directory contains an invalid entry."
    let compressedBytes ← getUint32 view (offset + 20)
    let uncompressedBytes ← getUint32 view (offset + 24)
    let nameLength ← getUint16 view (offset + 28)
    let extraLength ← getUint16 view (offset + 30)
    let entryCommentLength ← getUint16 view (offset + 32)
    let recordLength := 46 + nameLength + extraLength + entryCommentLength
    if eocdOffset < offset + recordLength then
      throw "The ZIP central directory entry is truncated."
    match decodeFatal (← subarray view (offset + 46) nameLength) with
    | none => throw "The ZIP contains a filename that is not valid UTF-8."
    | some name =>
      if name ∈ names then throw s!"The ZIP contains a duplicate entry: {String.ofList name}"
      let rest ← readEntriesChecked view eocdOffset remaining (offset + recordLength)
        (name :: names)
      return (⟨name, compressedBytes, uncompressedBytes⟩ :: rest.1, rest.2)

end

/-- A computation that fails, if at all, for another reason than an access out of bounds. -/
def StaysInside {α : Type} (x : Except String α) : Prop := x ≠ .error outOfBounds

section
variable {α β : Type}

theorem inside_ok {x : Except String α} {value : α} (ok : x = .ok value) : StaysInside x := by
  rw [ok]
  intro wrong
  cases wrong

theorem inside_bind {x : Except String α} {f : α → Except String β} {value : α}
    (ok : x = .ok value) (rest : StaysInside (f value)) : StaysInside (x >>= f) := by
  rw [ok]
  exact rest

theorem inside_guard {refused : Prop} [Decidable refused] {message : String}
    {next : PUnit → Except String β} (other : message ≠ outOfBounds)
    (rest : ¬ refused → StaysInside (next PUnit.unit)) :
    StaysInside (if refused then (throw message >>= next) else next PUnit.unit) := by
  by_cases bad : refused
  · rw [if_pos bad]
    intro wrong
    exact other (Except.error.inj wrong)
  · rw [if_neg bad]
    exact rest bad

end

theorem duplicate_message (name : String) :
    s!"The ZIP contains a duplicate entry: {name}" ≠ outOfBounds := by
  intro same
  have texts := congrArg String.toList same
  rw [String.toList_append] at texts
  exact absurd (congrArg List.head? texts) (by simp [toString, outOfBounds])

/-- Every access of the loop is checked before it is made. -/
theorem readEntries_inside {view : List UInt8} {eocdOffset : Nat} (fits : eocdOffset ≤ view.length)
    (remaining offset : Nat) (names : List (List Char)) :
    readEntriesChecked view eocdOffset remaining offset names =
        readEntries view eocdOffset remaining offset names ∧
      StaysInside (readEntries view eocdOffset remaining offset names) := by
  induction remaining generalizing offset names with
  | zero => exact ⟨rfl, inside_ok rfl⟩
  | succ remaining ih =>
    rw [readEntries, readEntriesChecked]
    by_cases short : eocdOffset < offset + 46
    · rw [guard_stop short, guard_stop short]
      exact ⟨rfl, fun wrong => absurd (Except.error.inj wrong) (by decide)⟩
    rw [if_neg short, if_neg short]
    obtain ⟨signature, read⟩ := getUint32_ok view offset (by omega)
    obtain ⟨compressed, read20⟩ := getUint32_ok view (offset + 20) (by omega)
    obtain ⟨uncompressed, read24⟩ := getUint32_ok view (offset + 24) (by omega)
    obtain ⟨nameLength, read28⟩ := getUint16_ok view (offset + 28) (by omega)
    obtain ⟨extraLength, read30⟩ := getUint16_ok view (offset + 30) (by omega)
    obtain ⟨commentLength, read32⟩ := getUint16_ok view (offset + 32) (by omega)
    rw [read, read20, read24, read28, read30, read32]
    simp only [bind, Except.bind, pure, Except.pure, throw, throwThe, MonadExceptOf.throw]
    by_cases wrong : signature ≠ 0x02014b50
    · rw [if_pos wrong, if_pos wrong]
      exact ⟨rfl, fun wrong => absurd (Except.error.inj wrong) (by decide)⟩
    rw [if_neg wrong, if_neg wrong]
    by_cases long : eocdOffset < offset + (46 + nameLength + extraLength + commentLength)
    · rw [if_pos long, if_pos long]
      exact ⟨rfl, fun wrong => absurd (Except.error.inj wrong) (by decide)⟩
    rw [if_neg long, if_neg long]
    have name : subarray view (offset + 46) nameLength =
        .ok ((view.drop (offset + 46)).take nameLength) := if_pos (by omega)
    rw [name]
    simp only
    cases decodeFatal ((view.drop (offset + 46)).take nameLength) with
    | none => exact ⟨rfl, fun wrong => absurd (Except.error.inj wrong) (by decide)⟩
    | some decoded =>
      simp only
      by_cases seen : decoded ∈ names
      · rw [if_pos seen, if_pos seen]
        refine ⟨rfl, fun wrong => duplicate_message _ (Except.error.inj wrong)⟩
      rw [if_neg seen, if_neg seen]
      obtain ⟨same, inside⟩ := ih (offset + (46 + nameLength + extraLength + commentLength))
        (decoded :: names)
      rw [same]
      refine ⟨rfl, ?_⟩
      cases rest : readEntries view eocdOffset remaining
          (offset + (46 + nameLength + extraLength + commentLength)) (decoded :: names) with
      | error e =>
        intro wrong
        refine inside ?_
        rw [rest]
        exact wrong
      | ok found => exact inside_ok rfl

/-! ## The end record -/

def endSignature : Nat := 0x06054b50

/-- The scan meets a signature in its range or nothing. -/
theorem findEocd_inside {view : List UInt8} {minimum : Nat} (candidates : Nat)
    (fits : 0 < candidates → minimum + candidates + 3 ≤ view.length) :
    ∃ found, findEocd view minimum candidates = .ok found ∧
      ∀ k, found = some k → k < minimum + candidates ∧ minimum ≤ k ∧
        getUint32 view k = .ok endSignature := by
  induction candidates with
  | zero =>
    refine ⟨none, rfl, ?_⟩
    intro k found
    cases found
  | succ candidates ih =>
    have whole := fits (Nat.succ_pos _)
    obtain ⟨signature, read⟩ := getUint32_ok view (minimum + candidates)
      (by omega)
    by_cases here : signature = endSignature
    · refine ⟨some (minimum + candidates), bind_pass read (if_pos here), ?_⟩
      intro k found
      cases found
      exact ⟨by omega, by omega, here ▸ read⟩
    · obtain ⟨found, scanned, place⟩ := ih (fun _ => by omega)
      refine ⟨found, bind_pass read ((if_neg here).trans scanned), ?_⟩
      intro k same
      obtain ⟨below, above, signed⟩ := place k same
      exact ⟨by omega, above, signed⟩

/-- The last signature of the range is found. -/
theorem findEocd_last {view : List UInt8} {minimum k : Nat} (candidates : Nat)
    (fits : minimum + candidates + 3 ≤ view.length) (above : minimum ≤ k)
    (below : k < minimum + candidates) (signed : getUint32 view k = .ok endSignature)
    (last : ∀ j, k < j → j < minimum + candidates → getUint32 view j ≠ .ok endSignature) :
    findEocd view minimum candidates = .ok (some k) := by
  induction candidates with
  | zero => omega
  | succ candidates ih =>
    by_cases here : k = minimum + candidates
    · subst here
      exact bind_pass signed (if_pos rfl)
    · obtain ⟨signature, read⟩ := getUint32_ok view (minimum + candidates)
        (by omega)
      have other : signature ≠ 0x06054b50 := by
        intro same
        refine last (minimum + candidates) (by omega) (by omega) ?_
        rw [read, same]
        rfl
      refine bind_pass read ((if_neg other).trans (ih (by omega) (by omega) ?_))
      intro j after before
      exact last j after (by omega)

/-- The range of the scan: at most the last 65557 positions at which an end record fits. -/
def firstCandidate (bytes : List UInt8) : Nat := bytes.length - 65557

def candidates (bytes : List UInt8) : Nat := bytes.length - 21 - firstCandidate bytes

theorem candidates_fit (bytes : List UInt8) :
    0 < candidates bytes → firstCandidate bytes + candidates bytes + 3 ≤ bytes.length := by
  unfold candidates firstCandidate
  omega

/-! ## What the scan finds -/

theorem readEntries_distinct {view : List UInt8} {eocdOffset : Nat} :
    ∀ {remaining offset : Nat} {names : List (List Char)} {read : List RawZipEntry × Nat},
      readEntries view eocdOffset remaining offset names = .ok read →
        (read.1.map RawZipEntry.name).Nodup ∧ ∀ entry ∈ read.1, entry.name ∉ names := by
  intro remaining
  induction remaining with
  | zero =>
    intro offset names read ok
    cases ok
    exact ⟨List.nodup_nil, fun entry member => absurd member List.not_mem_nil⟩
  | succ remaining ih =>
    intro offset names read ok
    unfold readEntries at ok
    obtain ⟨_, ok⟩ := guard_ok ok
    obtain ⟨_, _, ok⟩ := except_bind_ok ok
    obtain ⟨_, ok⟩ := guard_ok ok
    obtain ⟨_, _, ok⟩ := except_bind_ok ok
    obtain ⟨_, _, ok⟩ := except_bind_ok ok
    obtain ⟨nameLength, _, ok⟩ := except_bind_ok ok
    obtain ⟨_, _, ok⟩ := except_bind_ok ok
    obtain ⟨_, _, ok⟩ := except_bind_ok ok
    obtain ⟨_, ok⟩ := guard_ok ok
    cases decoded : decodeFatal ((view.drop (offset + 46)).take nameLength) with
    | none =>
      simp only [decoded] at ok
      cases ok
    | some name =>
      simp only [decoded] at ok
      obtain ⟨fresh, ok⟩ := guard_ok ok
      obtain ⟨rest, readRest, ok⟩ := except_bind_ok ok
      cases ok
      obtain ⟨distinct, apart⟩ := ih readRest
      constructor
      · rw [List.map_cons, List.nodup_cons]
        refine ⟨fun repeated => ?_, distinct⟩
        obtain ⟨entry, member, same⟩ := List.mem_map.1 repeated
        exact apart entry member (same ▸ List.mem_cons_self)
      · intro entry member
        rcases List.mem_cons.1 member with rfl | later
        · exact fresh
        · exact fun seen => apart entry later (List.mem_cons_of_mem _ seen)

theorem inspected_distinct {bytes : List UInt8} {rawEntries : List RawZipEntry}
    (ok : inspectZipCentralDirectory bytes = .ok rawEntries) :
    (rawEntries.map RawZipEntry.name).Nodup := by
  unfold inspectZipCentralDirectory at ok
  obtain ⟨eocd, _, ok⟩ := except_bind_ok ok
  cases eocd with
  | none => cases ok
  | some eocdOffset =>
    obtain ⟨_, _, ok⟩ := except_bind_ok ok
    obtain ⟨_, _, ok⟩ := except_bind_ok ok
    obtain ⟨_, _, ok⟩ := except_bind_ok ok
    obtain ⟨_, _, ok⟩ := except_bind_ok ok
    obtain ⟨_, _, ok⟩ := except_bind_ok ok
    obtain ⟨_, _, ok⟩ := except_bind_ok ok
    obtain ⟨_, _, ok⟩ := except_bind_ok ok
    obtain ⟨_, ok⟩ := guard_ok ok
    obtain ⟨_, ok⟩ := guard_ok ok
    obtain ⟨_, ok⟩ := guard_ok ok
    obtain ⟨_, ok⟩ := guard_ok ok
    obtain ⟨read, entries, ok⟩ := except_bind_ok ok
    obtain ⟨_, ok⟩ := guard_ok ok
    cases ok
    exact (readEntries_distinct entries).1


/-- Records that follow each other from one offset to another, with the entries they hold. -/
inductive Records (view : List UInt8) : Nat → List RawZipEntry → Nat → Prop where
  | nil (offset : Nat) : Records view offset [] offset
  | cons {offset nameLength extraLength commentLength finish : Nat} {entry : RawZipEntry}
      {rest : List RawZipEntry} (signed : getUint32 view offset = .ok 0x02014b50)
      (compressed : getUint32 view (offset + 20) = .ok entry.compressedBytes)
      (uncompressed : getUint32 view (offset + 24) = .ok entry.uncompressedBytes)
      (named : getUint16 view (offset + 28) = .ok nameLength)
      (extra : getUint16 view (offset + 30) = .ok extraLength)
      (commented : getUint16 view (offset + 32) = .ok commentLength)
      (decoded : decodeFatal ((view.drop (offset + 46)).take nameLength) = some entry.name)
      (following : Records view (offset + (46 + nameLength + extraLength + commentLength)) rest
        finish) :
      Records view offset (entry :: rest) finish

theorem records_of_read {view : List UInt8} {eocdOffset : Nat} (remaining : Nat) {offset : Nat}
    {names : List (List Char)} {read : List RawZipEntry × Nat}
    (ok : readEntries view eocdOffset remaining offset names = .ok read) :
    Records view offset read.1 read.2 ∧ read.1.length = remaining := by
  induction remaining generalizing offset names read with
  | zero =>
    cases ok
    exact ⟨.nil offset, rfl⟩
  | succ remaining ih =>
    unfold readEntries at ok
    obtain ⟨_, ok⟩ := guard_ok ok
    obtain ⟨signature, signed, ok⟩ := except_bind_ok ok
    obtain ⟨known, ok⟩ := guard_ok ok
    obtain ⟨compressed, read20, ok⟩ := except_bind_ok ok
    obtain ⟨uncompressed, read24, ok⟩ := except_bind_ok ok
    obtain ⟨nameLength, read28, ok⟩ := except_bind_ok ok
    obtain ⟨extraLength, read30, ok⟩ := except_bind_ok ok
    obtain ⟨commentLength, read32, ok⟩ := except_bind_ok ok
    obtain ⟨_, ok⟩ := guard_ok ok
    cases decoded : decodeFatal ((view.drop (offset + 46)).take nameLength) with
    | none =>
      simp only [decoded] at ok
      cases ok
    | some name =>
      simp only [decoded] at ok
      obtain ⟨_, ok⟩ := guard_ok ok
      obtain ⟨rest, readRest, ok⟩ := except_bind_ok ok
      cases ok
      obtain ⟨following, counted⟩ := ih readRest
      rw [not_not.1 known] at signed
      exact ⟨.cons signed read20 read24 read28 read30 read32 decoded following,
        congrArg (· + 1) counted⟩

/-- The entries fill the directory that an end record names. -/
structure Inventory (bytes : List UInt8) (entries : List RawZipEntry) : Prop where
  distinct : (entries.map RawZipEntry.name).Nodup
  directory : ∃ eocdOffset centralSize centralOffset,
    eocdOffset + 22 ≤ bytes.length ∧ getUint32 bytes eocdOffset = .ok endSignature ∧
      getUint16 bytes (eocdOffset + 10) = .ok entries.length ∧
      getUint32 bytes (eocdOffset + 12) = .ok centralSize ∧
      getUint32 bytes (eocdOffset + 16) = .ok centralOffset ∧
      centralOffset + centralSize ≤ eocdOffset ∧
      Records bytes centralOffset entries (centralOffset + centralSize)

theorem inventory_of_inspected {bytes : List UInt8} {entries : List RawZipEntry}
    (ok : inspectZipCentralDirectory bytes = .ok entries) : Inventory bytes entries := by
  refine ⟨inspected_distinct ok, ?_⟩
  obtain ⟨found, scanned, place⟩ := findEocd_inside (candidates bytes) (candidates_fit bytes)
  unfold inspectZipCentralDirectory at ok
  obtain ⟨eocd, scan, ok⟩ := except_bind_ok ok
  have same : found = eocd := Except.ok.inj (scanned.symm.trans scan)
  cases eocd with
  | none => cases ok
  | some eocdOffset =>
    obtain ⟨below, above, signed⟩ := place eocdOffset same
    obtain ⟨_, _, ok⟩ := except_bind_ok ok
    obtain ⟨_, _, ok⟩ := except_bind_ok ok
    obtain ⟨_, _, ok⟩ := except_bind_ok ok
    obtain ⟨count, counted, ok⟩ := except_bind_ok ok
    obtain ⟨size, sized, ok⟩ := except_bind_ok ok
    obtain ⟨offset, placed, ok⟩ := except_bind_ok ok
    obtain ⟨_, _, ok⟩ := except_bind_ok ok
    obtain ⟨_, ok⟩ := guard_ok ok
    obtain ⟨_, ok⟩ := guard_ok ok
    obtain ⟨_, ok⟩ := guard_ok ok
    obtain ⟨room, ok⟩ := guard_ok ok
    obtain ⟨read, entriesRead, ok⟩ := except_bind_ok ok
    obtain ⟨filled, ok⟩ := guard_ok ok
    cases ok
    obtain ⟨records, length⟩ := records_of_read count entriesRead
    rw [not_not.1 filled] at records
    refine ⟨eocdOffset, size, offset, ?_, signed, length ▸ counted, sized, placed,
      Nat.not_lt.1 room, records⟩
    unfold candidates at below
    omega

/-- No access of the scan is out of bounds. -/
theorem inspect_inside (bytes : List UInt8) : StaysInside (inspectZipCentralDirectory bytes) := by
  obtain ⟨found, scanned, place⟩ := findEocd_inside (candidates bytes) (candidates_fit bytes)
  unfold inspectZipCentralDirectory
  refine inside_bind scanned ?_
  cases found with
  | none => exact fun wrong => absurd (Except.error.inj wrong) (by decide)
  | some eocdOffset =>
    obtain ⟨below, _, _⟩ := place eocdOffset rfl
    have fits : eocdOffset + 22 ≤ bytes.length := by
      unfold candidates at below
      omega
    obtain ⟨_, read4⟩ := getUint16_ok bytes (eocdOffset + 4) (by omega)
    obtain ⟨_, read6⟩ := getUint16_ok bytes (eocdOffset + 6) (by omega)
    obtain ⟨_, read8⟩ := getUint16_ok bytes (eocdOffset + 8) (by omega)
    obtain ⟨count, read10⟩ := getUint16_ok bytes (eocdOffset + 10) (by omega)
    obtain ⟨_, read12⟩ := getUint32_ok bytes (eocdOffset + 12) (by omega)
    obtain ⟨offset, read16⟩ := getUint32_ok bytes (eocdOffset + 16) (by omega)
    obtain ⟨_, read20⟩ := getUint16_ok bytes (eocdOffset + 20) (by omega)
    refine inside_bind read4 (inside_bind read6 (inside_bind read8 (inside_bind read10
      (inside_bind read12 (inside_bind read16 (inside_bind read20 ?_))))))
    refine inside_guard (by decide) fun _ => ?_
    refine inside_guard (by decide) fun _ => ?_
    refine inside_guard (by decide) fun _ => ?_
    refine inside_guard (by decide) fun _ => ?_
    obtain ⟨_, inside⟩ := @readEntries_inside bytes eocdOffset (by omega)
      count offset []
    cases entries : readEntries bytes eocdOffset count offset [] with
    | error e =>
      rw [entries] at inside
      exact fun wrong => inside (congrArg Except.error (Except.error.inj wrong))
    | ok read =>
      refine inside_bind rfl ?_
      exact inside_guard (by decide) fun _ => inside_ok rfl

/-! ## Archives -/

def le16 (value : Nat) : List UInt8 := [UInt8.ofNat (value % 256), UInt8.ofNat (value / 256)]

def le32 (value : Nat) : List UInt8 := le16 (value % 65536) ++ le16 (value / 65536)

/-- A record of the directory. The header holds versions, flags, method, time and checksum;
the attributes hold the disk, the attributes and the offset of the local header. -/
structure DirectoryEntry where
  name : List Char
  nameBytes : List UInt8
  compressedBytes : Nat
  uncompressedBytes : Nat
  header : List UInt8
  extra : List UInt8
  comment : List UInt8
  attributes : List UInt8
  decoded : decodeFatal nameBytes = some name
  compressedFits : compressedBytes < 65536 * 65536
  uncompressedFits : uncompressedBytes < 65536 * 65536
  headerFits : header.length = 16
  attributesFit : attributes.length = 12
  nameFits : nameBytes.length < 65536
  extraFits : extra.length < 65536
  commentFits : comment.length < 65536

def DirectoryEntry.record (e : DirectoryEntry) : List UInt8 :=
  le32 0x02014b50 ++ e.header ++ le32 e.compressedBytes ++ le32 e.uncompressedBytes ++
    le16 e.nameBytes.length ++ le16 e.extra.length ++ le16 e.comment.length ++ e.attributes ++
    e.nameBytes ++ e.extra ++ e.comment

def DirectoryEntry.raw (e : DirectoryEntry) : RawZipEntry :=
  ⟨e.name, e.compressedBytes, e.uncompressedBytes⟩

def directory (entries : List DirectoryEntry) : List UInt8 := entries.flatMap DirectoryEntry.record

def endRecord (count size offset : Nat) (comment : List UInt8) : List UInt8 :=
  le32 endSignature ++ le16 0 ++ le16 0 ++ le16 count ++ le16 count ++ le32 size ++ le32 offset ++
    le16 comment.length ++ comment

/-- The members come first and are not looked at here. -/
def archive (members : List UInt8) (entries : List DirectoryEntry) (comment : List UInt8) :
    List UInt8 :=
  members ++ directory entries ++
    endRecord entries.length (directory entries).length members.length comment

/-- One disk, no ZIP64. -/
structure WellFormed (members : List UInt8) (entries : List DirectoryEntry)
    (comment : List UInt8) : Prop where
  count : entries.length < 0xffff
  size : (directory entries).length < 0xffffffff
  offset : members.length < 0xffffffff
  comment : comment.length < 65536
  distinct : (entries.map DirectoryEntry.name).Nodup

@[simp] theorem le16_length (value : Nat) : (le16 value).length = 2 := rfl

@[simp] theorem le32_length (value : Nat) : (le32 value).length = 4 := rfl

theorem drop_past {view field rest : List UInt8} {offset : Nat}
    (here : view.drop offset = field ++ rest) (width : Nat) (wide : field.length = width) :
    view.drop (offset + width) = rest := by
  rw [← List.drop_drop, here, ← wide, List.drop_left]

theorem getElem?_here {view rest : List UInt8} {byte : UInt8} {offset : Nat}
    (here : view.drop offset = byte :: rest) : view[offset]? = some byte := by
  rw [← Nat.add_zero offset, ← List.getElem?_drop, here]
  rfl

theorem getUint16_here {view rest : List UInt8} {value offset : Nat}
    (here : view.drop offset = le16 value ++ rest) (small : value < 65536) :
    getUint16 view offset = .ok value := by
  have low : view[offset]? = some (UInt8.ofNat (value % 256)) := getElem?_here here
  have high : view[offset + 1]? = some (UInt8.ofNat (value / 256)) :=
    getElem?_here (@drop_past view [UInt8.ofNat (value % 256)] _ _ here 1 rfl)
  rw [getUint16, low, high]
  simp only [UInt8.toNat_ofNat']
  congr 1
  omega

theorem getUint32_here {view rest : List UInt8} {value offset : Nat}
    (here : view.drop offset = le32 value ++ rest) (small : value < 65536 * 65536) :
    getUint32 view offset = .ok value := by
  rw [le32, List.append_assoc] at here
  refine bind_pass (getUint16_here here (Nat.mod_lt _ (by decide))) ?_
  refine bind_pass (getUint16_here (drop_past here 2 rfl) (Nat.div_lt_of_lt_mul small)) ?_
  change Except.ok _ = _
  congr 1
  omega

theorem record_length (e : DirectoryEntry) : e.record.length =
    46 + e.nameBytes.length + e.extra.length + e.comment.length := by
  simp only [DirectoryEntry.record, List.length_append, le16_length, le32_length, e.headerFits,
    e.attributesFit]

/-- What the loop reads at the start of a record. -/
structure ReadsAs (view : List UInt8) (offset : Nat) (e : DirectoryEntry) : Prop where
  signed : getUint32 view offset = .ok 0x02014b50
  compressed : getUint32 view (offset + 20) = .ok e.compressedBytes
  uncompressed : getUint32 view (offset + 24) = .ok e.uncompressedBytes
  named : getUint16 view (offset + 28) = .ok e.nameBytes.length
  extra : getUint16 view (offset + 30) = .ok e.extra.length
  commented : getUint16 view (offset + 32) = .ok e.comment.length
  name : (view.drop (offset + 46)).take e.nameBytes.length = e.nameBytes

theorem reads_record {view after : List UInt8} {offset : Nat} {e : DirectoryEntry}
    (here : view.drop offset = e.record ++ after) : ReadsAs view offset e := by
  simp only [DirectoryEntry.record, List.append_assoc] at here
  have header := drop_past here 4 rfl
  have compressed := drop_past header 16 e.headerFits
  have uncompressed := drop_past compressed 4 rfl
  have named := drop_past uncompressed 4 rfl
  have extra := drop_past named 2 rfl
  have commented := drop_past extra 2 rfl
  have attributes := drop_past commented 2 rfl
  have name := drop_past attributes 12 e.attributesFit
  exact ⟨getUint32_here here (by decide), getUint32_here compressed e.compressedFits,
    getUint32_here uncompressed e.uncompressedFits, getUint16_here named e.nameFits,
    getUint16_here extra e.extraFits, getUint16_here commented e.commentFits,
    name ▸ List.take_left⟩

/-- The loop over a directory that was written with the entries. -/
theorem readEntries_directory {view after : List UInt8} {eocdOffset : Nat}
    (entries : List DirectoryEntry) {offset : Nat} {names : List (List Char)}
    (here : view.drop offset = directory entries ++ after)
    (room : offset + (directory entries).length ≤ eocdOffset)
    (distinct : (entries.map DirectoryEntry.name).Nodup)
    (apart : ∀ e ∈ entries, e.name ∉ names) :
    readEntries view eocdOffset entries.length offset names =
      .ok (entries.map DirectoryEntry.raw, offset + (directory entries).length) := by
  induction entries generalizing offset names with
  | nil => rfl
  | cons e rest ih =>
    have whole : directory (e :: rest) = e.record ++ directory rest := List.flatMap_cons
    have length : (directory (e :: rest)).length = 46 + e.nameBytes.length + e.extra.length +
        e.comment.length + (directory rest).length := by
      rw [whole, List.length_append, record_length]
    rw [whole, List.append_assoc] at here
    obtain ⟨fresh, later⟩ := List.nodup_cons.1 (List.map_cons ▸ distinct)
    have reads := reads_record here
    have still : ∀ other ∈ rest, other.name ∉ e.name :: names := by
      intro other member seen
      rcases List.mem_cons.1 seen with same | old
      · exact fresh (same ▸ List.mem_map_of_mem member)
      · exact apart other (List.mem_cons_of_mem _ member) old
    have following := ih (drop_past here _ (record_length e)) (by omega) later still
    rw [List.length_cons, readEntries]
    refine guard_pass (by omega) (bind_pass reads.signed (guard_pass (by decide) ?_))
    refine bind_pass reads.compressed (bind_pass reads.uncompressed (bind_pass reads.named
      (bind_pass reads.extra (bind_pass reads.commented (guard_pass (by omega) ?_)))))
    rw [reads.name, e.decoded]
    refine guard_pass (apart e List.mem_cons_self) (bind_pass following ?_)
    rw [length]
    change Except.ok _ = Except.ok _
    congr 2
    omega

/-- No later position, up to the last at which an end record fits, reads as a signature. -/
def NoLaterSignature (bytes : List UInt8) (eocdOffset : Nat) : Prop :=
  ∀ j, eocdOffset < j → j + 22 ≤ bytes.length → getUint32 bytes j ≠ .ok endSignature

/-- The scan finds the last signature of the bytes when a longest comment reaches the end. -/
theorem findEocd_signature {bytes : List UInt8} {eocdOffset : Nat}
    (signed : getUint32 bytes eocdOffset = .ok endSignature)
    (fits : eocdOffset + 22 ≤ bytes.length) (near : bytes.length ≤ eocdOffset + 65557)
    (last : NoLaterSignature bytes eocdOffset) :
    findEocd bytes (firstCandidate bytes) (candidates bytes) = .ok (some eocdOffset) := by
  refine findEocd_last _ (candidates_fit _ ?_) ?_ ?_ signed ?_
  · unfold candidates firstCandidate
    omega
  · unfold firstCandidate
    omega
  · unfold candidates firstCandidate
    omega
  · intro j after below
    refine last j after ?_
    unfold candidates firstCandidate at below
    omega

/-- An archive without a comment ends with its end record. -/
theorem noLaterSignature_plain (members : List UInt8) (entries : List DirectoryEntry) :
    NoLaterSignature (archive members entries [])
      (members.length + (directory entries).length) := by
  intro j after inside
  simp only [archive, endRecord, List.length_append, le32_length, le16_length, List.length_nil]
    at inside
  omega

theorem inspect_archive {members comment : List UInt8} {entries : List DirectoryEntry}
    (formed : WellFormed members entries comment)
    (last : NoLaterSignature (archive members entries comment)
      (members.length + (directory entries).length)) :
    inspectZipCentralDirectory (archive members entries comment) =
      .ok (entries.map DirectoryEntry.raw) := by
  obtain ⟨count, size, offset, commentFits, distinct⟩ := formed
  have start : (archive members entries comment).drop members.length = directory entries ++
      endRecord entries.length (directory entries).length members.length comment := by
    rw [archive, List.append_assoc, List.drop_left]
  have signature := drop_past start _ rfl
  have length : (archive members entries comment).length =
      members.length + (directory entries).length + 22 + comment.length := by
    simp only [archive, endRecord, List.length_append, le32_length, le16_length]
    omega
  have entriesRead := readEntries_directory entries start (Nat.le_refl _) distinct
    fun _ _ => List.not_mem_nil
  generalize eocd : members.length + (directory entries).length = eocdOffset
    at signature last length entriesRead
  simp only [endRecord, List.append_assoc] at signature
  have disk := drop_past signature 4 rfl
  have centralDisk := drop_past disk 2 rfl
  have onDisk := drop_past centralDisk 2 rfl
  have counted := drop_past onDisk 2 rfl
  have sized := drop_past counted 2 rfl
  have placed := drop_past sized 4 rfl
  have commented := drop_past placed 4 rfl
  have found := findEocd_signature (getUint32_here signature (by decide)) (by omega) (by omega) last
  unfold inspectZipCentralDirectory
  refine bind_pass found (bind_pass (getUint16_here disk (by decide))
    (bind_pass (getUint16_here centralDisk (by decide)) (bind_pass (getUint16_here onDisk
    (by omega)) (bind_pass (getUint16_here counted (by omega)) (bind_pass (getUint32_here sized
    (by omega)) (bind_pass (getUint32_here placed (by omega)) (bind_pass (getUint16_here commented
    commentFits) ?_)))))))
  refine guard_pass (by omega) (guard_pass (by simp) (guard_pass (by omega) ?_))
  refine guard_pass (by omega) (bind_pass entriesRead (guard_pass (by simp [eocd]) rfl))

/-- What the parser does with any bytes, and with an archive that holds no later signature. -/
theorem inspect_inventory (bytes : List UInt8) :
    StaysInside (inspectZipCentralDirectory bytes) ∧
      (∀ eocdOffset, eocdOffset ≤ bytes.length → ∀ count offset names,
        readEntriesChecked bytes eocdOffset count offset names =
          readEntries bytes eocdOffset count offset names) ∧
      (∀ entries, inspectZipCentralDirectory bytes = .ok entries → Inventory bytes entries) ∧
      ∀ members entries comment, WellFormed members entries comment →
        bytes = archive members entries comment →
        NoLaterSignature bytes (members.length + (directory entries).length) →
        inspectZipCentralDirectory bytes = .ok (entries.map DirectoryEntry.raw) := by
  refine ⟨inspect_inside bytes, ?_, fun _ => inventory_of_inspected, ?_⟩
  · intro eocdOffset fits count offset names
    exact (readEntries_inside fits count offset names).1
  · intro members entries comment formed written last
    rw [written] at last ⊢
    exact inspect_archive formed last

theorem empty_wellFormed (comment : List UInt8) (fits : comment.length < 65536) :
    WellFormed [] [] comment :=
  ⟨by decide, by decide, by decide, fits, List.nodup_nil⟩

/-! An archive with a deflated and a stored member, a name beyond ASCII and a comment. -/

def sumsEntry : DirectoryEntry where
  name := "package/sums.txt".toList
  nameBytes := "package/sums.txt".toUTF8.data.toList
  compressedBytes := 6
  uncompressedBytes := 40
  header := [20, 3, 20, 0, 0, 0, 8, 0, 0, 96, 33, 92, 142, 187, 63, 150]
  extra := []
  comment := []
  attributes := [0, 0, 0, 0, 0, 0, 164, 1, 0, 0, 0, 0]
  decoded := by decide
  compressedFits := by decide
  uncompressedFits := by decide
  headerFits := rfl
  attributesFit := rfl
  nameFits := by decide
  extraFits := by decide
  commentFits := by decide

def textEntry : DirectoryEntry where
  name := "package/météorite.txt".toList
  nameBytes := "package/météorite.txt".toUTF8.data.toList
  compressedBytes := 5
  uncompressedBytes := 5
  header := [20, 3, 20, 0, 0, 8, 0, 0, 0, 96, 33, 92, 28, 169, 22, 203]
  extra := []
  comment := []
  attributes := [0, 0, 0, 0, 0, 0, 164, 1, 52, 0, 0, 0]
  decoded := by decide
  compressedFits := by decide
  uncompressedFits := by decide
  headerFits := rfl
  attributesFit := rfl
  nameFits := by decide
  extraFits := by decide
  commentFits := by decide

def writtenEntries : List DirectoryEntry := [sumsEntry, textEntry]

/-- The local headers with the names and the contents. -/
def writtenMembers : List UInt8 :=
  [80, 75, 3, 4, 20, 0, 0, 0, 8, 0, 0, 96, 33, 92, 142, 187, 63, 150, 6, 0, 0, 0, 40, 0, 0, 0,
    16, 0, 0, 0] ++ sumsEntry.nameBytes ++ [51, 48, 32, 14, 0, 0] ++
  [80, 75, 3, 4, 20, 0, 0, 8, 0, 0, 0, 96, 33, 92, 28, 169, 22, 203, 5, 0, 0, 0, 5, 0, 0, 0,
    23, 0, 0, 0] ++ textEntry.nameBytes ++ [105, 114, 111, 110, 10]

def writtenComment : List UInt8 := "two files".toUTF8.data.toList

def writtenArchive : List UInt8 := archive writtenMembers writtenEntries writtenComment

theorem written_wellFormed : WellFormed writtenMembers writtenEntries writtenComment :=
  ⟨by decide, by decide +kernel, by decide, by decide, by decide⟩

theorem written_last : NoLaterSignature writtenArchive
    (writtenMembers.length + (directory writtenEntries).length) := by
  have start : writtenMembers.length + (directory writtenEntries).length = 241 := by
    decide +kernel
  have length : writtenArchive.length = 272 := by decide +kernel
  have comment : ∀ j < 10, 241 < j + 241 → getUint32 writtenArchive (j + 241) ≠ .ok endSignature := by
    decide +kernel
  intro j after inside
  rw [start] at after
  rw [length] at inside
  have place : j = (j - 241) + 241 := by omega
  rw [place]
  exact comment (j - 241) (by omega) (by omega)

theorem inspect_inventory_written :
    inspectZipCentralDirectory writtenArchive =
        .ok [⟨"package/sums.txt".toList, 6, 40⟩, ⟨"package/météorite.txt".toList, 5, 5⟩] ∧
      Inventory writtenArchive (writtenEntries.map DirectoryEntry.raw) := by
  obtain ⟨-, -, found, written⟩ := inspect_inventory writtenArchive
  have read := written writtenMembers writtenEntries writtenComment written_wellFormed rfl
    written_last
  exact ⟨read, found _ read⟩

/-- The length of this comment is written as the first half of a signature. -/
def continuedComment : List UInt8 := [5, 6] ++ List.replicate 19278 1

/-- The bytes of a signature, one after the other. -/
def signatureBytes : List UInt8 := [0x50, 0x4b, 0x05, 0x06]

theorem continuedComment_length : continuedComment.length = 0x4b50 := by
  rw [continuedComment, List.length_append, List.length_replicate]
  rfl

theorem comment_unsigned : ¬ signatureBytes <:+: continuedComment := by
  intro inside
  have member : 0x50 ∈ continuedComment := inside.subset List.mem_cons_self
  rcases List.mem_append.1 member with first | one
  · exact absurd first (by decide)
  · exact absurd (List.eq_of_mem_replicate one) (by decide)

theorem getUint16_ok_bytes {view : List UInt8} {offset value : Nat}
    (read : getUint16 view offset = .ok value) :
    ∃ low high : UInt8, view[offset]? = some low ∧ value = low.toNat + 256 * high.toNat := by
  unfold getUint16 at read
  split at read
  next low high lowRead highRead => exact ⟨low, high, lowRead, (Except.ok.inj read).symm⟩
  · cases read

theorem signed_byte {view : List UInt8} {offset : Nat}
    (signed : getUint32 view offset = .ok endSignature) : view[offset]? = some 0x50 := by
  obtain ⟨lowHalf, lowRead, signed⟩ := except_bind_ok signed
  obtain ⟨highHalf, highRead, signed⟩ := except_bind_ok signed
  have value : lowHalf + 65536 * highHalf = 0x06054b50 := Except.ok.inj signed
  obtain ⟨low, high, here, half⟩ := getUint16_ok_bytes lowRead
  have lowSmall : low.toNat < 256 := low.toNat_lt
  have highSmall : high.toNat < 256 := high.toNat_lt
  have byte : low.toNat = (0x50 : UInt8).toNat := by
    change low.toNat = 80
    omega
  rw [here, UInt8.toNat_inj.1 byte]

/-- The length field of the comment and its first bytes are a second signature. -/
theorem continued_written : archive [] [] continuedComment =
    (le32 endSignature ++ (le16 0 ++ (le16 0 ++ (le16 0 ++ (le16 0 ++ (le32 0 ++ le32 0)))))) ++
      (le32 endSignature ++ List.replicate 19278 1) := by
  change le32 endSignature ++ le16 0 ++ le16 0 ++ le16 0 ++ le16 0 ++ le32 0 ++ le32 0 ++
    le16 continuedComment.length ++ continuedComment = _
  rw [continuedComment_length]
  simp only [List.append_assoc]
  rfl

theorem continued_signature : (archive [] [] continuedComment).drop 20 =
    le32 endSignature ++ List.replicate 19278 1 := by
  rw [continued_written]
  rfl

theorem continued_length : (archive [] [] continuedComment).length = 19302 := by
  simp only [archive, endRecord, List.length_append, le32_length, le16_length, List.length_nil,
    continuedComment_length, directory, List.flatMap_nil]

theorem continued_ones {offset : Nat} (after : 24 ≤ offset) (before : offset < 19302) :
    (archive [] [] continuedComment)[offset]? = some 1 := by
  have rest := drop_past continued_signature 4 rfl
  have place : offset = 24 + (offset - 24) := by omega
  rw [place, ← List.getElem?_drop, rest, List.getElem?_replicate, if_pos (by omega)]

theorem continued_last : NoLaterSignature (archive [] [] continuedComment) 20 := by
  have signature := continued_signature
  have length := continued_length
  have ones := @continued_ones
  generalize archive [] [] continuedComment = bytes at *
  intro j after below signed
  have byte := signed_byte signed
  by_cases inside : j < 24
  · have place : j = 20 + (j - 20) := by omega
    rw [place, ← List.getElem?_drop, signature] at byte
    have cases : j - 20 = 1 ∨ j - 20 = 2 ∨ j - 20 = 3 := by omega
    rcases cases with one | two | three
    · rw [one] at byte
      exact absurd (Option.some.inj byte) (by decide)
    · rw [two] at byte
      exact absurd (Option.some.inj byte) (by decide)
    · rw [three] at byte
      exact absurd (Option.some.inj byte) (by decide)
  · rw [ones (by omega) (by omega)] at byte
    exact absurd (Option.some.inj byte) (by decide)

/-- The scan takes the second signature for the end record, and two bytes of the comment for the
number of the disk. -/
theorem misread {bytes : List UInt8}
    (signature : bytes.drop 20 = le32 endSignature ++ List.replicate 19278 1)
    (length : bytes.length = 19302)
    (ones : ∀ {offset : Nat}, 24 ≤ offset → offset < 19302 → bytes[offset]? = some 1)
    (last : NoLaterSignature bytes 20) (entries : List RawZipEntry) :
    inspectZipCentralDirectory bytes ≠ .ok entries := by
  intro wrong
  have found := findEocd_signature (getUint32_here signature (by decide)) (by omega) (by omega) last
  have half : getUint16 bytes 24 = .ok 257 := by
    rw [getUint16, ones (by decide) (by decide), ones (by decide) (by decide)]
    rfl
  unfold inspectZipCentralDirectory at wrong
  obtain ⟨eocd, scanned, wrong⟩ := except_bind_ok wrong
  have place : some 20 = eocd := Except.ok.inj (found.symm.trans scanned)
  subst place
  obtain ⟨disk, read, wrong⟩ := except_bind_ok wrong
  have number : 257 = disk := Except.ok.inj (half.symm.trans read)
  obtain ⟨_, _, wrong⟩ := except_bind_ok wrong
  obtain ⟨_, _, wrong⟩ := except_bind_ok wrong
  obtain ⟨_, _, wrong⟩ := except_bind_ok wrong
  obtain ⟨_, _, wrong⟩ := except_bind_ok wrong
  obtain ⟨_, _, wrong⟩ := except_bind_ok wrong
  obtain ⟨_, _, wrong⟩ := except_bind_ok wrong
  obtain ⟨_, wrong⟩ := guard_ok wrong
  obtain ⟨single, wrong⟩ := guard_ok wrong
  exact single (Or.inl (by omega))

/-- The comment does not hold a signature, but its length field and its first bytes do. -/
theorem inspect_continuedComment : ¬ ∀ members entries comment,
    WellFormed members entries comment → ¬ signatureBytes <:+: comment →
      inspectZipCentralDirectory (archive members entries comment) =
        .ok (entries.map DirectoryEntry.raw) := by
  intro always
  have formed : WellFormed [] [] continuedComment :=
    empty_wellFormed _ (by rw [continuedComment_length]; decide)
  exact misread continued_signature continued_length continued_ones continued_last _
    (always [] [] continuedComment formed comment_unsigned)

end ZipDirectory
