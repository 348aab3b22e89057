import SpacerocksCoa.FallibleSteps
import SpacerocksCoa.VerifiedOrders

/-!
# Receipts and the check of the bundler

The service writes the receipt of a stored proof in two places, for the delivery and for the
download, and the bundler reads it back and compares it with the proof field by field. An
aware instant is a civil second, a microsecond and an offset; its text has the same parts, and
`isoformat` and `fromisoformat` convert the two. A receipt is the list of its fields.

The characters of a time, the JSON syntax and the sizes of the receipt and of the bundle are
left out.
-/
namespace Receipts
open OrderStates HexText ProofRecords
open FulfillmentAdapters (Platform validateExactProof)
open FallibleSteps
open VerifiedOrders (samplePlatform sampleDigest sampleSha256 upgradedBytes)

/-! ## Civil time -/

/-- The seconds from year 1 to the end of year 9999. -/
def maxCivil : Int := 315537897600

/-- An aware `datetime`; the offset is in microseconds. -/
structure DateTime where
  civilSecond : Int
  microsecond : Int
  offset : Int
  civilRange : 0 ≤ civilSecond ∧ civilSecond < maxCivil
  microRange : 0 ≤ microsecond ∧ microsecond < 1000000
  offsetRange : -86400000000 < offset ∧ offset < 86400000000
  deriving DecidableEq

/-- The instant, in microseconds from the start of year 1. -/
def DateTime.utc (d : DateTime) : Int := 1000000 * d.civilSecond + d.microsecond - d.offset

def DateTime.InRange (d : DateTime) : Prop := 0 ≤ d.utc ∧ d.utc < 1000000 * maxCivil

instance (d : DateTime) : Decidable d.InRange :=
  inferInstanceAs (Decidable (0 ≤ d.utc ∧ d.utc < 1000000 * maxCivil))

/-- `astimezone(UTC)`, which overflows outside the years 1 to 9999. -/
def DateTime.astimezoneUtc (d : DateTime) : Except String Int :=
  if d.InRange then .ok d.utc else .error "date value out of range"

inductive Zone where
  | z
  | offset (micros : Int)
  deriving DecidableEq

/-- The parts of an ISO text. -/
structure IsoText where
  civilSecond : Int
  fraction : Option Int
  zone : Zone
  deriving DecidableEq

/-- `isoformat()`: the fraction is written when it is not zero. -/
def isoformat (d : DateTime) : IsoText :=
  ⟨d.civilSecond, if d.microsecond = 0 then none else some d.microsecond, .offset d.offset⟩

/-- `isoformat(timespec="seconds")` -/
def isoformatSeconds (d : DateTime) : IsoText := ⟨d.civilSecond, none, .offset d.offset⟩

/-- `replace("+00:00", "Z")` -/
def offsetToZ (text : IsoText) : IsoText :=
  if text.zone = .offset 0 then { text with zone := .z } else text

/-- `replace("Z", "+00:00")` -/
def zToOffset (text : IsoText) : IsoText :=
  if text.zone = .z then { text with zone := .offset 0 } else text

def Zone.micros : Zone → Int
  | .z => 0
  | .offset micros => micros

def fromisoformat (text : IsoText) : Option DateTime :=
  if civil : 0 ≤ text.civilSecond ∧ text.civilSecond < maxCivil then
    if micro : 0 ≤ text.fraction.getD 0 ∧ text.fraction.getD 0 < 1000000 then
      if offset : -86400000000 < text.zone.micros ∧ text.zone.micros < 86400000000 then
        some ⟨text.civilSecond, text.fraction.getD 0, text.zone.micros, civil, micro, offset⟩
      else none
    else none
  else none

def rfc3339 (d : DateTime) : IsoText := offsetToZ (isoformatSeconds d)

/-! ## Receipts -/

/-- A text that is no time, a number, or a time. -/
inductive Leaf where
  | text (value : String)
  | number (value : Int)
  | time (value : IsoText)
  deriving DecidableEq

inductive Value where
  | leaf (value : Leaf)
  | object (fields : List (String × Leaf))
  deriving DecidableEq

abbrev Receipt := List (String × Value)

def hexText (bytes : Bytes) : String := String.ofList (toHex bytes)

def bitcoinFields (render : DateTime → IsoText) (e : Evidence DateTime) : List (String × Leaf) :=
  [("block_height", .number e.blockHeight), ("block_hash", .text e.blockHash),
   ("block_time", .time (render e.blockTime)),
   ("confirmation_policy", .text e.confirmationPolicy)]

def confirmationFields (render : DateTime → IsoText) : Option (Evidence DateTime) → Receipt
  | none => []
  | some e =>
    [("bitcoin", .object (bitcoinFields render e)), ("verification_method", .leaf (.text e.method)),
     ("verified_at", .leaf (.time (render e.verifiedAt)))]

/-- The fields that both encoders write; they differ in how they render an instant. -/
def receiptFields (render : DateTime → IsoText) (orderReference certificateReference : String)
    (digest : Bytes) (proof : StoredProof DateTime) (serviceVersion : String) : Receipt :=
  [("schema_version", Value.leaf (.text "1.0.0")),
   ("order_reference", .leaf (.text orderReference)),
   ("certificate_reference", .leaf (.text certificateReference)),
   ("manifest_sha256", .leaf (.text (hexText digest))),
   ("proof_sha256", .leaf (.text (hexText proof.proofSha256.value))),
   ("proof_bytes", .leaf (.number proof.proofByteLength)),
   ("proof_state", .leaf (.text proof.proofState.value)),
   ("calendar_submitted_at", .leaf (.time (render proof.calendarSubmittedAt))),
   ("service_version", .leaf (.text serviceVersion))] ++
    confirmationFields render proof.verification

def versionFits (serviceVersion : String) : Prop :=
  1 ≤ serviceVersion.toList.length ∧ serviceVersion.toList.length ≤ 64

instance (serviceVersion : String) : Decidable (versionFits serviceVersion) :=
  instDecidableAnd

/-- `build_receipt` -/
def buildReceipt (proof : StoredProof DateTime) (certificateReference : CertificateReference)
    (serviceVersion : String) : Except String Receipt :=
  if ¬ versionFits serviceVersion then .error "invalid_service_version"
  else .ok (receiptFields rfc3339 proof.orderReference.value certificateReference.value
    proof.targetDigest.value proof serviceVersion)

/-- `_receipt` of the download route. -/
def routeReceipt (orderReference certificate : String) (digest : Bytes)
    (proof : StoredProof DateTime) (serviceVersion : String) : Except String Receipt :=
  if proof.targetDigest.value ≠ digest then .error "proof unavailable"
  else .ok (receiptFields isoformat orderReference certificate digest proof serviceVersion)

/-! ## The bundler -/

structure ProofBundleContext where
  certificateReference : CertificateReference
  serviceVersion : String

def receiptKeys : List String :=
  ["schema_version", "order_reference", "certificate_reference", "manifest_sha256",
   "proof_sha256", "proof_bytes", "proof_state", "calendar_submitted_at", "service_version",
   "bitcoin", "verification_method", "verified_at"]

def requiredKeys : List String := receiptKeys.take 9

def bitcoinKeys : List String := ["block_height", "block_hash", "block_time", "confirmation_policy"]

def confirmationKeys : List String := ["bitcoin", "verification_method", "verified_at"]

def keysOf {α : Type} (fields : List (String × α)) : List String := fields.map Prod.fst

def within (keys allowed : List String) : Bool := keys.all allowed.contains

def leafText : Option Leaf → Option String
  | some (.text value) => some value
  | _ => none

def leafNumber : Option Leaf → Option Int
  | some (.number value) => some value
  | _ => none

def leafOf (receipt : Receipt) (key : String) : Option Leaf :=
  match receipt.lookup key with
  | some (.leaf value) => some value
  | _ => none

/-- `_date_time`: nothing for what is no time. -/
def dateTime (value : Option Leaf) : Except String (Option Int) :=
  match value with
  | some (.time text) =>
    match fromisoformat (zToOffset text) with
    | none => .ok none
    | some parsed => parsed.astimezoneUtc.map some
  | _ => .ok none

/-- `_SHA256_HEX` -/
def sha256Hex (text : String) : Bool :=
  decide (text.toList.length = 64) && text.toList.all lowerHex

def textWithin (maximum : Nat) (text : Option String) : Bool :=
  text.any fun t => 1 ≤ t.toList.length && t.toList.length ≤ maximum

def leafMentionsAt : Leaf → Bool
  | .text value => value.toList.contains '@'
  | _ => false

def mentionsAt (receipt : Receipt) : Bool :=
  receipt.any fun field =>
    match field.2 with
    | .leaf value => leafMentionsAt value
    | .object fields => fields.any fun inner => leafMentionsAt inner.2

def schemaValuesInvalid (typed : Receipt) : Bool :=
  !(leafText (leafOf typed "schema_version") == some "1.0.0" &&
    (leafText (leafOf typed "order_reference")).any orderReferencePattern &&
    (leafText (leafOf typed "certificate_reference")).any certificatePattern &&
    textWithin 64 (leafText (leafOf typed "service_version")))

def bindingMismatch (typed : Receipt) (proof : StoredProof DateTime) : Bool :=
  !(leafText (leafOf typed "order_reference") == some proof.orderReference.value &&
    leafText (leafOf typed "manifest_sha256") == some (hexText proof.targetDigest.value) &&
    leafText (leafOf typed "proof_sha256") == some (hexText proof.proofSha256.value) &&
    leafNumber (leafOf typed "proof_bytes") == some (proof.proofBytes.length : Int))

def bitcoinInvalid (bitcoin : List (String × Leaf)) (method : Option String) : Bool :=
  !((leafNumber (bitcoin.lookup "block_height")).any (fun height => 0 ≤ height) &&
    (leafText (bitcoin.lookup "block_hash")).any sha256Hex &&
    textWithin 128 (leafText (bitcoin.lookup "confirmation_policy")) && textWithin 128 method)

def metadataMismatch (bitcoin : List (String × Leaf)) (method : Option String)
    (e : Evidence DateTime) : Bool :=
  !(leafNumber (bitcoin.lookup "block_height") == some (e.blockHeight : Int) &&
    leafText (bitcoin.lookup "block_hash") == some e.blockHash &&
    leafText (bitcoin.lookup "confirmation_policy") == some e.confirmationPolicy &&
    method == some e.method)

/-- The confirmation part of a receipt that says it is verified. -/
def validateConfirmation (typed : Receipt) (proof : StoredProof DateTime) : Except String Unit :=
  if within confirmationKeys (keysOf typed) = false then
    .error "verified_receipt_metadata_missing"
  else
    match typed.lookup "bitcoin" with
    | some (.object bitcoin) => do
      let method := leafText (leafOf typed "verification_method")
      if (within (keysOf bitcoin) bitcoinKeys && within bitcoinKeys (keysOf bitcoin)) = false then
        throw "bitcoin_receipt_metadata_invalid"
      if bitcoinInvalid bitcoin method = true then throw "bitcoin_receipt_metadata_invalid"
      let blockTime ← dateTime (bitcoin.lookup "block_time")
      let verifiedAt ← dateTime (leafOf typed "verified_at")
      if blockTime = none ∨ verifiedAt = none then throw "bitcoin_receipt_metadata_invalid"
      match proof.verification with
      | none => throw "receipt_verification_metadata_mismatch"
      | some e =>
        if metadataMismatch bitcoin method e = true then
          throw "receipt_verification_metadata_mismatch"
        let verificationBlockTime ← e.blockTime.astimezoneUtc
        if blockTime ≠ some verificationBlockTime then
          throw "receipt_verification_metadata_mismatch"
        let verificationVerifiedAt ← e.verifiedAt.astimezoneUtc
        if verifiedAt ≠ some verificationVerifiedAt then
          throw "receipt_verification_metadata_mismatch"
    | _ => .error "bitcoin_receipt_metadata_invalid"

/-- The branches on the state, which the receipt and the proof have in common by now. -/
def validateState (typed : Receipt) (proof : StoredProof DateTime) : Except String Unit :=
  match proof.proofState with
  | .calendarPending =>
    if (keysOf typed).any confirmationKeys.contains = true then
      .error "pending_receipt_cannot_claim_confirmation"
    else if proof.verification ≠ none then .error "pending_proof_cannot_carry_verification"
    else .ok ()
  | .bitcoinVerified => validateConfirmation typed proof

/-- `_validate_receipt` -/
def validateReceipt (typed : Receipt) (proof : StoredProof DateTime)
    (context : ProofBundleContext) : Except String Unit := do
  if within (keysOf typed) receiptKeys = false then throw "receipt_schema_fields_invalid"
  if within requiredKeys (keysOf typed) = false then throw "receipt_schema_fields_missing"
  if schemaValuesInvalid typed = true then throw "receipt_schema_values_invalid"
  let receiptCalendarTime ← dateTime (leafOf typed "calendar_submitted_at")
  if receiptCalendarTime = none then throw "receipt_schema_values_invalid"
  if leafText (leafOf typed "certificate_reference") ≠
      some context.certificateReference.value then
    throw "receipt_certificate_reference_mismatch"
  if leafText (leafOf typed "service_version") ≠ some context.serviceVersion then
    throw "receipt_service_version_mismatch"
  if bindingMismatch typed proof = true then throw "receipt_proof_binding_mismatch"
  if ((leafText (leafOf typed "manifest_sha256")).any sha256Hex &&
      (leafText (leafOf typed "proof_sha256")).any sha256Hex) = false then
    throw "receipt_digest_invalid"
  if leafText (leafOf typed "proof_state") ≠ some proof.proofState.value then
    throw "receipt_proof_state_mismatch"
  let calendarSubmittedAt ← proof.calendarSubmittedAt.astimezoneUtc
  if receiptCalendarTime ≠ some calendarSubmittedAt then throw "receipt_calendar_time_mismatch"
  validateState typed proof
  if mentionsAt typed = true then throw "receipt_private_data_forbidden"

/-- `DeterministicProofBundler.build`, up to the archive that it writes. -/
def build (p : Platform) (proof : StoredProof DateTime) (receipt : Receipt)
    (context : ProofBundleContext) : Except String Unit :=
  if validateExactProof p proof.targetDigest proof.proofBytes (some proof.proofSha256) = false then
    .error "proof_invalid"
  else validateReceipt receipt proof context

/-! ## Times -/

theorem astimezone_ok {d : DateTime} {instant : Int} (ok : d.astimezoneUtc = .ok instant) :
    d.InRange ∧ instant = d.utc := by
  unfold DateTime.astimezoneUtc at ok
  split at ok
  · next inRange =>
    cases ok
    exact ⟨inRange, rfl⟩
  · cases ok

def DateTime.truncated (d : DateTime) : DateTime :=
  ⟨d.civilSecond, 0, d.offset, d.civilRange, by decide, d.offsetRange⟩

theorem fromisoformat_parts (d : DateTime) (text : IsoText)
    (civil : text.civilSecond = d.civilSecond) (fraction : text.fraction.getD 0 = d.microsecond)
    (zone : text.zone.micros = d.offset) : fromisoformat text = some d := by
  unfold fromisoformat
  simp only [civil, fraction, zone, d.civilRange, d.microRange, d.offsetRange, and_self, dite_true]

theorem isoformat_read (d : DateTime) : fromisoformat (zToOffset (isoformat d)) = some d := by
  have same : zToOffset (isoformat d) = isoformat d := if_neg Zone.noConfusion
  rw [same]
  refine fromisoformat_parts d _ rfl ?_ rfl
  show (if d.microsecond = 0 then none else some d.microsecond).getD 0 = d.microsecond
  split
  · next zero => exact zero.symm
  · rfl

theorem rfc3339_read (d : DateTime) : fromisoformat (zToOffset (rfc3339 d)) = some d.truncated := by
  have same : zToOffset (rfc3339 d) = isoformatSeconds d := by
    unfold rfc3339 offsetToZ
    by_cases zero : (isoformatSeconds d).zone = .offset 0
    · rw [if_pos zero, zToOffset, if_pos rfl]
      show (⟨_, _, Zone.offset 0⟩ : IsoText) = _
      rw [← zero]
    · rw [if_neg zero]
      exact if_neg Zone.noConfusion
  rw [same]
  exact fromisoformat_parts d.truncated _ rfl rfl rfl

/-- A rendered instant is read back as the same instant. -/
def Kept (render : DateTime → IsoText) (d : DateTime) : Prop :=
  dateTime (some (.time (render d))) = .ok (some d.utc) ∧ d.InRange

theorem dateTime_read {text : IsoText} {d : DateTime}
    (read : fromisoformat (zToOffset text) = some d) :
    dateTime (some (.time text)) = d.astimezoneUtc.map some := by
  simp only [dateTime, read]

theorem isoformat_kept {d : DateTime} : Kept isoformat d ↔ d.InRange := by
  constructor
  · exact fun kept => kept.2
  · intro inRange
    refine ⟨?_, inRange⟩
    rw [dateTime_read (isoformat_read d), DateTime.astimezoneUtc, if_pos inRange]
    rfl

theorem truncated_utc (d : DateTime) : d.truncated.utc = d.utc - d.microsecond := by
  have start : d.truncated.utc = 1000000 * d.civilSecond + 0 - d.offset := rfl
  rw [start, DateTime.utc]
  omega

/-- Rendering to seconds keeps an instant exactly when it has no microseconds. -/
theorem rfc3339_kept {d : DateTime} : Kept rfc3339 d ↔ d.InRange ∧ d.microsecond = 0 := by
  unfold Kept
  rw [dateTime_read (rfc3339_read d)]
  have early := truncated_utc d
  constructor
  · rintro ⟨read, inRange⟩
    refine ⟨inRange, ?_⟩
    cases converted : d.truncated.astimezoneUtc with
    | error failure =>
      rw [converted] at read
      cases read
    | ok instant =>
      rw [converted] at read
      have same : instant = d.utc := Option.some.inj (Except.ok.inj read)
      have other := (astimezone_ok converted).2
      omega
  · rintro ⟨inRange, zero⟩
    have same : d.truncated.utc = d.utc := by omega
    have kept : d.truncated.InRange := by
      unfold DateTime.InRange
      rw [same]
      exact inRange
    refine ⟨?_, inRange⟩
    rw [DateTime.astimezoneUtc, if_pos kept, same]
    rfl

/-! ## Texts without an at sign -/

theorem orderReference_plain (reference : OrderReference) : '@' ∉ reference.value.toList := by
  intro member
  have valid := reference.valid
  unfold orderReferencePattern at valid
  split at valid
  · next rest shape =>
    rw [shape] at member
    rw [Bool.and_eq_true, List.all_eq_true] at valid
    simp only [List.mem_cons] at member
    rcases member with first | second | third | later
    · exact absurd first (by decide)
    · exact absurd second (by decide)
    · exact absurd third (by decide)
    · exact absurd (valid.2 '@' later) (by decide)
  · cases valid

theorem certificate_plain (reference : CertificateReference) : '@' ∉ reference.value.toList := by
  intro member
  have valid := reference.valid
  unfold certificatePattern at valid
  split at valid
  · cases valid
  · next c rest shape =>
    rw [shape] at member
    rw [Bool.and_eq_true, Bool.and_eq_true, List.all_eq_true] at valid
    rcases List.mem_cons.1 member with rfl | later
    · exact absurd valid.1.1 (by decide)
    · exact absurd (valid.2 '@' later) (by decide)

theorem lowerHex_plain {text : List Char} (hex : text.all lowerHex = true) : '@' ∉ text := by
  intro member
  exact absurd (List.all_eq_true.1 hex '@' member) (by decide)

theorem hexText_toList (bytes : Bytes) : (hexText bytes).toList = toHex bytes :=
  String.toList_ofList

theorem hexText_sha256 {bytes : Bytes} (length : bytes.length = 32) :
    sha256Hex (hexText bytes) = true := by
  rw [sha256Hex, hexText_toList, toHex_length, length, toHex_lowerHex]
  rfl

/-! ## What the bundler accepts -/

/-- What a receipt asks of the metadata of a block, beyond its times. -/
structure PlainEvidence (e : Evidence DateTime) : Prop where
  blockHash : sha256Hex e.blockHash = true
  method : '@' ∉ e.method.toList
  confirmationPolicy : '@' ∉ e.confirmationPolicy.toList

section Fields
variable (render : DateTime → IsoText) (proof : StoredProof DateTime)
  (context : ProofBundleContext)

/-- The receipt of a proof for its own context. -/
def ownReceipt : Receipt :=
  receiptFields render proof.orderReference.value context.certificateReference.value
    proof.targetDigest.value proof context.serviceVersion

theorem own_keys : keysOf (ownReceipt render proof context) =
    requiredKeys ++ keysOf (confirmationFields render proof.verification) := rfl

theorem own_within : within (keysOf (ownReceipt render proof context)) receiptKeys = true ∧
    within requiredKeys (keysOf (ownReceipt render proof context)) = true := by
  rw [own_keys]
  cases proof.verification with
  | none =>
    show within (requiredKeys ++ []) receiptKeys = true ∧
      within requiredKeys (requiredKeys ++ []) = true
    decide
  | some e =>
    show within (requiredKeys ++ confirmationKeys) receiptKeys = true ∧
      within requiredKeys (requiredKeys ++ confirmationKeys) = true
    decide

theorem own_schema (fits : versionFits context.serviceVersion) :
    schemaValuesInvalid (ownReceipt render proof context) = false := by
  have version : textWithin 64 (some context.serviceVersion) = true := by
    simpa [textWithin, versionFits] using fits
  have values : schemaValuesInvalid (ownReceipt render proof context) =
      !(some "1.0.0" == some "1.0.0" &&
        orderReferencePattern proof.orderReference.value &&
        certificatePattern context.certificateReference.value &&
        textWithin 64 (some context.serviceVersion)) := rfl
  rw [values, proof.orderReference.valid, context.certificateReference.valid, version]
  rfl

theorem own_binding : bindingMismatch (ownReceipt render proof context) proof = false := by
  have values : bindingMismatch (ownReceipt render proof context) proof =
      !(some proof.orderReference.value == some proof.orderReference.value &&
        some (hexText proof.targetDigest.value) == some (hexText proof.targetDigest.value) &&
        some (hexText proof.proofSha256.value) == some (hexText proof.proofSha256.value) &&
        some (proof.proofBytes.length : Int) == some (proof.proofBytes.length : Int)) := rfl
  rw [values, beq_self_eq_true, beq_self_eq_true, beq_self_eq_true, beq_self_eq_true]
  rfl

theorem own_digests :
    ((leafText (leafOf (ownReceipt render proof context) "manifest_sha256")).any sha256Hex &&
      (leafText (leafOf (ownReceipt render proof context) "proof_sha256")).any sha256Hex) =
        true := by
  show (sha256Hex (hexText proof.targetDigest.value) &&
    sha256Hex (hexText proof.proofSha256.value)) = true
  rw [hexText_sha256 proof.targetDigest.length, hexText_sha256 proof.proofSha256.length]
  rfl

/-- An at sign can only come from the method or the policy of a verification. -/
theorem own_mentionsAt (plain : '@' ∉ context.serviceVersion.toList) :
    mentionsAt (ownReceipt render proof context) = false ↔ ∀ e ∈ proof.verification,
      '@' ∉ e.blockHash.toList ∧ '@' ∉ e.method.toList ∧
        '@' ∉ e.confirmationPolicy.toList := by
  have state : '@' ∉ proof.proofState.value.toList := by
    cases proof.proofState <;> decide
  have order := orderReference_plain proof.orderReference
  have certificate := certificate_plain context.certificateReference
  have manifest : '@' ∉ (hexText proof.targetDigest.value).toList := by
    rw [hexText_toList]
    exact lowerHex_plain (toHex_lowerHex _)
  have checksum : '@' ∉ (hexText proof.proofSha256.value).toList := by
    rw [hexText_toList]
    exact lowerHex_plain (toHex_lowerHex _)
  cases verification : proof.verification with
  | none =>
    simp [mentionsAt, ownReceipt, receiptFields, verification, confirmationFields, leafMentionsAt,
      state, order, certificate, manifest, checksum, plain]
  | some e =>
    simp [mentionsAt, ownReceipt, receiptFields, verification, confirmationFields, leafMentionsAt,
      bitcoinFields, state, order, certificate, manifest, checksum, plain]
    rw [and_assoc, and_comm (a := '@' ∉ e.confirmationPolicy.toList)]

end Fields

theorem sha256Hex_plain {text : String} (hex : sha256Hex text = true) : '@' ∉ text.toList := by
  rw [sha256Hex, Bool.and_eq_true] at hex
  exact lowerHex_plain hex.2

theorem kept_of_read {render : DateTime → IsoText} {d : DateTime} {read : Option Int}
    {instant : Int} (reads : dateTime (some (.time (render d))) = .ok read)
    (converts : d.astimezoneUtc = .ok instant) (same : ¬ read ≠ some instant) : Kept render d := by
  obtain ⟨inRange, rfl⟩ := astimezone_ok converts
  rw [not_not.1 same] at reads
  exact ⟨reads, inRange⟩

theorem valid_texts {e : Evidence DateTime} (valid : ValidEvidence e) :
    textWithin 128 (some e.method) = true ∧ textWithin 128 (some e.confirmationPolicy) = true := by
  unfold ValidEvidence verificationError at valid
  split at valid
  · cases valid
  split at valid
  · cases valid
  · next good =>
    simp only [textWithin, Option.any_some, Bool.and_eq_true, decide_eq_true_eq,
      String.length_toList]
    omega

section Confirmation
variable {render : DateTime → IsoText} {proof : StoredProof DateTime}
  {context : ProofBundleContext} {e : Evidence DateTime}

/-- Where the check of a verified receipt finds its fields. -/
theorem own_confirmation (verified : proof.verification = some e) :
    within confirmationKeys (keysOf (ownReceipt render proof context)) = true ∧
      (ownReceipt render proof context).lookup "bitcoin" =
        some (.object (bitcoinFields render e)) ∧
      leafText (leafOf (ownReceipt render proof context) "verification_method") = some e.method ∧
      leafOf (ownReceipt render proof context) "verified_at" =
        some (.time (render e.verifiedAt)) := by
  have keys : keysOf (confirmationFields render (some e)) = confirmationKeys := rfl
  have object : (ownReceipt render proof context).lookup "bitcoin" =
      (confirmationFields render proof.verification).lookup "bitcoin" := rfl
  have method : leafOf (ownReceipt render proof context) "verification_method" =
      leafOf (confirmationFields render proof.verification) "verification_method" := rfl
  have time : leafOf (ownReceipt render proof context) "verified_at" =
      leafOf (confirmationFields render proof.verification) "verified_at" := rfl
  rw [own_keys, object, method, time, verified, keys]
  exact ⟨by decide, rfl, rfl, rfl⟩

theorem bitcoinInvalid_eq (valid : ValidEvidence e) :
    bitcoinInvalid (bitcoinFields render e) (some e.method) = !sha256Hex e.blockHash := by
  obtain ⟨method, policy⟩ := valid_texts valid
  have values : bitcoinInvalid (bitcoinFields render e) (some e.method) =
      !(decide (0 ≤ (e.blockHeight : Int)) && sha256Hex e.blockHash &&
        textWithin 128 (some e.confirmationPolicy) && textWithin 128 (some e.method)) := rfl
  rw [values, method, policy, decide_eq_true (Int.natCast_nonneg e.blockHeight), Bool.true_and,
    Bool.and_true, Bool.and_true]

theorem metadataMismatch_own :
    metadataMismatch (bitcoinFields render e) (some e.method) e = false := by
  have values : metadataMismatch (bitcoinFields render e) (some e.method) e =
      !(some (e.blockHeight : Int) == some (e.blockHeight : Int) &&
        some e.blockHash == some e.blockHash &&
        some e.confirmationPolicy == some e.confirmationPolicy &&
        some e.method == some e.method) := rfl
  rw [values, beq_self_eq_true, beq_self_eq_true, beq_self_eq_true, beq_self_eq_true]
  rfl

/-- The confirmation part passes when the hash is plain and both times are kept. -/
theorem confirmation_iff (verified : proof.verification = some e) (valid : ValidEvidence e) :
    validateConfirmation (ownReceipt render proof context) proof = .ok () ↔
      sha256Hex e.blockHash = true ∧ Kept render e.blockTime ∧ Kept render e.verifiedAt := by
  obtain ⟨keys, object, method, time⟩ := @own_confirmation render proof context e verified
  have blockTime : (bitcoinFields render e).lookup "block_time" =
      some (.time (render e.blockTime)) := rfl
  have bitcoin : ¬ (within (keysOf (bitcoinFields render e)) bitcoinKeys &&
      within bitcoinKeys (keysOf (bitcoinFields render e))) = false := by
    show ¬ (within bitcoinKeys bitcoinKeys && within bitcoinKeys bitcoinKeys) = false
    decide
  unfold validateConfirmation
  rw [keys, if_neg nofun]
  simp only [object, method, time, blockTime, verified]
  constructor
  · intro ok
    obtain ⟨_, ok⟩ := guard_ok ok
    obtain ⟨hash, ok⟩ := guard_ok ok
    obtain ⟨readBlock, reads, ok⟩ := except_bind_ok ok
    obtain ⟨readVerified, readsVerified, ok⟩ := except_bind_ok ok
    obtain ⟨_, ok⟩ := guard_ok ok
    obtain ⟨_, ok⟩ := guard_ok ok
    obtain ⟨instant, converts, ok⟩ := except_bind_ok ok
    obtain ⟨sameBlock, ok⟩ := guard_ok ok
    obtain ⟨verifiedInstant, convertsVerified, ok⟩ := except_bind_ok ok
    obtain ⟨sameVerified, ok⟩ := guard_ok ok
    rw [bitcoinInvalid_eq valid] at hash
    exact ⟨by simpa using hash, kept_of_read reads converts sameBlock,
      kept_of_read readsVerified convertsVerified sameVerified⟩
  · rintro ⟨hash, ⟨blockRead, blockRange⟩, verifiedRead, verifiedRange⟩
    have good : ¬ bitcoinInvalid (bitcoinFields render e) (some e.method) = true := by
      rw [bitcoinInvalid_eq valid, hash]
      decide
    have match' : ¬ metadataMismatch (bitcoinFields render e) (some e.method) e = true := by
      rw [metadataMismatch_own]
      decide
    refine guard_pass bitcoin (guard_pass good (bind_pass blockRead (bind_pass verifiedRead
      (guard_pass ?_ (guard_pass match' (bind_pass (if_pos blockRange)
        (guard_pass ?_ (bind_pass (if_pos verifiedRange) (guard_pass ?_ rfl)))))))))
    · rintro (first | second)
      · cases first
      · cases second
    · exact fun other => other rfl
    · exact fun other => other rfl

end Confirmation

theorem state_pending {render : DateTime → IsoText} {proof : StoredProof DateTime}
    {context : ProofBundleContext} (pending : proof.verification = none) :
    validateState (ownReceipt render proof context) proof = .ok () := by
  have state : proof.proofState = .calendarPending := by
    rw [StoredProof.proofState, pending]
  have keys : keysOf (confirmationFields render none) = [] := rfl
  have apart : ¬ (keysOf (ownReceipt render proof context)).any confirmationKeys.contains =
      true := by
    rw [own_keys, pending, keys]
    decide
  rw [validateState, state]
  simp only [if_neg apart, pending, ne_eq, not_true_eq_false, if_false]

theorem state_verified {render : DateTime → IsoText} {proof : StoredProof DateTime}
    {context : ProofBundleContext} {e : Evidence DateTime}
    (verified : proof.verification = some e) :
    validateState (ownReceipt render proof context) proof =
      validateConfirmation (ownReceipt render proof context) proof := by
  have state : proof.proofState = .bitcoinVerified := by
    rw [StoredProof.proofState, verified]
  rw [validateState, state]

theorem state_iff {render : DateTime → IsoText} {proof : StoredProof DateTime}
    {context : ProofBundleContext} (valid : ∀ e ∈ proof.verification, ValidEvidence e) :
    validateState (ownReceipt render proof context) proof = .ok () ↔
      ∀ e ∈ proof.verification,
        sha256Hex e.blockHash = true ∧ Kept render e.blockTime ∧ Kept render e.verifiedAt := by
  cases verification : proof.verification with
  | none =>
    rw [state_pending verification]
    exact ⟨fun _ e member => (by cases member), fun _ => rfl⟩
  | some e =>
    rw [state_verified verification,
      confirmation_iff verification (valid e verification)]
    constructor
    · rintro facts _ ⟨⟩
      exact facts
    · exact fun all => all e rfl

/-- Everything before the state is checked, for the receipt of a proof for its own context. -/
theorem own_accepted_cases {render : DateTime → IsoText} {proof : StoredProof DateTime}
    {context : ProofBundleContext} (fits : versionFits context.serviceVersion) :
    validateReceipt (ownReceipt render proof context) proof context = .ok () ↔
      Kept render proof.calendarSubmittedAt ∧
        validateState (ownReceipt render proof context) proof = .ok () ∧
        mentionsAt (ownReceipt render proof context) = false := by
  obtain ⟨within, required⟩ := own_within render proof context
  have schema := own_schema render proof context fits
  have binding := own_binding render proof context
  have digests := own_digests render proof context
  unfold validateReceipt
  constructor
  · intro ok
    obtain ⟨_, ok⟩ := guard_ok ok
    obtain ⟨_, ok⟩ := guard_ok ok
    obtain ⟨_, ok⟩ := guard_ok ok
    obtain ⟨read, reads, ok⟩ := except_bind_ok ok
    obtain ⟨_, ok⟩ := guard_ok ok
    obtain ⟨_, ok⟩ := guard_ok ok
    obtain ⟨_, ok⟩ := guard_ok ok
    obtain ⟨_, ok⟩ := guard_ok ok
    obtain ⟨_, ok⟩ := guard_ok ok
    obtain ⟨_, ok⟩ := guard_ok ok
    obtain ⟨instant, converts, ok⟩ := except_bind_ok ok
    obtain ⟨same, ok⟩ := guard_ok ok
    obtain ⟨_, state, ok⟩ := except_bind_ok ok
    obtain ⟨private', _⟩ := guard_ok ok
    exact ⟨kept_of_read reads converts same, state, Bool.eq_false_of_not_eq_true private'⟩
  · rintro ⟨⟨reads, inRange⟩, state, private'⟩
    refine guard_pass (by rw [within]; decide) (guard_pass (by rw [required]; decide)
      (guard_pass (by rw [schema]; decide) (bind_pass reads (guard_pass nofun
        (guard_pass (fun other => other rfl) (guard_pass (fun other => other rfl)
          (guard_pass (by rw [binding]; decide) (guard_pass (by rw [digests]; decide)
            (guard_pass (fun other => other rfl) (bind_pass (if_pos inRange)
              (guard_pass (fun other => other rfl) (bind_pass state
                (guard_pass (by rw [private']; decide) rfl)))))))))))))

/-- The bundler accepts the receipt of a proof for its own context exactly when every instant
is kept by the rendering and the metadata of the block is plain. -/
theorem own_accepted_iff {render : DateTime → IsoText} {proof : StoredProof DateTime}
    {context : ProofBundleContext} (fits : versionFits context.serviceVersion)
    (plain : '@' ∉ context.serviceVersion.toList)
    (valid : ∀ e ∈ proof.verification, ValidEvidence e) :
    validateReceipt (ownReceipt render proof context) proof context = .ok () ↔
      Kept render proof.calendarSubmittedAt ∧ ∀ e ∈ proof.verification,
        PlainEvidence e ∧ Kept render e.blockTime ∧ Kept render e.verifiedAt := by
  rw [own_accepted_cases fits, state_iff valid, own_mentionsAt render proof context plain]
  constructor
  · rintro ⟨calendar, states, texts⟩
    refine ⟨calendar, fun e member => ?_⟩
    obtain ⟨hash, block, verified⟩ := states e member
    exact ⟨⟨hash, (texts e member).2.1, (texts e member).2.2⟩, block, verified⟩
  · rintro ⟨calendar, all⟩
    refine ⟨calendar, fun e member => ?_, fun e member => ?_⟩
    · obtain ⟨plainEvidence, block, verified⟩ := all e member
      exact ⟨plainEvidence.blockHash, block, verified⟩
    · obtain ⟨plainEvidence, _⟩ := all e member
      exact ⟨sha256Hex_plain plainEvidence.blockHash, plainEvidence.method,
        plainEvidence.confirmationPolicy⟩

/-! ## The round trip -/

/-- The instants that a receipt of the proof renders. -/
def instants (proof : StoredProof DateTime) : List DateTime :=
  proof.calendarSubmittedAt ::
    proof.verification.elim [] fun e => [e.blockTime, e.verifiedAt]

/-- The bundler accepts what each of the two encoders writes for the proof. -/
def RoundTrip (p : Platform) (proof : StoredProof DateTime) (context : ProofBundleContext) :
    Prop :=
  (∃ receipt, buildReceipt proof context.certificateReference context.serviceVersion =
      .ok receipt ∧ build p proof receipt context = .ok ()) ∧
    ∃ receipt, routeReceipt proof.orderReference.value context.certificateReference.value
        proof.targetDigest.value proof context.serviceVersion = .ok receipt ∧
      build p proof receipt context = .ok ()

theorem instants_iff {Good : DateTime → Prop} {proof : StoredProof DateTime} :
    (∀ d ∈ instants proof, Good d) ↔ Good proof.calendarSubmittedAt ∧
      ∀ e ∈ proof.verification, Good e.blockTime ∧ Good e.verifiedAt := by
  unfold instants
  cases proof.verification with
  | none => simp
  | some e => simp

theorem build_iff {p : Platform} {proof : StoredProof DateTime} {receipt : Receipt}
    {context : ProofBundleContext} (intact : validateExactProof p proof.targetDigest
      proof.proofBytes (some proof.proofSha256) = true) :
    build p proof receipt context = .ok () ↔
      validateReceipt receipt proof context = .ok () := by
  rw [build, intact, if_neg nofun]

/-- Both receipts of an intact proof are accepted exactly when no instant has microseconds or
leaves the years 1 to 9999 in UTC and the metadata of the block is plain. -/
theorem receipts_round_trip_iff {p : Platform} {proof : StoredProof DateTime}
    {context : ProofBundleContext} (valid : proof.Valid p.sha256)
    (intact : validateExactProof p proof.targetDigest proof.proofBytes (some proof.proofSha256) =
      true)
    (fits : versionFits context.serviceVersion)
    (plain : '@' ∉ context.serviceVersion.toList) :
    RoundTrip p proof context ↔
      (∀ d ∈ instants proof, d.InRange ∧ d.microsecond = 0) ∧
        ∀ e ∈ proof.verification, PlainEvidence e := by
  have delivered : buildReceipt proof context.certificateReference context.serviceVersion =
      .ok (ownReceipt rfc3339 proof context) := if_neg (not_not.2 fits)
  have downloaded : routeReceipt proof.orderReference.value context.certificateReference.value
      proof.targetDigest.value proof context.serviceVersion =
      .ok (ownReceipt isoformat proof context) := if_neg (not_not.2 rfl)
  have first := @own_accepted_iff rfc3339 proof context fits plain
    fun e member => valid.verification e member
  have second := @own_accepted_iff isoformat proof context fits plain
    fun e member => valid.verification e member
  simp only [rfc3339_kept] at first
  simp only [isoformat_kept] at second
  unfold RoundTrip
  rw [delivered, downloaded, instants_iff]
  constructor
  · rintro ⟨⟨_, ⟨⟩, accepted⟩, _⟩
    obtain ⟨calendar, all⟩ := first.1 ((build_iff intact).1 accepted)
    exact ⟨⟨calendar, fun e member => (all e member).2⟩, fun e member => (all e member).1⟩
  · rintro ⟨⟨calendar, times⟩, texts⟩
    refine ⟨⟨_, rfl, (build_iff intact).2 (first.2 ⟨calendar, fun e member =>
      ⟨texts e member, times e member⟩⟩)⟩, _, rfl, (build_iff intact).2 (second.2
        ⟨calendar.1, fun e member => ?_⟩)⟩
    obtain ⟨block, verified⟩ := times e member
    exact ⟨texts e member, block.1, verified.1⟩

/-! ## A proof of the first hour of 2026 -/

/-- A second of the first hour of 2026, with microseconds. -/
def sampleInstant (second : Nat) (microsecond : Int)
    (small : second < 3600 ∧ 0 ≤ microsecond ∧ microsecond < 1000000) : DateTime :=
  ⟨63902822400 + second, microsecond, 0, by unfold maxCivil; omega, small.2, by decide⟩

/-- The time of the first Bitcoin block. -/
def firstBlockTime : DateTime := ⟨63366603305, 0, 0, by decide, by decide, by decide⟩

def sampleEvidence : Evidence DateTime where
  method := "bitcoin-core"
  verifiedAt := sampleInstant 20 0 (by decide)
  blockHeight := 0
  blockHash := "000000000019d6689c085ae165831e934ff763ae46a2a6c172b3f1b60a8ce26f"
  blockTime := firstBlockTime
  confirmationPolicy := "confirmations>=1"
  confirmations := 1
  confirmed := Nat.one_pos

def sampleOrderReference : OrderReference := ⟨"ts_0123456789ABCDEFGHJKMNPQRS", by decide⟩

def sampleProof (submitted : DateTime) : StoredProof DateTime :=
  ⟨sampleOrderReference, 2, sampleDigest, upgradedBytes, sampleSha256 upgradedBytes, submitted,
    some sampleEvidence⟩

def sampleContext : ProofBundleContext := ⟨⟨"COA-2026-0001", by decide⟩, "1.0.0"⟩

theorem sampleProof_valid (submitted : DateTime) :
    (sampleProof submitted).Valid samplePlatform.sha256 := by
  refine ⟨show 1 ≤ 2 by decide, ?_, rfl, ?_⟩
  · show 1 ≤ upgradedBytes.length ∧ upgradedBytes.length ≤ maxProofBytes
    decide +kernel
  · rintro _ ⟨⟩
    show verificationError sampleEvidence = none
    decide

theorem sampleProof_intact (submitted : DateTime) :
    validateExactProof samplePlatform (sampleProof submitted).targetDigest
      (sampleProof submitted).proofBytes (some (sampleProof submitted).proofSha256) = true := by
  simp only [sampleProof]
  decide +kernel

theorem sampleContext_fits : versionFits sampleContext.serviceVersion ∧
    '@' ∉ sampleContext.serviceVersion.toList := by
  decide

/-- Ten seconds after the start of the year, to the second and a quarter of a second later. -/
def wholeSecond : DateTime := sampleInstant 10 0 (by decide)

def quarterSecond : DateTime := sampleInstant 10 250000 (by decide)

theorem sampleEvidence_plain : PlainEvidence sampleEvidence :=
  ⟨by decide, by decide, by decide⟩

theorem sample_instants : ∀ d ∈ instants (sampleProof wholeSecond),
    d.InRange ∧ d.microsecond = 0 := by
  rw [instants_iff]
  refine ⟨by decide, ?_⟩
  rintro _ ⟨⟩
  decide

theorem whole_second_round_trip :
    RoundTrip samplePlatform (sampleProof wholeSecond) sampleContext := by
  refine (receipts_round_trip_iff (sampleProof_valid wholeSecond)
    (sampleProof_intact wholeSecond) sampleContext_fits.1 sampleContext_fits.2).2
    ⟨sample_instants, ?_⟩
  rintro _ ⟨⟩
  exact sampleEvidence_plain

theorem quarter_second_refused : build samplePlatform (sampleProof quarterSecond)
    (ownReceipt rfc3339 (sampleProof quarterSecond) sampleContext) sampleContext =
      .error "receipt_calendar_time_mismatch" := by
  decide +kernel

/-- The receipt of a proof submitted a quarter of a second past a second is refused. -/
theorem microseconds_are_refused :
    (sampleProof quarterSecond).Valid samplePlatform.sha256 ∧
      versionFits sampleContext.serviceVersion ∧ '@' ∉ sampleContext.serviceVersion.toList ∧
      validateExactProof samplePlatform (sampleProof quarterSecond).targetDigest
        (sampleProof quarterSecond).proofBytes (some (sampleProof quarterSecond).proofSha256) =
          true ∧
      buildReceipt (sampleProof quarterSecond) sampleContext.certificateReference
          sampleContext.serviceVersion =
        .ok (ownReceipt rfc3339 (sampleProof quarterSecond) sampleContext) ∧
      ¬ RoundTrip samplePlatform (sampleProof quarterSecond) sampleContext := by
  have built : buildReceipt (sampleProof quarterSecond) sampleContext.certificateReference
      sampleContext.serviceVersion =
        .ok (ownReceipt rfc3339 (sampleProof quarterSecond) sampleContext) :=
    if_neg (not_not.2 sampleContext_fits.1)
  refine ⟨sampleProof_valid quarterSecond, sampleContext_fits.1, sampleContext_fits.2,
    sampleProof_intact quarterSecond, built, ?_⟩
  rintro ⟨⟨receipt, written, accepted⟩, _⟩
  rw [built] at written
  cases written
  rw [quarter_second_refused] at accepted
  cases accepted

end Receipts
