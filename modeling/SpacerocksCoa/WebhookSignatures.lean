import SpacerocksCoa.PackageFiles
import SpacerocksCoa.Receipts
import SpacerocksCoa.ResendEvents
import SpacerocksCoa.Sha256
import SpacerocksCoa.TaskRequests

/-!
# Signed webhooks

A webhook of the e-mail provider is signed over its identifier, its time and its body. The service
checks the signature and the time before it reads the body, and hands the event on to the store.
Header values are Latin-1 texts. The keyed hash and the reading of a time's characters are
parameters; that nobody but the provider signs is an assumption on the posts that arrive.
-/
namespace WebhookSignatures
open OrderStates (Bytes Instant Sha256)
open OrderRows (OrderRecord OutboxRecord ResendEventType ResendWebhookEvent)
open FulfillmentAdapters (Platform AdapterError guarded_ok)
open NotificationAdapters (VerifiedResendEvent WebhookProcessResult storedEvent processEvent
  deliverable applyDeliveredEvent reconcileReplayedEvent messageOfProvider modifyMessage
  markDelivered markFailed validReplay)
open ResendEvents (Searches processDelivery processUnmatched)
open JsonText (Text Json units)
open CodeUnits (alphanumeric alphanumeric_iff)
open IdempotencyKeys (PyNumber)
open PythonJson (isDigit loads)
open Receipts (IsoText zToOffset fromisoformat)
open Utf16Texts (Ascii)
open TaskRequests (pythonSpace strip intDigits natOf int field)
open PackageFiles (split_unique)

/-! ## The service -/

structure Environment (F : Type) where
  hmacSha256 : Bytes → Bytes → Bytes
  sha256 : Bytes → Sha256
  float : Text → F
  recursionLimit : Nat
  readTime : Text → Option IsoText

/-- The constructor refuses a shorter secret and any other tolerance. -/
structure ResendWebhookService where
  secret : Bytes
  toleranceSeconds : Nat
  secretLength : 16 ≤ secret.length
  tolerance : 1 ≤ toleranceSeconds ∧ toleranceSeconds ≤ 900

structure WebhookRequest where
  rawBody : Bytes
  svixId : Text
  svixTimestamp : Text
  svixSignature : Text

/-- The two messages of `ResendWebhookSignatureError`, and the errors that Python raises. -/
inductive Failure where
  | invalidWebhook | invalidPayload | unicodeEncode | tooManyDigits | typeError | overflow
  | recursion
  deriving DecidableEq

def maxWebhookBytes : Nat := 256 * 1024

def wordChar (c : Nat) : Bool := alphanumeric c || c == 95 || c == 45

def within (s : Text) (maximum : Nat) (allowed : Nat → Bool) : Bool :=
  1 ≤ s.length && s.length ≤ maximum && s.all allowed

/-- `_SAFE_EVENT_ID` -/
def safeEventId (s : Text) : Bool := within s 128 fun c => wordChar c || c == 61

/-- `_SAFE_PROVIDER_ID` -/
def safeProviderId (s : Text) : Bool := within s 128 wordChar

/-- `_SAFE_EVENT_TYPE` -/
def safeEventType (s : Text) : Bool :=
  (units "email.").isPrefixOf s && within (s.drop 6) 64 fun c => CodeUnits.lower c || c == 95

/-- `header.split()` -/
def words (header : Text) : List Text := (header.splitOnP pythonSpace).filter (!·.isEmpty)

/-- `item.split(",", 1)` and what is kept of it. -/
def v1Signature (item : Text) : Option Text :=
  match item.dropWhile (· != 44) with
  | [] => none
  | _ :: signature =>
    if item.takeWhile (· != 44) == units "v1" && !signature.isEmpty then some signature else none

/-- `_v1_signatures` -/
def v1Signatures (header : Text) : List Text := (words header).filterMap v1Signature

/-- `base64.b64encode` -/
def b64encode (bytes : Bytes) : Text := (Base64Text.urlsafeEncode bytes).map Base64Text.translate

/-- The loop of `any` over `hmac.compare_digest`, which refuses a text that is not ASCII. -/
def anyMatches (expected : Text) : List Text → Except Failure Bool
  | [] => .ok false
  | value :: rest =>
    if value.any (128 ≤ ·) then .error .typeError
    else if expected == value then .ok true
    else anyMatches expected rest

def signedBytes (svixId svixTimestamp : Text) (rawBody : Bytes) : Bytes :=
  (svixId ++ 46 :: (svixTimestamp ++ [46])).map UInt8.ofNat ++ rawBody

variable {F : Type} (env : Environment F)

/-- The part of `process` before the body is read. -/
def checkSignature (service : ResendWebhookService) (request : WebhookRequest) (now : Instant) :
    Except Failure Unit := do
  if request.rawBody = [] ∨ maxWebhookBytes < request.rawBody.length ∨
      safeEventId request.svixId = false then
    throw .invalidWebhook
  match int request.svixTimestamp with
  | none => throw .invalidWebhook
  | some signed =>
    -- `int(now.timestamp())`: a float still tells microseconds apart at these times
    if service.toleranceSeconds < (Int.tdiv now 1000000 - signed).natAbs then
      throw .invalidWebhook
    if request.svixTimestamp.any (128 ≤ ·) then throw .unicodeEncode
    let expected := b64encode (env.hmacSha256 service.secret
      (signedBytes request.svixId request.svixTimestamp request.rawBody))
    let found ← anyMatches expected (v1Signatures request.svixSignature)
    if found = false then throw .invalidWebhook

def subscript (value : Option (Json (PyNumber F))) (key : String) : Option (Json (PyNumber F)) :=
  match value with
  | some (.object fields) => field fields (units key)
  | _ => none

/-- The characters of an ASCII text. -/
def textOf (s : Text) : String := String.ofList (s.map Char.ofNat)

def eventTypeOf (s : Text) : ResendEventType :=
  if s = units "email.delivered" then .delivered
  else if s = units "email.bounced" then .bounced
  else if s = units "email.failed" then .failed
  else if s = units "email.complained" then .complained
  else .other (textOf (s.drop 6))

/-- The microseconds from year 1 to 1970. -/
def epoch : Int := 62135596800000000

/-- The part of `_parse_event` after the body is decoded. -/
def eventOf (payload : Json (PyNumber F)) (svixId : Text) : Except Failure VerifiedResendEvent :=
  match subscript (some payload) "type", subscript (some payload) "created_at",
    subscript (subscript (some payload) "data") "email_id" with
  | some (.text eventType), some (.text createdAt), some (.text providerMessageId) =>
    if safeEventType eventType = false ∨ safeProviderId providerMessageId = false then
      .error .invalidPayload
    else
      match (env.readTime createdAt).bind fun text => fromisoformat (zToOffset text) with
      | none => .error .invalidPayload
      | some parsedTime =>
        match parsedTime.astimezoneUtc with
        | .error _ => .error .overflow
        | .ok utc =>
          .ok ⟨textOf svixId, eventTypeOf eventType, textOf providerMessageId, utc - epoch⟩
  | _, _, _ => .error .invalidPayload

/-- `_parse_event`, which catches neither a `ValueError` for too many digits nor a
`RecursionError`. -/
def parseEvent (rawBody : Bytes) (svixId : Text) : Except Failure VerifiedResendEvent :=
  match loads env.float env.recursionLimit rawBody with
  | .error .invalid => .error .invalidPayload
  | .error .tooManyDigits => .error .tooManyDigits
  | .error .recursion => .error .recursion
  | .ok payload => eventOf env payload svixId

/-- The event and the digest that `process` hands on. -/
def process (service : ResendWebhookService) (request : WebhookRequest) (now : Instant) :
    Except Failure (VerifiedResendEvent × Sha256) := do
  checkSignature env service request now
  let event ← parseEvent env request.rawBody request.svixId
  return (event, env.sha256 request.rawBody)

/-! ## The endpoint -/

/-- A post to the endpoint, and which of its searches for the message come before the acceptance
of the message is committed. -/
structure Arrival where
  rawBody : Bytes
  svixId : Option Text
  svixTimestamp : Option Text
  svixSignature : Option Text
  now : Instant
  searches : Searches

/-- All three headers are there. -/
def Arrival.request (a : Arrival) : Option WebhookRequest :=
  match a.svixId, a.svixTimestamp, a.svixSignature with
  | some svixId, some svixTimestamp, some svixSignature =>
    some ⟨a.rawBody, svixId, svixTimestamp, svixSignature⟩
  | _, _, _ => none

/-- Status 200 with `duplicate`, status 400 and status 500. -/
inductive Response where
  | received (duplicate : Bool)
  | invalidWebhook
  | serverError
  deriving DecidableEq

/-- The endpoint catches `ValueError` and what extends it. -/
def Failure.response : Failure → Response
  | .invalidWebhook => .invalidWebhook
  | .invalidPayload => .invalidWebhook
  | .unicodeEncode => .invalidWebhook
  | .tooManyDigits => .invalidWebhook
  | .typeError => .serverError
  | .overflow => .serverError
  | .recursion => .serverError

def errorResponse : AdapterError → Response
  | .value _ => .invalidWebhook
  | .database => .serverError

def processStored (p : Platform) (event : VerifiedResendEvent) (payloadSha256 : Sha256)
    (a : Arrival) (r : OrderRecord) : Except AdapterError (WebhookProcessResult × OrderRecord) :=
  processDelivery p a.searches event payloadSha256 a.now r

/-- `resend_webhook` -/
def resendWebhook (service : ResendWebhookService) (p : Platform) (r : OrderRecord) (a : Arrival) :
    Response × OrderRecord :=
  match a.request with
  | none => (.invalidWebhook, r)
  | some request =>
    match process env service request a.now with
    | .error failure => (failure.response, r)
    | .ok (event, payloadSha256) =>
      match processStored p event payloadSha256 a r with
      | .error e => (errorResponse e, r)
      | .ok (result, r') => (.received result.duplicate, r')

/-- A run: what every post is answered, and the record at the end. -/
def resendWebhooks (service : ResendWebhookService) (p : Platform) (r : OrderRecord) :
    List Arrival → List (Arrival × Response) × OrderRecord
  | [] => ([], r)
  | a :: rest =>
    let (response, next) := resendWebhook env service p r a
    let (answers, last) := resendWebhooks service p next rest
    ((a, response) :: answers, last)

/-! ## The signed bytes -/

/-- Bytes below 128, without a dot. -/
structure Part (s : Text) : Prop where
  ascii : Ascii s
  undotted : 46 ∉ s

theorem wordChar_plain {c : Nat} (word : wordChar c = true) : c < 128 ∧ c ≠ 46 := by
  simp only [wordChar, alphanumeric_iff, Bool.or_eq_true, beq_iff_eq] at word
  omega

theorem safeEventId_part {s : Text} (safe : safeEventId s = true) : Part s := by
  simp only [safeEventId, within, Bool.and_eq_true, List.all_eq_true, Bool.or_eq_true,
    beq_iff_eq] at safe
  have plain : ∀ c ∈ s, c < 128 ∧ c ≠ 46 := by
    intro c member
    rcases safe.2 c member with word | rfl
    · exact wordChar_plain word
    · decide
  exact ⟨fun c member => (plain c member).1, fun member => (plain 46 member).2 rfl⟩

theorem mem_dropWhile {space : Nat → Bool} {s : Text} {c : Nat} (member : c ∈ s)
    (ink : space c = false) : c ∈ s.dropWhile space := by
  rw [← @List.takeWhile_append_dropWhile _ space s, List.mem_append] at member
  rcases member with skipped | kept
  · rw [List.mem_takeWhile_imp skipped] at ink
    cases ink
  · exact kept

/-- Only spaces are stripped. -/
theorem mem_strip {s : Text} {c : Nat} (member : c ∈ s) (ink : pythonSpace c = false) :
    c ∈ strip s := by
  unfold strip List.rdropWhile
  rw [List.mem_reverse]
  exact mem_dropWhile (List.mem_reverse.2 (mem_dropWhile member ink)) ink

theorem intDigits_chars {s : Text} (digits : intDigits s = true) :
    ∀ c ∈ s, isDigit c = true ∨ c = 95 := by
  induction s using TaskRequests.intDigits.induct with
  | case1 => cases digits
  | case2 c =>
    intro d member
    rw [List.mem_singleton.1 member]
    exact Or.inl digits
  | case3 c d rest whole tail =>
    simp only [intDigits, Bool.and_eq_true, Bool.or_eq_true, beq_iff_eq] at digits
    intro e member
    rcases List.mem_cons.1 member with rfl | later
    · exact Or.inl digits.1
    rcases digits.2 with next | ⟨rfl, next⟩
    · exact whole next e later
    · rcases List.mem_cons.1 later with rfl | last
      · exact Or.inr rfl
      · exact tail next e last

theorem natOf_undotted {s : Text} {n : Nat} (read : natOf s = some n) : 46 ∉ s := by
  simp only [natOf] at read
  split at read
  · next digits =>
    intro member
    rcases intDigits_chars digits.1 46 member with digit | same
    · exact absurd digit (by decide)
    · exact absurd same (by decide)
  · cases read

/-- A time that is read has no dot. -/
theorem int_undotted {s : Text} {n : Int} (read : int s = some n) : 46 ∉ s := by
  intro member
  have kept : 46 ∈ strip s := mem_strip member (by decide)
  unfold int at read
  split at read
  all_goals
    obtain ⟨m, lifted, -⟩ := Option.map_eq_some_iff.1 read
    obtain ⟨k, digits, -⟩ := Option.bind_eq_some_iff.1 lifted
    have absent := natOf_undotted digits
  · next same => exact absent ((List.mem_cons.1 (same ▸ kept)).resolve_left (by decide))
  · next same => exact absent ((List.mem_cons.1 (same ▸ kept)).resolve_left (by decide))
  · exact absent kept

theorem ascii_bytes {s : Text} (ascii : Ascii s) : (s.map UInt8.ofNat).map UInt8.toNat = s := by
  rw [List.map_map]
  refine (List.map_congr_left fun c member => ?_).trans (List.map_id s)
  exact UInt8.toNat_ofNat_of_lt' (Nat.lt_trans (ascii c member) (by decide))

theorem bytes_injective {s t : Text} (ascii : Ascii s) (ascii' : Ascii t)
    (same : s.map UInt8.ofNat = t.map UInt8.ofNat) : s = t := by
  rw [← ascii_bytes ascii, same, ascii_bytes ascii']

theorem undotted_bytes {s : Text} (part : Part s) : (46 : UInt8) ∉ s.map UInt8.ofNat := by
  intro member
  have dotted : (46 : UInt8).toNat ∈ (s.map UInt8.ofNat).map UInt8.toNat :=
    List.mem_map_of_mem member
  rw [ascii_bytes part.ascii] at dotted
  exact part.undotted dotted

/-- The signed bytes tell their identifier, their time and their body apart. -/
theorem signedBytes_injective {svixId svixTimestamp svixId' svixTimestamp' : Text}
    {rawBody rawBody' : Bytes} (id : Part svixId) (id' : Part svixId') (time : Part svixTimestamp)
    (time' : Part svixTimestamp')
    (same : signedBytes svixId svixTimestamp rawBody =
      signedBytes svixId' svixTimestamp' rawBody') :
    svixId = svixId' ∧ svixTimestamp = svixTimestamp' ∧ rawBody = rawBody' := by
  have cut : ∀ (s t : Text) (body : Bytes), signedBytes s t body =
      s.map UInt8.ofNat ++ 46 :: (t.map UInt8.ofNat ++ 46 :: body) := by
    intro s t body
    simp [signedBytes]
  rw [cut, cut] at same
  obtain ⟨ids, rest⟩ := split_unique (undotted_bytes id) (undotted_bytes id') same
  obtain ⟨times, bodies⟩ := split_unique (undotted_bytes time) (undotted_bytes time') rest
  exact ⟨bytes_injective id.ascii id'.ascii ids,
    bytes_injective time.ascii time'.ascii times, bodies⟩

/-! ## What the check passes -/

theorem any_large_iff {s : Text} : s.any (128 ≤ ·) = false ↔ Ascii s := by
  rw [List.any_eq_false]
  refine forall₂_congr fun c _ => ?_
  rw [decide_eq_true_eq, not_le]

theorem anyMatches_ok {expected : Text} {values : List Text}
    (found : anyMatches expected values = .ok true) : expected ∈ values := by
  induction values with
  | nil => cases found
  | cons value rest ih =>
    unfold anyMatches at found
    split at found
    · cases found
    split at found
    · next same => exact (beq_iff_eq.1 same) ▸ List.mem_cons_self
    · exact List.mem_cons_of_mem _ (ih found)

theorem anyMatches_mem {expected : Text} {values : List Text}
    (ascii : ∀ value ∈ values, Ascii value) (member : expected ∈ values) :
    anyMatches expected values = .ok true := by
  induction values with
  | nil => cases member
  | cons value rest ih =>
    have plain := any_large_iff.2 (ascii value List.mem_cons_self)
    unfold anyMatches
    rw [plain, if_neg Bool.false_ne_true]
    split
    · rfl
    · next other =>
      rcases List.mem_cons.1 member with same | later
      · exact absurd (beq_iff_eq.2 same) other
      · exact ih (fun v inside => ascii v (List.mem_cons_of_mem _ inside)) later

def signatureOf (service : ResendWebhookService) (svixId svixTimestamp : Text) (rawBody : Bytes) :
    Text :=
  b64encode (env.hmacSha256 service.secret (signedBytes svixId svixTimestamp rawBody))

/-- The time of the request is within the tolerance. -/
def Fresh (service : ResendWebhookService) (svixTimestamp : Text) (now : Instant) : Prop :=
  ∃ signed, int svixTimestamp = some signed ∧
    (Int.tdiv now 1000000 - signed).natAbs ≤ service.toleranceSeconds

/-- What a request has when its signature is accepted. -/
structure Signed (service : ResendWebhookService) (request : WebhookRequest) (now : Instant) :
    Prop where
  size : request.rawBody ≠ [] ∧ request.rawBody.length ≤ maxWebhookBytes
  id : safeEventId request.svixId = true
  fresh : Fresh service request.svixTimestamp now
  ascii : Ascii request.svixTimestamp
  signature : signatureOf env service request.svixId request.svixTimestamp request.rawBody ∈
    v1Signatures request.svixSignature

variable {env : Environment F} {service : ResendWebhookService} {request : WebhookRequest}
  {now : Instant}

theorem checkSignature_ok (ok : checkSignature env service request now = .ok ()) :
    Signed env service request now := by
  unfold checkSignature at ok
  obtain ⟨sized, ok⟩ := FallibleSteps.guard_ok ok
  rw [not_or, not_or, not_lt, Bool.not_eq_false] at sized
  split at ok
  · cases ok
  next signed read =>
  obtain ⟨near, ok⟩ := FallibleSteps.guard_ok ok
  obtain ⟨ascii, ok⟩ := FallibleSteps.guard_ok ok
  obtain ⟨found, matched, ok⟩ := FallibleSteps.except_bind_ok ok
  have hit : found = true := by
    cases found with
    | true => rfl
    | false => cases ok
  exact ⟨⟨sized.1, sized.2.1⟩, sized.2.2, ⟨signed, read, not_lt.1 near⟩,
    any_large_iff.1 (Bool.eq_false_iff.2 ascii), anyMatches_ok (hit ▸ matched)⟩

theorem process_read {event : VerifiedResendEvent} {payloadSha256 : Sha256}
    (ok : process env service request now = .ok (event, payloadSha256)) :
    parseEvent env request.rawBody request.svixId = .ok event ∧
      payloadSha256 = env.sha256 request.rawBody := by
  unfold process at ok
  obtain ⟨⟨⟩, -, ok⟩ := FallibleSteps.except_bind_ok ok
  obtain ⟨read, parsed, ok⟩ := FallibleSteps.except_bind_ok ok
  cases ok
  exact ⟨parsed, rfl⟩

theorem process_signed {event : VerifiedResendEvent} {payloadSha256 : Sha256}
    (ok : process env service request now = .ok (event, payloadSha256)) :
    Signed env service request now := by
  unfold process at ok
  obtain ⟨⟨⟩, checked, -⟩ := FallibleSteps.except_bind_ok ok
  exact checkSignature_ok checked

theorem Signed.part (passes : Signed env service request now) :
    Part request.svixId ∧ Part request.svixTimestamp := by
  obtain ⟨signed, read, -⟩ := passes.fresh
  exact ⟨safeEventId_part passes.id, passes.ascii, int_undotted read⟩

/-- A signed request passes when no signature of its header has a character above ASCII. -/
theorem checkSignature_iff
    (ascii : ∀ value ∈ v1Signatures request.svixSignature, Ascii value) :
    checkSignature env service request now = .ok () ↔ Signed env service request now := by
  refine ⟨checkSignature_ok, fun passes => ?_⟩
  obtain ⟨signed, read, near⟩ := passes.fresh
  have sized : ¬(request.rawBody = [] ∨ maxWebhookBytes < request.rawBody.length ∨
      safeEventId request.svixId = false) := by
    rintro (empty | long | unsafeId)
    · exact passes.size.1 empty
    · exact absurd passes.size.2 (not_le.2 long)
    · rw [passes.id] at unsafeId
      cases unsafeId
  have plain := any_large_iff.2 passes.ascii
  have matched := anyMatches_mem ascii passes.signature
  unfold signatureOf at matched
  unfold checkSignature
  rw [if_neg sized]
  simp only [read, plain, not_lt.2 near, matched]
  rfl

/-! ## The header of the provider -/

/-- The signatures of the provider, separated by spaces. -/
def headerOf : List Text → Text
  | [] => []
  | [s] => units "v1," ++ s
  | s :: t :: rest => units "v1," ++ s ++ 32 :: headerOf (t :: rest)

/-- A signature as it is written. -/
def Written (s : Text) : Prop := ∃ digest, digest ≠ [] ∧ s = b64encode digest

theorem b64encode_chars (bytes : Bytes) : ∀ c ∈ b64encode bytes, 43 ≤ c ∧ c < 123 := by
  have every : ∀ v < 64, 43 ≤ Base64Text.translate (Base64Text.alphabet v) ∧
      Base64Text.translate (Base64Text.alphabet v) < 123 := by decide
  intro c member
  obtain ⟨d, inside, rfl⟩ := List.mem_map.1 member
  rw [Base64Text.urlsafeEncode_digits, List.mem_append] at inside
  rcases inside with digit | padded
  · obtain ⟨v, small, rfl⟩ := Base64Text.digits_alphabet bytes d digit
    exact every v small
  · rw [(List.mem_replicate.1 padded).2]
    decide

theorem b64encode_ne_nil {bytes : Bytes} (some_byte : bytes ≠ []) : b64encode bytes ≠ [] := by
  induction bytes using Base64Text.urlsafeEncode.induct with
  | case1 => exact absurd rfl some_byte
  | case2 x => exact List.cons_ne_nil _ _
  | case3 x y => exact List.cons_ne_nil _ _
  | case4 x y z rest _ => exact List.cons_ne_nil _ _

theorem Written.ascii {s : Text} (written : Written s) : Ascii s := by
  obtain ⟨digest, -, rfl⟩ := written
  exact fun c member => Nat.lt_trans (b64encode_chars digest c member).2 (by decide)

theorem Written.unspaced {s : Text} (written : Written s) :
    ∀ c ∈ units "v1," ++ s, pythonSpace c = false := by
  obtain ⟨digest, -, rfl⟩ := written
  have marks : ∀ c ∈ units "v1,", 43 ≤ c ∧ c < 123 := by decide
  intro c member
  have bounds : 43 ≤ c ∧ c < 123 :=
    (List.mem_append.1 member).elim (marks c) (b64encode_chars digest c)
  simp only [pythonSpace, Bool.or_eq_false_iff, Bool.and_eq_false_iff, decide_eq_false_iff_not,
    beq_eq_false_iff_ne]
  omega

theorem Written.read {s : Text} (written : Written s) :
    v1Signature (units "v1," ++ s) = some s := by
  obtain ⟨digest, some_byte, rfl⟩ := written
  have version : units "v1," = [118, 49, 44] := by decide
  have kept : (b64encode digest).isEmpty = false :=
    List.isEmpty_eq_false_iff.2 (b64encode_ne_nil some_byte)
  have cut : (units "v1," ++ b64encode digest).dropWhile (· != 44) = 44 :: b64encode digest := by
    rw [version]
    rfl
  have head : (units "v1," ++ b64encode digest).takeWhile (· != 44) = units "v1" := by
    rw [version]
    rfl
  simp only [v1Signature, cut, head, kept, beq_self_eq_true, Bool.not_false, Bool.and_self, if_true]

theorem words_headerOf {signatures : List Text} (written : ∀ s ∈ signatures, Written s) :
    words (headerOf signatures) = signatures.map (units "v1," ++ ·) := by
  have shown : ∀ s : Text, (units "v1," ++ s).isEmpty = false := fun s => rfl
  induction signatures using headerOf.induct with
  | case1 => rfl
  | case2 s =>
    rw [headerOf, words, List.splitOnP_eq_singleton (written s List.mem_cons_self).unspaced]
    simp only [List.filter_cons, shown, Bool.not_false, if_true, List.filter_nil, List.map_cons,
      List.map_nil]
  | case3 s t rest ih =>
    have later := ih fun u member => written u (List.mem_cons_of_mem _ member)
    rw [words] at later
    rw [headerOf, words, List.splitOnP_append_cons_of_forall_mem
      (written s List.mem_cons_self).unspaced 32 (by decide), List.filter_cons, shown, later]
    rfl

/-- The check reads the signatures that the provider wrote. -/
theorem v1Signatures_headerOf {signatures : List Text} (written : ∀ s ∈ signatures, Written s) :
    v1Signatures (headerOf signatures) = signatures := by
  rw [v1Signatures, words_headerOf written, List.filterMap_map]
  have read : ∀ s ∈ signatures, (v1Signature ∘ (units "v1," ++ ·)) s = some s := fun s member =>
    (written s member).read
  rw [List.filterMap_congr read, List.filterMap_some]

/-- A request with the provider's header is handed on exactly when its size, its identifier and
its time are allowed, one of the signatures is that of its own bytes, and its body is an event. -/
theorem process_iff (env : Environment F) (service : ResendWebhookService)
    (signatures : List Text) (request : WebhookRequest) (now : Instant)
    (event : VerifiedResendEvent) (payloadSha256 : Sha256)
    (written : ∀ s ∈ signatures, Written s)
    (header : request.svixSignature = headerOf signatures) :
    process env service request now = .ok (event, payloadSha256) ↔
      ((request.rawBody ≠ [] ∧ request.rawBody.length ≤ maxWebhookBytes) ∧
        safeEventId request.svixId = true ∧ Fresh service request.svixTimestamp now ∧
        Ascii request.svixTimestamp ∧
        signatureOf env service request.svixId request.svixTimestamp request.rawBody ∈
          signatures) ∧
      parseEvent env request.rawBody request.svixId = .ok event ∧
      payloadSha256 = env.sha256 request.rawBody := by
  have found : v1Signatures request.svixSignature = signatures := by
    rw [header, v1Signatures_headerOf written]
  have passes : checkSignature env service request now = .ok () ↔
      Signed env service request now :=
    checkSignature_iff (found.symm ▸ fun s member => (written s member).ascii)
  constructor
  · intro ok
    obtain ⟨size, id, fresh, ascii, signature⟩ := process_signed ok
    exact ⟨⟨size, id, fresh, ascii, found ▸ signature⟩, process_read ok⟩
  · rintro ⟨⟨size, id, fresh, ascii, signature⟩, parsed, rfl⟩
    have checked := passes.2 ⟨size, id, fresh, ascii, found.symm ▸ signature⟩
    unfold process
    exact FallibleSteps.bind_pass checked (FallibleSteps.bind_pass parsed rfl)

/-- One instant is read. -/
def sampleEnvironment : Environment Unit where
  hmacSha256 := Sha256.hmacSha256
  sha256 bytes := ⟨Sha256.sha256 bytes, Sha256.sha256_length bytes⟩
  float := PythonJson.zeroFloats.float
  recursionLimit := 1000
  readTime s := if s = units "2026-01-01T00:00:42Z" then some ⟨63902822442, none, .z⟩ else none

def sampleSecret : Bytes := List.replicate 16 7

theorem sampleSecret_length : 16 ≤ sampleSecret.length := by decide

theorem sampleTolerance : 1 ≤ 300 ∧ 300 ≤ 900 := by decide

def sampleService : ResendWebhookService where
  secret := sampleSecret
  toleranceSeconds := 300
  secretLength := sampleSecret_length
  tolerance := sampleTolerance

def sampleBody : Bytes :=
  (units ("\x7b\"type\":\"email.delivered\",\"created_at\":\"2026-01-01T00:00:42Z\"," ++
    "\"data\":\x7b\"email_id\":\"resend-1\"\x7d\x7d")).map UInt8.ofNat

def sampleRequest : WebhookRequest where
  rawBody := sampleBody
  svixId := units "msg_2"
  svixTimestamp := units "1767225643"
  svixSignature := headerOf [signatureOf sampleEnvironment sampleService (units "msg_2")
    (units "1767225643") sampleBody]

def sampleNow : Instant := 1767225700000000

def sampleEvent : VerifiedResendEvent := ⟨"msg_2", .delivered, "resend-1", 1767225642000000⟩

theorem process_iff_sample :
    process sampleEnvironment sampleService sampleRequest sampleNow =
      .ok (sampleEvent, ⟨Sha256.sha256 sampleBody, Sha256.sha256_length sampleBody⟩) := by
  refine (process_iff sampleEnvironment sampleService [signatureOf sampleEnvironment sampleService
    (units "msg_2") (units "1767225643") sampleBody] sampleRequest sampleNow sampleEvent
    ⟨Sha256.sha256 sampleBody, Sha256.sha256_length sampleBody⟩ ?_ rfl).2
    ⟨⟨by decide, by decide, ⟨1767225643, by decide, by decide⟩,
      by decide, List.mem_singleton.2 rfl⟩, by decide, rfl⟩
  intro s single
  exact ⟨_, by decide, List.mem_singleton.1 single⟩

/-! ## One delivery -/

def providers (r : OrderRecord) : List (Option String) :=
  r.outbox.map OutboxRecord.providerMessageId

/-- The event reports the delivery of a message of the order. -/
def Reports (r : OrderRecord) (e : ResendWebhookEvent) : Prop :=
  e.eventType = .delivered ∧ some e.providerMessageId ∈ providers r

/-- The order stays, or is delivered by a stored event. -/
def OrderFollows (r r' : OrderRecord) : Prop :=
  r'.order = r.order ∨
    r'.order = { r.order with fulfillmentState := .delivered } ∧ ∃ e ∈ r'.resendEvents, Reports r e

/-- What an event changes when its stored row is looked at. -/
structure Looked (r r' : OrderRecord) : Prop where
  events : r'.resendEvents = r.resendEvents
  messages : providers r' = providers r
  order : OrderFollows r r'

/-- The row of the event is stored. -/
def StoredIn (r : OrderRecord) (event : VerifiedResendEvent) (payloadSha256 : Sha256) : Prop :=
  ∃ e ∈ r.resendEvents, e = storedEvent event payloadSha256 e.processedAt

/-- What the processing of an event changes: its row is stored, unless it was stored before. -/
structure Processed (event : VerifiedResendEvent) (payloadSha256 : Sha256) (now : Instant)
    (r r' : OrderRecord) : Prop where
  stored : StoredIn r' event payloadSha256
  events : r'.resendEvents = r.resendEvents ∨
    (∀ e ∈ r.resendEvents, e.svixEventId ≠ event.svixEventId) ∧
      r'.resendEvents = r.resendEvents ++ [storedEvent event payloadSha256 now]
  messages : providers r' = providers r
  order : OrderFollows r r'

theorem modifyMessage_providers {f : OutboxRecord → OutboxRecord}
    (keeps : ∀ m, (f m).providerMessageId = m.providerMessageId) (id : Nat) (r : OrderRecord) :
    providers (modifyMessage id f r) = providers r := by
  unfold providers modifyMessage
  rw [List.map_map]
  refine List.map_congr_left fun m _ => ?_
  simp only [Function.comp]
  split
  · exact keeps m
  · rfl

theorem markFailed_provider (type : ResendEventType) (m : OutboxRecord) :
    (markFailed type m).providerMessageId = m.providerMessageId := by
  unfold markFailed
  split <;> rfl

theorem messageOfProvider_mem {id : String} {r : OrderRecord} {m : OutboxRecord}
    (found : messageOfProvider id r = some m) : some id ∈ providers r := by
  unfold messageOfProvider at found
  have matching := List.find?_some found
  rw [← beq_iff_eq.1 matching]
  exact List.mem_map_of_mem (List.mem_of_find?_eq_some found)

theorem applyDeliveredEvent_looked {p : Platform} {record : OutboxRecord}
    {e : ResendWebhookEvent} {now : Instant} {r r' : OrderRecord} {result : WebhookProcessResult}
    (stored : e ∈ r.resendEvents) (known : some e.providerMessageId ∈ providers r)
    (ok : applyDeliveredEvent p record e now r = .ok (result, r')) : Looked r r' := by
  have same : providers (modifyMessage record.id (markDelivered e) r) = providers r :=
    @modifyMessage_providers (markDelivered e) (fun _ => rfl) record.id r
  unfold applyDeliveredEvent at ok
  split at ok
  · cases ok
    exact ⟨rfl, rfl, Or.inl rfl⟩
  next able =>
  split at ok
  · cases ok
    exact ⟨rfl, same, Or.inl rfl⟩
  obtain ⟨-, rfl, -⟩ := guarded_ok ok
  simp only [deliverable, Bool.and_eq_true, beq_iff_eq, Bool.not_eq_false] at able
  exact ⟨rfl, same, Or.inr ⟨rfl, e, stored, able.1.1.2, known⟩⟩

theorem reconcileReplayedEvent_looked {p : Platform} {e : ResendWebhookEvent} {now : Instant}
    {r r' : OrderRecord} {result : WebhookProcessResult} (stored : e ∈ r.resendEvents)
    (ok : reconcileReplayedEvent p e now r = .ok (result, r')) : Looked r r' := by
  have unchanged : Looked r r := ⟨rfl, rfl, Or.inl rfl⟩
  unfold reconcileReplayedEvent at ok
  split at ok
  · cases ok
    exact unchanged
  split at ok
  · cases ok
    exact unchanged
  next found =>
  split at ok
  · cases ok
    exact unchanged
  split at ok
  · cases ok
  next applied =>
  cases ok
  exact applyDeliveredEvent_looked stored (messageOfProvider_mem found) applied

section Processing
variable {p : Platform} {event : VerifiedResendEvent} {payloadSha256 : Sha256}
  {r r' : OrderRecord} {result : WebhookProcessResult}

theorem replay_processed {existing : ResendWebhookEvent}
    (found : r.resendEvents.find? (fun e => e.svixEventId == event.svixEventId) = some existing)
    (replay : validReplay existing event payloadSha256 = true) (looked : Looked r r') :
    Processed event payloadSha256 now r r' := by
  have member := List.mem_of_find?_eq_some found
  have matching := List.find?_some found
  have id := beq_iff_eq.1 matching
  simp only [validReplay, Bool.and_eq_true, beq_iff_eq] at replay
  obtain ⟨⟨⟨type, message⟩, payload⟩, created⟩ := replay
  refine ⟨⟨existing, looked.events.symm ▸ member, ?_⟩, Or.inl looked.events, looked.messages,
    looked.order⟩
  cases existing
  simp only [storedEvent, ResendWebhookEvent.mk.injEq]
  exact ⟨id, type, message, payload, created, trivial⟩

theorem last_stored (r : OrderRecord) (event : VerifiedResendEvent) (payloadSha256 : Sha256)
    (now : Instant) : storedEvent event payloadSha256 now ∈
      r.resendEvents ++ [storedEvent event payloadSha256 now] :=
  List.mem_append_right _ (List.mem_singleton.2 rfl)

theorem unknown_of_find
    (absent : r.resendEvents.find? (fun e => e.svixEventId == event.svixEventId) = none) :
    ∀ e ∈ r.resendEvents, e.svixEventId ≠ event.svixEventId := by
  intro e member same
  exact List.find?_eq_none.1 absent e member (beq_iff_eq.2 same)

theorem processUnmatched_processed {searches : Searches}
    (ok : processUnmatched p searches event payloadSha256 now r = .ok (result, r')) :
    Processed event payloadSha256 now r r' := by
  unfold processUnmatched at ok
  split at ok
  · next found =>
    split at ok
    · next replay =>
      split at ok
      · cases ok
        exact replay_processed found replay ⟨rfl, rfl, Or.inl rfl⟩
      · exact replay_processed found replay
          (reconcileReplayedEvent_looked (List.mem_of_find?_eq_some found) ok)
    · cases ok
  · next absent =>
    cases ok
    exact ⟨⟨_, last_stored r event payloadSha256 now, rfl⟩,
      Or.inr ⟨unknown_of_find absent, rfl⟩, rfl, Or.inl rfl⟩

theorem processEvent_processed
    (ok : processEvent p event payloadSha256 now r = .ok (result, r')) :
    Processed event payloadSha256 now r r' := by
  unfold processEvent at ok
  split at ok
  · next found =>
    split at ok
    · next replay =>
      exact replay_processed found replay
        (reconcileReplayedEvent_looked (List.mem_of_find?_eq_some found) ok)
    · cases ok
  next absent =>
  have unknown := unknown_of_find absent
  have inserted : Processed event payloadSha256 now r
      { r with resendEvents := r.resendEvents ++ [storedEvent event payloadSha256 now] } :=
    ⟨⟨_, last_stored r event payloadSha256 now, rfl⟩, Or.inr ⟨unknown, rfl⟩, rfl, Or.inl rfl⟩
  split at ok
  · cases ok
    exact inserted
  next record matched =>
  split at ok
  · cases ok
    exact inserted
  split at ok
  · cases ok
    exact ⟨inserted.stored, inserted.events,
      modifyMessage_providers (markFailed_provider event.eventType) _ _, Or.inl rfl⟩
  split at ok
  · cases ok
    exact inserted
  have last := last_stored r event payloadSha256 now
  have looked := applyDeliveredEvent_looked last (messageOfProvider_mem matched) ok
  have kept : storedEvent event payloadSha256 now ∈ r'.resendEvents := by rwa [looked.events]
  exact ⟨⟨_, kept, rfl⟩, Or.inr ⟨unknown, looked.events⟩, looked.messages,
    looked.order⟩

theorem processStored_processed {a : Arrival}
    (ok : processStored p event payloadSha256 a r = .ok (result, r')) :
    Processed event payloadSha256 a.now r r' := by
  unfold processStored processDelivery at ok
  split at ok
  · exact processEvent_processed ok
  · exact processUnmatched_processed ok

/-- A post changes nothing, or it is received and its event is processed. -/
theorem resendWebhook_cases (service : ResendWebhookService) (p : Platform) (r : OrderRecord)
    (a : Arrival) :
    ((∀ duplicate, (resendWebhook env service p r a).1 ≠ .received duplicate) ∧
        (resendWebhook env service p r a).2 = r) ∨
      ∃ request event payloadSha256, a.request = some request ∧
        process env service request a.now = .ok (event, payloadSha256) ∧
        Processed event payloadSha256 a.now r (resendWebhook env service p r a).2 := by
  unfold resendWebhook
  cases posted : a.request with
  | none => exact Or.inl ⟨fun _ same => Response.noConfusion same, rfl⟩
  | some request =>
    cases accepted : process env service request a.now with
    | error failure =>
      refine Or.inl ⟨fun duplicate same => ?_, by simp only [accepted]⟩
      simp only [accepted] at same
      cases failure <;> cases same
    | ok pair =>
      obtain ⟨event, payloadSha256⟩ := pair
      cases stored : processStored p event payloadSha256 a r with
      | error e =>
        refine Or.inl ⟨fun duplicate same => ?_, by simp only [accepted, stored]⟩
        simp only [accepted, stored] at same
        cases e <;> cases same
      | ok result =>
        refine Or.inr ⟨request, event, payloadSha256, rfl, accepted, ?_⟩
        simp only [accepted, stored]
        exact processStored_processed stored

end Processing

/-! ## Runs -/

/-- A webhook as its provider signs it. -/
structure Message where
  svixId : Text
  svixTimestamp : Text
  rawBody : Bytes
  id : Part svixId
  time : Part svixTimestamp

section Runs
variable (env : Environment F) (service : ResendWebhookService) (sent : List Message)

/-- Nobody but the provider signs: a request with the signature of its own bytes has the bytes of
a message that was sent. -/
def Unforged (request : WebhookRequest) : Prop :=
  signatureOf env service request.svixId request.svixTimestamp request.rawBody ∈
      v1Signatures request.svixSignature →
    ∃ message ∈ sent, signedBytes request.svixId request.svixTimestamp request.rawBody =
      signedBytes message.svixId message.svixTimestamp message.rawBody

/-- The row of a message that was sent, stored while its time was within the tolerance. -/
def Sent (e : ResendWebhookEvent) : Prop :=
  ∃ message ∈ sent, ∃ event, Fresh service message.svixTimestamp e.processedAt ∧
    parseEvent env message.rawBody message.svixId = .ok event ∧
      e = storedEvent event (env.sha256 message.rawBody) e.processedAt

variable {env service sent}

theorem process_sent {event : VerifiedResendEvent} {payloadSha256 : Sha256}
    (unforged : Unforged env service sent request)
    (ok : process env service request now = .ok (event, payloadSha256)) :
    Sent env service sent (storedEvent event payloadSha256 now) := by
  obtain ⟨parsed, rfl⟩ := process_read ok
  have passes := process_signed ok
  obtain ⟨id, time⟩ := passes.part
  obtain ⟨message, member, same⟩ := unforged passes.signature
  obtain ⟨ids, times, bodies⟩ := signedBytes_injective id message.id time message.time same
  refine ⟨message, member, event, ?_, ?_, ?_⟩
  · rw [← times]
    exact passes.fresh
  · rw [← bodies, ← ids]
    exact parsed
  · rw [← bodies]
    rfl

/-- What holds of the record whenever requests arrived. -/
structure Authentic (env : Environment F) (service : ResendWebhookService) (sent : List Message)
    (start r : OrderRecord) : Prop where
  rows : ∀ e ∈ r.resendEvents, e ∈ start.resendEvents ∨ Sent env service sent e
  distinct : (start.resendEvents.map ResendWebhookEvent.svixEventId).Nodup →
    (r.resendEvents.map ResendWebhookEvent.svixEventId).Nodup
  messages : providers r = providers start
  order : OrderFollows start r

theorem processed_kept {event : VerifiedResendEvent} {payloadSha256 : Sha256} {r r' : OrderRecord}
    (processed : Processed event payloadSha256 now r r') :
    ∀ e ∈ r.resendEvents, e ∈ r'.resendEvents := by
  intro e member
  rcases processed.events with same | ⟨-, added⟩
  · exact same ▸ member
  · exact added ▸ List.mem_append_left _ member

theorem orderFollows_trans {start r r' : OrderRecord} (first : OrderFollows start r)
    (second : OrderFollows r r') (messages : providers r = providers start)
    (kept : ∀ e ∈ r.resendEvents, e ∈ r'.resendEvents) : OrderFollows start r' := by
  have reported : ∀ {e}, Reports r e → Reports start e := fun report =>
    ⟨report.1, messages ▸ report.2⟩
  rcases second with same | ⟨moved, e, member, report⟩
  · rcases first with before | ⟨before, e, member, report⟩
    · exact Or.inl (same.trans before)
    · exact Or.inr ⟨same.trans before, e, kept e member, report⟩
  · refine Or.inr ⟨?_, e, member, reported report⟩
    rcases first with before | ⟨before, -⟩ <;> rw [moved, before]

theorem authentic_processed {event : VerifiedResendEvent} {payloadSha256 : Sha256}
    {start r r' : OrderRecord} (authentic : Authentic env service sent start r)
    (genuine : Sent env service sent (storedEvent event payloadSha256 now))
    (processed : Processed event payloadSha256 now r r') :
    Authentic env service sent start r' := by
  refine ⟨?_, fun distinct => ?_, processed.messages.trans authentic.messages,
    orderFollows_trans authentic.order processed.order authentic.messages
      (processed_kept processed)⟩
  · intro e member
    rcases processed.events with same | ⟨-, added⟩
    · exact authentic.rows e (same ▸ member)
    · rw [added] at member
      rcases List.mem_append.1 member with before | new
      · exact authentic.rows e before
      · exact Or.inr (List.mem_singleton.1 new ▸ genuine)
  · have before := authentic.distinct distinct
    rcases processed.events with same | ⟨unknown, added⟩
    · rwa [same]
    · rw [added, List.map_append, List.nodup_append']
      refine ⟨before, List.nodup_singleton _, ?_⟩
      rintro id earlier last
      obtain ⟨e, member, rfl⟩ := List.mem_map.1 earlier
      exact unknown e member (List.mem_singleton.1 last)

theorem resendWebhook_authentic {p : Platform} {start r : OrderRecord} {a : Arrival}
    (unforged : ∀ request, a.request = some request → Unforged env service sent request)
    (authentic : Authentic env service sent start r) :
    Authentic env service sent start (resendWebhook env service p r a).2 := by
  rcases @resendWebhook_cases F env service p r a with
    ⟨-, same⟩ | ⟨request, event, payloadSha256, posted, accepted, processed⟩
  · rw [same]
    exact authentic
  · exact authentic_processed authentic (process_sent (unforged request posted) accepted) processed

theorem resendWebhook_kept (service : ResendWebhookService) (p : Platform) (r : OrderRecord)
    (a : Arrival) : ∀ e ∈ r.resendEvents, e ∈ (resendWebhook env service p r a).2.resendEvents := by
  rcases @resendWebhook_cases F env service p r a with
    ⟨-, same⟩ | ⟨_, _, _, _, _, processed⟩
  · exact fun e member => same.symm ▸ member
  · exact processed_kept processed

theorem resendWebhooks_kept (service : ResendWebhookService) (p : Platform)
    (arrivals : List Arrival) (r : OrderRecord) :
    ∀ e ∈ r.resendEvents, e ∈ (resendWebhooks env service p r arrivals).2.resendEvents := by
  induction arrivals generalizing r with
  | nil => exact fun e member => member
  | cons a rest ih => exact fun e member => ih _ e (resendWebhook_kept service p r a e member)

/-- The body of the post is the event that the store has a row of. -/
def Recorded (env : Environment F) (a : Arrival) (r : OrderRecord) : Prop :=
  ∃ svixId event, a.svixId = some svixId ∧ parseEvent env a.rawBody svixId = .ok event ∧
    StoredIn r event (env.sha256 a.rawBody)

theorem request_some {a : Arrival} (posted : a.request = some request) :
    a.svixId = some request.svixId ∧ a.rawBody = request.rawBody := by
  unfold Arrival.request at posted
  split at posted
  · next id _ _ =>
    cases posted
    exact ⟨id, rfl⟩
  · cases posted

theorem resendWebhook_recorded {p : Platform} {r : OrderRecord} {a : Arrival} {duplicate : Bool}
    (received : (resendWebhook env service p r a).1 = .received duplicate) :
    Recorded env a (resendWebhook env service p r a).2 := by
  rcases @resendWebhook_cases F env service p r a with
    ⟨refused, -⟩ | ⟨request, event, payloadSha256, posted, accepted, processed⟩
  · exact absurd received (refused duplicate)
  obtain ⟨id, body⟩ := request_some posted
  obtain ⟨parsed, digest⟩ := process_read accepted
  refine ⟨request.svixId, event, id, ?_, ?_⟩
  · rw [body]
    exact parsed
  · rw [body, ← digest]
    exact processed.stored

theorem resendWebhooks_recorded (service : ResendWebhookService) (p : Platform)
    (arrivals : List Arrival) (r : OrderRecord) {a : Arrival} {duplicate : Bool}
    (received : (a, Response.received duplicate) ∈
      (resendWebhooks env service p r arrivals).1) :
    Recorded env a (resendWebhooks env service p r arrivals).2 := by
  induction arrivals generalizing r with
  | nil => cases received
  | cons b rest ih =>
    rcases List.mem_cons.1 received with now | later
    · obtain ⟨rfl, answer⟩ := Prod.mk.inj now
      obtain ⟨svixId, event, id, parsed, e, member, row⟩ := resendWebhook_recorded answer.symm
      exact ⟨svixId, event, id, parsed, e, resendWebhooks_kept service p rest _ e member, row⟩
    · exact ih _ later

theorem resendWebhooks_authentic {p : Platform} {start : OrderRecord} (arrivals : List Arrival)
    (unforged : ∀ a ∈ arrivals, ∀ request, a.request = some request →
      Unforged env service sent request) (r : OrderRecord)
    (authentic : Authentic env service sent start r) :
    Authentic env service sent start (resendWebhooks env service p r arrivals).2 := by
  induction arrivals generalizing r with
  | nil => exact authentic
  | cons a rest ih =>
    exact ih (fun later member => unforged later (List.mem_cons_of_mem _ member)) _
      (resendWebhook_authentic (unforged a List.mem_cons_self) authentic)

/-- However many posts arrive, and in whatever order: every new row of the store is the event of a
message that the provider sent, stored within the tolerance of its time; no identifier is stored
twice; the order changes by being delivered only, which a stored event of one of its messages
reports; and what was answered as received is stored. -/
theorem received_events_are_sent (service : ResendWebhookService) (p : Platform)
    (sent : List Message) (start : OrderRecord) (arrivals : List Arrival)
    (unforged : ∀ a ∈ arrivals, ∀ request, a.request = some request →
      Unforged env service sent request) :
    Authentic env service sent start (resendWebhooks env service p start arrivals).2 ∧
      ∀ a duplicate, (a, Response.received duplicate) ∈
          (resendWebhooks env service p start arrivals).1 →
        Recorded env a (resendWebhooks env service p start arrivals).2 :=
  ⟨resendWebhooks_authentic arrivals unforged start
      ⟨fun _ member => Or.inl member, fun distinct => distinct, rfl, Or.inl rfl⟩,
    fun _ _ received => resendWebhooks_recorded service p arrivals start received⟩

end Runs

theorem sampleId : Part (units "msg_2") := ⟨by decide, by decide⟩

theorem sampleTimestamp : Part (units "1767225643") := ⟨by decide, by decide⟩

def sampleMessage : Message where
  svixId := units "msg_2"
  svixTimestamp := units "1767225643"
  rawBody := sampleBody
  id := sampleId
  time := sampleTimestamp

/-- The message of the sample is accepted before the webhook of its delivery arrives. -/
def acceptedRecord : OrderRecord :=
  ResendEvents.accept ResendEvents.sendingPlatform ResendEvents.sendingClaim
    ResendEvents.sendingAcceptance (VerifiedOrders.sampleTime 45) ResendEvents.sendingRecord

/-- The webhook arrives twice. -/
def sampleArrivals : List Arrival :=
  [⟨sampleRequest.rawBody, some sampleRequest.svixId, some sampleRequest.svixTimestamp,
      some sampleRequest.svixSignature, sampleNow, .late⟩,
    ⟨sampleRequest.rawBody, some sampleRequest.svixId, some sampleRequest.svixTimestamp,
      some sampleRequest.svixSignature, sampleNow, .firstEarly⟩]

def sampleReceived : List (Arrival × Response) × OrderRecord :=
  resendWebhooks sampleEnvironment sampleService ResendEvents.sendingPlatform acceptedRecord
    sampleArrivals

theorem sampleReceived_outcome :
    sampleReceived.1.map Prod.snd = [.received false, .received true] ∧
      sampleReceived.2.order.fulfillmentState = .delivered := by
  decide +kernel

theorem received_events_are_sent_sample :
    (Authentic sampleEnvironment sampleService [sampleMessage] acceptedRecord sampleReceived.2 ∧
      ∀ a duplicate, (a, Response.received duplicate) ∈ sampleReceived.1 →
        Recorded sampleEnvironment a sampleReceived.2) ∧
      sampleReceived.1.map Prod.snd = [.received false, .received true] ∧
      sampleReceived.2.order.fulfillmentState = .delivered :=
  ⟨received_events_are_sent sampleService ResendEvents.sendingPlatform [sampleMessage]
      acceptedRecord sampleArrivals (by
        intro a member request posted signature
        refine ⟨sampleMessage, List.mem_singleton.2 rfl, ?_⟩
        simp only [sampleArrivals, List.mem_cons, List.not_mem_nil, or_false] at member
        rcases member with rfl | rfl <;> cases posted <;> rfl),
    sampleReceived_outcome⟩

end WebhookSignatures
