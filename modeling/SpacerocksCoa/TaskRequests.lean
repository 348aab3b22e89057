import SpacerocksCoa.CertificateForm
import SpacerocksCoa.FallibleSteps
import SpacerocksCoa.PythonJson

/-!
# Cloud tasks and the requests they send

A task is named after its job and generation and carries both in its body. The private endpoint
reads a request, checks the headers and the body against each other and recomputes the name.
What the creator writes the endpoint reads, and a request under the name of a task runs that
task's job and generation or nothing.

Header values are Latin-1 texts; Cloud Tasks itself appears through the headers it sets.
-/
namespace TaskRequests
open IdempotencyKeys OrderStates
open JsonText (Text Json Fits FitsFields hexValue print rebuild sortFields units)
open PythonJson (FloatWords Short compactAscii isDigit loads maxStrDigits zeroFloats)
open CodeUnits (natText natText_digit natText_injective natText_nonempty readNat readNat_natText
  toLowerCase)

/-! ## Identifiers -/

abbrev Uuid := BitVec 128

/-- `n` in hexadecimal with leading zeros. -/
def hexText : Nat → Nat → Text
  | 0, _ => []
  | width + 1, n => hexText width (n / 16) ++ [JsonText.hexDigit (n % 16)]

/-- `UUID.hex` -/
def uuidHex (id : Uuid) : Text := hexText 32 id.toNat

/-- `str` of an identifier with these digits. -/
def hyphened (digits : Text) : Text :=
  digits.take 8 ++ 45 :: ((digits.drop 8).take 4 ++ 45 :: ((digits.drop 12).take 4 ++
    45 :: ((digits.drop 16).take 4 ++ 45 :: digits.drop 20)))

def uuidText (id : Uuid) : Text := hyphened (uuidHex id)

def readHex (s : Text) : Option Nat :=
  s.foldl (fun n c => n.bind fun n => (hexValue c).map fun d => n * 16 + d) (some 0)

/-- 32 hexadecimal digits of either case -/
def parseSimple (s : Text) : Option Uuid :=
  if s.length = 32 then (readHex s).map (BitVec.ofNat 128) else none

/-- 36 characters with hyphens in their places -/
def parseHyphened (s : Text) : Option Uuid :=
  let digits := s.take 8 ++ ((s.drop 9).take 4 ++ ((s.drop 14).take 4 ++
    ((s.drop 19).take 4 ++ s.drop 24)))
  if s = hyphened digits then parseSimple digits else none

/-- A text that a `UUID` field takes: plain, hyphened, in braces or as a URN. -/
def parseUuid (s : Text) : Option Uuid :=
  if s.length = 32 then parseSimple s
  else if s.length = 38 ∧ s.head? = some 123 ∧ s.getLast? = some 125 then
    parseHyphened ((s.drop 1).take 36)
  else if s.length = 45 ∧ s.take 9 = units "urn:uuid:" then parseHyphened (s.drop 9)
  else parseHyphened s

/-! ## Names and bodies -/

def lowerHex (c : Nat) : Bool := (48 ≤ c && c ≤ 57) || (97 ≤ c && c ≤ 102)

/-- `[1-9][0-9]{0,8}` -/
def generationText (s : Text) : Bool :=
  s.all isDigit && s.head?.any (fun c => c != 48) && s.length ≤ 9

/-- `_TASK_NAME` -/
def taskNamePattern (name : Text) : Bool :=
  name.take 10 == units "timestamp-" && ((name.drop 10).take 32).length == 32 &&
    ((name.drop 10).take 32).all lowerHex && (name.drop 42).take 2 == units "-g" &&
    generationText (name.drop 44)

def deterministicTaskName (jobId : Uuid) (generation : Nat) : Except String Text :=
  if generation < 1 then .error "task_generation_invalid"
  else
    let name := units "timestamp-" ++ (uuidHex jobId ++ (units "-g" ++ natText generation))
    if taskNamePattern name = false then .error "task_name_invalid" else .ok name

variable {F : Type}

def payloadFields (jobId : Uuid) (generation : Nat) : List (Text × Json (PyNumber F)) :=
  [(units "generation", .number (.int generation)), (units "job_id", .text (uuidText jobId))]

/-- `json.dumps` with `sort_keys=True` and `separators=(",", ":")` -/
def dumps (words : FloatWords F) (body : Json (PyNumber F)) : Text :=
  print (compactAscii words) 0 (rebuild sortFields body)

def contains (part text : Text) : Bool := text.tails.any part.isPrefixOf

def taskPayload (words : FloatWords F) (jobId : Uuid) (generation : Nat) :
    Except String (List UInt8) :=
  let payload := dumps words (.object (payloadFields jobId generation))
  if 128 < payload.length ∨ contains [64] payload = true ∨
      contains (units "token") (toLowerCase payload) = true then .error "task_payload_invalid"
  else .ok (payload.map UInt8.ofNat)

/-! ## Tasks -/

/-- What `CloudTasksCreator` is made with; the parent is the path of the queue. -/
structure CreatorSettings where
  parent : Text
  workerUrl : Text
  serviceAccountEmail : Text
  audience : Text

/-- A task: a POST request with an identity token. -/
structure CloudTask where
  name : Text
  scheduleTime : Instant
  url : Text
  contentType : Text
  body : List UInt8
  serviceAccountEmail : Text
  audience : Text
  deriving DecidableEq

/-- The task that `CloudTasksCreator.create` hands to the service. -/
def cloudTask (settings : CreatorSettings) (taskName : Text) (payload : List UInt8)
    (scheduleAt : Instant) : CloudTask where
  name := settings.parent ++ (units "/tasks/" ++ taskName)
  scheduleTime := scheduleAt
  url := settings.workerUrl
  contentType := units "application/json"
  body := payload
  serviceAccountEmail := settings.serviceAccountEmail
  audience := settings.audience

/-- The task for a generation of a job. -/
def taskFor (settings : CreatorSettings) (words : FloatWords F) (jobId : Uuid) (generation : Nat)
    (scheduleAt : Instant) : Except String CloudTask := do
  let taskName ← deterministicTaskName jobId generation
  let payload ← taskPayload words jobId generation
  return cloudTask settings taskName payload scheduleAt

/-! ## The endpoint -/

structure TaskRequest where
  contentType : Option Text
  contentLength : Option Text
  taskName : Option Text
  queueName : Option Text
  body : List UInt8

structure TaskPayload where
  jobId : Uuid
  generation : Nat
  deriving DecidableEq

def pythonSpace (c : Nat) : Bool :=
  (9 ≤ c && c ≤ 13) || (28 ≤ c && c ≤ 32) || c == 0x85 || c == 0xa0

def strip (s : Text) : Text := (s.dropWhile pythonSpace).rdropWhile pythonSpace

/-- Digits, with single underscores between them. -/
def intDigits : Text → Bool
  | [] => false
  | [c] => isDigit c
  | c :: d :: rest => isDigit c && (intDigits (d :: rest) || (d == 95 && intDigits rest))

/-- The digits may not be too many. -/
def natOf (s : Text) : Option Nat :=
  let digits := s.filter (· != 95)
  if intDigits s ∧ digits.length ≤ maxStrDigits then some (readNat digits) else none

/-- `int` of a text -/
def int (s : Text) : Option Int :=
  match strip s with
  | 43 :: digits => (natOf digits).map fun n => (n : Int)
  | 45 :: digits => (natOf digits).map fun n => -(n : Int)
  | digits => (natOf digits).map fun n => (n : Int)

/-- `value.rsplit("/", 1)[-1]` -/
def lastComponent (s : Text) : Text := s.rtakeWhile (· != 47)

/-- `value.partition(";")[0]` -/
def mediaType (s : Text) : Text := s.takeWhile (· != 59)

def field (fields : List (Text × Json (PyNumber F))) (key : Text) : Option (Json (PyNumber F)) :=
  (fields.find? fun field => field.1 = key).map Prod.snd

/-- `TaskPayload.job_id` -/
def jobIdField : Json (PyNumber F) → Option Uuid
  | .text s => parseUuid s
  | _ => none

/-- `TaskPayload.generation`, a strict integer -/
def generationField : Json (PyNumber F) → Option Nat
  | .number (.int n) => if 1 ≤ n ∧ n ≤ 999999999 then some n.toNat else none
  | _ => none

/-- `TaskPayload.model_validate`, which forbids other fields -/
def validatePayload : Json (PyNumber F) → Option TaskPayload
  | .object fields =>
    if fields.all (fun field => field.1 = units "job_id" ∨ field.1 = units "generation") then do
      let jobId ← (field fields (units "job_id")).bind jobIdField
      let generation ← (field fields (units "generation")).bind generationField
      return ⟨jobId, generation⟩
    else none
  | _ => none

/-- `_MAX_TASK_BODY` -/
def maxTaskBody : Nat := 128

/-- What `run_task` makes of a request before it runs anything; a refusal has status 400. -/
def readTask (float : Text → F) (expectedQueue : Text) (request : TaskRequest) :
    Except String TaskPayload := do
  let contentType := toLowerCase (strip (mediaType (request.contentType.getD [])))
  match int (request.contentLength.getD []) with
  | none => throw "invalid task request"
  | some declaredLength =>
    if contentType ≠ units "application/json" ∨
        ¬ (1 ≤ declaredLength ∧ declaredLength ≤ maxTaskBody) ∨
        request.queueName.getD [] ≠ expectedQueue then
      throw "invalid task request"
    if (request.body.length : Int) ≠ declaredLength ∨ maxTaskBody < request.body.length then
      throw "invalid task request"
    -- So short a body has no more than that many levels, and no integer that is too long.
    match (loads float maxTaskBody request.body).toOption.bind validatePayload with
    | none => throw "invalid task request"
    | some payload =>
      let expectedName ← deterministicTaskName payload.jobId payload.generation
      if lastComponent (request.taskName.getD []) ≠ expectedName then
        throw "invalid task request"
      return payload

/-- The request that Cloud Tasks sends for a task of a queue. -/
structure Sends (queue : Text) (task : CloudTask) (request : TaskRequest) : Prop where
  contentType : request.contentType = some task.contentType
  contentLength : request.contentLength = some (natText task.body.length)
  taskName : ∃ name, request.taskName = some name ∧ lastComponent name = lastComponent task.name
  queueName : request.queueName = some queue
  body : request.body = task.body

/-! ## Identifiers are read back -/

theorem hexText_length (width n : Nat) : (hexText width n).length = width := by
  induction width generalizing n with
  | zero => rfl
  | succ width ih => rw [hexText, List.length_append, ih, List.length_singleton]

theorem hexDigit_lowerHex : ∀ d < 16, lowerHex (JsonText.hexDigit d) = true := by decide

theorem hexText_lowerHex (width n : Nat) : ∀ c ∈ hexText width n, lowerHex c = true := by
  induction width generalizing n with
  | zero =>
    intro c member
    cases member
  | succ width ih =>
    intro c member
    rcases List.mem_append.1 member with earlier | last
    · exact ih (n / 16) c earlier
    · rw [List.mem_singleton.1 last]
      exact hexDigit_lowerHex _ (Nat.mod_lt n (by decide))

theorem readHex_snoc (s : Text) (c : Nat) :
    readHex (s ++ [c]) = (readHex s).bind fun n => (hexValue c).map fun d => n * 16 + d := by
  rw [readHex, List.foldl_append]
  rfl

theorem readHex_hexText (width n : Nat) : readHex (hexText width n) = some (n % 16 ^ width) := by
  induction width generalizing n with
  | zero => rw [Nat.pow_zero, Nat.mod_one, hexText, readHex, List.foldl_nil]
  | succ width ih =>
    rw [hexText, readHex_snoc, ih,
      JsonText.hexValue_hexDigit (Nat.mod_lt n (by decide))]
    have split : n % 16 ^ (width + 1) = n / 16 % 16 ^ width * 16 + n % 16 := by
      rw [Nat.pow_succ, Nat.mul_comm (16 ^ width) 16, Nat.mod_mul]
      omega
    rw [split, Option.bind_some, Option.map_some]

theorem uuidHex_length (id : Uuid) : (uuidHex id).length = 32 := by
  rw [uuidHex, hexText_length]

theorem parseSimple_hex (id : Uuid) : parseSimple (uuidHex id) = some id := by
  have whole : id.toNat % 16 ^ 32 = id.toNat := by
    have bound := id.isLt
    omega
  rw [parseSimple, if_pos (uuidHex_length id), uuidHex, readHex_hexText, whole, Option.map_some,
    BitVec.ofNat_toNat, BitVec.setWidth_eq]

theorem uuidHex_injective {first second : Uuid} (same : uuidHex first = uuidHex second) :
    first = second := by
  have read := parseSimple_hex first
  rw [same, parseSimple_hex second] at read
  exact (Option.some.inj read).symm

/-- Digits in groups of 8, 4, 4, 4 and 12. -/
theorem hyphened_groups {a b c d e : Text} (first : a.length = 8) (second : b.length = 4)
    (third : c.length = 4) (fourth : d.length = 4) :
    hyphened (a ++ (b ++ (c ++ (d ++ e)))) =
      a ++ 45 :: (b ++ 45 :: (c ++ 45 :: (d ++ 45 :: e))) := by
  have twelve : (a ++ b).length = 12 := by rw [List.length_append, first, second]
  have sixteen : (a ++ b ++ c).length = 16 := by rw [List.length_append, twelve, third]
  have twenty : (a ++ b ++ c ++ d).length = 20 := by rw [List.length_append, sixteen, fourth]
  have afterFirst : (a ++ (b ++ (c ++ (d ++ e)))).drop 8 = b ++ (c ++ (d ++ e)) := by
    rw [List.drop_left' first]
  have afterSecond : (a ++ (b ++ (c ++ (d ++ e)))).drop 12 = c ++ (d ++ e) := by
    rw [← List.append_assoc, List.drop_left' twelve]
  have afterThird : (a ++ (b ++ (c ++ (d ++ e)))).drop 16 = d ++ e := by
    rw [← List.append_assoc, ← List.append_assoc, List.drop_left' sixteen]
  have afterFourth : (a ++ (b ++ (c ++ (d ++ e)))).drop 20 = e := by
    rw [← List.append_assoc, ← List.append_assoc, ← List.append_assoc, List.drop_left' twenty]
  rw [hyphened, afterFirst, afterSecond, afterThird, afterFourth, List.take_left' first,
    List.take_left' second, List.take_left' third, List.take_left' fourth]

/-- The digits of a hyphened text. -/
theorem unhyphened_groups {a b c d e : Text} (first : a.length = 8) (second : b.length = 4)
    (third : c.length = 4) (fourth : d.length = 4) :
    let s := a ++ 45 :: (b ++ 45 :: (c ++ 45 :: (d ++ 45 :: e)))
    s.take 8 ++ ((s.drop 9).take 4 ++ ((s.drop 14).take 4 ++ ((s.drop 19).take 4 ++ s.drop 24))) =
      a ++ (b ++ (c ++ (d ++ e))) := by
  intro s
  have nine : (a ++ [45]).length = 9 := by rw [List.length_append, first]; rfl
  have fourteen : (a ++ [45] ++ (b ++ [45])).length = 14 := by
    rw [List.length_append, nine, List.length_append, second]; rfl
  have nineteen : (a ++ [45] ++ (b ++ [45]) ++ (c ++ [45])).length = 19 := by
    rw [List.length_append, fourteen, List.length_append, third]; rfl
  have twentyFour : (a ++ [45] ++ (b ++ [45]) ++ (c ++ [45]) ++ (d ++ [45])).length = 24 := by
    rw [List.length_append, nineteen, List.length_append, fourth]; rfl
  have s₁ : s = (a ++ [45]) ++ (b ++ 45 :: (c ++ 45 :: (d ++ 45 :: e))) := by
    simp only [s, List.append_assoc, List.cons_append, List.nil_append]
  have s₂ : s = (a ++ [45] ++ (b ++ [45])) ++ (c ++ 45 :: (d ++ 45 :: e)) := by
    simp only [s, List.append_assoc, List.cons_append, List.nil_append]
  have s₃ : s = (a ++ [45] ++ (b ++ [45]) ++ (c ++ [45])) ++ (d ++ 45 :: e) := by
    simp only [s, List.append_assoc, List.cons_append, List.nil_append]
  have s₄ : s = (a ++ [45] ++ (b ++ [45]) ++ (c ++ [45]) ++ (d ++ [45])) ++ e := by
    simp only [s, List.append_assoc, List.cons_append, List.nil_append]
  have group₁ : s.take 8 = a := List.take_left' first
  have group₂ : (s.drop 9).take 4 = b := by
    rw [s₁, List.drop_left' nine, List.take_left' second]
  have group₃ : (s.drop 14).take 4 = c := by
    rw [s₂, List.drop_left' fourteen, List.take_left' third]
  have group₄ : (s.drop 19).take 4 = d := by
    rw [s₃, List.drop_left' nineteen, List.take_left' fourth]
  have group₅ : s.drop 24 = e := by
    rw [s₄, List.drop_left' twentyFour]
  rw [group₁, group₂, group₃, group₄, group₅]

/-- 32 digits are groups. -/
theorem digit_groups {s : Text} (length : s.length = 32) :
    ∃ a b c d e : Text, s = a ++ (b ++ (c ++ (d ++ e))) ∧ a.length = 8 ∧ b.length = 4 ∧
      c.length = 4 ∧ d.length = 4 ∧ e.length = 12 := by
  refine ⟨s.take 8, (s.drop 8).take 4, (s.drop 12).take 4, (s.drop 16).take 4, s.drop 20, ?_, ?_⟩
  · have last : s.drop 20 = (s.drop 16).drop 4 := by rw [List.drop_drop]
    have fourth : s.drop 16 = (s.drop 12).drop 4 := by rw [List.drop_drop]
    have third : s.drop 12 = (s.drop 8).drop 4 := by rw [List.drop_drop]
    rw [last, List.take_append_drop, fourth, List.take_append_drop, third, List.take_append_drop,
      List.take_append_drop]
  · simp only [List.length_take, List.length_drop]
    omega

theorem uuidText_length (id : Uuid) : (uuidText id).length = 36 := by
  obtain ⟨a, b, c, d, e, shape, first, second, third, fourth, fifth⟩ :=
    digit_groups (uuidHex_length id)
  rw [uuidText, shape, hyphened_groups first second third fourth]
  simp only [List.length_append, List.length_cons]
  omega

/-- What `str` writes of an identifier is read as that identifier. -/
theorem parseUuid_text (id : Uuid) : parseUuid (uuidText id) = some id := by
  have length := uuidText_length id
  obtain ⟨a, b, c, d, e, shape, first, second, third, fourth, -⟩ :=
    digit_groups (uuidHex_length id)
  have grouped := hyphened_groups (e := e) first second third fourth
  have digits := unhyphened_groups (e := e) first second third fourth
  have hyphens : parseHyphened (uuidText id) = some id := by
    have text : uuidText id = a ++ 45 :: (b ++ 45 :: (c ++ 45 :: (d ++ 45 :: e))) := by
      rw [uuidText, shape, grouped]
    rw [text, parseHyphened]
    dsimp only at digits ⊢
    rw [digits, grouped, if_pos rfl, ← shape, parseSimple_hex]
  rw [parseUuid, if_neg (by omega), if_neg (by omega), if_neg (by omega), hyphens]

/-! ## Names -/

theorem natText_isDigit (n : Nat) : ∀ c ∈ natText n, isDigit c = true :=
  fun c member => PythonJson.digit_of_range (natText_digit n c member)

theorem generationText_iff {n : Nat} (positive : 0 < n) :
    generationText (natText n) = true ↔ n ≤ 999999999 := by
  have digits : (natText n).all isDigit = true := List.all_eq_true.2 (natText_isDigit n)
  have lead : (natText n).head?.any (fun c => c != 48) = true := by
    have first := PythonJson.natText_head positive
    cases written : natText n with
    | nil => exact absurd written (natText_nonempty n)
    | cons c rest =>
      rw [written] at first
      exact bne_iff_ne.2 fun zero => first (congrArg some zero)
  have bound : (natText n).length ≤ 9 ↔ n < 10 ^ 9 := by
    rw [natText, List.length_map]
    exact Nat.length_toDigits_le_iff (by decide) (by decide)
  rw [generationText, digits, lead, Bool.and_true, Bool.true_and, decide_eq_true_eq, bound]
  omega

def nameText (jobId : Uuid) (generation : Nat) : Text :=
  units "timestamp-" ++ (uuidHex jobId ++ (units "-g" ++ natText generation))

theorem nameText_pattern (jobId : Uuid) (generation : Nat) :
    taskNamePattern (nameText jobId generation) = generationText (natText generation) := by
  have hex := uuidHex_length jobId
  have begins : (units "timestamp-").length = 10 := by decide
  have marks : (units "-g").length = 2 := by decide
  have both : (units "timestamp-" ++ uuidHex jobId).length = 42 := by
    rw [List.length_append, begins, hex]
  have all : (units "timestamp-" ++ uuidHex jobId ++ units "-g").length = 44 := by
    rw [List.length_append, both, marks]
  have first : (nameText jobId generation).take 10 = units "timestamp-" :=
    List.take_left' begins
  have digits : ((nameText jobId generation).drop 10).take 32 = uuidHex jobId := by
    rw [nameText, List.drop_left' begins, List.take_left' hex]
  have mark : ((nameText jobId generation).drop 42).take 2 = units "-g" := by
    rw [nameText, ← List.append_assoc, List.drop_left' both, List.take_left' marks]
  have last : (nameText jobId generation).drop 44 = natText generation := by
    rw [nameText, ← List.append_assoc, ← List.append_assoc, List.drop_left' all]
  have lower : (uuidHex jobId).all lowerHex = true :=
    List.all_eq_true.2 (hexText_lowerHex 32 jobId.toNat)
  rw [taskNamePattern, first, digits, mark, last, hex, lower]
  simp only [beq_self_eq_true, Bool.true_and]

/-- Which generations have a name, and the name they have. -/
theorem taskName_ok {jobId : Uuid} {generation : Nat} {name : Text} :
    deterministicTaskName jobId generation = .ok name ↔
      (1 ≤ generation ∧ generation ≤ 999999999) ∧ name = nameText jobId generation := by
  unfold deterministicTaskName
  by_cases zero : generation < 1
  · rw [if_pos zero]
    constructor
    · intro failed
      cases failed
    · intro named
      omega
  · rw [if_neg zero]
    have pattern := nameText_pattern jobId generation
    have within := generationText_iff (n := generation) (by omega)
    rw [nameText] at pattern ⊢
    dsimp only
    rw [pattern]
    by_cases small : generation ≤ 999999999
    · rw [within.2 small, if_neg (by decide)]
      constructor
      · intro ok
        cases ok
        exact ⟨⟨by omega, small⟩, rfl⟩
      · rintro ⟨-, rfl⟩
        rfl
    · rw [Bool.eq_false_of_not_eq_true fun fits => small (within.1 fits), if_pos rfl]
      constructor
      · intro failed
        cases failed
      · intro named
        omega

/-- A name belongs to one generation of one job. -/
theorem nameText_injective {first second : Uuid} {m n : Nat}
    (same : nameText first m = nameText second n) : first = second ∧ m = n := by
  have rest := List.append_cancel_left same
  have digits : uuidHex first = uuidHex second :=
    List.append_inj_left rest (by rw [uuidHex_length, uuidHex_length])
  rw [digits] at rest
  have numbers := List.append_cancel_left (List.append_cancel_left rest)
  exact ⟨uuidHex_injective digits, natText_injective numbers⟩

theorem nameText_component (jobId : Uuid) (generation : Nat) :
    ∀ c ∈ nameText jobId generation, (c != 47) = true := by
  have begins : ∀ c ∈ units "timestamp-", c ≠ 47 := by decide
  have marks : ∀ c ∈ units "-g", c ≠ 47 := by decide
  intro c member
  rw [bne_iff_ne]
  rcases List.mem_append.1 member with fixed | member
  · exact begins c fixed
  rcases List.mem_append.1 member with hex | member
  · have digit := hexText_lowerHex 32 jobId.toNat c hex
    intro slash
    rw [slash] at digit
    exact absurd digit (by decide)
  rcases List.mem_append.1 member with mark | number
  · exact marks c mark
  · have digit := natText_digit generation c number
    omega

theorem lastComponent_short (jobId : Uuid) (generation : Nat) :
    lastComponent (nameText jobId generation) = nameText jobId generation := by
  have plain : ∀ c ∈ (nameText jobId generation).reverse, (c != 47) = true :=
    fun c member => nameText_component jobId generation c (List.mem_reverse.1 member)
  rw [lastComponent, List.rtakeWhile, List.takeWhile_eq_self_iff.2 plain, List.reverse_reverse]

/-- The name is the last component of the task's path. -/
theorem lastComponent_name (parent : Text) (jobId : Uuid) (generation : Nat) :
    lastComponent (parent ++ (units "/tasks/" ++ nameText jobId generation)) =
      nameText jobId generation := by
  have plain : ∀ c ∈ (nameText jobId generation).reverse, (c != 47) = true :=
    fun c member => nameText_component jobId generation c (List.mem_reverse.1 member)
  have shape : parent ++ (units "/tasks/" ++ nameText jobId generation) =
      (parent ++ units "/tasks") ++ 47 :: nameText jobId generation := by
    rw [List.append_assoc]
    rfl
  rw [shape, lastComponent, List.rtakeWhile, List.reverse_append, List.reverse_cons,
    List.append_assoc, List.takeWhile_append_of_pos plain, List.singleton_append,
    List.takeWhile_cons_of_neg (by decide), List.append_nil, List.reverse_reverse]

/-! ## Bodies -/

def payloadText (jobId : Uuid) (generation : Nat) : Text :=
  123 :: 34 :: (units "generation" ++ 34 :: 58 :: (natText generation ++ 44 :: 34 ::
    (units "job_id" ++ 34 :: 58 :: 34 :: (uuidText jobId ++ [34, 125]))))

/-- The characters of the two keys and the marks around them. -/
def payloadMarks : Text := units "generation,job_id:-" ++ [123, 34, 125]

/-- What the endpoint and the two filters of the payload ask of its characters. -/
def PayloadChar (c : Nat) : Prop := (0 < c ∧ c < 128) ∧ c ≠ 64 ∧ CodeUnits.lowerUnit c ≠ 107

theorem marks_allowed : ∀ c ∈ payloadMarks, PayloadChar c := by
  unfold PayloadChar
  decide

theorem lowerHex_small {c : Nat} (hex : lowerHex c = true) : c < 103 := by
  simp only [lowerHex, Bool.or_eq_true, Bool.and_eq_true, decide_eq_true_eq] at hex
  omega

theorem lowerHex_allowed {c : Nat} (hex : lowerHex c = true) : PayloadChar c := by
  have every : ∀ c < 103, lowerHex c = true → PayloadChar c := by
    unfold PayloadChar
    decide
  exact every c (lowerHex_small hex) hex

theorem uuidText_chars (id : Uuid) : ∀ c ∈ uuidText id, lowerHex c = true ∨ c = 45 := by
  have hex := hexText_lowerHex 32 id.toNat
  obtain ⟨a, b, c, d, e, shape, first, second, third, fourth, -⟩ :=
    digit_groups (uuidHex_length id)
  intro x member
  rw [uuidText, shape, hyphened_groups first second third fourth] at member
  by_cases hyphen : x = 45
  · exact .inr hyphen
  · refine .inl (hex x ?_)
    have digits : hexText 32 id.toNat = a ++ (b ++ (c ++ (d ++ e))) := shape
    rw [digits]
    simp only [List.mem_append, List.mem_cons, hyphen, false_or] at member ⊢
    exact member

theorem payloadText_chars (jobId : Uuid) (generation : Nat) :
    ∀ c ∈ payloadText jobId generation, lowerHex c = true ∨ c ∈ payloadMarks := by
  have marks : ∀ c ∈ [123, 34, 58, 44, 125, 45], c ∈ payloadMarks := by decide
  have firstKey : ∀ c ∈ units "generation", c ∈ payloadMarks := by decide
  have secondKey : ∀ c ∈ units "job_id", c ∈ payloadMarks := by decide
  intro c member
  simp only [payloadText, List.mem_append, List.mem_cons, List.not_mem_nil, or_false] at member
  rcases member with mark | mark | key | mark | mark | number | mark | mark | key | mark | mark |
    mark | id | mark | mark
  · exact .inr (marks c (by simp [mark]))
  · exact .inr (marks c (by simp [mark]))
  · exact .inr (firstKey c key)
  · exact .inr (marks c (by simp [mark]))
  · exact .inr (marks c (by simp [mark]))
  · have digit := natText_digit generation c number
    left
    simp only [lowerHex, Bool.or_eq_true, Bool.and_eq_true, decide_eq_true_eq]
    omega
  · exact .inr (marks c (by simp [mark]))
  · exact .inr (marks c (by simp [mark]))
  · exact .inr (secondKey c key)
  · exact .inr (marks c (by simp [mark]))
  · exact .inr (marks c (by simp [mark]))
  · exact .inr (marks c (by simp [mark]))
  · rcases uuidText_chars jobId c id with hex | hyphen
    · exact .inl hex
    · exact .inr (marks c (by simp [hyphen]))
  · exact .inr (marks c (by simp [mark]))
  · exact .inr (marks c (by simp [mark]))

theorem payloadText_allowed (jobId : Uuid) (generation : Nat) :
    ∀ c ∈ payloadText jobId generation, PayloadChar c := by
  intro c member
  rcases payloadText_chars jobId generation c member with hex | mark
  · exact lowerHex_allowed hex
  · exact marks_allowed c mark

theorem print_payload (words : FloatWords F) (jobId : Uuid) (generation : Nat) :
    print (compactAscii words) 0 (.object (payloadFields jobId generation)) =
      payloadText jobId generation := by
  have every : ∀ c < 103, lowerHex c = true → PythonJson.plainChar c = true := by decide
  have plain : PythonJson.asciiEscape (uuidText jobId) = uuidText jobId := by
    refine PythonJson.asciiEscape_plain fun c member => ?_
    rcases uuidText_chars jobId c member with hex | hyphen
    · exact every c (lowerHex_small hex) hex
    · rw [hyphen]
      rfl
  have firstKey : PythonJson.asciiEscape (units "generation") = units "generation" := by decide
  have secondKey : PythonJson.asciiEscape (units "job_id") = units "job_id" := by decide
  have number : PythonJson.writeNumber words (.int (generation : Int)) = natText generation := by
    rw [PythonJson.writeNumber, intText, if_neg (by omega), Int.natAbs_natCast]
  rw [payloadFields, print]
  simp only [print, JsonText.printFields, JsonText.Dialect.quoted, compactAscii, firstKey,
    secondKey, plain, number, List.nil_append, List.append_nil, List.append_assoc,
    List.cons_append, payloadText]

/-- The keys stand in their order. -/
theorem dumps_payload (words : FloatWords F) (jobId : Uuid) (generation : Nat) :
    dumps words (.object (payloadFields jobId generation)) = payloadText jobId generation := by
  have sorted : rebuild sortFields (.object (payloadFields jobId generation) : Json (PyNumber F)) =
      .object (payloadFields jobId generation) := by
    simp only [rebuild, JsonText.rebuildFields, payloadFields, sortFields, List.insertionSort_cons,
      List.insertionSort_nil, List.orderedInsert_nil, List.orderedInsert_cons]
    rw [if_pos (by decide)]
  rw [dumps, sorted, print_payload]

theorem natText_nine {n : Nat} (small : n ≤ 999999999) : (natText n).length ≤ 9 :=
  PythonJson.natText_length (by decide) (by omega)

theorem payloadText_length (jobId : Uuid) {generation : Nat} (small : generation ≤ 999999999) :
    1 ≤ (payloadText jobId generation).length ∧ (payloadText jobId generation).length ≤ 72 := by
  have number := natText_nine small
  have id := uuidText_length jobId
  have firstKey : (units "generation").length = 10 := by decide
  have secondKey : (units "job_id").length = 6 := by decide
  simp only [payloadText, List.length_cons, List.length_append, List.length_nil]
  omega

theorem contains_mem {part text : Text} (found : contains part text = true) :
    ∀ c ∈ part, c ∈ text := by
  obtain ⟨suffix, member, start⟩ := List.any_eq_true.1 found
  intro c inside
  have here := (List.isPrefixOf_iff_prefix.1 start).subset inside
  exact ((List.mem_tails _ _).1 member).subset here

/-- Every generation with a name has a payload. -/
theorem taskPayload_ok (words : FloatWords F) (jobId : Uuid) {generation : Nat}
    (small : generation ≤ 999999999) :
    taskPayload words jobId generation = .ok ((payloadText jobId generation).map UInt8.ofNat) := by
  have length := payloadText_length jobId small
  have allowed := payloadText_allowed jobId generation
  have noAt : ¬ contains [64] (payloadText jobId generation) = true := by
    intro found
    have member := contains_mem found 64 List.mem_cons_self
    exact (allowed 64 member).2.1 rfl
  have noToken :
      ¬ contains (units "token") (toLowerCase (payloadText jobId generation)) = true := by
    intro found
    obtain ⟨c, member, same⟩ := List.mem_map.1 (contains_mem found 107 (by decide))
    exact (allowed c member).2.2 same
  rw [taskPayload, dumps_payload, if_neg (not_or.2 ⟨by omega, not_or.2 ⟨noAt, noToken⟩⟩)]

/-! ## Requests -/

theorem payload_fits (jobId : Uuid) {generation : Nat} (small : generation ≤ 999999999) :
    Fits Short maxTaskBody (.object (payloadFields jobId generation) : Json (PyNumber F)) := by
  have short : Short (.int generation : PyNumber F) := by
    rintro m ⟨⟩
    have digits := natText_nine small
    rw [intText, if_neg (by omega), Int.natAbs_natCast]
    exact digits.trans (by decide)
  rw [maxTaskBody, Fits, payloadFields, FitsFields, FitsFields, FitsFields, Fits, Fits]
  exact ⟨short, trivial, trivial⟩

theorem loads_payload (words : FloatWords F) (jobId : Uuid) {generation : Nat}
    (small : generation ≤ 999999999) :
    loads words.float maxTaskBody ((payloadText jobId generation).map UInt8.ofNat) =
      .ok (.object (payloadFields jobId generation)) := by
  have allowed := payloadText_allowed jobId generation
  have read := PythonJson.loads_print words (payload_fits jobId small)
  rw [print_payload] at read
  have distinct : (JsonText.keys (payloadFields jobId generation :
      List (Text × Json (PyNumber F)))).Nodup := by
    have keys : [units "generation", units "job_id"].Nodup := by decide
    exact keys
  rw [read fun c member => (allowed c member).1]
  simp only [rebuild, payloadFields, JsonText.rebuildFields] at distinct ⊢
  rw [PythonJson.dict_distinct distinct]

theorem validatePayload_fields (jobId : Uuid) {generation : Nat}
    (range : 1 ≤ generation ∧ generation ≤ 999999999) :
    validatePayload (.object (payloadFields jobId generation) : Json (PyNumber F)) =
      some ⟨jobId, generation⟩ := by
  have different : ¬ units "generation" = units "job_id" := by decide
  have id : field (payloadFields jobId generation : List (Text × Json (PyNumber F)))
      (units "job_id") = some (.text (uuidText jobId)) := by
    simp only [field, payloadFields, List.find?_cons, decide_eq_false different, decide_true,
      Option.map_some]
  have number : field (payloadFields jobId generation : List (Text × Json (PyNumber F)))
      (units "generation") = some (.number (.int generation)) := by
    simp only [field, payloadFields, List.find?_cons, decide_true, Option.map_some]
  have expected : (payloadFields jobId generation : List (Text × Json (PyNumber F))).all
      (fun field => field.1 = units "job_id" ∨ field.1 = units "generation") = true := by
    simp only [payloadFields, List.all_cons, List.all_nil, or_true, true_or, decide_true,
      Bool.and_true]
  have within : (1 : Int) ≤ generation ∧ (generation : Int) ≤ 999999999 := by omega
  rw [validatePayload, if_pos expected, id, number]
  simp only [Option.bind_some, jobIdField, parseUuid_text, generationField, if_pos within,
    Int.toNat_natCast, bind, pure]

theorem intDigits_digits {s : Text} (digits : ∀ c ∈ s, isDigit c = true) (some_digit : s ≠ []) :
    intDigits s = true := by
  induction s with
  | nil => exact absurd rfl some_digit
  | cons c rest ih =>
    have here := digits c List.mem_cons_self
    cases rest with
    | nil => exact here
    | cons d rest =>
      have later := ih (fun e member => digits e (List.mem_cons_of_mem _ member))
        (List.cons_ne_nil d rest)
      rw [intDigits, here, later]
      rfl

theorem strip_digits {s : Text} (digits : ∀ c ∈ s, isDigit c = true) : strip s = s := by
  have solid : ∀ c ∈ s, pythonSpace c = false := by
    intro c member
    have digit := digits c member
    simp only [isDigit, Bool.and_eq_true, decide_eq_true_eq] at digit
    simp only [pythonSpace, Bool.or_eq_false_iff, Bool.and_eq_false_iff, decide_eq_false_iff_not,
      beq_eq_false_iff_ne]
    omega
  have first : s.dropWhile pythonSpace = s := by
    cases s with
    | nil => rfl
    | cons c rest =>
      exact List.dropWhile_cons_of_neg (Bool.eq_false_iff.1 (solid c List.mem_cons_self))
  rw [strip, first, JsNumbers.rdropWhile_last pythonSpace solid]

/-- A decimal number is read back. -/
theorem int_natText {n : Nat} (short : (natText n).length ≤ maxStrDigits) :
    int (natText n) = some (n : Int) := by
  have digits := natText_isDigit n
  have filled := natText_nonempty n
  have shape := intDigits_digits digits filled
  have kept : (natText n).filter (· != 95) = natText n := by
    refine List.filter_eq_self.2 fun c member => ?_
    have digit := natText_digit n c member
    exact bne_iff_ne.2 (by omega)
  have plain : natOf (natText n) = some n := by
    simp only [natOf, kept, shape, short, true_and, if_true, readNat_natText]
  have unsigned : ∀ c ∈ (natText n).head?, c ≠ 43 ∧ c ≠ 45 := by
    intro c first
    have digit := natText_digit n c (List.mem_of_mem_head? first)
    omega
  unfold int
  rw [strip_digits digits]
  split
  · next same => exact absurd rfl (unsigned 43 (by rw [same]; rfl)).1
  · next same => exact absurd rfl (unsigned 45 (by rw [same]; rfl)).2
  · rw [plain]
    rfl

/-- A generation has a task exactly when it has a name. -/
theorem taskFor_ok {settings : CreatorSettings} {words : FloatWords F} {jobId : Uuid}
    {generation : Nat} {scheduleAt : Instant} {task : CloudTask} :
    taskFor settings words jobId generation scheduleAt = .ok task ↔
      (1 ≤ generation ∧ generation ≤ 999999999) ∧
        task = cloudTask settings (nameText jobId generation)
          ((payloadText jobId generation).map UInt8.ofNat) scheduleAt := by
  constructor
  · intro created
    obtain ⟨name, named, created⟩ := FallibleSteps.except_bind_ok created
    obtain ⟨payload, dumped, created⟩ := FallibleSteps.except_bind_ok created
    obtain ⟨range, rfl⟩ := taskName_ok.1 named
    rw [taskPayload_ok words jobId range.2] at dumped
    cases dumped
    cases created
    exact ⟨range, rfl⟩
  · rintro ⟨range, rfl⟩
    exact FallibleSteps.bind_pass (taskName_ok.2 ⟨range, rfl⟩)
      (FallibleSteps.bind_pass (taskPayload_ok words jobId range.2) rfl)

/-- The request of a created task is read as the job and generation it was created for. -/
theorem readTask_sent {settings : CreatorSettings} {words : FloatWords F} {jobId : Uuid}
    {generation : Nat} {scheduleAt : Instant} {task : CloudTask} {queue : Text}
    {request : TaskRequest}
    (created : taskFor settings words jobId generation scheduleAt = .ok task)
    (sends : Sends queue task request) :
    readTask words.float queue request = .ok ⟨jobId, generation⟩ := by
  obtain ⟨range, rfl⟩ := taskFor_ok.1 created
  obtain ⟨header, supplied, last⟩ := sends.taskName
  have component : lastComponent header = nameText jobId generation :=
    last.trans (lastComponent_name settings.parent jobId generation)
  have size := payloadText_length jobId range.2
  have most : maxTaskBody = 128 := rfl
  have type : toLowerCase (strip (mediaType (units "application/json"))) =
      units "application/json" := by decide
  have body : (loads words.float maxTaskBody
      ((payloadText jobId generation).map UInt8.ofNat)).toOption.bind validatePayload =
        some ⟨jobId, generation⟩ := by
    rw [loads_payload words jobId range.2, Except.toOption, Option.bind_some,
      validatePayload_fields jobId range]
  have declared : int (natText (payloadText jobId generation).length) =
      some ((payloadText jobId generation).length : Int) := by
    have digits := PythonJson.natText_length (show 0 < 2 by decide)
      (show (payloadText jobId generation).length < 10 ^ 2 by omega)
    exact int_natText (digits.trans (by decide))
  unfold readTask
  rw [sends.contentType, sends.contentLength, sends.queueName, sends.body, supplied]
  simp only [Option.getD_some, cloudTask, type, declared, List.length_map, body]
  refine FallibleSteps.guard_pass ?_ (FallibleSteps.guard_pass ?_
    (FallibleSteps.bind_pass (taskName_ok.2 ⟨range, rfl⟩) (FallibleSteps.guard_pass ?_ rfl)))
  · rintro (other | outside | other)
    · exact other rfl
    · omega
    · exact other rfl
  · rintro (other | large)
    · exact other rfl
    · omega
  · exact not_not.2 component

/-- What is read bears the name of its job and generation. -/
theorem readTask_named {float : Text → F} {queue : Text} {request : TaskRequest}
    {payload : TaskPayload} (read : readTask float queue request = .ok payload) :
    lastComponent (request.taskName.getD []) = nameText payload.jobId payload.generation := by
  unfold readTask at read
  dsimp only at read
  split at read
  · cases read
  obtain ⟨-, read⟩ := FallibleSteps.guard_ok read
  obtain ⟨-, read⟩ := FallibleSteps.guard_ok read
  split at read
  · cases read
  obtain ⟨name, named, read⟩ := FallibleSteps.except_bind_ok read
  obtain ⟨same, read⟩ := FallibleSteps.guard_ok read
  cases read
  obtain ⟨-, rfl⟩ := taskName_ok.1 named
  exact not_not.1 same

/-- Every nameable generation of every job has a task, the request of that task is read as this
job and generation, and no request under its name is read as anything else. -/
theorem task_requests (settings : CreatorSettings) (words : FloatWords F) (jobId : Uuid)
    (generation : Nat) (scheduleAt : Instant) :
    ((∃ task, taskFor settings words jobId generation scheduleAt = .ok task) ↔
        1 ≤ generation ∧ generation ≤ 999999999) ∧
      ∀ task, taskFor settings words jobId generation scheduleAt = .ok task →
        (∀ queue request, Sends queue task request →
          readTask words.float queue request = .ok ⟨jobId, generation⟩) ∧
        ∀ queue request payload, readTask words.float queue request = .ok payload →
          lastComponent (request.taskName.getD []) = lastComponent task.name →
            payload = ⟨jobId, generation⟩ := by
  refine ⟨⟨?_, fun range => ⟨_, taskFor_ok.2 ⟨range, rfl⟩⟩⟩, fun task created => ⟨?_, ?_⟩⟩
  · rintro ⟨task, created⟩
    exact (taskFor_ok.1 created).1
  · intro queue request sends
    exact readTask_sent created sends
  · intro queue request payload read same
    obtain ⟨-, rfl⟩ := taskFor_ok.1 created
    rw [readTask_named read, cloudTask, lastComponent_name] at same
    obtain ⟨job, number⟩ := nameText_injective same
    rw [← job, ← number]

def sampleSettings : CreatorSettings where
  parent := units "projects/p/locations/l/queues/timestamp-jobs"
  workerUrl := units "https://worker.test/internal/tasks/run"
  serviceAccountEmail := units "tasks@p.iam.test"
  audience := units "https://worker.test"

/-- The request of the third generation of a job, with the short name of its task. -/
def sampleRequest : TaskRequest where
  contentType := some (units "application/json")
  contentLength := some (natText ((payloadText 7 3).map UInt8.ofNat).length)
  taskName := some (nameText 7 3)
  queueName := some (units "timestamp-jobs")
  body := (payloadText 7 3).map UInt8.ofNat

theorem task_requests_third :
    readTask zeroFloats.float (units "timestamp-jobs") sampleRequest = .ok ⟨7, 3⟩ := by
  have created : taskFor sampleSettings zeroFloats 7 3 0 = .ok (cloudTask sampleSettings
      (nameText 7 3) ((payloadText 7 3).map UInt8.ofNat) 0) := taskFor_ok.2 ⟨by decide, rfl⟩
  refine ((task_requests sampleSettings zeroFloats 7 3 0).2 _ created).1 _ sampleRequest ?_
  exact ⟨rfl, rfl,
    ⟨_, rfl, (lastComponent_short 7 3).trans (lastComponent_name _ 7 3).symm⟩, rfl, rfl⟩

end TaskRequests
