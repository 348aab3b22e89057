import SpacerocksCoa.CodeUnits
import SpacerocksCoa.JsonOrder
import SpacerocksCoa.JsonReaders
import SpacerocksCoa.FallibleSteps
import SpacerocksCoa.Base64Text
import SpacerocksCoa.CheckoutReservations

/-!
# Idempotency keys and request bindings

A key is the canonical unpadded base64url text of 16 to 64 bytes. A request is bound by the
hash of its method, its path and its body in canonical JSON, joined by NUL bytes, so requests
without a NUL in method or path have one preimage only when they are the same, and a
reservation of one request is no replay for another.

Texts are lists of code points, lone surrogates included. The hash is a parameter, and so are
the floats that the encoder prints, with their `repr` and the `float` that reads it.
-/
namespace IdempotencyKeys
open JsonText Base64Text CheckoutReservations OrderStates
open CodeUnits (natText natText_digit natText_nonempty readNat readNat_natText)

/-! ## Numbers and texts -/

/-- The finite floats: what `repr` writes `float` reads, and it never looks like an integer. -/
structure FloatFormat (F : Type) where
  repr : F → Text
  float : Text → Option F
  float_repr : ∀ x, float (repr x) = some x
  numeric : ∀ x, ∀ c ∈ repr x, isNumeric c = true
  marked : ∀ x, 46 ∈ repr x ∨ 101 ∈ repr x

/-- The numbers that the encoder prints. -/
inductive PyNumber (F : Type) where
  | int (value : Int)
  | float (value : F)

def intText (n : Int) : Text := if n < 0 then 45 :: natText n.natAbs else natText n.natAbs

def readInt : Text → Int
  | 45 :: s => -(readNat s : Int)
  | s => (readNat s : Int)

variable {F : Type}

def numberText (floats : FloatFormat F) : PyNumber F → Text
  | .int n => intText n
  | .float x => floats.repr x

def readNumber (floats : FloatFormat F) (s : Text) : Option (PyNumber F) :=
  if 46 ∈ s ∨ 101 ∈ s then (floats.float s).map .float else some (.int (readInt s))

theorem intText_chars (n : Int) : ∀ c ∈ intText n, c = 45 ∨ 48 ≤ c ∧ c ≤ 57 := by
  intro c member
  unfold intText at member
  split at member
  · rcases List.mem_cons.1 member with sign | digit
    · exact .inl sign
    · exact .inr (natText_digit _ c digit)
  · exact .inr (natText_digit _ c member)

theorem readInt_intText (n : Int) : readInt (intText n) = n := by
  unfold intText
  by_cases negative : n < 0
  · rw [if_pos negative, readInt, readNat_natText]
    omega
  · rw [if_neg negative]
    cases written : natText n.natAbs with
    | nil => exact absurd written (natText_nonempty _)
    | cons c rest =>
      have digit := natText_digit n.natAbs c (written ▸ List.mem_cons_self)
      have plain : readInt (c :: rest) = readNat (c :: rest) := by
        unfold readInt
        split
        next same => exact absurd (List.cons.inj same).1 (by omega)
        next => rfl
      rw [plain, ← written, readNat_natText]
      omega

theorem readNumber_numberText (floats : FloatFormat F) (n : PyNumber F) :
    readNumber floats (numberText floats n) = some n := by
  cases n with
  | int n =>
    have plain : ¬ (46 ∈ intText n ∨ 101 ∈ intText n) := by
      rintro (point | exponent)
      · have chars := intText_chars n 46 point
        omega
      · have chars := intText_chars n 101 exponent
        omega
    rw [numberText, readNumber, if_neg plain, readInt_intText]
  | float x =>
    rw [numberText, readNumber, if_pos (floats.marked x), floats.float_repr]
    rfl

theorem numberText_numeric (floats : FloatFormat F) (n : PyNumber F) :
    ∀ c ∈ numberText floats n, isNumeric c = true := by
  intro c member
  cases n with
  | int n =>
    rcases intText_chars n c member with sign | digit
    · subst sign
      rfl
    · simp only [isNumeric, digit.1, digit.2, decide_true, Bool.and_true, Bool.true_or]
  | float x => exact floats.numeric x c member

theorem numberText_nonempty (floats : FloatFormat F) (n : PyNumber F) :
    numberText floats n ≠ [] := by
  intro empty
  cases n with
  | int n =>
    rw [numberText, intText] at empty
    split at empty
    · cases empty
    · exact natText_nonempty _ empty
  | float x =>
    have marked := floats.marked x
    rw [show floats.repr x = [] from empty] at marked
    exact marked.elim List.not_mem_nil List.not_mem_nil

/-- The numbers of Python as they stand in JSON. -/
def pyNumbers (floats : FloatFormat F) : NumberFormat (PyNumber F) where
  write := numberText floats
  read := readNumber floats
  read_write := readNumber_numberText floats
  numeric := numberText_numeric floats
  nonempty := numberText_nonempty floats

/-! ## Canonical JSON -/

/-- `ESCAPE_DCT`, with `ensure_ascii=False`: only marks and control characters. -/
def escape (s : Text) : Text := s.flatMap escapeChar

theorem spelled_escape (s : Text) : Spelled s (escape s) := by
  induction s with
  | nil => exact .nil
  | cons c s ih => exact spelled_escapeChar c ih

/-- `separators=(",", ":")` -/
def compact (floats : FloatFormat F) : Dialect (PyNumber F) where
  numbers := pyNumbers floats
  escape := escape
  newline := fun _ => []
  afterColon := []
  escape_spelled := spelled_escape
  newline_space := fun _ => no_space
  colon_space := no_space

/-- `json.dumps` with `sort_keys=True`. -/
def dumps (floats : FloatFormat F) (body : Json (PyNumber F)) : Text :=
  print (compact floats) 0 (rebuild sortFields body)

/-- A code point that UTF-8 encodes. -/
def codePoint (c : Nat) : Option Char := if c.isValidChar then some (Char.ofNat c) else none

/-- `encode("utf-8")`, which refuses surrogates. -/
def encodeUtf8 (s : Text) : Option (List UInt8) :=
  (s.mapM codePoint).map fun chars => chars.flatMap String.utf8EncodeChar

def canonicalJson (floats : FloatFormat F) (body : Json (PyNumber F)) :
    Except String (List UInt8) :=
  match encodeUtf8 (dumps floats body) with
  | none => .error "request body is not canonicalizable JSON"
  | some bytes => .ok bytes

/-! ## Keys and bindings -/

/-- `[A-Za-z0-9_-]` -/
def keyChar (c : Nat) : Bool :=
  (65 ≤ c && c ≤ 90) || (97 ≤ c && c ≤ 122) || (48 ≤ c && c ≤ 57) || c == 95 || c == 45

/-- `_decode_key` -/
def decodeKey (key : Text) : Except String (List UInt8) :=
  if ¬ (22 ≤ key.length ∧ key.length ≤ 86 ∧ key.all keyChar) then
    .error "idempotency key must be unpadded base64url containing 128 through 512 bits"
  else
    match b64decode (key ++ padding key) with
    | none => .error "idempotency key must be valid base64url"
    | some decoded =>
      if unpadded decoded ≠ key ∨ ¬ (16 ≤ decoded.length ∧ decoded.length ≤ 64) then
        .error "idempotency key must contain 128 through 512 bits"
      else .ok decoded

def isAscii (s : Text) : Bool := s.all (· < 128)

/-- `upper` of an ASCII text. -/
def upper (s : Text) : Text := s.map fun c => if 97 ≤ c ∧ c ≤ 122 then c - 32 else c

/-- The arguments of a binding besides the key; a `dict` has each key once. -/
structure Request (F : Type) where
  method : Text
  path : Text
  body : Json (PyNumber F)
  distinct : Distinct body

/-- The bytes that are hashed, and the body among them. -/
def requestPreimage (floats : FloatFormat F) (request : Request F) :
    Except String (List UInt8 × List UInt8) := do
  if isAscii request.method = false ∨ upper request.method ≠ request.method ∨
      request.path.head? ≠ some 47 then
    throw "method and path must be canonical"
  let canonicalBody ← canonicalJson floats request.body
  match encodeUtf8 request.path with
  | none => throw "surrogates not allowed"
  | some path =>
    return (request.method.map UInt8.ofNat ++ 0 :: (path ++ 0 :: canonicalBody), canonicalBody)

structure RequestBinding extends IdempotencyBinding where
  canonicalBody : List UInt8

def keyPrefix : List UInt8 := "spacerocks-idempotency-key".toList.map fun c => UInt8.ofNat c.toNat

/-- `bind_idempotency_request` -/
def bindIdempotencyRequest (sha256 : List UInt8 → Sha256) (floats : FloatFormat F) (key : Text)
    (request : Request F) : Except String RequestBinding := do
  let keyBytes ← decodeKey key
  let hashed ← requestPreimage floats request
  return ⟨⟨sha256 (keyPrefix ++ 0 :: keyBytes), sha256 hashed.1⟩, hashed.2⟩

/-! ## Keys -/

theorem keyChar_alphabet {v : Nat} (small : v < 64) : keyChar (alphabet v) = true := by
  have every : ∀ v < 64, keyChar (alphabet v) = true := by decide
  exact every v small

/-- A key is accepted exactly as the canonical text of its bytes. -/
theorem decodeKey_iff (key : Text) (bytes : List UInt8) :
    decodeKey key = .ok bytes ↔
      (16 ≤ bytes.length ∧ bytes.length ≤ 64) ∧ key = unpadded bytes := by
  constructor
  · intro ok
    unfold decodeKey at ok
    split at ok
    · cases ok
    · split at ok
      · cases ok
      next decoded _ =>
        split at ok
        · cases ok
        next good =>
          cases ok
          obtain ⟨canonical, sized⟩ := not_or.1 good
          exact ⟨not_not.1 sized, (not_not.1 canonical).symm⟩
  · rintro ⟨sized, canonical⟩
    have length := digits_length bytes
    have chars : (digits bytes).all keyChar = true := by
      rw [List.all_eq_true]
      intro c member
      obtain ⟨v, small, same⟩ := digits_alphabet bytes c member
      rw [same]
      exact keyChar_alphabet small
    have shaped : 22 ≤ key.length ∧ key.length ≤ 86 ∧ key.all keyChar = true := by
      rw [canonical, unpadded_digits]
      exact ⟨by omega, by omega, chars⟩
    have decoded : b64decode (key ++ padding key) = some bytes := by
      rw [canonical]
      exact b64decode_unpadded bytes
    rw [decodeKey, if_neg (not_not.2 shaped), decoded]
    exact if_neg (not_or.2 ⟨not_not.2 canonical.symm, not_not.2 sized⟩)

/-! ## Preimages -/

theorem codePoint_toNat {c : Nat} {char : Char} (ok : codePoint c = some char) :
    c = char.toNat := by
  unfold codePoint at ok
  split at ok
  next valid =>
    cases ok
    rw [Char.ofNat, dif_pos valid]
    rfl
  · cases ok

theorem codePoints_map {s : Text} {chars : List Char} (ok : s.mapM codePoint = some chars) :
    s = chars.map Char.toNat := by
  induction s generalizing chars with
  | nil =>
    cases ok
    rfl
  | cons c s ih =>
    rw [List.mapM_cons] at ok
    obtain ⟨char, first, ok⟩ := Option.bind_eq_some_iff.1 ok
    obtain ⟨rest, others, ok⟩ := Option.bind_eq_some_iff.1 ok
    cases ok
    rw [List.map_cons, ← codePoint_toNat first, ← ih others]

theorem utf8_injective {first second : List Char}
    (same : first.flatMap String.utf8EncodeChar = second.flatMap String.utf8EncodeChar) :
    first = second := by
  have bytes : first.utf8Encode = second.utf8Encode := congrArg List.toByteArray same
  have texts : String.ofList first = String.ofList second := by
    rw [← String.toByteArray_inj, String.toByteArray_ofList, String.toByteArray_ofList, bytes]
  exact String.ofList_injective texts

/-- What UTF-8 writes is the text of some characters. -/
theorem encodeUtf8_some {s : Text} {bytes : List UInt8} (ok : encodeUtf8 s = some bytes) :
    ∃ chars : List Char, s = chars.map Char.toNat ∧
      bytes = chars.flatMap String.utf8EncodeChar := by
  obtain ⟨chars, points, written⟩ := Option.map_eq_some_iff.1 ok
  exact ⟨chars, codePoints_map points, written.symm⟩

/-- ASCII is written as UTF-8 writes it. -/
theorem encodeAscii_some {s : Text} (ascii : isAscii s = true) :
    ∃ chars : List Char, s = chars.map Char.toNat ∧
      s.map UInt8.ofNat = chars.flatMap String.utf8EncodeChar := by
  induction s with
  | nil => exact ⟨[], rfl, rfl⟩
  | cons c s ih =>
    rw [isAscii, List.all_cons, Bool.and_eq_true, decide_eq_true_eq] at ascii
    obtain ⟨chars, text, written⟩ := ih ascii.2
    have valid : (Char.ofNat c).toNat = c := by
      rw [Char.ofNat, dif_pos (show c.isValidChar from Or.inl (by omega))]
      rfl
    refine ⟨Char.ofNat c :: chars, ?_, ?_⟩
    · rw [List.map_cons, valid, ← text]
    · rw [List.map_cons, List.flatMap_cons, ← JsonText.ascii_encoded _ (valid.symm ▸ ascii.1),
        valid, written]
      rfl

/-- The characters that a preimage encodes. -/
theorem requestPreimage_text {floats : FloatFormat F} {request : Request F}
    {hashed : List UInt8 × List UInt8} (ok : requestPreimage floats request = .ok hashed) :
    ∃ method path body : List Char, request.method = method.map Char.toNat ∧
      request.path = path.map Char.toNat ∧ dumps floats request.body = body.map Char.toNat ∧
      hashed.1 = (method ++ Char.ofNat 0 :: (path ++ Char.ofNat 0 :: body)).flatMap
        String.utf8EncodeChar := by
  unfold requestPreimage at ok
  obtain ⟨shaped, ok⟩ := FallibleSteps.guard_ok ok
  obtain ⟨ascii, _⟩ := not_or.1 shaped
  obtain ⟨canonicalBody, encoded, ok⟩ := FallibleSteps.except_bind_ok ok
  unfold canonicalJson at encoded
  split at encoded
  · cases encoded
  next bytes dumped =>
    cases encoded
    split at ok
    · cases ok
    next pathBytes pathEncoded =>
      cases ok
      obtain ⟨method, methodText, methodWritten⟩ := encodeAscii_some (Bool.not_eq_false _ ▸ ascii)
      obtain ⟨path, pathText, pathWritten⟩ := encodeUtf8_some pathEncoded
      obtain ⟨body, bodyText, bodyWritten⟩ := encodeUtf8_some dumped
      refine ⟨method, path, body, methodText, pathText, bodyText, ?_⟩
      have nul : String.utf8EncodeChar (Char.ofNat 0) = [0] := rfl
      rw [List.flatMap_append, List.flatMap_cons, List.flatMap_append, List.flatMap_cons, nul,
        ← methodWritten, ← pathWritten, ← bodyWritten]
      rfl

theorem nul_notMem {s : Text} {chars : List Char} (text : s = chars.map Char.toNat)
    (free : 0 ∉ s) : Char.ofNat 0 ∉ chars := by
  intro member
  refine free ?_
  rw [text]
  exact List.mem_map_of_mem member

/-- A separator that neither head contains ends both at the same place. -/
theorem split_unique {α : Type} {sep : α} {first second rest other : List α} (left : sep ∉ first)
    (right : sep ∉ second) (same : first ++ sep :: rest = second ++ sep :: other) :
    first = second ∧ rest = other := by
  induction first generalizing second with
  | nil =>
    cases second with
    | nil => exact ⟨rfl, (List.cons.inj same).2⟩
    | cons c second => exact absurd ((List.cons.inj same).1 ▸ List.mem_cons_self) right
  | cons c first ih =>
    cases second with
    | nil => exact absurd ((List.cons.inj same).1.symm ▸ List.mem_cons_self) left
    | cons d second =>
      obtain ⟨here, later⟩ := List.cons.inj same
      have heads := ih (fun member => left (List.mem_cons_of_mem _ member))
        (fun member => right (List.mem_cons_of_mem _ member)) later
      exact ⟨by rw [here, heads.1], heads.2⟩

/-- Requests without a NUL in method and path are told apart by their preimages. -/
theorem preimage_injective {floats : FloatFormat F} {first second : Request F}
    {left right : List UInt8 × List UInt8} (one : requestPreimage floats first = .ok left)
    (other : requestPreimage floats second = .ok right) (same : left.1 = right.1)
    (firstFree : 0 ∉ first.method ∧ 0 ∉ first.path)
    (secondFree : 0 ∉ second.method ∧ 0 ∉ second.path) :
    first.method = second.method ∧ first.path = second.path ∧ Same first.body second.body := by
  obtain ⟨method, path, body, methodText, pathText, bodyText, written⟩ := requestPreimage_text one
  obtain ⟨method', path', body', methodText', pathText', bodyText', written'⟩ :=
    requestPreimage_text other
  have texts := utf8_injective (written.symm.trans (same.trans written'))
  obtain ⟨methods, rest⟩ := split_unique (nul_notMem methodText firstFree.1)
    (nul_notMem methodText' secondFree.1) texts
  obtain ⟨paths, bodies⟩ := split_unique (nul_notMem pathText firstFree.2)
    (nul_notMem pathText' secondFree.2) rest
  have printed : dumps floats first.body = dumps floats second.body := by
    rw [bodyText, bodyText', bodies]
  refine ⟨by rw [methodText, methodText', methods], by rw [pathText, pathText', paths], ?_⟩
  exact (sort_eq_iff first.distinct second.distinct).1 (print_injective _ printed)

/-! ## Replays -/

theorem bind_preimage {sha256 : List UInt8 → Sha256} {floats : FloatFormat F} {key : Text}
    {request : Request F} {binding : RequestBinding}
    (ok : bindIdempotencyRequest sha256 floats key request = .ok binding) :
    ∃ hashed, requestPreimage floats request = .ok hashed ∧
      binding.requestSha256 = sha256 hashed.1 := by
  unfold bindIdempotencyRequest at ok
  obtain ⟨_, _, ok⟩ := FallibleSteps.except_bind_ok ok
  obtain ⟨hashed, made, ok⟩ := FallibleSteps.except_bind_ok ok
  cases ok
  exact ⟨hashed, made, rfl⟩

/-- The hash does not collide on the two requests. -/
def CollisionFree (sha256 : List UInt8 → Sha256) (floats : FloatFormat F)
    (first second : Request F) : Prop :=
  ∀ left right, requestPreimage floats first = .ok left →
    requestPreimage floats second = .ok right → sha256 left.1 = sha256 right.1 → left.1 = right.1

/-- A row that was bound to one request is resumed and replayed for no other. -/
theorem other_request_conflicts {sha256 : List UInt8 → Sha256} {floats : FloatFormat F}
    {firstKey secondKey : Text} {first second : Request F} {left right : RequestBinding}
    (one : bindIdempotencyRequest sha256 floats firstKey first = .ok left)
    (other : bindIdempotencyRequest sha256 floats secondKey second = .ok right)
    (firstFree : 0 ∉ first.method ∧ 0 ∉ first.path)
    (secondFree : 0 ∉ second.method ∧ 0 ∉ second.path)
    (collisionFree : CollisionFree sha256 floats first second)
    (differs : ¬ (first.method = second.method ∧ first.path = second.path ∧
      Same first.body second.body))
    {a : IdempotencyRequest} (bound : a.requestHash = left.requestSha256)
    (settings : CheckoutSettings) (now : Instant) (leaseId : Nat) (raw : String)
    (t : CheckoutTables) :
    resumeBound settings a right.toIdempotencyBinding now leaseId raw t = .error boundElsewhere ∧
      replay settings a right.toIdempotencyBinding now raw t = .error boundElsewhere := by
  obtain ⟨hashed, made, stored⟩ := bind_preimage one
  obtain ⟨hashed', made', hash⟩ := bind_preimage other
  have elsewhere : a.requestHash ≠ right.requestSha256 := by
    intro same
    have digests : sha256 hashed.1 = sha256 hashed'.1 := by
      rw [← stored, ← bound, same, hash]
    have preimages := collisionFree hashed hashed' made made' digests
    exact differs (preimage_injective made made' preimages firstFree secondFree)
  exact ⟨if_pos elsewhere, if_pos elsewhere⟩

/-- What a key and a binding stand for. -/
theorem idempotency_binding (floats : FloatFormat F) :
    (∀ key bytes, decodeKey key = .ok bytes ↔
      (16 ≤ bytes.length ∧ bytes.length ≤ 64) ∧ key = unpadded bytes) ∧
    (∀ key other bytes, decodeKey key = .ok bytes → decodeKey other = .ok bytes → key = other) ∧
    ∀ first second : Request F, (0 ∉ first.method ∧ 0 ∉ first.path) →
      (0 ∉ second.method ∧ 0 ∉ second.path) →
      (∀ left right, requestPreimage floats first = .ok left →
        requestPreimage floats second = .ok right → left.1 = right.1 →
        first.method = second.method ∧ first.path = second.path ∧ Same first.body second.body) ∧
      ∀ sha256, CollisionFree sha256 floats first second → ¬ Same first.body second.body →
        ∀ key left right, bindIdempotencyRequest sha256 floats key first = .ok left →
          bindIdempotencyRequest sha256 floats key second = .ok right →
          ∀ a : IdempotencyRequest, a.requestHash = left.requestSha256 →
          ∀ settings now leaseId raw t,
            resumeBound settings a right.toIdempotencyBinding now leaseId raw t =
                .error boundElsewhere ∧
              replay settings a right.toIdempotencyBinding now raw t = .error boundElsewhere := by
  refine ⟨decodeKey_iff, ?_, ?_⟩
  · intro key other bytes first second
    rw [((decodeKey_iff key bytes).1 first).2, ((decodeKey_iff other bytes).1 second).2]
  · intro first second firstFree secondFree
    refine ⟨?_, ?_⟩
    · intro left right one other same
      exact preimage_injective one other same firstFree secondFree
    · intro sha256 collisionFree differs key left right one other a bound settings now leaseId raw t
      have apart : ¬ (first.method = second.method ∧ first.path = second.path ∧
          Same first.body second.body) := fun same => differs same.2.2
      exact other_request_conflicts one other firstFree secondFree collisionFree apart bound
        settings now leaseId raw t

/-! A request for one and a half and one for two, under one key. -/

def halfText : Text := units "1.5"

def readHalf (s : Text) : Option Unit := if s = halfText then some () else none

theorem readHalf_halfText : ∀ _ : Unit, readHalf halfText = some () := fun _ => if_pos rfl

theorem halfText_numeric : ∀ _ : Unit, ∀ c ∈ halfText, isNumeric c = true := by
  intro _
  decide

theorem halfText_marked : ∀ _ : Unit, 46 ∈ halfText ∨ 101 ∈ halfText := by
  intro _
  decide

def half : FloatFormat Unit where
  repr := fun _ => halfText
  float := readHalf
  float_repr := readHalf_halfText
  numeric := halfText_numeric
  marked := halfText_marked

def amountBody (amount : PyNumber Unit) : Json (PyNumber Unit) :=
  .object [(units "amount", .number amount)]

theorem amountBody_distinct (amount : PyNumber Unit) : Distinct (amountBody amount) := by
  rw [Distinct, amountBody, Everywhere]
  exact ⟨List.nodup_singleton _, ⟨by rw [Everywhere]; trivial, trivial⟩⟩

def amountRequest (amount : PyNumber Unit) : Request Unit where
  method := units "POST"
  path := units "/v1/checkout"
  body := amountBody amount
  distinct := amountBody_distinct amount

/-- The last bytes, as a hash of short texts that differ there. -/
def lastBytes (bytes : List UInt8) : List UInt8 := (bytes.reverse ++ List.replicate 32 0).take 32

theorem lastBytes_length (bytes : List UInt8) : (lastBytes bytes).length = 32 := by
  rw [lastBytes, List.length_take, List.length_append, List.length_replicate]
  omega

def lastHash (bytes : List UInt8) : Sha256 := ⟨lastBytes bytes, lastBytes_length bytes⟩

def sampleKey : Text := unpadded (List.replicate 16 107)

def amountJson (number : String) : List UInt8 :=
  (units "\x7b\"amount\":" ++ units number ++ units "\x7d").map UInt8.ofNat

def amountPreimage (number : String) : List UInt8 :=
  (units "POST").map UInt8.ofNat ++ 0 :: ((units "/v1/checkout").map UInt8.ofNat ++
    0 :: amountJson number)

theorem halfRequest_preimage : requestPreimage half (amountRequest (.float ())) =
    .ok (amountPreimage "1.5", amountJson "1.5") := rfl

theorem twoRequest_preimage : requestPreimage half (amountRequest (.int 2)) =
    .ok (amountPreimage "2", amountJson "2") := rfl

theorem amountRequest_free (amount : PyNumber Unit) :
    0 ∉ (amountRequest amount).method ∧ 0 ∉ (amountRequest amount).path := by
  have method : 0 ∉ units "POST" := by decide
  have path : 0 ∉ units "/v1/checkout" := by decide
  exact ⟨method, path⟩

theorem idempotency_binding_checkout :
    decodeKey sampleKey = .ok (List.replicate 16 107) ∧
      ∃ left right,
        bindIdempotencyRequest lastHash half sampleKey (amountRequest (.float ())) = .ok left ∧
        bindIdempotencyRequest lastHash half sampleKey (amountRequest (.int 2)) = .ok right ∧
        ∀ a : IdempotencyRequest, a.requestHash = left.requestSha256 →
          ∀ settings now leaseId raw t,
            resumeBound settings a right.toIdempotencyBinding now leaseId raw t =
                .error boundElsewhere ∧
              replay settings a right.toIdempotencyBinding now raw t = .error boundElsewhere := by
  obtain ⟨keys, _, requests⟩ := idempotency_binding half
  have keyOk := (keys sampleKey (List.replicate 16 107)).2 ⟨by decide, rfl⟩
  have bind (request : Request Unit) (hashed : List UInt8 × List UInt8)
      (made : requestPreimage half request = .ok hashed) :
      ∃ binding, bindIdempotencyRequest lastHash half sampleKey request = .ok binding :=
    ⟨_, FallibleSteps.bind_pass keyOk (FallibleSteps.bind_pass made rfl)⟩
  have apart : lastHash (amountPreimage "1.5") ≠ lastHash (amountPreimage "2") := by decide
  have collisionFree : CollisionFree lastHash half (amountRequest (.float ()))
      (amountRequest (.int 2)) := by
    intro left right one other same
    rw [halfRequest_preimage] at one
    rw [twoRequest_preimage] at other
    cases one
    cases other
    exact absurd same apart
  obtain ⟨injective, conflicts⟩ := requests (amountRequest (.float ())) (amountRequest (.int 2))
    (amountRequest_free _) (amountRequest_free _)
  have differs : ¬ Same (amountRequest (.float ())).body (amountRequest (.int 2)).body := by
    intro same
    have sorted := (sort_eq_iff (amountBody_distinct _) (amountBody_distinct _)).2 same
    exact absurd (congrArg (print (compact half) 0) sorted) (by decide)
  obtain ⟨left, leftOk⟩ := bind _ _ halfRequest_preimage
  obtain ⟨right, rightOk⟩ := bind _ _ twoRequest_preimage
  exact ⟨keyOk, left, right, leftOk, rightOk,
    conflicts lastHash collisionFree differs sampleKey left right leftOk rightOk⟩

end IdempotencyKeys
