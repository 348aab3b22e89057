import SpacerocksCoa.Base64Text
import SpacerocksCoa.ManifestSchema
import SpacerocksCoa.ReadManifests

/-!
# Key backups

A signing identity is generated with a backup: its private key is encrypted under a passphrase and
stored beside the public key in a JSON text. The import decrypts the key, reads the public key and
its fingerprint, and signs a challenge. What the Web Crypto API does is a parameter; a key is what
its bytes stand for. A failure is the message of the error, and the messages of the browser are
parameters too.
-/
namespace KeyBackups
open JsonText (Text Json NumberFormat print units)
open Base64Text (urlsafeEncode translate standardValue digits)
open JsNumbers (isWhite)
open ManifestJson (pretty jsonParse parsedObject setOwn arrayIndex)
open ManifestSchema (bytesToHex)
open CodeUnits (formatFingerprint)
open ReadManifests (findField)

/-! ## Base64 -/

/-- The parts of a list, each but the last one of this size. -/
def chunks {A : Type} (size : Nat) (l : List A) : List (List A) :=
  (List.range ((l.length + (size - 1)) / size)).map fun i => (l.drop (size * i)).take size

/-- The characters that `btoa` gets. -/
def binaryString (bytes : List UInt8) : Text :=
  ((chunks 0x8000 bytes).map fun part => part.map UInt8.toNat).flatten

def btoa (binary : Text) : Text := (urlsafeEncode (binary.map UInt8.ofNat)).map translate

def bytesToBase64 (bytes : List UInt8) : Text := btoa (binaryString bytes)

def asciiSpace (c : Nat) : Bool := c == 9 || c == 10 || c == 12 || c == 13 || c == 32

/-- Without the padding, when the length is that of whole groups. -/
def unpad (s : Text) : Text :=
  if s.length % 4 = 0 ∧ s.getLast? = some 61 then
    if s.dropLast.getLast? = some 61 then s.dropLast.dropLast else s.dropLast
  else s

/-- The bytes of values of six bits; bits that are left over are dropped. -/
def sextets : List Nat → List UInt8
  | a :: b :: c :: d :: rest => UInt8.ofNat (a * 4 + b / 16) :: UInt8.ofNat (b % 16 * 16 + c / 4) ::
      UInt8.ofNat (c % 4 * 64 + d) :: sextets rest
  | [a, b, c] => [UInt8.ofNat (a * 4 + b / 16), UInt8.ofNat (b % 16 * 16 + c / 4)]
  | [a, b] => [UInt8.ofNat (a * 4 + b / 16)]
  | _ => []

def atob (s : Text) : Option (List UInt8) :=
  let data := unpad (s.filter fun c => !asciiSpace c)
  if data.length % 4 = 1 then none else (data.mapM standardValue).map sextets

def base64ToBytes (value : Text) : Option (List UInt8) :=
  atob (value.filter fun c => !isWhite c)

/-! ## PEM -/

def dashes : Text := units "-----"

def derToPem (der : List UInt8) (label : Text) : Text :=
  let lines := [10].intercalate (chunks 64 (bytesToBase64 der))
  units "-----BEGIN " ++ (label ++ (dashes ++ 10 :: (lines ++ 10 ::
    (units "-----END " ++ (label ++ (dashes ++ [10]))))))

/-- The length of a boundary that starts here: the opening, what is no dash, and five dashes. -/
def boundary (opening s : Text) : Option Nat :=
  let after := s.drop opening.length
  let label := after.takeWhile (· != 45)
  if s.take opening.length = opening ∧ label ≠ [] ∧ (after.drop label.length).take 5 = dashes then
    some (opening.length + label.length + 5)
  else none

/-- Boundaries and white space are removed; `skip` characters belong to a boundary. -/
def strip : Nat → Text → Text
  | _, [] => []
  | skip + 1, _ :: rest => strip skip rest
  | 0, c :: rest =>
    match (boundary (units "-----BEGIN ") (c :: rest)).or
      (boundary (units "-----END ") (c :: rest)) with
    | some length => strip (length - 1) rest
    | none => if isWhite c then strip 0 rest else c :: strip 0 rest

def pemToDer (pem : Text) : Option (List UInt8) := base64ToBytes (strip 0 pem)

/-! ## What is encoded and decoded -/

theorem chunks_flatten {A : Type} {size : Nat} (positive : 0 < size) (l : List A) :
    (chunks size l).flatten = l := by
  have parts : ∀ (count : Nat) (l : List A), l.length ≤ size * count →
      ((List.range count).map fun i => (l.drop (size * i)).take size).flatten = l := by
    intro count
    induction count with
    | zero =>
      intro l short
      rw [Nat.mul_zero, Nat.le_zero, List.length_eq_zero_iff] at short
      rw [short]
      rfl
    | succ count ih =>
      intro l short
      rw [Nat.mul_succ] at short
      have rest := ih (l.drop size) (by rw [List.length_drop]; omega)
      have next : ((fun i => (l.drop (size * i)).take size) ∘ Nat.succ) =
          fun i => ((l.drop size).drop (size * i)).take size := by
        funext i
        rw [Function.comp, List.drop_drop, Nat.mul_succ, Nat.add_comm size]
      rw [List.range_succ_eq_map, List.map_cons, List.map_map, next, List.flatten_cons, rest,
        Nat.mul_zero, List.drop_zero, List.take_append_drop]
  refine parts _ l ?_
  have whole := Nat.div_add_mod (l.length + (size - 1)) size
  have rest := Nat.mod_lt (l.length + (size - 1)) positive
  omega

theorem binaryString_eq (bytes : List UInt8) : binaryString bytes = bytes.map UInt8.toNat := by
  rw [binaryString, ← List.map_flatten, chunks_flatten (by decide)]

theorem bytesToBase64_eq (bytes : List UInt8) :
    bytesToBase64 bytes = (urlsafeEncode bytes).map translate := by
  have back : (bytes.map UInt8.toNat).map UInt8.ofNat = bytes := by
    rw [List.map_map]
    exact (List.map_congr_left fun byte _ => UInt8.ofNat_toNat).trans (List.map_id bytes)
  rw [bytesToBase64, btoa, binaryString_eq, back]

/-- A character of the encoding: no padding, no dash and no white space. -/
def Sextet (c : Nat) : Prop :=
  c ≠ 61 ∧ c ≠ 45 ∧ isWhite c = false ∧ asciiSpace c = false ∧ c < 128

instance (c : Nat) : Decidable (Sextet c) := instDecidableAnd

theorem sextet_alphabet : ∀ v < 64, Sextet (translate (Base64Text.alphabet v)) := by decide

theorem digits_sextets (bytes : List UInt8) : ∀ c ∈ (digits bytes).map translate, Sextet c := by
  intro c member
  obtain ⟨d, inside, rfl⟩ := List.mem_map.1 member
  obtain ⟨v, small, rfl⟩ := Base64Text.digits_alphabet bytes d inside
  exact sextet_alphabet v small

theorem sextets_digits (bytes : List UInt8) :
    ∃ values, ((digits bytes).map translate).mapM standardValue = some values ∧
      sextets values = bytes := by
  have read : ∀ v < 64, standardValue (translate (Base64Text.alphabet v)) = some v :=
    fun v => Base64Text.standardValue_alphabet
  induction bytes using Base64Text.urlsafeEncode.induct with
  | case1 => exact ⟨[], rfl, rfl⟩
  | case2 x =>
    have small := x.toNat_lt
    refine ⟨[x.toNat / 4, x.toNat % 4 * 16], ?_, ?_⟩
    · simp only [digits, List.map_cons, List.map_nil, List.mapM_cons, List.mapM_nil]
      rw [read _ (by omega), read _ (by omega)]
      rfl
    · rw [sextets, Base64Text.byte_of x (by omega)]
  | case3 x y =>
    have smallX := x.toNat_lt
    have smallY := y.toNat_lt
    refine ⟨[x.toNat / 4, x.toNat % 4 * 16 + y.toNat / 16, y.toNat % 16 * 4], ?_, ?_⟩
    · simp only [digits, List.map_cons, List.map_nil, List.mapM_cons, List.mapM_nil]
      rw [read _ (by omega), read _ (by omega), read _ (by omega)]
      rfl
    · rw [sextets, Base64Text.byte_of x (by omega), Base64Text.byte_of y (by omega)]
  | case4 x y z rest ih =>
    have smallX := x.toNat_lt
    have smallY := y.toNat_lt
    have smallZ := z.toNat_lt
    obtain ⟨values, others, back⟩ := ih
    refine ⟨x.toNat / 4 :: (x.toNat % 4 * 16 + y.toNat / 16) ::
      (y.toNat % 16 * 4 + z.toNat / 64) :: (z.toNat % 64) :: values, ?_, ?_⟩
    · simp only [digits, List.map_cons, List.mapM_cons, others]
      rw [read _ (by omega), read _ (by omega), read _ (by omega), read _ (by omega)]
      rfl
    · rw [sextets, Base64Text.byte_of x (by omega), Base64Text.byte_of y (by omega),
        Base64Text.byte_of z (by omega), back]

theorem unpad_padded {s : Text} (plain : ∀ c ∈ s, Sextet c) (pads : Nat)
    (count : pads = (4 - s.length % 4) % 4) (few : s.length % 4 ≠ 1) :
    unpad (s ++ List.replicate pads 61) = s := by
  have last : s.getLast? ≠ some 61 := by
    intro padded
    exact (plain 61 (List.mem_of_getLast? padded)).1 rfl
  have length : (s ++ List.replicate pads 61).length % 4 = 0 := by
    rw [List.length_append, List.length_replicate]
    omega
  have amount : pads = 0 ∨ pads = 1 ∨ pads = 2 := by omega
  rcases amount with rfl | rfl | rfl
  · rw [List.replicate_zero, List.append_nil, unpad, if_neg fun both => last both.2]
  · have one : s ++ List.replicate 1 61 = s ++ [61] := rfl
    rw [one] at length ⊢
    rw [unpad, if_pos ⟨length, List.getLast?_concat⟩, List.dropLast_concat, if_neg last]
  · have two : s ++ List.replicate 2 61 = s ++ [61] ++ [61] := by
      rw [List.append_assoc]
      rfl
    rw [two] at length ⊢
    rw [unpad, if_pos ⟨length, List.getLast?_concat⟩, List.dropLast_concat,
      if_pos List.getLast?_concat, List.dropLast_concat]

theorem bytesToBase64_digits (bytes : List UInt8) : bytesToBase64 bytes =
    (digits bytes).map translate ++
      List.replicate ((4 - ((digits bytes).map translate).length % 4) % 4) 61 := by
  rw [bytesToBase64_eq, Base64Text.urlsafeEncode_digits, List.map_append, List.length_map,
    Base64Text.padding, List.map_replicate]
  rfl

/-- No character of the encoding is white space or a dash. -/
theorem bytesToBase64_plain (bytes : List UInt8) :
    ∀ c ∈ bytesToBase64 bytes,
      c ≠ 45 ∧ isWhite c = false ∧ asciiSpace c = false ∧ c < 128 := by
  rw [bytesToBase64_digits]
  intro c member
  rcases List.mem_append.1 member with digit | pad
  · exact (digits_sextets bytes c digit).2
  · rw [List.eq_of_mem_replicate pad]
    decide

theorem atob_bytesToBase64 (bytes : List UInt8) : atob (bytesToBase64 bytes) = some bytes := by
  have kept : (bytesToBase64 bytes).filter (fun c => !asciiSpace c) = bytesToBase64 bytes := by
    rw [List.filter_eq_self]
    intro c member
    rw [(bytesToBase64_plain bytes c member).2.2.1]
    rfl
  have few : ((digits bytes).map translate).length % 4 ≠ 1 := by
    rw [List.length_map, Base64Text.digits_length]
    omega
  obtain ⟨values, read, back⟩ := sextets_digits bytes
  have data : unpad (bytesToBase64 bytes) = (digits bytes).map translate := by
    rw [bytesToBase64_digits]
    exact unpad_padded (digits_sextets bytes) _ rfl few
  unfold atob
  simp only [kept, data, if_neg few, read, Option.map_some, back]

theorem base64ToBytes_bytesToBase64 (bytes : List UInt8) :
    base64ToBytes (bytesToBase64 bytes) = some bytes := by
  have kept : (bytesToBase64 bytes).filter (fun c => !isWhite c) = bytesToBase64 bytes := by
    rw [List.filter_eq_self]
    intro c member
    rw [(bytesToBase64_plain bytes c member).2.1]
    rfl
  rw [base64ToBytes, kept, atob_bytesToBase64]

/-! ## Boundaries -/

/-- What belongs to a boundary is left out. -/
theorem strip_skipped (s rest : Text) : strip s.length (s ++ rest) = strip 0 rest := by
  induction s with
  | nil => rfl
  | cons c s ih => exact ih

theorem boundary_found {opening label : Text} (filled : label ≠ []) (plain : 45 ∉ label)
    (rest : Text) : boundary opening (opening ++ (label ++ (dashes ++ rest))) =
      some (opening.length + label.length + 5) := by
  have taken : (label ++ (dashes ++ rest)).takeWhile (· != 45) = label := by
    rw [List.takeWhile_append_of_pos]
    · have stop : (dashes ++ rest).takeWhile (· != 45) = [] := rfl
      rw [stop, List.append_nil]
    · intro c member
      rw [bne_iff_ne]
      rintro rfl
      exact plain member
  unfold boundary
  simp only [List.drop_left, List.take_left, taken]
  exact if_pos ⟨trivial, filled, rfl⟩

theorem boundary_dash {c : Nat} (other : c ≠ 45) (opening rest : Text) :
    boundary (45 :: opening) (c :: rest) = none := by
  unfold boundary
  exact if_neg fun found => other (List.cons.inj found.1).1

theorem strip_plain {s : Text} (plain : ∀ c ∈ s, c ≠ 45) (rest : Text) :
    strip 0 (s ++ rest) = s.filter (fun c => !isWhite c) ++ strip 0 rest := by
  induction s with
  | nil => rfl
  | cons c s ih =>
    have others := ih fun d member => plain d (List.mem_cons_of_mem _ member)
    have begin_ : boundary (units "-----BEGIN ") (c :: (s ++ rest)) = none :=
      boundary_dash (plain c List.mem_cons_self) _ _
    have end_ : boundary (units "-----END ") (c :: (s ++ rest)) = none :=
      boundary_dash (plain c List.mem_cons_self) _ _
    rw [List.cons_append, strip, begin_, end_]
    cases white : isWhite c with
    | true =>
      rw [List.filter_cons_of_neg (by rw [white]; decide)]
      exact others
    | false =>
      rw [List.filter_cons_of_pos (by rw [white]; rfl)]
      exact congrArg (c :: ·) others

theorem strip_boundary {c : Nat} {s rest : Text}
    (found : (boundary (units "-----BEGIN ") (c :: (s ++ rest))).or
      (boundary (units "-----END ") (c :: (s ++ rest))) = some (s.length + 1)) :
    strip 0 (c :: (s ++ rest)) = strip 0 rest := by
  rw [strip, found]
  exact strip_skipped s rest

section Label
variable {label : Text} (filled : label ≠ []) (plain : 45 ∉ label) (rest : Text)
include filled plain

theorem strip_begin : strip 0 (units "-----BEGIN " ++ (label ++ (dashes ++ rest))) =
    strip 0 rest := by
  have found := @boundary_found (units "-----BEGIN ") label filled plain rest
  have shape : units "-----BEGIN " ++ (label ++ (dashes ++ rest)) =
      45 :: (units "----BEGIN " ++ label ++ dashes ++ rest) := by
    rw [List.append_assoc, List.append_assoc]
    rfl
  have length : (units "-----BEGIN ").length + label.length + 5 =
      (units "----BEGIN " ++ label ++ dashes).length + 1 := by
    have first : (units "-----BEGIN ").length = 11 := rfl
    have second : (units "----BEGIN ").length = 10 := rfl
    have five : dashes.length = 5 := rfl
    rw [List.length_append, List.length_append]
    omega
  rw [shape, length] at found
  rw [shape]
  apply strip_boundary
  rw [found]
  rfl

theorem strip_end : strip 0 (units "-----END " ++ (label ++ (dashes ++ rest))) =
    strip 0 rest := by
  have found := @boundary_found (units "-----END ") label filled plain rest
  have other : boundary (units "-----BEGIN ") (units "-----END " ++ (label ++ (dashes ++ rest))) =
      none := by
    unfold boundary
    refine if_neg fun both => ?_
    have sixth := congrArg (fun s : Text => s[5]?) both.1
    exact absurd (Option.some.inj (show some 69 = some 66 from sixth)) (by decide)
  have shape : units "-----END " ++ (label ++ (dashes ++ rest)) =
      45 :: (units "----END " ++ label ++ dashes ++ rest) := by
    rw [List.append_assoc, List.append_assoc]
    rfl
  have length : (units "-----END ").length + label.length + 5 =
      (units "----END " ++ label ++ dashes).length + 1 := by
    have first : (units "-----END ").length = 9 := rfl
    have second : (units "----END ").length = 8 := rfl
    have five : dashes.length = 5 := rfl
    rw [List.length_append, List.length_append]
    omega
  rw [shape] at other
  rw [shape, length] at found
  rw [shape]
  apply strip_boundary
  rw [found, other]
  rfl

end Label

theorem intercalate_step (separator part next : Text) (parts : List Text) :
    separator.intercalate (part :: next :: parts) =
      part ++ (separator ++ separator.intercalate (next :: parts)) := by
  rw [List.intercalate_cons_cons, List.append_assoc]

theorem mem_lines (parts : List Text) : ∀ c ∈ [10].intercalate parts, c = 10 ∨ c ∈ parts.flatten := by
  induction parts with
  | nil => exact fun _ none => absurd none List.not_mem_nil
  | cons part parts ih =>
    cases parts with
    | nil =>
      rw [List.intercalate_singleton, List.flatten_singleton]
      exact fun c member => .inr member
    | cons next parts =>
      intro c member
      rw [intercalate_step] at member
      rcases List.mem_append.1 member with here | later
      · exact .inr (List.mem_append_left _ here)
      · rcases List.mem_append.1 later with line | later
        · exact .inl (List.mem_singleton.1 line)
        · exact (ih c later).imp_right fun inside => List.mem_append_right part inside

theorem filter_lines (parts : List Text) :
    ([10].intercalate parts).filter (fun c => !isWhite c) =
      parts.flatten.filter fun c => !isWhite c := by
  induction parts with
  | nil => rfl
  | cons part parts ih =>
    cases parts with
    | nil => rw [List.intercalate_singleton, List.flatten_singleton]
    | cons next parts =>
      have line : [10].filter (fun c => !isWhite c) = [] := by decide
      have joined : (part :: next :: parts).flatten = part ++ (next :: parts).flatten := rfl
      rw [intercalate_step, List.filter_append, List.filter_append, ih, line, List.nil_append,
        joined, List.filter_append]

theorem base64_lines (der : List UInt8) :
    ([10].intercalate (chunks 64 (bytesToBase64 der))).filter (fun c => !isWhite c) =
      bytesToBase64 der := by
  rw [filter_lines, chunks_flatten (by decide), List.filter_eq_self]
  intro c member
  rw [(bytesToBase64_plain der c member).2.1]
  rfl

theorem base64_noDash (der : List UInt8) :
    ∀ c ∈ 10 :: ([10].intercalate (chunks 64 (bytesToBase64 der)) ++ [10]), c ≠ 45 := by
  have inner : ∀ c ∈ [10].intercalate (chunks 64 (bytesToBase64 der)), c ≠ 45 := by
    intro c member
    rcases mem_lines _ c member with rfl | inside
    · decide
    · rw [chunks_flatten (by decide)] at inside
      exact (bytesToBase64_plain der c inside).1
  intro c member
  rcases List.mem_cons.1 member with rfl | member
  · decide
  · rcases List.mem_append.1 member with inside | line
    · exact inner c inside
    · rw [List.mem_singleton.1 line]
      decide

theorem line_filtered : [10].filter (fun c => !isWhite c) = [] := by decide

theorem line_stripped : strip 0 [10] = [] := by decide

theorem enclosed (lines rest : Text) :
    10 :: (lines ++ 10 :: rest) = 10 :: (lines ++ [10]) ++ rest := by
  rw [List.cons_append, List.append_assoc, List.singleton_append]

/-- A key that was written is read back. -/
theorem pemToDer_derToPem (der : List UInt8) {label : Text} (filled : label ≠ [])
    (plain : 45 ∉ label) : pemToDer (derToPem der label) = some der := by
  have body := strip_plain (base64_noDash der) (units "-----END " ++ (label ++ (dashes ++ [10])))
  have stripped : strip 0 (derToPem der label) = bytesToBase64 der := by
    rw [derToPem, enclosed, strip_begin filled plain, body, strip_end filled plain,
      List.filter_cons_of_neg (by decide), List.filter_append, base64_lines, line_filtered,
      line_stripped, List.append_nil, List.append_nil]
  rw [pemToDer, stripped, base64ToBytes_bytesToBase64]

/-! ## Identities and their backups -/

/-- The operations of the browser, and the messages that it throws. -/
structure Subtle (N Private Public Aes : Type) where
  numbers : NumberFormat N
  ofNat : Nat → N
  sha256 : List UInt8 → List UInt8
  deriveKey : Text → List UInt8 → Option (Json N) → Except Text Aes
  encrypt : Aes → List UInt8 → List UInt8 → Option (Json N) → List UInt8 → Except Text (List UInt8)
  decrypt : Aes → List UInt8 → List UInt8 → Option (Json N) → List UInt8 → Except Text (List UInt8)
  exportPkcs8 : Private → List UInt8
  importPkcs8 : List UInt8 → Except Text Private
  exportSpki : Public → List UInt8
  importSpki : List UInt8 → Except Text Public
  sign : Private → List UInt8 → List UInt8
  verify : Public → List UInt8 → List UInt8 → Bool
  typeError : Text
  invalidCharacter : Text

variable {N Private Public Aes : Type} (subtle : Subtle N Private Public Aes)

inductive KeySource where
  | generated | imported
  deriving DecidableEq

structure SigningIdentity (Private Public : Type) where
  privateKey : Private
  publicKey : Public
  publicKeyPem : Text
  fingerprint : Text
  source : KeySource

def keyBundleFormat : Text := units "SPACEROCKS-ENCRYPTED-ED25519-KEY"

def pbkdf2Iterations : Nat := 600000

/-- `AUTHENTICATED_CONTEXT` -/
def authenticatedContext : List UInt8 := (units "SPACEROCKS-COA-KEY-V1").map UInt8.ofNat

def Subtle.number (n : Nat) : Json N := .number (subtle.ofNat n)

def Subtle.fingerprintForSpki (spki : List UInt8) : Text :=
  formatFingerprint (bytesToHex (subtle.sha256 spki))

/-- `EncryptedKeyBundle` -/
structure KeyBundle where
  createdAt : Text
  publicKeyFingerprint : Text
  publicKeyPem : Text
  encryptedPrivateKey : Text
  salt : Text
  iv : Text

def kdfFields (bundle : KeyBundle) : List (Text × Json N) :=
  [(units "name", .text (units "PBKDF2")), (units "hash", .text (units "SHA-256")),
    (units "iterations", subtle.number pbkdf2Iterations), (units "salt", .text bundle.salt)]

def cipherFields (bundle : KeyBundle) : List (Text × Json N) :=
  [(units "name", .text (units "AES-GCM")), (units "iv", .text bundle.iv),
    (units "tagLength", subtle.number 128)]

def bundleFields (bundle : KeyBundle) : List (Text × Json N) :=
  [(units "format", .text keyBundleFormat), (units "version", subtle.number 1),
    (units "createdAt", .text bundle.createdAt),
    (units "publicKeyAlgorithm", .text (units "Ed25519")),
    (units "publicKeyFingerprint", .text bundle.publicKeyFingerprint),
    (units "publicKeyPem", .text bundle.publicKeyPem),
    (units "encryptedPrivateKey", .text bundle.encryptedPrivateKey),
    (units "kdf", .object (kdfFields subtle bundle)),
    (units "cipher", .object (cipherFields subtle bundle))]

/-- `JSON.stringify(bundle, null, 2)` and a line break -/
def bundleText (bundle : KeyBundle) : Text :=
  print (pretty subtle.numbers) 0 (.object (bundleFields subtle bundle)) ++ [10]

/-- What the browser draws when an identity is generated; the keys are a pair. -/
structure Drawn (subtle : Subtle N Private Public Aes) where
  privateKey : Private
  publicKey : Public
  pair : ∀ message, subtle.verify publicKey (subtle.sign privateKey message) message = true
  salt : List UInt8
  iv : List UInt8
  now : Text

def generateSigningIdentity (drawn : Drawn subtle) (passphrase : Text) :
    Except Text (SigningIdentity Private Public × Text) := do
  let spki := subtle.exportSpki drawn.publicKey
  let pkcs8 := subtle.exportPkcs8 drawn.privateKey
  let publicKeyPem := derToPem spki (units "PUBLIC KEY")
  let fingerprint := subtle.fingerprintForSpki spki
  let encryptionKey ← subtle.deriveKey passphrase drawn.salt (some (subtle.number pbkdf2Iterations))
  let encrypted ← subtle.encrypt encryptionKey drawn.iv authenticatedContext
    (some (subtle.number 128)) pkcs8
  let bundle : KeyBundle :=
    ⟨drawn.now, fingerprint, publicKeyPem, bytesToBase64 encrypted, bytesToBase64 drawn.salt,
      bytesToBase64 drawn.iv⟩
  return (⟨drawn.privateKey, drawn.publicKey, publicKeyPem, fingerprint, .generated⟩,
    bundleText subtle bundle)

/-- `value?.key` -/
def prop (value : Option (Json N)) (key : String) : Option (Json N) :=
  match value with
  | some (.object fields) => findField fields (units key)
  | _ => none

def isText (value : Option (Json N)) (s : Text) : Bool :=
  match value with
  | some (.text t) => t == s
  | _ => false

/-- The text that a method is called on. -/
def Subtle.string (value : Option (Json N)) : Except Text Text :=
  match value with
  | some (.text s) => .ok s
  | _ => .error subtle.typeError

def Subtle.decoded (bytes : Option (List UInt8)) : Except Text (List UInt8) :=
  match bytes with
  | some bytes => .ok bytes
  | none => .error subtle.invalidCharacter

def Subtle.property (value : Option (Json N)) : Except Text (List UInt8) := do
  let s ← subtle.string value
  subtle.decoded (base64ToBytes s)

def mismatchedFingerprint : Text :=
  units "The public-key fingerprint in the backup does not match its public key."

def mismatchedKey : Text :=
  units "The encrypted private key does not match the bundled public key."

/-- The body of the `try` of the import. -/
def unlock (bundle : Option (Json N)) (passphrase : Text) (challenge : List UInt8) :
    Except Text (SigningIdentity Private Public) := do
  let salt ← subtle.property (prop (prop bundle "kdf") "salt")
  let iv ← subtle.property (prop (prop bundle "cipher") "iv")
  let key ← subtle.deriveKey passphrase salt (prop (prop bundle "kdf") "iterations")
  let encrypted ← subtle.property (prop bundle "encryptedPrivateKey")
  let pkcs8 ← subtle.decrypt key iv authenticatedContext (prop (prop bundle "cipher") "tagLength")
    encrypted
  let privateKey ← subtle.importPkcs8 pkcs8
  let publicKeyPem ← subtle.string (prop bundle "publicKeyPem")
  let publicKeyDer ← subtle.decoded (pemToDer publicKeyPem)
  let publicKey ← subtle.importSpki publicKeyDer
  let fingerprint := subtle.fingerprintForSpki publicKeyDer
  if isText (prop bundle "publicKeyFingerprint") fingerprint = false then
    throw mismatchedFingerprint
  else if subtle.verify publicKey (subtle.sign privateKey challenge) challenge = false then
    throw mismatchedKey
  else return ⟨privateKey, publicKey, publicKeyPem, fingerprint, .imported⟩

/-- What the `catch` throws. -/
def rethrown (message : Text) : Text :=
  if (units "The ").isPrefixOf message then message
  else units "The key could not be decrypted. Check the backup file and passphrase."

section Import
variable [DecidableEq N]

def isNumber (value : Option (Json N)) (n : N) : Bool :=
  match value with
  | some (.number m) => decide (m = n)
  | _ => false

def supported (bundle : Json N) : Bool :=
  isText (prop (some bundle) "format") keyBundleFormat &&
    isNumber (prop (some bundle) "version") (subtle.ofNat 1) &&
    isText (prop (some bundle) "publicKeyAlgorithm") (units "Ed25519") &&
    isText (prop (prop (some bundle) "kdf") "name") (units "PBKDF2") &&
    isText (prop (prop (some bundle) "cipher") "name") (units "AES-GCM")

def importSigningIdentity (text passphrase : Text) (challenge : List UInt8) :
    Except Text (SigningIdentity Private Public) :=
  match jsonParse subtle.numbers text with
  | none => .error (units "The selected key backup is not valid JSON.")
  | some .null => .error subtle.typeError
  | some bundle =>
    if supported subtle bundle = false then
      .error (units "This is not a supported Spacerocks encrypted Ed25519 key backup.")
    else (unlock subtle (some bundle) passphrase challenge).mapError rethrown

end Import

/-- `none` is an exception. -/
def publicKeyFingerprint (publicKeyPem : Text) : Option Text :=
  (pemToDer publicKeyPem).map subtle.fingerprintForSpki

/-! ## The backup is read back -/

/-- Properties whose keys are no indices keep their order. -/
theorem parsedObject_named {fields : List (Text × Json N)} {names : List Text}
    (own : JsonText.keys fields = names) (named : ∀ key ∈ names, arrayIndex key = none)
    (distinct : names.Nodup) : parsedObject fields = fields := by
  subst own
  have steps : ∀ object : List (Text × Json N), (JsonText.keys (object ++ fields)).Nodup →
      fields.foldl (fun object field => setOwn object field.1 field.2) object =
        object ++ fields := by
    clear distinct
    induction fields with
    | nil =>
      intro object _
      rw [List.foldl_nil, List.append_nil]
    | cons field fields ih =>
      intro object apart
      have shape : object ++ field :: fields = object ++ [field] ++ fields := by
        rw [List.append_assoc, List.singleton_append]
      have new : field.1 ∉ JsonText.keys object := by
        intro old
        rw [JsonText.keys, List.map_append, List.map_cons] at apart
        exact (List.nodup_append.1 apart).2.2 _ old _ List.mem_cons_self rfl
      have set : setOwn object field.1 field.2 = object ++ [field] := by
        rw [setOwn, if_neg new, named field.1 List.mem_cons_self]
      rw [shape] at apart ⊢
      rw [List.foldl_cons, set]
      exact ih (fun key member => named key (List.mem_cons_of_mem _ member)) _ apart
  exact steps [] distinct

def kdfKeys : List Text := ["name", "hash", "iterations", "salt"].map units

def cipherKeys : List Text := ["name", "iv", "tagLength"].map units

def bundleKeys : List Text :=
  ["format", "version", "createdAt", "publicKeyAlgorithm", "publicKeyFingerprint", "publicKeyPem",
    "encryptedPrivateKey", "kdf", "cipher"].map units

theorem keys_named : ∀ names ∈ [kdfKeys, cipherKeys, bundleKeys],
    (∀ key ∈ names, arrayIndex key = none) ∧ names.Nodup := by decide

theorem bundle_parsed (bundle : KeyBundle) :
    JsonText.rebuild parsedObject (.object (bundleFields subtle bundle)) =
      .object (bundleFields subtle bundle) := by
  obtain ⟨kdfNamed, kdfApart⟩ := keys_named kdfKeys (by decide)
  obtain ⟨cipherNamed, cipherApart⟩ := keys_named cipherKeys (by decide)
  obtain ⟨named, apart⟩ := keys_named bundleKeys (by decide)
  have kdf : parsedObject (kdfFields subtle bundle) = kdfFields subtle bundle :=
    parsedObject_named rfl kdfNamed kdfApart
  have cipher : parsedObject (cipherFields subtle bundle) = cipherFields subtle bundle :=
    parsedObject_named rfl cipherNamed cipherApart
  have whole : parsedObject (bundleFields subtle bundle) = bundleFields subtle bundle :=
    parsedObject_named rfl named apart
  have kdfInner : JsonText.rebuildFields parsedObject (kdfFields subtle bundle) =
      kdfFields subtle bundle := rfl
  have cipherInner : JsonText.rebuildFields parsedObject (cipherFields subtle bundle) =
      cipherFields subtle bundle := rfl
  have fields : JsonText.rebuildFields parsedObject (bundleFields subtle bundle) =
      bundleFields subtle bundle := by
    simp only [bundleFields, JsonText.rebuildFields, JsonText.rebuild, Subtle.number, kdfInner,
      cipherInner, kdf, cipher]
  rw [JsonText.rebuild, fields, whole]

theorem bundleText_parsed (bundle : KeyBundle) :
    jsonParse subtle.numbers (bundleText subtle bundle) =
      some (.object (bundleFields subtle bundle)) := by
  have parsed := @JsonText.parse_print N parsedObject (pretty subtle.numbers)
    (.object (bundleFields subtle bundle)) [10] (by decide)
  rwa [bundle_parsed] at parsed

section Lookup
variable (bundle : KeyBundle)

/-- The backup as it is read. -/
def stored : Option (Json N) := some (.object (bundleFields subtle bundle))

theorem stored_salt : subtle.property (prop (prop (stored subtle bundle) "kdf") "salt") =
    subtle.decoded (base64ToBytes bundle.salt) := rfl

theorem stored_iv : subtle.property (prop (prop (stored subtle bundle) "cipher") "iv") =
    subtle.decoded (base64ToBytes bundle.iv) := rfl

theorem stored_privateKey : subtle.property (prop (stored subtle bundle) "encryptedPrivateKey") =
    subtle.decoded (base64ToBytes bundle.encryptedPrivateKey) := rfl

theorem stored_iterations : prop (prop (stored subtle bundle) "kdf") "iterations" =
    some (subtle.number pbkdf2Iterations) := rfl

theorem stored_tagLength : prop (prop (stored subtle bundle) "cipher") "tagLength" =
    some (subtle.number 128) := rfl

theorem stored_pem : subtle.string (prop (stored subtle bundle) "publicKeyPem") =
    .ok bundle.publicKeyPem := rfl

theorem stored_fingerprint : isText (prop (stored subtle bundle) "publicKeyFingerprint")
    bundle.publicKeyFingerprint = true := beq_self_eq_true bundle.publicKeyFingerprint

theorem stored_supported [DecidableEq N] :
    supported subtle (.object (bundleFields subtle bundle)) = true := by
  have version : isNumber (prop (stored subtle bundle) "version") (subtle.ofNat 1) = true :=
    decide_eq_true rfl
  have format : isText (prop (stored subtle bundle) "format") keyBundleFormat = true :=
    beq_self_eq_true keyBundleFormat
  have algorithm : isText (prop (stored subtle bundle) "publicKeyAlgorithm") (units "Ed25519") =
      true := beq_self_eq_true (units "Ed25519")
  have kdf : isText (prop (prop (stored subtle bundle) "kdf") "name") (units "PBKDF2") = true :=
    beq_self_eq_true (units "PBKDF2")
  have cipher : isText (prop (prop (stored subtle bundle) "cipher") "name") (units "AES-GCM") =
      true := beq_self_eq_true (units "AES-GCM")
  rw [stored] at version format algorithm kdf cipher
  rw [supported, version, format, algorithm, kdf, cipher]
  rfl

end Lookup

/-- What is relied on of the browser: a text that was encrypted is decrypted with the same key,
and a key that was exported is imported. -/
structure Laws (subtle : Subtle N Private Public Aes) : Prop where
  decrypts : ∀ key iv context tag plain secret,
    subtle.encrypt key iv context tag plain = .ok secret →
      subtle.decrypt key iv context tag secret = .ok plain
  pkcs8 : ∀ key, subtle.importPkcs8 (subtle.exportPkcs8 key) = .ok key
  spki : ∀ key, subtle.importSpki (subtle.exportSpki key) = .ok key

variable {subtle}

/-- What a generated identity is made of. -/
structure Generated (subtle : Subtle N Private Public Aes) (drawn : Drawn subtle)
    (passphrase : Text) (identity : SigningIdentity Private Public) (backup : Text)
    (key : Aes) (encrypted : List UInt8) : Prop where
  derived : subtle.deriveKey passphrase drawn.salt (some (subtle.number pbkdf2Iterations)) = .ok key
  encrypts : subtle.encrypt key drawn.iv authenticatedContext (some (subtle.number 128))
    (subtle.exportPkcs8 drawn.privateKey) = .ok encrypted
  made : identity = ⟨drawn.privateKey, drawn.publicKey,
    derToPem (subtle.exportSpki drawn.publicKey) (units "PUBLIC KEY"),
    subtle.fingerprintForSpki (subtle.exportSpki drawn.publicKey), .generated⟩
  written : backup = bundleText subtle ⟨drawn.now, identity.fingerprint, identity.publicKeyPem,
    bytesToBase64 encrypted, bytesToBase64 drawn.salt, bytesToBase64 drawn.iv⟩

theorem generated_of {drawn : Drawn subtle} {passphrase backup : Text}
    {identity : SigningIdentity Private Public}
    (done : generateSigningIdentity subtle drawn passphrase = .ok (identity, backup)) :
    ∃ key encrypted, Generated subtle drawn passphrase identity backup key encrypted := by
  unfold generateSigningIdentity at done
  cases derived : subtle.deriveKey passphrase drawn.salt
      (some (subtle.number pbkdf2Iterations)) with
  | error message =>
    rw [derived] at done
    cases done
  | ok key =>
    rw [derived] at done
    cases encrypts : subtle.encrypt key drawn.iv authenticatedContext (some (subtle.number 128))
        (subtle.exportPkcs8 drawn.privateKey) with
    | error message =>
      simp only [bind, Except.bind, encrypts] at done
      cases done
    | ok encrypted =>
      simp only [bind, Except.bind, encrypts] at done
      obtain ⟨rfl, rfl⟩ := Prod.mk.inj (Except.ok.inj done)
      exact ⟨key, encrypted, derived, encrypts, rfl, rfl⟩

theorem publicKey_label : units "PUBLIC KEY" ≠ [] ∧ 45 ∉ units "PUBLIC KEY" := by decide

/-- An import whose steps all succeed. -/
theorem unlock_ok {bundle : Option (Json N)} {passphrase : Text}
    {challenge salt iv encrypted pkcs8 der : List UInt8} {key : Aes}
    {identity : SigningIdentity Private Public}
    (salted : subtle.property (prop (prop bundle "kdf") "salt") = .ok salt)
    (vector : subtle.property (prop (prop bundle "cipher") "iv") = .ok iv)
    (derived : subtle.deriveKey passphrase salt (prop (prop bundle "kdf") "iterations") = .ok key)
    (secret : subtle.property (prop bundle "encryptedPrivateKey") = .ok encrypted)
    (decrypted : subtle.decrypt key iv authenticatedContext
      (prop (prop bundle "cipher") "tagLength") encrypted = .ok pkcs8)
    (privateKey : subtle.importPkcs8 pkcs8 = .ok identity.privateKey)
    (pem : subtle.string (prop bundle "publicKeyPem") = .ok identity.publicKeyPem)
    (decoded : subtle.decoded (pemToDer identity.publicKeyPem) = .ok der)
    (publicKey : subtle.importSpki der = .ok identity.publicKey)
    (fingerprint : identity.fingerprint = subtle.fingerprintForSpki der)
    (stated : isText (prop bundle "publicKeyFingerprint") identity.fingerprint = true)
    (verified : subtle.verify identity.publicKey (subtle.sign identity.privateKey challenge)
      challenge = true)
    (source : identity.source = .imported) :
    unlock subtle bundle passphrase challenge = .ok identity := by
  obtain ⟨ownPrivate, ownPublic, ownPem, ownFingerprint, ownSource⟩ := identity
  dsimp only at fingerprint source stated
  subst ownFingerprint ownSource
  unfold unlock
  simp only [bind, Except.bind, salted, vector, derived, secret, decrypted, privateKey, pem,
    decoded, publicKey, stated, verified, Bool.true_eq_false, if_false]
  rfl

theorem decoded_base64 (subtle : Subtle N Private Public Aes) (bytes : List UInt8) :
    subtle.decoded (base64ToBytes (bytesToBase64 bytes)) = .ok bytes := by
  rw [base64ToBytes_bytesToBase64]
  rfl

/-- The bundle of a generated identity is unlocked with its passphrase. -/
theorem generated_unlocked {drawn : Drawn subtle} {passphrase backup : Text}
    {identity : SigningIdentity Private Public} {key : Aes} {encrypted : List UInt8}
    (laws : Laws subtle)
    (generated : Generated subtle drawn passphrase identity backup key encrypted)
    (challenge : List UInt8) :
    ∃ bundle, backup = bundleText subtle bundle ∧
      unlock subtle (stored subtle bundle) passphrase challenge =
        .ok { identity with source := .imported } := by
  obtain ⟨derived, encrypts, rfl, rfl⟩ := generated
  obtain ⟨filled, plain⟩ := publicKey_label
  generalize written : (⟨drawn.now, _, _, _, _, _⟩ : KeyBundle) = bundle
  refine ⟨bundle, rfl, ?_⟩
  have salted : subtle.property (prop (prop (stored subtle bundle) "kdf") "salt") =
      .ok drawn.salt := by
    rw [stored_salt, ← written]
    exact decoded_base64 subtle drawn.salt
  have vector : subtle.property (prop (prop (stored subtle bundle) "cipher") "iv") =
      .ok drawn.iv := by
    rw [stored_iv, ← written]
    exact decoded_base64 subtle drawn.iv
  have secret : subtle.property (prop (stored subtle bundle) "encryptedPrivateKey") =
      .ok encrypted := by
    rw [stored_privateKey, ← written]
    exact decoded_base64 subtle encrypted
  have der : subtle.decoded
      (pemToDer (derToPem (subtle.exportSpki drawn.publicKey) (units "PUBLIC KEY"))) =
        .ok (subtle.exportSpki drawn.publicKey) := by
    rw [pemToDer_derToPem _ filled plain]
    rfl
  have pem : subtle.string (prop (stored subtle bundle) "publicKeyPem") =
      .ok (derToPem (subtle.exportSpki drawn.publicKey) (units "PUBLIC KEY")) := by
    rw [stored_pem, ← written]
  have fingerprint : isText (prop (stored subtle bundle) "publicKeyFingerprint")
      (subtle.fingerprintForSpki (subtle.exportSpki drawn.publicKey)) = true := by
    have stated : bundle.publicKeyFingerprint =
        subtle.fingerprintForSpki (subtle.exportSpki drawn.publicKey) := by
      rw [← written]
    rw [← stated]
    exact stored_fingerprint subtle bundle
  have decrypted := laws.decrypts _ _ _ _ _ _ encrypts
  rw [← stored_tagLength subtle bundle] at decrypted
  rw [← stored_iterations subtle bundle] at derived
  apply unlock_ok salted vector derived secret decrypted
  · exact laws.pkcs8 _
  · exact pem
  · exact der
  · exact laws.spki _
  · rfl
  · exact fingerprint
  · exact drawn.pair challenge
  · rfl

/-- A backup that was generated is imported with its passphrase, as the identity that it was made
of. -/
theorem generated_restores [DecidableEq N] {drawn : Drawn subtle} {passphrase backup : Text}
    {identity : SigningIdentity Private Public} (laws : Laws subtle)
    (done : generateSigningIdentity subtle drawn passphrase = .ok (identity, backup))
    (challenge : List UInt8) :
    importSigningIdentity subtle backup passphrase challenge =
      .ok { identity with source := .imported } := by
  obtain ⟨key, encrypted, generated⟩ := generated_of done
  obtain ⟨bundle, rfl, unlocked⟩ := generated_unlocked laws generated challenge
  unfold importSigningIdentity
  rw [bundleText_parsed]
  dsimp only
  rw [stored_supported, if_neg Bool.noConfusion]
  rw [stored] at unlocked
  rw [unlocked]
  rfl

/-! ## Identities that are consistent -/

/-- The public key is the one of the PEM text, and so is the fingerprint. -/
structure Consistent (subtle : Subtle N Private Public Aes)
    (identity : SigningIdentity Private Public) : Prop where
  key : ∃ der, pemToDer identity.publicKeyPem = some der ∧
    subtle.importSpki der = .ok identity.publicKey
  fingerprint : publicKeyFingerprint subtle identity.publicKeyPem = some identity.fingerprint

theorem generated_consistent {drawn : Drawn subtle} {passphrase backup : Text}
    {identity : SigningIdentity Private Public} (laws : Laws subtle)
    (done : generateSigningIdentity subtle drawn passphrase = .ok (identity, backup)) :
    Consistent subtle identity := by
  obtain ⟨key, encrypted, generated⟩ := generated_of done
  obtain ⟨filled, plain⟩ := publicKey_label
  have read := pemToDer_derToPem (subtle.exportSpki drawn.publicKey) filled plain
  rw [generated.made]
  exact ⟨⟨_, read, laws.spki drawn.publicKey⟩, congrArg (Option.map subtle.fingerprintForSpki) read⟩

theorem decoded_ok {bytes : Option (List UInt8)} {found : List UInt8}
    (read : subtle.decoded bytes = .ok found) : bytes = some found := by
  cases bytes with
  | none => cases read
  | some bytes =>
    cases read
    rfl

theorem bind_ok {A B : Type} {step : Except Text A} {rest : A → Except Text B} {b : B}
    (done : step.bind rest = .ok b) : ∃ a, step = .ok a ∧ rest a = .ok b := by
  cases step with
  | error message => cases done
  | ok a => exact ⟨a, rfl, done⟩

/-- What an import that succeeds has checked. -/
theorem unlock_checked {bundle : Option (Json N)} {passphrase : Text} {challenge : List UInt8}
    {identity : SigningIdentity Private Public}
    (done : unlock subtle bundle passphrase challenge = .ok identity) :
    Consistent subtle identity ∧ identity.source = .imported ∧
      subtle.verify identity.publicKey (subtle.sign identity.privateKey challenge) challenge =
        true := by
  obtain ⟨salt, -, done⟩ := bind_ok done
  obtain ⟨iv, -, done⟩ := bind_ok done
  obtain ⟨key, -, done⟩ := bind_ok done
  obtain ⟨encrypted, -, done⟩ := bind_ok done
  obtain ⟨pkcs8, -, done⟩ := bind_ok done
  obtain ⟨privateKey, -, done⟩ := bind_ok done
  obtain ⟨publicKeyPem, -, done⟩ := bind_ok done
  obtain ⟨der, decoded, done⟩ := bind_ok done
  obtain ⟨publicKey, imported, done⟩ := bind_ok done
  dsimp only at done
  split at done
  · cases done
  · split at done
    · cases done
    · next verified =>
      cases done
      have read := decoded_ok decoded
      refine ⟨⟨⟨der, read, imported⟩, congrArg (Option.map subtle.fingerprintForSpki) read⟩, rfl, ?_⟩
      rwa [Bool.not_eq_false] at verified

theorem import_checked [DecidableEq N] {text passphrase : Text} {challenge : List UInt8}
    {identity : SigningIdentity Private Public}
    (done : importSigningIdentity subtle text passphrase challenge = .ok identity) :
    Consistent subtle identity ∧ identity.source = .imported ∧
      subtle.verify identity.publicKey (subtle.sign identity.privateKey challenge) challenge =
        true := by
  unfold importSigningIdentity at done
  split at done
  · cases done
  · cases done
  · next bundle _ _ =>
    split at done
    · cases done
    · cases unlocked : unlock subtle (some bundle) passphrase challenge with
      | error message =>
        rw [unlocked] at done
        cases done
      | ok found =>
        rw [unlocked] at done
        cases done
        exact unlock_checked unlocked

end KeyBackups
