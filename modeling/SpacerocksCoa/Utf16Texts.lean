import SpacerocksCoa.CertificateForm
import SpacerocksCoa.IdempotencyKeys
import SpacerocksCoa.ManifestJson
import SpacerocksCoa.PackageVerifier

/-!
# UTF-16 texts and characters

A string is a sequence of UTF-16 units. The encoder reads characters from it and replaces a
surrogate that stands alone. A text without such surrogates comes back from its characters, and
an ASCII text has its units as characters.
-/
namespace Utf16Texts
open JsonText (Text units)
open CodeUnits
open ZipDirectory (decodeFatal)

/-! ## Characters -/

/-- The units of a character. -/
def charUnits (c : Char) : Text :=
  if c.toNat < 0x10000 then [c.toNat]
  else [0xd800 + (c.toNat - 0x10000) / 0x400, 0xdc00 + (c.toNat - 0x10000) % 0x400]

def utf16 (text : List Char) : Text := text.flatMap charUnits

def utf8 (text : Text) : List UInt8 := (chars text).flatMap String.utf8EncodeChar

/-- A text in which every surrogate is one of a pair. -/
inductive WellFormed : Text → Prop where
  | nil : WellFormed []
  | unit {c : Nat} {rest : Text} (plain : (isHigh c || isLow c) = false)
      (others : WellFormed rest) : WellFormed (c :: rest)
  | pair {c d : Nat} {rest : Text} (high : isHigh c = true) (low : isLow d = true)
      (others : WellFormed rest) : WellFormed (c :: d :: rest)

theorem wellFormed_append {s t : Text} (first : WellFormed s) (second : WellFormed t) :
    WellFormed (s ++ t) := by
  induction first with
  | nil => exact second
  | unit plain _ ih => exact .unit plain ih
  | pair high low _ ih => exact .pair high low ih

theorem plain_of_small {c : Nat} (small : c < 0xd800) : (isHigh c || isLow c) = false := by
  simp only [isHigh, isLow, Bool.or_eq_false_iff, Bool.and_eq_false_iff, decide_eq_false_iff_not]
  omega

theorem wellFormed_small {s : Text} (small : ∀ c ∈ s, c < 0xd800) : WellFormed s := by
  induction s with
  | nil => exact .nil
  | cons c rest ih =>
    have others := ih fun d member => small d (List.mem_cons_of_mem _ member)
    exact .unit (plain_of_small (small c List.mem_cons_self)) others

theorem chars_cons_plain {c : Nat} (plain : (isHigh c || isLow c) = false) (rest : Text) :
    chars (c :: rest) = unitChar c :: chars rest := by
  cases rest with
  | nil => rfl
  | cons d rest =>
    have single : (isHigh c && isLow d) = false := by
      rw [Bool.or_eq_false_iff] at plain
      rw [plain.1, Bool.false_and]
    rw [chars, single]
    rfl

theorem isValidChar_of_plain {c : Nat} (plain : (isHigh c || isLow c) = false)
    (small : c < 65536) : c.isValidChar := by
  simp only [isHigh, isLow, Bool.or_eq_false_iff, Bool.and_eq_false_iff,
    decide_eq_false_iff_not] at plain
  unfold Nat.isValidChar
  omega

theorem ofNat_toNat {c : Nat} (valid : c.isValidChar) : (Char.ofNat c).toNat = c := by
  rw [Char.ofNat, dif_pos valid]
  rfl

theorem charUnits_unitChar {c : Nat} (plain : (isHigh c || isLow c) = false) (small : c < 65536) :
    charUnits (unitChar c) = [c] := by
  have valid := isValidChar_of_plain plain small
  rw [unitChar, if_pos valid, charUnits, ofNat_toNat valid, if_pos small]

theorem pairChar_toNat {c d : Nat} (high : isHigh c = true) (low : isLow d = true) :
    (Char.ofNat (0x10000 + (c - 0xd800) * 0x400 + (d - 0xdc00))).toNat =
      0x10000 + (c - 0xd800) * 0x400 + (d - 0xdc00) := by
  simp only [isHigh, isLow, Bool.and_eq_true, decide_eq_true_eq] at high low
  have valid : Nat.isValidChar (0x10000 + (c - 0xd800) * 0x400 + (d - 0xdc00)) := by
    unfold Nat.isValidChar
    omega
  exact ofNat_toNat valid

theorem charUnits_pair {c d : Nat} (high : isHigh c = true) (low : isLow d = true) :
    charUnits (Char.ofNat (0x10000 + (c - 0xd800) * 0x400 + (d - 0xdc00))) = [c, d] := by
  have number := pairChar_toNat high low
  simp only [isHigh, isLow, Bool.and_eq_true, decide_eq_true_eq] at high low
  rw [charUnits, number, if_neg (by omega)]
  have first : 0xd800 + (0x10000 + (c - 0xd800) * 0x400 + (d - 0xdc00) - 0x10000) / 0x400 = c := by
    omega
  have second : 0xdc00 + (0x10000 + (c - 0xd800) * 0x400 + (d - 0xdc00) - 0x10000) % 0x400 = d := by
    omega
  rw [first, second]

/-- The characters of a well-formed text have its units. -/
theorem utf16_chars {s : Text} (formed : WellFormed s) (small : ∀ c ∈ s, c < 65536) :
    utf16 (chars s) = s := by
  induction formed with
  | nil => rfl
  | @unit c rest plain _ ih =>
    have others := ih fun d member => small d (List.mem_cons_of_mem _ member)
    rw [chars_cons_plain plain, utf16, List.flatMap_cons,
      charUnits_unitChar plain (small c List.mem_cons_self)]
    exact congrArg (c :: ·) others
  | @pair c d rest high low _ ih =>
    have others := ih fun e member =>
      small e (List.mem_cons_of_mem _ (List.mem_cons_of_mem _ member))
    have both : (isHigh c && isLow d) = true := by rw [high, low]; rfl
    rw [chars, both, if_pos rfl, utf16, List.flatMap_cons, charUnits_pair high low]
    exact congrArg (fun t => c :: d :: t) others

/-! ## ASCII texts -/

def Ascii (s : Text) : Prop := ∀ c ∈ s, c < 128

instance (s : Text) : Decidable (Ascii s) := List.decidableBAll (fun c => c < 128) s

/-- A literal key: characters of one byte. -/
def Plain (s : String) : Prop := ∀ c ∈ s.toList, c.toNat < 128

instance (s : String) : Decidable (Plain s) :=
  List.decidableBAll (fun c : Char => c.toNat < 128) s.toList

theorem unitChar_small {c : Nat} (small : (unitChar c).toNat < 128) : (unitChar c).toNat = c := by
  unfold unitChar at small ⊢
  split at small
  · next valid =>
    rw [if_pos valid]
    exact ofNat_toNat valid
  · exact absurd small (by decide)

/-- A text whose characters have one byte each has these characters as its units. -/
theorem units_of_small {s : Text} (small : ∀ c ∈ chars s, c.toNat < 128) :
    s = (chars s).map Char.toNat := by
  induction s using chars.induct with
  | case1 => rfl
  | case2 c =>
    rw [chars] at small ⊢
    rw [List.map_singleton, unitChar_small (small _ List.mem_cons_self)]
  | case3 c d rest both ih =>
    rw [chars, if_pos both] at small
    rw [Bool.and_eq_true] at both
    have number := pairChar_toNat both.1 both.2
    have byte := small _ List.mem_cons_self
    omega
  | case4 c d rest single ih =>
    rw [chars, if_neg single] at small ⊢
    rw [List.map_cons, unitChar_small (small _ List.mem_cons_self),
      ← ih fun e member => small e (List.mem_cons_of_mem _ member)]

theorem chars_small {s : Text} (small : Ascii s) : chars s = s.map Char.ofNat := by
  induction s with
  | nil => rfl
  | cons c rest ih =>
    have byte := small c List.mem_cons_self
    have plain := plain_of_small (show c < 0xd800 by omega)
    have valid : c.isValidChar := Or.inl (by omega)
    rw [chars_cons_plain plain, unitChar, if_pos valid,
      ih fun d member => small d (List.mem_cons_of_mem _ member)]
    rfl

theorem chars_units {s : String} (plain : Plain s) : chars (units s) = s.toList := by
  rw [JsonText.units_ascii plain, chars_small]
  · rw [List.map_map]
    exact List.map_id'' Char.ofNat_toNat _
  · intro n member
    obtain ⟨c, inside, rfl⟩ := List.mem_map.1 member
    exact plain c inside

theorem ascii_append {s t : Text} (first : Ascii s) (second : Ascii t) : Ascii (s ++ t) := by
  intro c member
  rcases List.mem_append.1 member with inside | inside
  · exact first c inside
  · exact second c inside

theorem chars_append {s t : Text} (first : Ascii s) (second : Ascii t) :
    chars (s ++ t) = chars s ++ chars t := by
  rw [chars_small (ascii_append first second), chars_small first, chars_small second,
    List.map_append]

theorem ascii_toNat {c : Nat} (small : c < 128) : (Char.ofNat c).toNat = c :=
  ofNat_toNat (Or.inl (by omega))

theorem chars_toNat {s : Text} (ascii : Ascii s) : (chars s).map Char.toNat = s := by
  rw [chars_small ascii, List.map_map]
  exact (List.map_congr_left fun c member => ascii_toNat (ascii c member)).trans (List.map_id s)

theorem mem_of_chars {s : Text} (ascii : Ascii s) {c : Char} (member : c ∈ chars s) :
    c.toNat ∈ s := by
  have inside := List.mem_map_of_mem (f := Char.toNat) member
  rwa [chars_toNat ascii] at inside

theorem chars_injective {s t : Text} (first : Ascii s) (second : Ascii t)
    (same : chars s = chars t) : s = t := by
  rw [← chars_toNat first, same, chars_toNat second]

/-! ## Bytes -/

/-- A text that begins with a character of one byte has no byte order mark. -/
theorem decodeFatal_utf8 {text : Text} {c : Char} {rest : List Char}
    (begins : chars text = c :: rest) (oneByte : c.toNat < 128) :
    decodeFatal (utf8 text) = some (chars text) := by
  have unmarked : (utf8 text).take 3 ≠ [0xef, 0xbb, 0xbf] := by
    rw [utf8, begins, List.flatMap_cons, ← JsonText.ascii_encoded c oneByte]
    intro marked
    have byte : UInt8.ofNat c.toNat = 0xef := (List.cons.inj marked).1
    have number : c.toNat % 256 = 239 := congrArg UInt8.toNat byte
    omega
  have bytes : (⟨(utf8 text).toArray⟩ : ByteArray) = (chars text).utf8Encode := by
    apply ByteArray.ext
    rw [List.utf8Encode, List.data_toByteArray]
    rfl
  unfold decodeFatal
  simp only [if_neg unmarked]
  rw [bytes, List.utf8Decode?_utf8Encode]
  rfl

theorem utf8_length (text : Text) : (utf8 text).length ≤ 4 * text.length := by
  have each : ∀ s : List Char, (s.flatMap String.utf8EncodeChar).length ≤ 4 * s.length := by
    intro s
    induction s with
    | nil => exact Nat.le_refl _
    | cons c s ih =>
      have four := Char.utf8Size_le_four c
      rw [List.flatMap_cons, List.length_append, List.length_cons, String.length_utf8EncodeChar]
      omega
  have shorter : (chars text).length ≤ text.length := by
    induction text using chars.induct with
    | case1 => exact Nat.le_refl _
    | case2 c => exact Nat.le_refl _
    | case3 c d rest pair ih =>
      rw [chars, if_pos pair, List.length_cons, List.length_cons, List.length_cons]
      omega
    | case4 c d rest alone ih =>
      rw [chars, if_neg alone, List.length_cons, List.length_cons]
      omega
  have bytes := each (chars text)
  rw [utf8]
  omega

end Utf16Texts
