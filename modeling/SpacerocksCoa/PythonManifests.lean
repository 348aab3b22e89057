import SpacerocksCoa.PackageReading
import SpacerocksCoa.PythonJson

/-!
# A manifest that Python reads

The browser prints a value and encodes the text; Python decodes the bytes and scans the text.
It gets the value that was printed, with its properties in the order of the text and every number
as its own reader sees it.
-/
namespace PythonManifests
open JsonText (Text Json Same Distinct NumberFormat Fits Takes fits_mono fits_same scan scan_print
  seen seen_distinct substitute substitute_same substituteItems_map units)
open ManifestJson (pretty stableStringify sortJson)
open CodeUnits (isHigh isLow unitChar chars)
open IdempotencyKeys (PyNumber)
open PythonJson
open ReadManifests
open Utf16Texts

/-! ## Bytes -/

theorem byte_toNat {n : Nat} (small : n < 256) : (UInt8.ofNat n).toNat = n := Nat.mod_eq_of_lt small

/-- A byte that continues a character. -/
theorem tail_facts (n : Nat) : (UInt8.ofNat (n % 0x40 + 0x80)).toNat = n % 0x40 + 0x80 ∧
    isTail (UInt8.ofNat (n % 0x40 + 0x80)) = true := by
  have byte := byte_toNat (show n % 0x40 + 0x80 < 256 by omega)
  refine ⟨byte, ?_⟩
  rw [isTail, byte, Bool.and_eq_true, decide_eq_true_eq, decide_eq_true_eq]
  omega

theorem twoBytes_of {a b : UInt8} {k l : Nat} (lead : a.toNat = k) (tail : b.toNat = l) :
    twoBytes a b = (k - 0xc0) * 64 + (l - 0x80) := by
  subst lead tail
  rfl

theorem threeBytes_of {a b c : UInt8} {k l m : Nat} (lead : a.toNat = k) (tail₁ : b.toNat = l)
    (tail₂ : c.toNat = m) :
    threeBytes a b c = (k - 0xe0) * 4096 + (l - 0x80) * 64 + (m - 0x80) := by
  subst lead tail₁ tail₂
  rfl

theorem fourBytes_of {a b c d : UInt8} {k l m n : Nat} (lead : a.toNat = k) (tail₁ : b.toNat = l)
    (tail₂ : c.toNat = m) (tail₃ : d.toNat = n) : fourBytes a b c d =
      (k - 0xf0) * 262144 + (l - 0x80) * 4096 + (m - 0x80) * 64 + (n - 0x80) := by
  subst lead tail₁ tail₂ tail₃
  rfl

theorem two_point {n : Nat} (low : 0x80 ≤ n) (high : n < 0x800) :
    (n / 64 % 0x20 + 0xc0 - 0xc0) * 64 + (n % 0x40 + 0x80 - 0x80) = n := by
  rw [Nat.add_sub_cancel, Nat.add_sub_cancel]
  omega

theorem three_point {n : Nat} (high : n < 0x10000) :
    (n / 4096 % 0x10 + 0xe0 - 0xe0) * 4096 + (n / 64 % 0x40 + 0x80 - 0x80) * 64 +
      (n % 0x40 + 0x80 - 0x80) = n := by
  rw [Nat.add_sub_cancel, Nat.add_sub_cancel, Nat.add_sub_cancel]
  omega

theorem four_point {n : Nat} (high : n < 0x110000) :
    (n / 262144 % 0x08 + 0xf0 - 0xf0) * 262144 + (n / 4096 % 0x40 + 0x80 - 0x80) * 4096 +
      (n / 64 % 0x40 + 0x80 - 0x80) * 64 + (n % 0x40 + 0x80 - 0x80) = n := by
  rw [Nat.add_sub_cancel, Nat.add_sub_cancel, Nat.add_sub_cancel, Nat.add_sub_cancel]
  omega

theorem decodeUtf8_two (pass : Bool) {n : Nat} (low : 0x80 ≤ n) (high : n < 0x800)
    (rest : List UInt8) :
    decodeUtf8 pass (UInt8.ofNat (n / 64 % 0x20 + 0xc0) :: UInt8.ofNat (n % 0x40 + 0x80) :: rest) =
      (decodeUtf8 pass rest).map (n :: ·) := by
  have lead := byte_toNat (show n / 64 % 0x20 + 0xc0 < 256 by omega)
  obtain ⟨byte, tail⟩ := tail_facts n
  have notOne : ¬ n / 64 % 0x20 + 0xc0 < 0x80 := by omega
  have notShort : ¬ n / 64 % 0x20 + 0xc0 < 0xc2 := by omega
  have two : n / 64 % 0x20 + 0xc0 < 0xe0 := by omega
  have point : twoBytes (UInt8.ofNat (n / 64 % 0x20 + 0xc0)) (UInt8.ofNat (n % 0x40 + 0x80)) = n :=
    (twoBytes_of lead byte).trans (two_point low high)
  rw [decodeUtf8.eq_def]
  simp only [lead, if_neg notOne, if_neg notShort, tail, Bool.true_eq_false, if_false, if_pos two,
    point]

theorem decodeUtf8_three (pass : Bool) {n : Nat} (low : 0x800 ≤ n) (high : n < 0x10000)
    (plain : isSurrogate n = false) (rest : List UInt8) :
    decodeUtf8 pass (UInt8.ofNat (n / 4096 % 0x10 + 0xe0) ::
        UInt8.ofNat (n / 64 % 0x40 + 0x80) :: UInt8.ofNat (n % 0x40 + 0x80) :: rest) =
      (decodeUtf8 pass rest).map (n :: ·) := by
  have lead := byte_toNat (show n / 4096 % 0x10 + 0xe0 < 256 by omega)
  obtain ⟨byte₁, tail₁⟩ := tail_facts (n / 64)
  obtain ⟨byte₂, tail₂⟩ := tail_facts n
  have notOne : ¬ n / 4096 % 0x10 + 0xe0 < 0x80 := by omega
  have notShort : ¬ n / 4096 % 0x10 + 0xe0 < 0xc2 := by omega
  have notTwo : ¬ n / 4096 % 0x10 + 0xe0 < 0xe0 := by omega
  have three : n / 4096 % 0x10 + 0xe0 < 0xf0 := by omega
  have point : threeBytes (UInt8.ofNat (n / 4096 % 0x10 + 0xe0))
      (UInt8.ofNat (n / 64 % 0x40 + 0x80)) (UInt8.ofNat (n % 0x40 + 0x80)) = n :=
    (threeBytes_of lead byte₁ byte₂).trans (three_point high)
  have whole : ¬ (n < 0x800 ∨ (pass = false ∧ isSurrogate n = true)) := by
    rintro (short | ⟨-, surrogate⟩)
    · omega
    · rw [plain] at surrogate
      cases surrogate
  rw [decodeUtf8.eq_def]
  simp only [lead, if_neg notOne, if_neg notShort, tail₁, tail₂, Bool.true_eq_false, if_false,
    if_neg notTwo, if_pos three, point, if_neg whole]

theorem decodeUtf8_four (pass : Bool) {n : Nat} (low : 0x10000 ≤ n) (high : n < 0x110000)
    (rest : List UInt8) :
    decodeUtf8 pass (UInt8.ofNat (n / 262144 % 0x08 + 0xf0) ::
        UInt8.ofNat (n / 4096 % 0x40 + 0x80) :: UInt8.ofNat (n / 64 % 0x40 + 0x80) ::
          UInt8.ofNat (n % 0x40 + 0x80) :: rest) =
      (decodeUtf8 pass rest).map (unitsOf n ++ ·) := by
  have lead := byte_toNat (show n / 262144 % 0x08 + 0xf0 < 256 by omega)
  obtain ⟨byte₁, tail₁⟩ := tail_facts (n / 4096)
  obtain ⟨byte₂, tail₂⟩ := tail_facts (n / 64)
  obtain ⟨byte₃, tail₃⟩ := tail_facts n
  have notOne : ¬ n / 262144 % 0x08 + 0xf0 < 0x80 := by omega
  have notShort : ¬ n / 262144 % 0x08 + 0xf0 < 0xc2 := by omega
  have notTwo : ¬ n / 262144 % 0x08 + 0xf0 < 0xe0 := by omega
  have notThree : ¬ n / 262144 % 0x08 + 0xf0 < 0xf0 := by omega
  have point : fourBytes (UInt8.ofNat (n / 262144 % 0x08 + 0xf0))
      (UInt8.ofNat (n / 4096 % 0x40 + 0x80)) (UInt8.ofNat (n / 64 % 0x40 + 0x80))
      (UInt8.ofNat (n % 0x40 + 0x80)) = n :=
    (fourBytes_of lead byte₁ byte₂ byte₃).trans (four_point high)
  rw [decodeUtf8.eq_def]
  have whole : ¬ (False ∨ n < 0x10000 ∨ 0x10ffff < n) := by
    rintro (impossible | small | large)
    · exact impossible
    · exact Nat.not_lt.2 low small
    · exact Nat.not_lt.2 (Nat.le_of_lt_succ high) large
  simp only [lead, if_neg notOne, if_neg notShort, tail₁, tail₂, tail₃, Bool.true_eq_false,
    if_false, if_neg notTwo, if_neg notThree, point, if_neg whole]

/-- A character is decoded from its bytes, whatever follows. -/
theorem decodeUtf8_char (pass : Bool) (c : Char) (rest : List UInt8) :
    decodeUtf8 pass (String.utf8EncodeChar c ++ rest) =
      (decodeUtf8 pass rest).map (charUnits c ++ ·) := by
  have value : c.val.toNat = c.toNat := rfl
  have valid : c.toNat < 0xd800 ∨ 0xdfff < c.toNat ∧ c.toNat < 0x110000 := c.valid
  unfold String.utf8EncodeChar
  simp only [value]
  by_cases one : c.toNat ≤ 0x7f
  · have byte := byte_toNat (show c.toNat < 256 by omega)
    have low : c.toNat < 0x80 := by omega
    rw [if_pos one, List.cons_append, List.nil_append, decodeUtf8.eq_def, charUnits,
      if_pos (show c.toNat < 0x10000 by omega)]
    simp only [byte, if_pos low]
    rfl
  rw [if_neg one]
  by_cases two : c.toNat ≤ 0x7ff
  · rw [if_pos two, charUnits, if_pos (show c.toNat < 0x10000 by omega)]
    exact decodeUtf8_two pass (by omega) (by omega) rest
  rw [if_neg two]
  by_cases three : c.toNat ≤ 0xffff
  · have plain : isSurrogate c.toNat = false := by
      rw [isSurrogate, Bool.and_eq_false_iff, decide_eq_false_iff_not, decide_eq_false_iff_not]
      omega
    rw [if_pos three, charUnits, if_pos (show c.toNat < 0x10000 by omega)]
    exact decodeUtf8_three pass (by omega) (by omega) plain rest
  · rw [if_neg three, charUnits, if_neg (show ¬ c.toNat < 0x10000 by omega)]
    have decoded := decodeUtf8_four pass (show 0x10000 ≤ c.toNat by omega) (by omega) rest
    rwa [unitsOf, if_neg (show ¬ c.toNat < 0x10000 by omega)] at decoded

theorem decodeUtf8_chars (pass : Bool) (s : List Char) :
    decodeUtf8 pass (s.flatMap String.utf8EncodeChar) = some (utf16 s) := by
  induction s with
  | nil => rfl
  | cons c s ih =>
    rw [List.flatMap_cons, decodeUtf8_char, ih]
    rfl

/-- The text that was encoded. -/
theorem decodeUtf8_utf8 (pass : Bool) {s : Text} (formed : WellFormed s)
    (small : ∀ c ∈ s, c < 65536) : decodeUtf8 pass (utf8 s) = some s := by
  rw [utf8, decodeUtf8_chars, utf16_chars formed small]

/-- Bytes that begin with two characters of one byte are taken for UTF-8. -/
theorem detectEncoding_begins {a b : UInt8} (first : a ≠ 0 ∧ a.toNat < 128)
    (second : b ≠ 0 ∧ b.toNat < 128) (rest : List UInt8) :
    detectEncoding (a :: b :: rest) = .utf8 := by
  have other : ∀ (k : Nat) (mark : UInt8) (marks : List UInt8), mark = 0 ∨ 128 ≤ mark.toNat →
      (a :: b :: rest).take (k + 1) ≠ mark :: marks := by
    intro k mark marks foreign same
    cases (List.cons.inj same).1
    rcases foreign with null | wide
    · exact first.1 null
    · omega
  have notWide : ¬ ((a :: b :: rest).take 4 = [0, 0, 0xfe, 0xff] ∨
      (a :: b :: rest).take 4 = [0xff, 0xfe, 0, 0]) :=
    not_or.2 ⟨other 3 0 _ (.inl rfl), other 3 0xff _ (.inr (by decide))⟩
  have notMarked : ¬ ((a :: b :: rest).take 2 = [0xfe, 0xff] ∨
      (a :: b :: rest).take 2 = [0xff, 0xfe]) :=
    not_or.2 ⟨other 1 0xfe _ (.inr (by decide)), other 1 0xff _ (.inr (by decide))⟩
  unfold detectEncoding
  rw [if_neg notWide, if_neg notMarked, if_neg (other 2 0xef _ (.inr (by decide)))]
  clear other notWide notMarked
  rcases rest with _ | ⟨c, _ | ⟨d, rest⟩⟩
  · simp only [if_neg first.1, if_neg second.1]
  · rfl
  · simp only [if_neg first.1, if_neg second.1]

/-! ## A printed value -/

variable {N : Type} (numbers : NumberFormat N)

/-- The text is an object: a brace and another printed character or a line break. -/
theorem stableStringify_begins (fields : List (Text × Json N)) :
    ∃ c rest, stableStringify numbers (.object fields) = 123 :: c :: rest ∧ 0 < c ∧ c < 128 := by
  obtain ⟨sorted, object⟩ : ∃ sorted, sortJson (.object fields) = .object sorted := by
    rw [sortJson, JsonText.rebuild]
    exact ⟨_, rfl⟩
  rw [stableStringify, object]
  cases sorted with
  | nil => exact ⟨125, [10], rfl, by decide, by decide⟩
  | cons field sorted =>
    obtain ⟨key, item⟩ := field
    exact ⟨10, _, rfl, by decide, by decide⟩

theorem utf8_cons {c : Nat} (small : c < 128) (rest : Text) :
    utf8 (c :: rest) = UInt8.ofNat c :: utf8 rest := by
  have valid : c.isValidChar := Or.inl (by omega)
  have value : (Char.ofNat c).toNat = c := ascii_toNat small
  have byte := JsonText.ascii_encoded (Char.ofNat c) (by omega)
  rw [utf8, chars_cons_plain (plain_of_small (by omega)), unitChar, if_pos valid,
    List.flatMap_cons, ← byte, value]
  rfl

theorem small_byte {c : Nat} (positive : 0 < c) (small : c < 128) :
    UInt8.ofNat c ≠ 0 ∧ (UInt8.ofNat c).toNat < 128 := by
  have byte := byte_toNat (show c < 256 by omega)
  refine ⟨fun zero => ?_, by omega⟩
  rw [zero] at byte
  exact absurd byte (Nat.ne_of_lt positive)

section Loads
variable {F : Type} {float : Text → F} {see : N → PyNumber F} {numbers}

theorem dict_perm (fields : List (Text × Json N)) (distinct : (JsonText.keys fields).Nodup) :
    (dict fields).Perm fields := by
  rw [dict_distinct distinct]

/-- Python reads what the browser printed, unless it is nested too deeply or an integer is too
long. -/
theorem loads_stableStringify {limit : Nat}
    (written : ∀ n, readNumber float (numbers.write n) = some (see n))
    (short : ∀ n m, see n = .int m → (numbers.write n).length ≤ maxStrDigits)
    {fields : List (Text × Json N)} (plainly : Plainly (.object fields))
    (nesting : Fits (fun _ => True) limit (.object fields))
    (small : ∀ c ∈ stableStringify numbers (.object fields), c < 65536) :
    ∃ parsed, loads float limit (utf8 (stableStringify numbers (.object fields))) = .ok parsed ∧
      Same parsed (seen see (.object fields)) ∧ Distinct parsed := by
  obtain ⟨c, rest, begins, positive, ascii⟩ := stableStringify_begins numbers fields
  have detected : detectEncoding (utf8 (stableStringify numbers (.object fields))) = .utf8 := by
    rw [begins, utf8_cons (by decide), utf8_cons ascii]
    exact detectEncoding_begins (small_byte (by decide) (by decide)) (small_byte positive ascii) _
  have decoded := decodeUtf8_utf8 true (stableStringify_wellFormed numbers (.object fields)) small
  have sorted := ManifestJson.sortJson_same plainly.1 plainly.2
  have takes : Fits (Takes (pretty numbers) (decoder float limit) see) limit
      (sortJson (.object fields)) :=
    fits_mono (fun n _ => decoder_takes (pretty numbers) limit (written n) (short n))
      (fits_same sorted.symm nesting)
  have scanned : scan (decoder float limit) (stableStringify numbers (.object fields)) =
      .ok (JsonText.rebuild dict (seen see (sortJson (.object fields)))) :=
    scan_print takes (decoder_enters (Nat.le_refl limit)) (by decide)
  have same : Same (seen see (sortJson (.object fields))) (seen see (.object fields)) :=
    substitute_same _ sorted
  have distinct : Distinct (seen see (sortJson (.object fields))) :=
    seen_distinct (ManifestJson.sortJson_plain plainly.1).1
  have kept := JsonText.rebuild_same dict_perm _ distinct
  refine ⟨_, ?_, kept.trans same, JsonText.distinct_same kept.symm distinct⟩
  rw [loads, detected, decode, decoded]
  exact scanned

end Loads

/-! ## What Python sees -/

section Sees
variable {F : Type} (see : N → PyNumber F)

/-- A value of the browser as Python sees it. -/
def shown (v : Json (Number N)) : Json (PyNumber F) := seen see (substitute printable v)

/-- What Python has read is the value, with its properties in some order. -/
def Sees (json : Json (PyNumber F)) (v : Json (Number N)) : Prop :=
  Same json (shown see v) ∧ Distinct json

variable {see} {json : Json (PyNumber F)}

theorem sees_text {s : Text} (sees : Sees see json (.text s)) : json = .text s := by
  obtain ⟨same, distinct⟩ := sees
  cases sameShape_of_same same distinct with
  | leaf => rfl

theorem sees_number {n : N} (sees : Sees see json (.number (.finite n))) :
    json = .number (see n) := by
  obtain ⟨same, distinct⟩ := sees
  cases sameShape_of_same same distinct with
  | leaf => rfl

theorem shown_array (items : List (Json (Number N))) :
    shown see (.array items) = .array (items.map (shown see)) := by
  rw [shown, substitute, substituteItems_map, seen, substitute, substituteItems_map, List.map_map]
  rfl

theorem sees_items {found : List (Json (PyNumber F))} {items : List (Json (Number N))}
    (pairs : List.Forall₂ Same found (items.map (shown see)))
    (distinct : ∀ item ∈ found, Distinct item) : List.Forall₂ (Sees see) found items := by
  rw [List.forall₂_map_right_iff] at pairs
  induction pairs with
  | nil => exact .nil
  | cons one _ ih =>
    constructor
    · exact ⟨one, distinct _ List.mem_cons_self⟩
    · exact ih fun item member => distinct item (List.mem_cons_of_mem _ member)

theorem sees_array {items : List (Json (Number N))} (sees : Sees see json (.array items)) :
    ∃ found, json = .array found ∧ List.Forall₂ (Sees see) found items := by
  obtain ⟨same, distinct⟩ := sees
  rw [shown_array] at same
  have shape := sameShape_of_same same distinct
  cases json with
  | array found =>
    refine ⟨found, rfl, sees_items ?_ (distinct_items distinct)⟩
    cases shape with
    | leaf => exact forall₂_refl _
    | array pairs => exact pairs
  | _ => cases shape

theorem shown_record (fields : List (String × Option (Json (Number N)))) :
    shown see (record fields) = record (fields.map fun field =>
      (field.1, field.2.map (shown see))) := by
  rw [shown, substitute_record, seen, substitute_record, List.map_map]
  refine congrArg record (List.map_congr_left fun field _ => ?_)
  obtain ⟨name, value⟩ := field
  cases value with
  | none => rfl
  | some v => rfl

theorem rel_shown {found : Option (Json (PyNumber F))} {value : Option (Json (Number N))}
    (related : Option.Rel Same found (value.map (shown see)))
    (distinct : ∀ v, found = some v → Distinct v) : Option.Rel (Sees see) found value := by
  cases found with
  | none =>
    cases value with
    | none => exact .none
    | some value => cases related
  | some v =>
    cases value with
    | none => cases related
    | some value =>
      cases related with
      | some one => exact .some ⟨one, distinct v rfl⟩

/-- Python has read a dictionary with the properties that are not undefined. -/
theorem sees_record {fields : List (String × Option (Json (Number N)))}
    (sees : Sees see json (record fields)) (names : (fields.map Prod.fst).Nodup) :
    ∃ found, json = .object found ∧
      (∀ (place : Nat) key value, fields[place]? = some (key, value) →
        Option.Rel (Sees see) (findField found (units key)) value) ∧
      ∀ key, key ∉ fields.map Prod.fst → findField found (units key) = none := by
  obtain ⟨same, distinct⟩ := sees
  rw [shown_record] at same
  have shape := sameShape_of_same same distinct
  have own : ((fields.map fun field => (field.1, field.2.map (shown see))).map Prod.fst) =
      fields.map Prod.fst := by
    rw [List.map_map]
    rfl
  cases json with
  | object found =>
    have fieldwise : ∀ key, Option.Rel Same (findField found key) (findField
        ((fields.map fun field => (field.1, field.2.map (shown see))).filterMap present) key) := by
      cases shape with
      | leaf => exact fun key => rel_refl _
      | object each => exact each
    refine ⟨found, rfl, ?_, ?_⟩
    · intro place key value here
      have member : (key, value.map (shown see)) ∈
          fields.map fun field => (field.1, field.2.map (shown see)) :=
        List.mem_map.2 ⟨_, List.mem_of_getElem? here, rfl⟩
      have related := fieldwise (units key)
      rw [findField_record (own ▸ names) member] at related
      exact rel_shown related fun v here => findField_distinct distinct here
    · intro key absent
      have related := fieldwise (units key)
      rw [findField_absent _ key (own ▸ absent)] at related
      exact PackageReading.rel_none related
  | _ => cases shape

end Sees

end PythonManifests
