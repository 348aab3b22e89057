import SpacerocksCoa.JsonText
import Mathlib.Data.List.DropRight

/-!
# Base64 text

Bytes are written three at a time as four characters of the alphabet with `-` and `_`, the last
group padded with `=`. The decoder is the strict loop over the characters of the standard
alphabet: it keeps the bits that are left over and the place in the group of four, and it does
not look at the bits of the last character that stand for no byte.
-/
namespace Base64Text
open JsonText

/-- `=` -/
def pad : Nat := 61

def alphabet (v : Nat) : Nat :=
  if v < 26 then 65 + v else if v < 52 then 71 + v else if v < 62 then v - 4
  else if v = 62 then 45 else 95

/-- `urlsafe_b64encode` -/
def urlsafeEncode : List UInt8 → Text
  | [] => []
  | [x] => [alphabet (x.toNat / 4), alphabet (x.toNat % 4 * 16), pad, pad]
  | [x, y] => [alphabet (x.toNat / 4), alphabet (x.toNat % 4 * 16 + y.toNat / 16),
      alphabet (y.toNat % 16 * 4), pad]
  | x :: y :: z :: rest => alphabet (x.toNat / 4) :: alphabet (x.toNat % 4 * 16 + y.toNat / 16) ::
      alphabet (y.toNat % 16 * 4 + z.toNat / 64) :: alphabet (z.toNat % 64) :: urlsafeEncode rest

/-- A character of the standard alphabet. -/
def standardValue (c : Nat) : Option Nat :=
  if 65 ≤ c ∧ c ≤ 90 then some (c - 65)
  else if 97 ≤ c ∧ c ≤ 122 then some (c - 71)
  else if 48 ≤ c ∧ c ≤ 57 then some (c + 4)
  else if c = 43 then some 62
  else if c = 47 then some 63
  else none

/-- The loop of `a2b_base64` in strict mode. -/
def a2bLoop (quadPos left pads : Nat) (paddingStarted : Bool) : Text → Option (List UInt8)
  | [] => if quadPos = 0 then some [] else none
  | c :: rest =>
    if c = pad then
      if quadPos = 0 then none
      else if 2 ≤ quadPos ∧ 4 ≤ quadPos + (pads + 1) then
        if rest = [] then some [] else none
      else a2bLoop quadPos left (if 2 ≤ quadPos then pads + 1 else pads) true rest
    else
      match standardValue c with
      | none => none
      | some v =>
        if paddingStarted then none
        else
          match quadPos with
          | 0 => a2bLoop 1 v 0 false rest
          | 1 => (a2bLoop 2 (v % 16) 0 false rest).map (UInt8.ofNat (left * 4 + v / 16) :: ·)
          | 2 => (a2bLoop 3 (v % 4) 0 false rest).map (UInt8.ofNat (left * 16 + v / 4) :: ·)
          | _ => (a2bLoop 0 0 0 false rest).map (UInt8.ofNat (left * 64 + v) :: ·)

/-- The alternative characters in place of the standard ones. -/
def translate (c : Nat) : Nat := if c = 45 then 43 else if c = 95 then 47 else c

/-- `b64decode` with `altchars` and `validate`. -/
def b64decode (s : Text) : Option (List UInt8) := a2bLoop 0 0 0 false (s.map translate)

/-! ## Decoding what was encoded -/

theorem standardValue_alphabet {v : Nat} (small : v < 64) :
    standardValue (translate (alphabet v)) = some v := by
  have every : ∀ v < 64, standardValue (translate (alphabet v)) = some v := by decide
  exact every v small

theorem alphabet_ne_pad (v : Nat) : alphabet v ≠ pad := by
  unfold alphabet pad
  split
  · omega
  · split
    · omega
    · split
      · omega
      · split <;> omega

theorem translate_alphabet_ne_pad (v : Nat) : translate (alphabet v) ≠ pad := by
  unfold translate
  split
  · decide
  · split
    · decide
    · exact alphabet_ne_pad v

section
variable {v : Nat} (small : v < 64) (left pads : Nat) (rest : Text)
include small

/-- A digit goes into its position, and the loop goes on to the next. -/
theorem a2bLoop_digit (quadPos : Nat) :
    a2bLoop quadPos left pads false (translate (alphabet v) :: rest) =
      match quadPos with
      | 0 => a2bLoop 1 v 0 false rest
      | 1 => (a2bLoop 2 (v % 16) 0 false rest).map (UInt8.ofNat (left * 4 + v / 16) :: ·)
      | 2 => (a2bLoop 3 (v % 4) 0 false rest).map (UInt8.ofNat (left * 16 + v / 4) :: ·)
      | _ => (a2bLoop 0 0 0 false rest).map (UInt8.ofNat (left * 64 + v) :: ·) := by
  rw [a2bLoop, if_neg (translate_alphabet_ne_pad v), standardValue_alphabet small]
  rfl

theorem a2bLoop_first : a2bLoop 0 left pads false (translate (alphabet v) :: rest) =
    a2bLoop 1 v 0 false rest := a2bLoop_digit small left pads rest 0

theorem a2bLoop_second : a2bLoop 1 left pads false (translate (alphabet v) :: rest) =
    (a2bLoop 2 (v % 16) 0 false rest).map (UInt8.ofNat (left * 4 + v / 16) :: ·) :=
  a2bLoop_digit small left pads rest 1

theorem a2bLoop_third : a2bLoop 2 left pads false (translate (alphabet v) :: rest) =
    (a2bLoop 3 (v % 4) 0 false rest).map (UInt8.ofNat (left * 16 + v / 4) :: ·) :=
  a2bLoop_digit small left pads rest 2

theorem a2bLoop_fourth : a2bLoop 3 left pads false (translate (alphabet v) :: rest) =
    (a2bLoop 0 0 0 false rest).map (UInt8.ofNat (left * 64 + v) :: ·) :=
  a2bLoop_digit small left pads rest 3

end

theorem byte_of (x : UInt8) {n : Nat} (same : n = x.toNat) : UInt8.ofNat n = x := by
  rw [same, UInt8.ofNat_toNat]

theorem a2b_urlsafeEncode (bytes : List UInt8) :
    a2bLoop 0 0 0 false ((urlsafeEncode bytes).map translate) = some bytes := by
  induction bytes using urlsafeEncode.induct with
  | case1 => rfl
  | case2 x =>
    have small := x.toNat_lt
    simp only [urlsafeEncode, List.map_cons, List.map_nil]
    rw [a2bLoop_first (by omega), a2bLoop_second (by omega)]
    rw [byte_of x (by omega)]
    rfl
  | case3 x y =>
    have smallX := x.toNat_lt
    have smallY := y.toNat_lt
    simp only [urlsafeEncode, List.map_cons, List.map_nil]
    rw [a2bLoop_first (by omega), a2bLoop_second (by omega), a2bLoop_third (by omega)]
    rw [byte_of x (by omega), byte_of y (by omega)]
    rfl
  | case4 x y z rest ih =>
    have smallX := x.toNat_lt
    have smallY := y.toNat_lt
    have smallZ := z.toNat_lt
    simp only [urlsafeEncode, List.map_cons]
    rw [a2bLoop_first (by omega), a2bLoop_second (by omega), a2bLoop_third (by omega),
      a2bLoop_fourth (by omega)]
    rw [byte_of x (by omega), byte_of y (by omega), byte_of z (by omega), ih]
    rfl

/-! ## Unpadded text -/

/-- `rstrip(b"=")` -/
def rstrip (s : Text) : Text := s.rdropWhile (· == pad)

def unpadded (bytes : List UInt8) : Text := rstrip (urlsafeEncode bytes)

/-- `"=" * (-len(s) % 4)` -/
def padding (s : Text) : Text := List.replicate ((4 - s.length % 4) % 4) pad

/-- The characters of the encoding without the padding. -/
def digits : List UInt8 → Text
  | [] => []
  | [x] => [alphabet (x.toNat / 4), alphabet (x.toNat % 4 * 16)]
  | [x, y] => [alphabet (x.toNat / 4), alphabet (x.toNat % 4 * 16 + y.toNat / 16),
      alphabet (y.toNat % 16 * 4)]
  | x :: y :: z :: rest => alphabet (x.toNat / 4) :: alphabet (x.toNat % 4 * 16 + y.toNat / 16) ::
      alphabet (y.toNat % 16 * 4 + z.toNat / 64) :: alphabet (z.toNat % 64) :: digits rest

theorem urlsafeEncode_digits (bytes : List UInt8) :
    urlsafeEncode bytes = digits bytes ++ padding (digits bytes) := by
  induction bytes using urlsafeEncode.induct with
  | case1 => rfl
  | case2 x => rfl
  | case3 x y => rfl
  | case4 x y z rest ih =>
    have turn : padding (digits (x :: y :: z :: rest)) = padding (digits rest) := by
      simp only [digits, padding, List.length_cons]
      congr 2
      omega
    rw [turn, urlsafeEncode, digits, ih]
    rfl

theorem digits_alphabet (bytes : List UInt8) :
    ∀ c ∈ digits bytes, ∃ v, v < 64 ∧ c = alphabet v := by
  induction bytes using urlsafeEncode.induct with
  | case1 => exact fun _ none => absurd none List.not_mem_nil
  | case2 x =>
    have small := x.toNat_lt
    simp only [digits, List.forall_mem_cons]
    exact ⟨⟨_, by omega, rfl⟩, ⟨_, by omega, rfl⟩, fun _ none => absurd none List.not_mem_nil⟩
  | case3 x y =>
    have smallX := x.toNat_lt
    have smallY := y.toNat_lt
    simp only [digits, List.forall_mem_cons]
    exact ⟨⟨_, by omega, rfl⟩, ⟨_, by omega, rfl⟩, ⟨_, by omega, rfl⟩,
      fun _ none => absurd none List.not_mem_nil⟩
  | case4 x y z rest ih =>
    have smallX := x.toNat_lt
    have smallY := y.toNat_lt
    have smallZ := z.toNat_lt
    simp only [digits, List.forall_mem_cons]
    exact ⟨⟨_, by omega, rfl⟩, ⟨_, by omega, rfl⟩, ⟨_, by omega, rfl⟩, ⟨_, by omega, rfl⟩, ih⟩

theorem digits_length (bytes : List UInt8) :
    (digits bytes).length = (bytes.length * 4 + 2) / 3 := by
  induction bytes using urlsafeEncode.induct with
  | case1 => rfl
  | case2 x => simp only [digits, List.length_cons, List.length_nil]
  | case3 x y => simp only [digits, List.length_cons, List.length_nil]
  | case4 x y z rest ih =>
    simp only [digits, List.length_cons, ih]
    omega

theorem unpadded_digits (bytes : List UInt8) : unpadded bytes = digits bytes := by
  have plain : ∀ c ∈ (digits bytes).reverse, ¬ (c == pad) = true := by
    intro c member
    obtain ⟨v, _, same⟩ := digits_alphabet bytes c (List.mem_reverse.1 member)
    rw [same, beq_iff_eq]
    exact alphabet_ne_pad v
  have pads : ∀ c ∈ (padding (digits bytes)).reverse, (c == pad) = true := by
    intro c member
    rw [List.eq_of_mem_replicate (List.mem_reverse.1 member)]
    rfl
  rw [unpadded, rstrip, urlsafeEncode_digits, List.rdropWhile, List.reverse_append,
    List.dropWhile_append_of_pos pads]
  cases reversed : (digits bytes).reverse with
  | nil =>
    rw [List.reverse_eq_nil_iff] at reversed
    rw [reversed]
    rfl
  | cons c rest =>
    have first : ¬ (c == pad) = true := plain c (reversed ▸ List.mem_cons_self)
    have kept : (c :: rest).dropWhile (· == pad) = c :: rest :=
      @List.dropWhile_cons_of_neg _ (· == pad) c rest first
    rw [kept, ← reversed, List.reverse_reverse]

theorem b64decode_unpadded (bytes : List UInt8) :
    b64decode (unpadded bytes ++ padding (unpadded bytes)) = some bytes := by
  rw [unpadded_digits, ← urlsafeEncode_digits]
  exact a2b_urlsafeEncode bytes

end Base64Text
