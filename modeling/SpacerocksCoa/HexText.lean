import Mathlib.Data.List.Basic
import Mathlib.Data.String.Basic

/-!
# Hexadecimal text as Python reads and writes it

`bytes.fromhex` skips ASCII whitespace between two pairs of digits, so a text it
accepts may be longer than twice the bytes. Only the strict part, without blanks,
is a round trip with `bytes.hex`.
-/
namespace HexText

def hexDigit? (c : Char) : Option Nat :=
  if '0' ≤ c ∧ c ≤ '9' then some (c.toNat - '0'.toNat)
  else if 'a' ≤ c ∧ c ≤ 'f' then some (c.toNat - 'a'.toNat + 10)
  else if 'A' ≤ c ∧ c ≤ 'F' then some (c.toNat - 'A'.toNat + 10)
  else none

/-- The set `[0-9a-f]`. -/
def lowerHex (c : Char) : Bool := ('0' ≤ c && c ≤ '9') || ('a' ≤ c && c ≤ 'f')

/-- The blanks that `bytes.fromhex` skips. -/
def asciiSpace (c : Char) : Bool :=
  c == ' ' || c == '\t' || c == '\n' || c == '\r' || c.toNat == 11 || c.toNat == 12

/-- `bytes.fromhex`: blanks are skipped before a pair, never inside it. -/
def fromHex : List Char → Option (List UInt8)
  | [] => some []
  | [c] => if asciiSpace c then some [] else none
  | c :: d :: rest =>
    if asciiSpace c then fromHex (d :: rest)
    else
      match hexDigit? c, hexDigit? d, fromHex rest with
      | some high, some low, some tail => some (UInt8.ofNat (16 * high + low) :: tail)
      | _, _, _ => none

def digitChar (n : Nat) : Char :=
  if n < 10 then Char.ofNat ('0'.toNat + n) else Char.ofNat ('a'.toNat + (n - 10))

/-- `bytes.hex`. -/
def toHex : List UInt8 → List Char
  | [] => []
  | b :: rest => digitChar (b.toNat / 16) :: digitChar (b.toNat % 16) :: toHex rest

lemma toHex_length (bytes : List UInt8) : (toHex bytes).length = 2 * bytes.length := by
  induction bytes with
  | nil => rfl
  | cons b rest ih => simp only [toHex, List.length_cons, ih]; omega

lemma digitChar_lowerHex {n : Nat} (small : n < 16) : lowerHex (digitChar n) = true := by
  revert n
  decide

lemma toHex_lowerHex (bytes : List UInt8) : (toHex bytes).all lowerHex = true := by
  induction bytes with
  | nil => rfl
  | cons b rest ih =>
    have high : b.toNat / 16 < 16 := by have := b.toNat_lt; omega
    have low : b.toNat % 16 < 16 := Nat.mod_lt _ (by decide)
    simp [toHex, ih, digitChar_lowerHex high, digitChar_lowerHex low]

lemma hexDigit_digitChar {n : Nat} (small : n < 16) : hexDigit? (digitChar n) = some n := by
  revert n
  decide

lemma asciiSpace_digitChar {n : Nat} (small : n < 16) : asciiSpace (digitChar n) = false := by
  revert n
  decide

theorem fromHex_toHex (bytes : List UInt8) : fromHex (toHex bytes) = some bytes := by
  induction bytes with
  | nil => rfl
  | cons b rest ih =>
    have high : b.toNat / 16 < 16 := by have := b.toNat_lt; omega
    have low : b.toNat % 16 < 16 := Nat.mod_lt _ (by decide)
    have whole : 16 * (b.toNat / 16) + b.toNat % 16 = b.toNat := Nat.div_add_mod _ _
    simp only [toHex, fromHex, asciiSpace_digitChar high, Bool.false_eq_true, if_false,
      hexDigit_digitChar high, hexDigit_digitChar low, ih, whole, UInt8.ofNat_toNat]

-- Upper case and blanks between two bytes are read too, a blank inside a byte is not.
example : fromHex " 0a FF\n".toList = some [10, 255] ∧ fromHex "0 a".toList = none := by decide

end HexText
