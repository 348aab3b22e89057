import SpacerocksCoa.JsonText

/-!
# Classes of code units

The units that patterns name, lower case and the characters of a text. Lower case is that of
the ASCII letters: no other character becomes one of those in the words compared here.
-/
namespace CodeUnits
open JsonText (Text)

/-! ## Letters and digits -/

def digit (c : Nat) : Bool := 48 ≤ c && c ≤ 57

def upper (c : Nat) : Bool := 65 ≤ c && c ≤ 90

def lower (c : Nat) : Bool := 97 ≤ c && c ≤ 122

def letter (c : Nat) : Bool := upper c || lower c

def alphanumeric (c : Nat) : Bool := digit c || letter c

theorem alphanumeric_iff {c : Nat} : alphanumeric c = true ↔
    (48 ≤ c ∧ c ≤ 57) ∨ (65 ≤ c ∧ c ≤ 90) ∨ (97 ≤ c ∧ c ≤ 122) := by
  simp only [alphanumeric, digit, letter, upper, lower, Bool.or_eq_true, Bool.and_eq_true,
    decide_eq_true_eq]

/-- `^[0-9a-f]{64}$` -/
def sha256Pattern (s : Text) : Bool :=
  s.length == 64 && s.all fun c => digit c || (97 ≤ c && c ≤ 102)

def lowerUnit (c : Nat) : Nat := if upper c then c + 32 else c

def toLowerCase (s : Text) : Text := s.map lowerUnit

theorem toLowerCase_append (s t : Text) :
    toLowerCase (s ++ t) = toLowerCase s ++ toLowerCase t := List.map_append

theorem toLowerCase_length (s : Text) : (toLowerCase s).length = s.length := List.length_map _

theorem lowerUnit_eq {c : Nat} (plain : c < 65 ∨ 90 < c) : lowerUnit c = c := by
  have small : upper c = false := by
    rw [upper, Bool.and_eq_false_iff, decide_eq_false_iff_not, decide_eq_false_iff_not]
    omega
  rw [lowerUnit, small]
  rfl

theorem toLowerCase_eq {s : Text} (plain : ∀ c ∈ s, c < 65 ∨ 90 < c) : toLowerCase s = s := by
  have same : s.map lowerUnit = s.map id :=
    List.map_congr_left fun c member => lowerUnit_eq (plain c member)
  rw [toLowerCase, same, List.map_id]

def upperUnit (c : Nat) : Nat := if 97 ≤ c ∧ c ≤ 122 then c - 32 else c

/-- `hex.match(/.{1,2}/g)?.join(":")` -/
def joinPairs : Text → Text
  | a :: b :: c :: rest => a :: b :: 58 :: joinPairs (c :: rest)
  | short => short

def formatFingerprint (hex : Text) : Text := joinPairs (hex.map upperUnit)

/-! ## Decimal numbers -/

def natText (n : Nat) : Text := (Nat.toDigits 10 n).map Char.toNat

def readNat (s : Text) : Nat := Nat.ofDigitChars 10 (s.map Char.ofNat) 0

theorem natText_digit (n : Nat) : ∀ c ∈ natText n, 48 ≤ c ∧ c ≤ 57 := by
  intro c member
  obtain ⟨digit, inside, same⟩ := List.mem_map.1 member
  have decimal := Nat.isDigit_of_mem_toDigits (by decide) (by decide) inside
  rw [Char.isDigit, Bool.and_eq_true, decide_eq_true_eq, decide_eq_true_eq] at decimal
  subst same
  exact ⟨decimal.1, decimal.2⟩

theorem readNat_natText (n : Nat) : readNat (natText n) = n := by
  have back : ((Nat.toDigits 10 n).map Char.toNat).map Char.ofNat = Nat.toDigits 10 n := by
    rw [List.map_map]
    exact (List.map_congr_left fun c _ => Char.ofNat_toNat c).trans (List.map_id _)
  rw [readNat, natText, back, Nat.ofDigitChars_toDigits (by decide) (by decide)]

theorem natText_nonempty (n : Nat) : natText n ≠ [] := by
  intro empty
  exact Nat.toDigits_ne_nil (List.map_eq_nil_iff.1 empty)

theorem natText_injective {m n : Nat} (same : natText m = natText n) : m = n := by
  rw [← readNat_natText m, same, readNat_natText]

/-! ## Characters -/

def isHigh (c : Nat) : Bool := 0xd800 ≤ c && c ≤ 0xdbff

def isLow (c : Nat) : Bool := 0xdc00 ≤ c && c ≤ 0xdfff

/-- A unit that stands alone: a surrogate is replaced. -/
def unitChar (c : Nat) : Char := if c.isValidChar then Char.ofNat c else Char.ofNat 0xfffd

/-- The characters of a text, as the encoder reads them. -/
def chars : Text → List Char
  | [] => []
  | [c] => [unitChar c]
  | c :: d :: rest =>
    if isHigh c && isLow d then
      Char.ofNat (0x10000 + (c - 0xd800) * 0x400 + (d - 0xdc00)) :: chars rest
    else unitChar c :: chars (d :: rest)

end CodeUnits
