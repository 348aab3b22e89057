import Mathlib.Algebra.GroupWithZero.Nat
import Mathlib.Data.List.DropRight
import Mathlib.Data.Nat.Log
import SpacerocksCoa.CodeUnits

/-!
# Numbers of a text

`Number(text)` as the language defines it: the text without white space around it is a decimal
literal, a literal with a radix prefix or an infinity, and the value is the double nearest to
the literal, ties to even. A double is a significand and a binary exponent, so every comparison
is one of natural numbers.
-/
namespace JsNumbers
open JsonText (Text)
open CodeUnits (digit)

/-! ## Texts -/

/-- White space and line ends: what `trim` removes and `\s` matches. -/
def isWhite (c : Nat) : Bool :=
  (9 ≤ c && c ≤ 13) || (0x2000 ≤ c && c ≤ 0x200a) ||
    [0x20, 0xa0, 0x1680, 0x2028, 0x2029, 0x202f, 0x205f, 0x3000, 0xfeff].contains c

def trim (s : Text) : Text := (s.dropWhile isWhite).rdropWhile isWhite

/-- The value of a run of digits. -/
def natOf (digits : Text) : Nat := digits.foldl (fun n c => 10 * n + (c - 48)) 0

/-! ## Doubles -/

/-- `significand * 2 ^ exponent`, an infinity or no number; a zero keeps its sign. -/
inductive JsNumber
  | nan
  | infinite (negative : Bool)
  | finite (negative : Bool) (significand : Nat) (exponent : Int)
  deriving DecidableEq

/-- The fraction `n / d` to the nearest natural number, ties to even. -/
def roundHalfEven (n d : Nat) : Nat :=
  if d < 2 * (n % d) ∨ (2 * (n % d) = d ∧ n / d % 2 = 1) then n / d + 1 else n / d

/-- The exponent of a fraction's last place: 53 significant bits, and no exponent below the
smallest one. -/
def lastPlace (n d : Nat) : Int :=
  max (-1074) ((if d ≤ n then (Nat.log2 (n / d) : Int)
    else -(Nat.clog 2 ((d + n - 1) / n) : Int)) - 52)

/-- From here on a value rounds to infinity: half a last place below two to the 1024. -/
def overflow : Nat := 2 ^ 1024 - 2 ^ 970

/-- The double nearest to the fraction `n / d`. -/
def nearest (negative : Bool) (n d : Nat) : JsNumber :=
  if n = 0 then .finite negative 0 0
  else if overflow * d ≤ n then .infinite negative
  else if 0 ≤ lastPlace n d then
    .finite negative (roundHalfEven n (d * 2 ^ (lastPlace n d).toNat)) (lastPlace n d)
  else
    .finite negative (roundHalfEven (n * 2 ^ (-lastPlace n d).toNat) d) (lastPlace n d)

/-- `coefficient * 10 ^ power` -/
def decimal (negative : Bool) (coefficient : Nat) (power : Int) : JsNumber :=
  if 0 ≤ power then nearest negative (coefficient * 10 ^ power.toNat) 1
  else nearest negative coefficient (10 ^ (-power).toNat)

namespace JsNumber

def isFinite : JsNumber → Bool
  | finite _ _ _ => true
  | _ => false

/-- `number <= bound` -/
def atMost (bound : Nat) : JsNumber → Bool
  | nan => false
  | infinite negative => negative
  | finite negative significand exponent =>
    negative ||
      (if 0 ≤ exponent then significand * 2 ^ exponent.toNat ≤ bound
        else significand ≤ bound * 2 ^ (-exponent).toNat)

/-- `number >= bound` for a bound above zero. -/
def atLeast (bound : Nat) : JsNumber → Bool
  | nan => false
  | infinite negative => !negative
  | finite negative significand exponent =>
    !negative &&
      (if 0 ≤ exponent then bound ≤ significand * 2 ^ exponent.toNat
        else bound * 2 ^ (-exponent).toNat ≤ significand)

/-- `number > 0` -/
def positive : JsNumber → Bool
  | nan => false
  | infinite negative => !negative
  | finite negative significand _ => !negative && significand != 0

/-- `number >= 0`, true of both zeros. -/
def nonNegative : JsNumber → Bool
  | nan => false
  | infinite negative => !negative
  | finite negative significand _ => !negative || significand == 0

/-- `Math.abs(number)` -/
def abs : JsNumber → JsNumber
  | nan => nan
  | infinite _ => infinite false
  | finite _ significand exponent => finite false significand exponent

/-- `Number.isInteger(number)` -/
def isInteger : JsNumber → Bool
  | finite _ significand exponent => 0 ≤ exponent || significand % 2 ^ (-exponent).toNat == 0
  | _ => false

end JsNumber

/-! ## Literals -/

def signed (s : Text) : Bool × Text :=
  match s with
  | 45 :: rest => (true, rest)
  | 43 :: rest => (false, rest)
  | _ => (false, s)

/-- The part after the digits: nothing, or `e` and an integer. -/
def exponentPart (s : Text) : Option Int :=
  match s with
  | [] => some 0
  | c :: rest =>
    let digits := (signed rest).2
    if (c = 101 ∨ c = 69) ∧ digits ≠ [] ∧ digits.all digit then
      some (if (signed rest).1 then -(natOf digits : Int) else natOf digits)
    else none

/-- The digits after a point, and what follows them. -/
def fractionPart (s : Text) : Text × Text :=
  match s with
  | 46 :: rest => (rest.takeWhile digit, rest.dropWhile digit)
  | _ => ([], s)

def unsignedLiteral (negative : Bool) (s : Text) : JsNumber :=
  let whole := s.takeWhile digit
  let parts := fractionPart (s.dropWhile digit)
  if s = [73, 110, 102, 105, 110, 105, 116, 121] then .infinite negative
  else if whole = [] ∧ parts.1 = [] then .nan
  else
    match exponentPart parts.2 with
    | none => .nan
    | some power => decimal negative (natOf (whole ++ parts.1)) (power - parts.1.length)

/-- The value of a digit in a radix up to 16. -/
def radixDigit (c : Nat) : Nat :=
  if digit c then c - 48
  else if 97 ≤ c ∧ c ≤ 102 then c - 87
  else if 65 ≤ c ∧ c ≤ 70 then c - 55
  else 16

/-- `0x`, `0o` and `0b`. -/
def radixOf (c : Nat) : Option Nat :=
  if c = 120 ∨ c = 88 then some 16
  else if c = 111 ∨ c = 79 then some 8
  else if c = 98 ∨ c = 66 then some 2
  else none

def literal (s : Text) : JsNumber :=
  unsignedLiteral (signed s).1 (signed s).2

/-- `Number(text)` -/
def number (text : Text) : JsNumber :=
  match trim text with
  | [] => .finite false 0 0
  | 48 :: c :: rest =>
    match radixOf c with
    | none => literal (48 :: c :: rest)
    | some radix =>
      if rest ≠ [] ∧ rest.all (fun c => radixDigit c < radix) then
        nearest false (rest.foldl (fun n c => radix * n + radixDigit c) 0) 1
      else .nan
  | s => literal s

/-! ## Runs of digits -/

theorem digit_not_white {c : Nat} (isDigit : digit c = true) : isWhite c = false := by
  simp only [digit, Bool.and_eq_true, decide_eq_true_eq] at isDigit
  have every : ∀ c < 58, 48 ≤ c → isWhite c = false := by decide
  exact every c (by omega) isDigit.1

theorem rdropWhile_last (p : Nat → Bool) {s : Text} (kept : ∀ c ∈ s, p c = false) :
    s.rdropWhile p = s := by
  rw [List.rdropWhile_eq_self_iff]
  intro nonempty holds
  have fails := kept _ (List.getLast_mem nonempty)
  rw [holds] at fails
  cases fails

theorem trim_digits {s : Text} (digits : s.all digit = true) : trim s = s := by
  have plain : ∀ c ∈ s, isWhite c = false := by
    intro c member
    exact digit_not_white (List.all_eq_true.1 digits c member)
  have front : s.dropWhile isWhite = s := by
    cases s with
    | nil => rfl
    | cons c rest =>
      rw [List.dropWhile_cons, plain c (List.mem_cons_self ..)]
      rfl
  rw [trim, front]
  exact rdropWhile_last isWhite plain

theorem takeWhile_digits {s : Text} (digits : s.all digit = true) : s.takeWhile digit = s := by
  rw [List.takeWhile_eq_self_iff]
  exact List.all_eq_true.1 digits

theorem dropWhile_digits {s : Text} (digits : s.all digit = true) : s.dropWhile digit = [] := by
  rw [List.dropWhile_eq_nil_iff]
  exact List.all_eq_true.1 digits

theorem literal_digits {s : Text} (digits : s.all digit = true) (some_digit : s ≠ []) :
    literal s = nearest false (natOf s) 1 := by
  obtain ⟨c, rest, rfl⟩ := List.exists_cons_of_ne_nil some_digit
  have first : digit c = true := List.all_eq_true.1 digits c (List.mem_cons_self ..)
  simp only [digit, Bool.and_eq_true, decide_eq_true_eq] at first
  have unsigned : signed (c :: rest) = (false, c :: rest) := by
    unfold signed
    split
    next same => cases same; omega
    next same => cases same; omega
    next => rfl
  have noInfinity : ¬ c :: rest = [73, 110, 102, 105, 110, 105, 116, 121] := by
    intro same
    cases same
    omega
  rw [literal, unsigned, unsignedLiteral, takeWhile_digits digits, dropWhile_digits digits]
  simp [noInfinity, fractionPart, exponentPart, decimal]

/-- The digits of a natural number denote the double nearest to it. -/
theorem number_digits {s : Text} (digits : s.all digit = true) (some_digit : s ≠ []) :
    number s = nearest false (natOf s) 1 := by
  rw [← literal_digits digits some_digit, number, trim_digits digits]
  split
  next => exact absurd rfl some_digit
  next c rest =>
    have second : digit c = true :=
      List.all_eq_true.1 digits c (List.mem_cons_of_mem _ (List.mem_cons_self ..))
    simp only [digit, Bool.and_eq_true, decide_eq_true_eq] at second
    have noRadix : radixOf c = none := by
      rw [radixOf, if_neg (by omega), if_neg (by omega), if_neg (by omega)]
    rw [noRadix]
  next => rfl

example : number [49, 54] = .finite false (2 ^ 52) (-48) := by decide +kernel

theorem roundHalfEven_one (n : Nat) : roundHalfEven n 1 = n := by
  simp [roundHalfEven, Nat.mod_one]

theorem nearest_integer (negative : Bool) (n : Nat) (small : n < overflow) :
    (nearest negative n 1).isInteger = true := by
  unfold nearest
  split
  · rfl
  split
  next large => omega
  next =>
    split
    next up => simp [JsNumber.isInteger, up]
    next down =>
      rw [roundHalfEven_one, JsNumber.isInteger]
      simp

theorem nearest_infinite {negative : Bool} {n : Nat} (large : overflow ≤ n) :
    nearest negative n 1 = .infinite negative := by
  have nonzero : n ≠ 0 := by
    have some_bound : 0 < overflow := by decide +kernel
    omega
  rw [nearest, if_neg nonzero, if_pos (by omega)]

end JsNumbers
