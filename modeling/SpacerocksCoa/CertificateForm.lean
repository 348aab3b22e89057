import SpacerocksCoa.JsNumbers

/-!
# The certificate form

What the form accepts of its values, and what it hands on: some of the texts trimmed. A
coordinate is checked twice, by the form with a bound on its digits and a numeric comparison,
and by the manifest schema with a pattern. The comparison is one of doubles, so a value just
above the largest one passes it, and a longitude may begin with zeros that the pattern does not
take.

The checks of addresses that the two validators bring along are parameters.
-/
namespace CertificateForm
open JsonText (Text units)
open CodeUnits
open JsNumbers

/-! ## Texts -/

def optional (value : Text) : Option Text := if trim value = [] then none else some (trim value)

/-! ## Dates -/

def daysInMonth (year month : Nat) : Nat :=
  if month = 2 then
    if year % 4 = 0 ∧ (year % 100 ≠ 0 ∨ year % 400 = 0) then 29 else 28
  else if month = 4 ∨ month = 6 ∨ month = 9 ∨ month = 11 then 30 else 31

/-- Year, month and day of a text in the form `0000-00-00`. -/
def dateParts (s : Text) : Option (Nat × Nat × Nat) :=
  let year := s.take 4
  let month := (s.drop 5).take 2
  let day := s.drop 8
  if s.length = 10 ∧ year.all digit ∧ month.all digit ∧ day.all digit ∧
      s[4]? = some 45 ∧ s[7]? = some 45 then
    some (natOf year, natOf month, natOf day)
  else none

/-- A day of the calendar: the date that is parsed from the text prints as the text. -/
def isValidIsoDate (s : Text) : Bool :=
  (dateParts s).any fun parts =>
    1 ≤ parts.2.1 && parts.2.1 ≤ 12 && 1 ≤ parts.2.2 &&
      parts.2.2 ≤ daysInMonth parts.1 parts.2.1

/-! ## Coordinates -/

inductive Axis
  | latitude | longitude
  deriving DecidableEq

def Axis.maximum : Axis → Nat
  | latitude => 90
  | longitude => 180

def Axis.maximumIntegerDigits : Axis → Nat
  | latitude => 2
  | longitude => 3

def Axis.cardinals : Axis → List Nat
  | latitude => units "NSns"
  | longitude => units "EWew"

def Axis.maximumText : Axis → Text
  | latitude => units "90"
  | longitude => units "180"

theorem maximumText_latitude : Axis.latitude.maximumText = [57, 48] := by decide

theorem maximumText_longitude : Axis.longitude.maximumText = [49, 56, 48] := by decide

theorem cardinals_latitude : Axis.latitude.cardinals = [78, 83, 110, 115] := by decide

theorem cardinals_longitude : Axis.longitude.cardinals = [69, 87, 101, 119] := by decide

/-- The digits before and after the point of `\d+(?:\.\d+)?`. -/
def decimalParts (s : Text) : Option (Text × Text) :=
  if s.takeWhile digit = [] then none
  else
    match s.dropWhile digit with
    | [] => some (s.takeWhile digit, [])
    | c :: fraction =>
      if c = 46 ∧ fraction ≠ [] ∧ fraction.all digit then
        some (s.takeWhile digit, fraction)
      else none

/-- A text without its sign. -/
def unsigned (s : Text) : Text :=
  match s with
  | [] => []
  | c :: rest => if c = 43 ∨ c = 45 then rest else c :: rest

/-- What stands before a cardinal letter and the white space in front of it. -/
def cardinalNumber (s : Text) : Text := s.dropLast.rdropWhile isWhite

/-- `^(\d+(?:\.\d+)?)\s*([A-Za-z])$` -/
def hasCardinal (s : Text) : Bool :=
  s.getLast?.any letter && (decimalParts (cardinalNumber s)).isSome

def inRange (axis : Axis) (numeric : Text) : Bool :=
  ((unsigned numeric).takeWhile (· != 46)).length ≤ axis.maximumIntegerDigits &&
    (number (unsigned numeric)).atMost axis.maximum

def isValidCoordinate (value : Text) (axis : Axis) : Bool :=
  let trimmed := trim value
  if hasCardinal trimmed then
    trimmed.getLast?.any axis.cardinals.contains && inRange axis (cardinalNumber trimmed)
  else
    (decimalParts (unsigned trimmed)).isSome && inRange axis trimmed &&
      (number trimmed).abs.atMost axis.maximum

/-- `[0-8]?[0-9]` for a latitude, `1[0-7][0-9]|[0-9]?[0-9]` for a longitude. -/
def shortWhole (axis : Axis) (whole : Text) : Bool :=
  match axis, whole with
  | _, [a] => digit a
  | .latitude, [a, b] => digit a && a ≤ 56 && digit b
  | .longitude, [a, b] => digit a && digit b
  | .longitude, [a, b, c] => a == 49 && digit b && b ≤ 55 && digit c
  | _, _ => false

/-- The alternatives of a pattern before the cardinal letter: the largest value with zeros
after its point, or a shorter whole part with any fraction. -/
def patternParts (axis : Axis) (parts : Text × Text) : Bool :=
  (parts.1 == axis.maximumText && parts.2.all (· == 48)) || shortWhole axis parts.1

def patternDecimal (axis : Axis) (s : Text) : Bool :=
  (decimalParts s).any (patternParts axis)

/-- The schema's pattern of a latitude or a longitude. -/
def coordinatePattern (axis : Axis) (s : Text) : Bool :=
  patternDecimal axis (unsigned s) ||
    (s.getLast?.any axis.cardinals.contains && patternDecimal axis (cardinalNumber s))

/-- The digits of a coordinate before and after the point. -/
def coordinateParts (s : Text) : Option (Text × Text) :=
  if hasCardinal s then decimalParts (cardinalNumber s) else decimalParts (unsigned s)

/-- The exact value is at most the largest one, and a whole part of three digits does not begin
with a zero. -/
def exactParts (axis : Axis) (parts : Text × Text) : Bool :=
  (natOf parts.1 < axis.maximum || (natOf parts.1 == axis.maximum && parts.2.all (· == 48))) &&
    !(parts.1.length == 3 && parts.1.head? == some 48)

def withinBounds (axis : Axis) (s : Text) : Bool :=
  (coordinateParts s).all (exactParts axis)

/-! ## The two checks of a coordinate -/

structure Parts (s whole fraction : Text) : Prop where
  nonempty : whole ≠ []
  whole_digits : whole.all digit = true
  fraction_digits : fraction.all digit = true
  text : s = whole ∨ s = whole ++ 46 :: fraction

theorem decimalParts_some {s whole fraction : Text}
    (parsed : decimalParts s = some (whole, fraction)) : Parts s whole fraction := by
  have split := @List.takeWhile_append_dropWhile _ digit s
  have digits : (s.takeWhile digit).all digit = true := List.all_takeWhile
  unfold decimalParts at parsed
  split at parsed
  next => cases parsed
  next nonempty =>
    split at parsed
    next finished =>
      cases parsed
      rw [finished, List.append_nil] at split
      exact ⟨nonempty, digits, rfl, .inl split.symm⟩
    next c rest follows =>
      split at parsed
      next point =>
        cases parsed
        rw [follows, point.1] at split
        exact ⟨nonempty, digits, point.2.2, .inr split.symm⟩
      next => cases parsed

theorem Parts.member {s whole fraction : Text} (parts : Parts s whole fraction) :
    ∀ c ∈ s, digit c = true ∨ c = 46 := by
  intro c member
  have ofWhole := List.all_eq_true.1 parts.whole_digits c
  have ofFraction := List.all_eq_true.1 parts.fraction_digits c
  rcases parts.text with rfl | rfl
  · exact .inl (ofWhole member)
  · rcases List.mem_append.1 member with before | after
    · exact .inl (ofWhole before)
    · rcases List.mem_cons.1 after with point | after
      · exact .inr point
      · exact .inl (ofFraction after)

theorem digit_not_point {c : Nat} (isDigit : digit c = true) : (c != 46) = true := by
  simp only [digit, Bool.and_eq_true, decide_eq_true_eq] at isDigit
  simp only [bne_iff_ne, ne_eq]
  omega

theorem Parts.integer {s whole fraction : Text} (parts : Parts s whole fraction) :
    s.takeWhile (· != 46) = whole := by
  have plain : ∀ c ∈ whole, (c != 46) = true := by
    intro c member
    exact digit_not_point (List.all_eq_true.1 parts.whole_digits c member)
  rcases parts.text with rfl | rfl
  · exact List.takeWhile_eq_self_iff.2 plain
  · rw [List.takeWhile_append_of_pos plain]
    simp

theorem letter_not_numeric {c : Nat} (isLetter : letter c = true) :
    ¬ (digit c = true ∨ c = 46) := by
  simp only [letter, upper, lower, digit, Bool.or_eq_true, Bool.and_eq_true, decide_eq_true_eq]
    at isLetter ⊢
  omega

/-- A text that ends in a letter is no plain number. -/
theorem ends_in_letter {s : Text} (last : s.getLast?.any letter = true) :
    decimalParts (unsigned s) = none := by
  obtain ⟨c, ends, isLetter⟩ := (Option.any_eq_true ..).1 last
  have member : c ∈ s := List.mem_of_getLast? ends
  cases parsed : decimalParts (unsigned s) with
  | none => rfl
  | some pair =>
    exfalso
    have numeric := (@decimalParts_some _ pair.1 pair.2 parsed).member
    have kept : c ∈ unsigned s := by
      cases s with
      | nil => cases member
      | cons first rest =>
        by_cases sign : first = 43 ∨ first = 45
        · rw [unsigned, if_pos sign]
          rcases List.mem_cons.1 member with same | inside
          · rw [← same] at sign
            rcases sign with plus | minus
            · rw [plus] at isLetter
              cases isLetter
            · rw [minus] at isLetter
              cases isLetter
          · exact inside
        · rw [unsigned, if_neg sign]
          exact member
    exact letter_not_numeric isLetter (numeric c kept)

theorem natOf_one (a : Nat) : natOf [a] = a - 48 := by simp [natOf]

theorem natOf_two (a b : Nat) : natOf [a, b] = 10 * (a - 48) + (b - 48) := by simp [natOf]

theorem natOf_three (a b c : Nat) :
    natOf [a, b, c] = 10 * (10 * (a - 48) + (b - 48)) + (c - 48) := by simp [natOf]

/-- Within the bound on its digits a whole part fits the pattern exactly when its value does
and no third digit is a leading zero. -/
theorem patternParts_exact (axis : Axis) {whole : Text} (fraction : Text) (nonempty : whole ≠ [])
    (digits : whole.all digit = true) (short : whole.length ≤ axis.maximumIntegerDigits) :
    patternParts axis (whole, fraction) = exactParts axis (whole, fraction) := by
  obtain ⟨a, rest, rfl⟩ := List.exists_cons_of_ne_nil nonempty
  cases rest with
  | nil =>
    simp only [List.all_cons, List.all_nil, Bool.and_true, digit, Bool.and_eq_true,
      decide_eq_true_eq] at digits
    cases axis <;>
    · simp only [patternParts, exactParts, shortWhole, natOf_one, maximumText_latitude,
        maximumText_longitude, Axis.maximum, digit]
      rw [Bool.eq_iff_iff]
      simp
      omega
  | cons b rest =>
    cases rest with
    | nil =>
      simp only [List.all_cons, List.all_nil, Bool.and_true, digit, Bool.and_eq_true,
        decide_eq_true_eq] at digits
      cases axis
      · simp only [patternParts, exactParts, shortWhole, natOf_two, maximumText_latitude,
          Axis.maximum, digit]
        rw [Bool.eq_iff_iff]
        by_cases zeros : fraction.all (· == 48) = true <;> simp [zeros] <;> omega
      · simp only [patternParts, exactParts, shortWhole, natOf_two, maximumText_longitude,
          Axis.maximum, digit]
        rw [Bool.eq_iff_iff]
        simp
        omega
    | cons c rest =>
      have three : axis = .longitude ∧ rest = [] := by
        simp only [List.length_cons] at short
        cases axis with
        | latitude =>
          simp only [Axis.maximumIntegerDigits] at short
          omega
        | longitude =>
          simp only [Axis.maximumIntegerDigits] at short
          exact ⟨rfl, List.eq_nil_of_length_eq_zero (by omega)⟩
      obtain ⟨rfl, rfl⟩ := three
      simp only [List.all_cons, List.all_nil, Bool.and_true, digit, Bool.and_eq_true,
        decide_eq_true_eq] at digits
      simp only [patternParts, exactParts, shortWhole, natOf_three, maximumText_longitude,
        Axis.maximum, digit]
      rw [Bool.eq_iff_iff]
      by_cases zeros : fraction.all (· == 48) = true <;> simp [zeros] <;> omega

/-- The number of an accepted coordinate fits the pattern exactly when it is within bounds. -/
theorem patternDecimal_exact {axis : Axis} {s : Text} (plain : (decimalParts s).isSome = true)
    (short : (s.takeWhile (· != 46)).length ≤ axis.maximumIntegerDigits) :
    patternDecimal axis s = (decimalParts s).all (exactParts axis) := by
  obtain ⟨⟨whole, fraction⟩, parsed⟩ := Option.isSome_iff_exists.1 plain
  have parts := decimalParts_some parsed
  rw [parts.integer] at short
  rw [patternDecimal, parsed]
  exact patternParts_exact axis fraction parts.nonempty parts.whole_digits short

theorem unsigned_parts {s : Text} (plain : (decimalParts s).isSome = true) : unsigned s = s := by
  obtain ⟨⟨whole, fraction⟩, parsed⟩ := Option.isSome_iff_exists.1 plain
  have numeric := (decimalParts_some parsed).member
  cases s with
  | nil => rfl
  | cons c rest =>
    have first := numeric c (List.mem_cons_self ..)
    simp only [digit, Bool.and_eq_true, decide_eq_true_eq] at first
    rw [unsigned, if_neg (by omega)]

theorem cardinals_are_letters (axis : Axis) : ∀ c, axis.cardinals.contains c = true →
    letter c = true := by
  intro c member
  cases axis <;>
  · simp only [cardinals_latitude, cardinals_longitude, List.contains_iff_mem] at member
    simp at member
    rcases member with rfl | rfl | rfl | rfl <;> rfl

/-- An accepted coordinate fits the pattern exactly when it is within bounds. -/
theorem coordinate_pattern_iff {s : Text} {axis : Axis}
    (accepted : isValidCoordinate s axis = true) :
    coordinatePattern axis (trim s) = withinBounds axis (trim s) := by
  unfold isValidCoordinate at accepted
  unfold coordinatePattern withinBounds coordinateParts
  by_cases cardinal : hasCardinal (trim s) = true
  · simp only [cardinal, if_true, inRange, Bool.and_eq_true, decide_eq_true_eq] at accepted ⊢
    simp only [hasCardinal, Bool.and_eq_true] at cardinal
    have noPlain : patternDecimal axis (unsigned (trim s)) = false := by
      rw [patternDecimal, ends_in_letter cardinal.1]
      rfl
    rw [unsigned_parts cardinal.2] at accepted
    rw [noPlain, accepted.1, patternDecimal_exact cardinal.2 accepted.2.1]
    rfl
  · simp only [cardinal, if_false, inRange, Bool.and_eq_true, decide_eq_true_eq,
      Bool.false_eq_true] at accepted ⊢
    have noLetter : ((trim s).getLast?.any axis.cardinals.contains &&
        patternDecimal axis (cardinalNumber (trim s))) = false := by
      rw [Bool.eq_false_iff]
      intro both
      rw [Bool.and_eq_true] at both
      apply cardinal
      obtain ⟨c, ends, member⟩ := (Option.any_eq_true ..).1 both.1
      obtain ⟨pair, parsed, _⟩ := (Option.any_eq_true ..).1 both.2
      rw [hasCardinal, ends, parsed]
      simp [cardinals_are_letters axis c member]
    rw [noLetter, Bool.or_false]
    exact patternDecimal_exact accepted.1.1 accepted.1.2.1

example : isValidCoordinate (units " 90 S ") .latitude = true ∧
    coordinatePattern .latitude (units "90 S") = true := by decide +kernel

end CertificateForm
