import SpacerocksCoa.IdempotencyKeys
import SpacerocksCoa.JsonOrder
import SpacerocksCoa.JsonReaders

/-!
# JSON as Python reads it

`json.loads` of bytes: the encoding is detected from the first bytes, the text is decoded with
lone surrogates let through, and the scanner reads one value. A number is an integer unless it
has a fraction or an exponent, and the words `NaN`, `Infinity` and `-Infinity` are floats. An
integer of too many digits and a nesting that is too deep raise errors of their own.

A text is its list of UTF-16 units. The floats are a parameter, so is the `float` that reads
them, and so is the number of containers that the interpreter lets stand in one another.
-/
namespace PythonJson
open JsonText IdempotencyKeys
open CodeUnits (natText natText_digit natText_nonempty readNat readNat_natText)

/-! ## Decoding -/

inductive Encoding where
  | utf8 | utf8Sig | utf16 | utf16Be | utf16Le | utf32 | utf32Be | utf32Le
  deriving DecidableEq

/-- `detect_encoding`: byte order marks first, then the places of the null bytes. -/
def detectEncoding (bytes : List UInt8) : Encoding :=
  if bytes.take 4 = [0, 0, 0xfe, 0xff] ∨ bytes.take 4 = [0xff, 0xfe, 0, 0] then .utf32
  else if bytes.take 2 = [0xfe, 0xff] ∨ bytes.take 2 = [0xff, 0xfe] then .utf16
  else if bytes.take 3 = [0xef, 0xbb, 0xbf] then .utf8Sig
  else
    match bytes with
    | a :: b :: c :: d :: _ =>
      if a = 0 then (if b = 0 then .utf32Be else .utf16Be)
      else if b = 0 then (if c = 0 ∧ d = 0 then .utf32Le else .utf16Le)
      else .utf8
    | [a, b] => if a = 0 then .utf16Be else if b = 0 then .utf16Le else .utf8
    | _ => .utf8

/-- The UTF-16 units of a code point. -/
def unitsOf (c : Nat) : Text :=
  if c < 0x10000 then [c] else [0xd800 + (c - 0x10000) / 0x400, 0xdc00 + (c - 0x10000) % 0x400]

def isTail (b : UInt8) : Bool := 0x80 ≤ b.toNat && b.toNat < 0xc0

def isSurrogate (c : Nat) : Bool := 0xd800 ≤ c && c < 0xe000

def twoBytes (a b : UInt8) : Nat := (a.toNat - 0xc0) * 64 + (b.toNat - 0x80)

def threeBytes (a b c : UInt8) : Nat :=
  (a.toNat - 0xe0) * 4096 + (b.toNat - 0x80) * 64 + (c.toNat - 0x80)

def fourBytes (a b c d : UInt8) : Nat :=
  (a.toNat - 0xf0) * 262144 + (b.toNat - 0x80) * 4096 + (c.toNat - 0x80) * 64 + (d.toNat - 0x80)

/-- The codec `utf-8`; `pass` is its error handler `surrogatepass`. -/
def decodeUtf8 (pass : Bool) : List UInt8 → Option Text
  | [] => some []
  | a :: rest =>
    if a.toNat < 0x80 then (decodeUtf8 pass rest).map (a.toNat :: ·)
    else if a.toNat < 0xc2 then none
    else
      match rest with
      | [] => none
      | b :: rest =>
        if isTail b = false then none
        else if a.toNat < 0xe0 then
          (decodeUtf8 pass rest).map (twoBytes a b :: ·)
        else
          match rest with
          | [] => none
          | c :: rest =>
            if isTail c = false then none
            else if a.toNat < 0xf0 then
              if threeBytes a b c < 0x800 ∨ (pass = false ∧ isSurrogate (threeBytes a b c)) then
                none
              else (decodeUtf8 pass rest).map (threeBytes a b c :: ·)
            else
              match rest with
              | [] => none
              | d :: rest =>
                if isTail d = false ∨ fourBytes a b c d < 0x10000 ∨
                    0x10ffff < fourBytes a b c d then
                  none
                else (decodeUtf8 pass rest).map (unitsOf (fourBytes a b c d) ++ ·)

def decodeUtf16 (big : Bool) : List UInt8 → Option Text
  | [] => some []
  | [_] => none
  | a :: b :: rest =>
    (decodeUtf16 big rest).map
      ((if big then a.toNat * 256 + b.toNat else b.toNat * 256 + a.toNat) :: ·)

def decodeUtf32 (big : Bool) : List UInt8 → Option Text
  | [] => some []
  | a :: b :: c :: d :: rest =>
    let point := if big then
        ((a.toNat * 256 + b.toNat) * 256 + c.toNat) * 256 + d.toNat
      else ((d.toNat * 256 + c.toNat) * 256 + b.toNat) * 256 + a.toNat
    if 0x10ffff < point then none else (decodeUtf32 big rest).map (unitsOf point ++ ·)
  | _ => none

/-- `bytes.decode(encoding, "surrogatepass")` -/
def decode (bytes : List UInt8) : Encoding → Option Text
  | .utf8 => decodeUtf8 true bytes
  | .utf8Sig => decodeUtf8 true (bytes.drop 3)
  | .utf16 => decodeUtf16 (bytes.take 2 = [0xfe, 0xff]) (bytes.drop 2)
  | .utf16Be => decodeUtf16 true bytes
  | .utf16Le => decodeUtf16 false bytes
  | .utf32 => decodeUtf32 (bytes.take 4 = [0, 0, 0xfe, 0xff]) (bytes.drop 4)
  | .utf32Be => decodeUtf32 true bytes
  | .utf32Le => decodeUtf32 false bytes

/-! ## Numbers -/

def isDigit (c : Nat) : Bool := 48 ≤ c && c ≤ 57

/-- The end of a number: no exponent, or one with digits. -/
def exponentEnd (s : Text) : Bool :=
  match s with
  | [] => true
  | e :: rest =>
    (e == 69 || e == 101) &&
      (match rest with
        | 43 :: digits => digits != [] && digits.all isDigit
        | 45 :: digits => digits != [] && digits.all isDigit
        | digits => digits != [] && digits.all isDigit)

/-- What follows the integer part of a number in `NUMBER_RE`. -/
def fractionEnd (s : Text) : Bool :=
  match s with
  | 46 :: rest => rest.takeWhile isDigit != [] && exponentEnd (rest.dropWhile isDigit)
  | s => exponentEnd s

def unsigned (s : Text) : Text :=
  match s with
  | 45 :: rest => rest
  | s => s

/-- An integer part without leading zeros. -/
def integerPart (digits : Text) : Bool :=
  digits != [] && (digits.head? != some 48 || digits == [48])

variable {F N : Type} (float : Text → F)

/-- `NUMBER_RE` and the conversion of its match. -/
def readNumber (s : Text) : Option (PyNumber F) :=
  let after := (unsigned s).dropWhile isDigit
  if integerPart ((unsigned s).takeWhile isDigit) = false ∨ fractionEnd after = false then none
  else if after = [] then some (.int (readInt s))
  else some (.float (float s))

/-! ## Objects -/

/-- `d[key] = value`: a key that is there keeps its place. -/
def setItem (fields : List (Text × Json N)) (key : Text) (value : Json N) : List (Text × Json N) :=
  if fields.any (fun field => field.1 = key) then
    fields.map fun field => if field.1 = key then (key, value) else field
  else fields ++ [(key, value)]

/-- The `dict` of the pairs in the order of the text. -/
def dict (fields : List (Text × Json N)) : List (Text × Json N) :=
  fields.foldl (fun d field => setItem d field.1 field.2) []

theorem foldl_setItem {d fields : List (Text × Json N)}
    (distinct : (keys (d ++ fields)).Nodup) :
    fields.foldl (fun d field => setItem d field.1 field.2) d = d ++ fields := by
  induction fields generalizing d with
  | nil => rw [List.foldl_nil, List.append_nil]
  | cons field fields ih =>
    have shape : d ++ field :: fields = d ++ [field] ++ fields := by
      rw [List.append_assoc, List.singleton_append]
    have new : ¬ d.any (fun other => other.1 = field.1) = true := by
      intro old
      obtain ⟨other, member, same⟩ := List.any_eq_true.1 old
      rw [keys, List.map_append, List.map_cons] at distinct
      refine (List.nodup_append.1 distinct).2.2 other.1 (List.mem_map_of_mem member) field.1
        List.mem_cons_self ?_
      exact of_decide_eq_true same
    rw [shape] at distinct ⊢
    rw [List.foldl_cons, setItem, if_neg new]
    exact ih distinct

/-- Distinct keys keep their order. -/
theorem dict_distinct {fields : List (Text × Json N)} (distinct : (keys fields).Nodup) :
    dict fields = fields :=
  foldl_setItem distinct

/-! ## The scanner -/

/-- `NaN` -/
def nanWord : Text := [78, 97, 78]

/-- `Infinity` -/
def infinityWord : Text := [73, 110, 102, 105, 110, 105, 116, 121]

/-- The text of one of the words that stand for floats. -/
def constant (source : Text) : Option (PyNumber F × Text) :=
  if source.take 3 = nanWord then some (.float (float nanWord), source.drop 3)
  else if source.take 8 = infinityWord then some (.float (float infinityWord), source.drop 8)
  else if source.take 9 = 45 :: infinityWord then
    some (.float (float (45 :: infinityWord)), source.drop 9)
  else none

/-- What `json.loads` raises: `JSONDecodeError` or `UnicodeDecodeError`, the `ValueError` of an
integer, `RecursionError`. -/
inductive LoadsError where
  | invalid
  | tooManyDigits
  | recursion
  deriving DecidableEq

/-- `sys.get_int_max_str_digits()` as the interpreter starts. -/
def maxStrDigits : Nat := 4300

/-- The longest match of `NUMBER_RE` within so many characters, and its length. -/
def matchNumber (source : Text) : Nat → Option (PyNumber F × Nat)
  | 0 => none
  | length + 1 =>
    match readNumber float (source.take (length + 1)) with
    | some n => some (n, length + 1)
    | none => matchNumber source length

def scanNumber (source : Text) : Except LoadsError (PyNumber F × Text) :=
  match constant float source with
  | some found => .ok found
  | none =>
    match matchNumber float source (source.takeWhile isNumeric).length with
    | none => .error .invalid
    | some (.float x, length) => .ok (.float x, source.drop length)
    | some (.int n, length) =>
      if maxStrDigits < (unsigned (source.take length)).length then .error .tooManyDigits
      else .ok (.int n, source.drop length)

theorem constant_shortens {source : Text} {found : PyNumber F × Text}
    (read : constant float source = some found) : found.2.length < source.length := by
  have longer : ∀ {word : Text}, source.take word.length = word → word ≠ [] →
      (source.drop word.length).length < source.length := by
    intro word same filled
    have lengths := congrArg List.length same
    have positive := List.length_pos_of_ne_nil filled
    rw [List.length_take] at lengths
    rw [List.length_drop]
    omega
  unfold constant at read
  split at read
  · next same =>
    cases read
    exact @longer nanWord same (List.cons_ne_nil _ _)
  split at read
  · next same =>
    cases read
    exact @longer infinityWord same (List.cons_ne_nil _ _)
  split at read
  · next same =>
    cases read
    exact @longer (45 :: infinityWord) same (List.cons_ne_nil _ _)
  · cases read

theorem matchNumber_length {source : Text} {most : Nat} {found : PyNumber F × Nat}
    (read : matchNumber float source most = some found) : 0 < found.2 ∧ found.2 ≤ most := by
  induction most with
  | zero => cases read
  | succ most ih =>
    rw [matchNumber] at read
    split at read
    · cases read
      exact ⟨Nat.succ_pos _, Nat.le_refl _⟩
    · obtain ⟨positive, within⟩ := ih read
      exact ⟨positive, Nat.le_succ_of_le within⟩

theorem scanNumber_shortens (source : Text) (found : PyNumber F × Text)
    (read : scanNumber float source = .ok found) : found.2.length < source.length := by
  unfold scanNumber at read
  cases words : constant float source with
  | some word =>
    rw [words] at read
    cases read
    exact constant_shortens float words
  | none =>
    have used : ∀ {pair : PyNumber F × Nat},
        matchNumber float source (source.takeWhile isNumeric).length = some pair →
          (source.drop pair.2).length < source.length := by
      intro pair matched
      obtain ⟨positive, within⟩ := matchNumber_length float matched
      have span := (List.takeWhile_prefix (l := source) isNumeric).length_le
      rw [List.length_drop]
      omega
    simp only [words] at read
    split at read
    · cases read
    · next matched =>
      cases read
      exact used matched
    · next matched =>
      split at read
      · cases read
      · cases read
        exact used matched

/-- `JSONDecoder`: so many containers may stand in one another. -/
def decoder (limit : Nat) : Reader LoadsError (PyNumber F) where
  number := scanNumber float
  build := dict
  tooDeep depth := if limit ≤ depth then some .recursion else none
  malformed := .invalid
  number_shortens := scanNumber_shortens float

/-- `json.loads` of bytes -/
def loads (limit : Nat) (bytes : List UInt8) : Except LoadsError (Json (PyNumber F)) :=
  match decode bytes (detectEncoding bytes) with
  | none => .error .invalid
  | some source => scan (decoder float limit) source

/-! ## Writing -/

/-- `ESCAPE_ASCII`: what is not printed ASCII is escaped. -/
def asciiEscape (s : Text) : Text :=
  s.flatMap fun c => if 127 ≤ c ∧ c < 65536 then 92 :: 117 :: hex4 c else escapeChar c

theorem spelled_asciiEscape (s : Text) : Spelled s (asciiEscape s) := by
  induction s with
  | nil => exact .nil
  | cons c s ih =>
    rw [asciiEscape, List.flatMap_cons]
    split
    · next wide => exact .hex wide.2 ih
    · exact spelled_escapeChar c ih

/-- A printed character that is no mark stands for itself. -/
def plainChar (c : Nat) : Bool := 32 ≤ c && c < 127 && c != 34 && c != 92

theorem escapeChar_plain : ∀ c < 127, plainChar c = true → escapeChar c = [c] := by decide

theorem asciiEscape_plain {s : Text} (plain : ∀ c ∈ s, plainChar c = true) :
    asciiEscape s = s := by
  induction s with
  | nil => rfl
  | cons c s ih =>
    have here := plain c List.mem_cons_self
    have small : c < 127 := by
      simp only [plainChar, Bool.and_eq_true, decide_eq_true_eq] at here
      omega
    have rest := ih fun d member => plain d (List.mem_cons_of_mem _ member)
    rw [asciiEscape] at rest ⊢
    rw [List.flatMap_cons, rest, if_neg (by omega), escapeChar_plain c small here]
    rfl

/-- Floats and their `repr`, which the scanner reads back. -/
structure FloatWords (F : Type) where
  repr : F → Text
  float : Text → F
  read_repr : ∀ x, readNumber float (repr x) = some (.float x)
  numeric : ∀ x, ∀ c ∈ repr x, isNumeric c = true

theorem zero_numeric : ∀ c ∈ [48, 46, 48], isNumeric c = true := by decide

/-- Floats that are all zero. -/
def zeroFloats : FloatWords Unit where
  repr := fun _ => [48, 46, 48]
  float := fun _ => ()
  read_repr := fun _ => rfl
  numeric := fun _ => zero_numeric

def writeNumber (words : FloatWords F) : PyNumber F → Text
  | .int n => intText n
  | .float x => words.repr x

theorem digit_of_range {c : Nat} (digit : 48 ≤ c ∧ c ≤ 57) : isDigit c = true := by
  rw [isDigit, Bool.and_eq_true, decide_eq_true_eq, decide_eq_true_eq]
  exact digit

theorem natText_step (n : Nat) :
    natText n = if n < 10 then [(Nat.digitChar n).toNat]
      else natText (n / 10) ++ [(Nat.digitChar (n % 10)).toNat] := by
  rw [natText, Nat.toDigits_eq_if (by decide)]
  split
  · rfl
  · rw [List.map_append]
    rfl

theorem digitChar_lead : ∀ n < 10, 0 < n → (Nat.digitChar n).toNat ≠ 48 := by decide

/-- A number is written without leading zeros. -/
theorem natText_head {n : Nat} (positive : 0 < n) : (natText n).head? ≠ some 48 := by
  induction n using Nat.strongRecOn with
  | ind n ih =>
    rw [natText_step]
    split
    · next small =>
      intro lead
      exact digitChar_lead n small positive (Option.some.inj lead)
    · next large =>
      have smaller := ih (n / 10) (by omega) (by omega)
      cases written : natText (n / 10) with
      | nil => exact absurd written (natText_nonempty _)
      | cons c rest => rwa [written] at smaller

theorem natText_length {n width : Nat} (digits : 0 < width) (bound : n < 10 ^ width) :
    (natText n).length ≤ width := by
  rw [natText, List.length_map]
  exact (Nat.length_toDigits_le_iff (by decide) digits).2 bound

theorem integerPart_natText (n : Nat) : integerPart (natText n) = true := by
  have filled := natText_nonempty n
  by_cases zero : n = 0
  · subst zero
    rfl
  · have lead := natText_head (Nat.pos_of_ne_zero zero)
    rw [integerPart, Bool.and_eq_true, Bool.or_eq_true, bne_iff_ne, bne_iff_ne]
    exact ⟨filled, .inl lead⟩

theorem digits_span {s : Text} (digits : ∀ c ∈ s, isDigit c = true) :
    s.takeWhile isDigit = s ∧ s.dropWhile isDigit = [] :=
  ⟨List.takeWhile_eq_self_iff.2 digits, List.dropWhile_eq_nil_iff.2 digits⟩

theorem readNumber_int (n : Int) : readNumber float (intText n) = some (.int n) := by
  have digits : ∀ c ∈ natText n.natAbs, isDigit c = true :=
    fun c member => digit_of_range (natText_digit _ c member)
  have bare : unsigned (intText n) = natText n.natAbs := by
    unfold intText
    split
    · rfl
    · cases written : natText n.natAbs with
      | nil => rfl
      | cons c rest =>
        have range := natText_digit n.natAbs c (written ▸ List.mem_cons_self)
        unfold unsigned
        split
        · next same => exact absurd (List.cons.inj same).1 (by omega)
        · rfl
  obtain ⟨taken, dropped⟩ := digits_span digits
  have whole : ¬ (integerPart (natText n.natAbs) = false ∨ fractionEnd [] = false) := by
    rw [integerPart_natText]
    decide
  simp only [readNumber, bare, taken, dropped, if_neg whole, if_true, readInt_intText]

theorem readNumber_write (words : FloatWords F) (n : PyNumber F) :
    readNumber words.float (writeNumber words n) = some n := by
  cases n with
  | int n => exact readNumber_int words.float n
  | float x => exact words.read_repr x

theorem writeNumber_numeric (words : FloatWords F) (n : PyNumber F) :
    ∀ c ∈ writeNumber words n, isNumeric c = true := by
  intro c member
  cases n with
  | int n =>
    rcases intText_chars n c member with sign | digit
    · subst sign
      rfl
    · simp only [isNumeric, digit.1, digit.2, decide_true, Bool.and_true, Bool.true_or]
  | float x => exact words.numeric x c member

theorem readNumber_nil : readNumber float [] = none := rfl

theorem writeNumber_nonempty (words : FloatWords F) (n : PyNumber F) :
    writeNumber words n ≠ [] := by
  intro empty
  have read := readNumber_write words n
  rw [empty, readNumber_nil] at read
  cases read

/-- `json.dumps` with `separators=(",", ":")`; every character is ASCII. -/
def compactAscii (words : FloatWords F) : Dialect (PyNumber F) where
  numbers := {
    write := writeNumber words
    read := readNumber words.float
    read_write := readNumber_write words
    numeric := writeNumber_numeric words
    nonempty := writeNumber_nonempty words }
  escape := asciiEscape
  newline := fun _ => []
  afterColon := []
  escape_spelled := spelled_asciiEscape
  newline_space := fun _ => no_space
  colon_space := no_space

/-! ## What the scanner takes -/

section Scanner
variable {float}

/-- A number that is read begins none of the words. -/
theorem constant_none {c : Nat} {rest : Text} {n : PyNumber F} (numeric : isNumeric c = true)
    (read : readNumber float ((c :: rest).takeWhile isNumeric) = some n) :
    constant float (c :: rest) = none := by
  have notNan : (c :: rest).take 3 ≠ nanWord := by
    intro same
    have first : c = 78 := (List.cons.inj same).1
    subst first
    cases numeric
  have notInfinity : (c :: rest).take 8 ≠ infinityWord := by
    intro same
    have first : c = 73 := (List.cons.inj same).1
    subst first
    cases numeric
  have notNegative : (c :: rest).take 9 ≠ 45 :: infinityWord := by
    intro same
    have first : c = 45 := (List.cons.inj same).1
    have second : rest.take 8 = infinityWord := (List.cons.inj same).2
    subst first
    cases rest with
    | nil => cases second
    | cons d rest =>
      have letter : d = 73 := (List.cons.inj second).1
      subst letter
      cases read
  rw [constant, if_neg notNan, if_neg notInfinity, if_neg notNegative]

theorem matchNumber_whole {source : Text} {n : PyNumber F} {length : Nat} (filled : 0 < length)
    (read : readNumber float (source.take length) = some n) :
    matchNumber float source length = some (n, length) := by
  cases length with
  | zero => exact absurd filled (Nat.lt_irrefl 0)
  | succ length => rw [matchNumber, read]

theorem unsigned_length (s : Text) : (unsigned s).length ≤ s.length := by
  unfold unsigned
  split
  · exact Nat.le_succ _
  · exact Nat.le_refl _

/-- The scanner takes a number that is read as a whole, an integer when it is not too long. -/
theorem decoder_takes (d : Dialect N) {see : N → PyNumber F} {n : N} (limit : Nat)
    (read : readNumber float (d.numbers.write n) = some (see n))
    (short : ∀ m, see n = .int m → (d.numbers.write n).length ≤ maxStrDigits) :
    Takes d (decoder float limit) see n := by
  intro rest stops
  obtain ⟨taken, -⟩ := span_numeric d.numbers n stops
  obtain ⟨c, word, written, numeric⟩ := numeric_first d.numbers n
  have whole : (d.numbers.write n ++ rest).take (d.numbers.write n).length = d.numbers.write n :=
    List.take_left
  have words : constant float (d.numbers.write n ++ rest) = none := by
    rw [written, List.cons_append] at taken ⊢
    exact constant_none numeric (by rw [taken, ← written, read])
  have matched : matchNumber float (d.numbers.write n ++ rest)
      ((d.numbers.write n ++ rest).takeWhile isNumeric).length =
        some (see n, (d.numbers.write n).length) := by
    rw [taken]
    exact matchNumber_whole (List.length_pos_of_ne_nil (d.numbers.nonempty n)) (by rw [whole, read])
  change scanNumber float (d.numbers.write n ++ rest) = _
  rw [scanNumber, words]
  simp only [matched]
  cases seen : see n with
  | float x => simp only [List.drop_left]
  | int m =>
    have few := Nat.le_trans (unsigned_length (d.numbers.write n)) (short m seen)
    simp only [whole, List.drop_left, if_neg (Nat.not_lt.2 few)]

theorem decoder_enters {limit more : Nat} (within : more ≤ limit) :
    Enters (decoder float limit) 0 more := by
  intro k below
  exact if_neg (by omega)

end Scanner

/-! ## Bytes of a printed value -/

theorem decodeUtf8_ascii (pass : Bool) {s : Text} (ascii : ∀ c ∈ s, c < 128) :
    decodeUtf8 pass (s.map UInt8.ofNat) = some s := by
  induction s with
  | nil => rfl
  | cons c s ih =>
    have small := ascii c List.mem_cons_self
    have byte : (UInt8.ofNat c).toNat = c := Nat.mod_eq_of_lt (by omega)
    rw [List.map_cons, decodeUtf8.eq_def]
    dsimp only
    rw [byte, if_pos small, ih fun d member => ascii d (List.mem_cons_of_mem _ member)]
    rfl

/-- ASCII without NUL is taken for UTF-8. -/
theorem detectEncoding_ascii {bytes : List UInt8}
    (printed : ∀ b ∈ bytes, b ≠ 0 ∧ b.toNat < 128) : detectEncoding bytes = .utf8 := by
  have other : ∀ (k : Nat) (mark : UInt8) (marks : List UInt8), mark = 0 ∨ 128 ≤ mark.toNat →
      bytes.take k ≠ mark :: marks := by
    intro k mark marks foreign same
    have member : mark ∈ bytes := List.mem_of_mem_take (same ▸ List.mem_cons_self)
    have plain := printed mark member
    rcases foreign with null | wide
    · exact plain.1 null
    · omega
  have notWide : ¬ (bytes.take 4 = [0, 0, 0xfe, 0xff] ∨ bytes.take 4 = [0xff, 0xfe, 0, 0]) :=
    not_or.2 ⟨other 4 0 _ (.inl rfl), other 4 0xff _ (.inr (by decide))⟩
  have notMarked : ¬ (bytes.take 2 = [0xfe, 0xff] ∨ bytes.take 2 = [0xff, 0xfe]) :=
    not_or.2 ⟨other 2 0xfe _ (.inr (by decide)), other 2 0xff _ (.inr (by decide))⟩
  unfold detectEncoding
  rw [if_neg notWide, if_neg notMarked, if_neg (other 3 0xef _ (.inr (by decide)))]
  have nonzero : ∀ b ∈ bytes, b ≠ 0 := fun b member => (printed b member).1
  clear other notWide notMarked printed
  rcases bytes with _ | ⟨a, _ | ⟨b, _ | ⟨c, _ | ⟨d, rest⟩⟩⟩⟩
  · rfl
  · rfl
  · have first := nonzero a List.mem_cons_self
    have second := nonzero b (List.mem_cons_of_mem _ List.mem_cons_self)
    simp only [if_neg first, if_neg second]
  · rfl
  · have first := nonzero a List.mem_cons_self
    have second := nonzero b (List.mem_cons_of_mem _ List.mem_cons_self)
    simp only [if_neg first, if_neg second]

/-- An integer that is written with few digits. -/
def Short (n : PyNumber F) : Prop := ∀ m, n = .int m → (intText m).length ≤ maxStrDigits

theorem loads_print (words : FloatWords F) {limit : Nat} {v : Json (PyNumber F)}
    (fits : Fits Short limit v)
    (printed : ∀ c ∈ print (compactAscii words) 0 v, 0 < c ∧ c < 128) :
    loads words.float limit ((print (compactAscii words) 0 v).map UInt8.ofNat) =
      .ok (rebuild dict v) := by
  have takes : Fits (Takes (compactAscii words) (decoder words.float limit) id) limit v := by
    refine fits_mono (fun n short => ?_) fits
    refine decoder_takes _ limit (readNumber_write words n) fun m same => ?_
    cases same
    exact short m rfl
  have read := scan_print takes (decoder_enters (Nat.le_refl limit)) no_space
  rw [List.append_nil, seen_id] at read
  have bytes : ∀ b ∈ (print (compactAscii words) 0 v).map UInt8.ofNat, b ≠ 0 ∧ b.toNat < 128 := by
    intro b member
    obtain ⟨c, inside, rfl⟩ := List.mem_map.1 member
    have small := printed c inside
    have byte : (UInt8.ofNat c).toNat = c := Nat.mod_eq_of_lt (by omega)
    refine ⟨fun null => ?_, by omega⟩
    rw [null] at byte
    have zero : c = 0 := byte.symm
    omega
  rw [loads, detectEncoding_ascii bytes, decode,
    decodeUtf8_ascii true fun c member => (printed c member).2]
  exact read

end PythonJson
