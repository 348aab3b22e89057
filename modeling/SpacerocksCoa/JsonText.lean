import Mathlib.Data.List.Sort

/-!
# The text of JSON values

Values over any type of numbers and their text in any layout. A text is a list of code units,
and an object is its list of properties. A `Dialect` says how numbers are written, which
characters of a string are escaped and where white space stands.
-/
namespace JsonText

abbrev Text := List Nat

/-- The text of a word. The words of the sources are ASCII, so their bytes are their units. -/
def units (s : String) : Text := s.toUTF8.data.toList.map UInt8.toNat

theorem ascii_encoded (c : Char) (ascii : c.toNat < 128) :
    [UInt8.ofNat c.toNat] = String.utf8EncodeChar c := by
  have small : c.val.toNat ≤ 127 := Nat.le_of_lt_succ ascii
  unfold String.utf8EncodeChar
  rw [if_pos small]
  rfl

theorem encoded_ascii {s : List Char} (ascii : ∀ c ∈ s, c.toNat < 128) :
    (s.flatMap String.utf8EncodeChar).map UInt8.toNat = s.map Char.toNat := by
  induction s with
  | nil => rfl
  | cons c s ih =>
    have small := ascii c List.mem_cons_self
    have byte : (UInt8.ofNat c.toNat).toNat = c.toNat :=
      UInt8.toNat_ofNat_of_lt' (Nat.lt_trans small (by decide))
    rw [List.flatMap_cons, ← ascii_encoded c small, List.map_append, List.map_singleton, byte,
      ih fun d member => ascii d (List.mem_cons_of_mem _ member)]
    rfl

theorem units_ascii {s : String} (ascii : ∀ c ∈ s.toList, c.toNat < 128) :
    units s = s.toList.map Char.toNat := by
  have bytes : s.toUTF8.data.toList = s.toList.flatMap String.utf8EncodeChar := by
    change s.toByteArray.data.toList = _
    rw [← String.utf8Encode_toList, List.utf8Encode, List.data_toByteArray]
  rw [units, bytes, encoded_ascii ascii]

theorem units_injective {s t : String} (same : units s = units t) : s = t := by
  have bytes : s.toUTF8.data.toList = t.toUTF8.data.toList :=
    List.map_injective_iff.2 (fun _ _ => UInt8.toNat_inj.1) same
  exact String.toByteArray_inj.1 (ByteArray.ext (Array.toList_inj.1 bytes))

inductive Json (N : Type) where
  | null
  | bool (value : Bool)
  | number (value : N)
  | text (value : Text)
  | array (items : List (Json N))
  | object (fields : List (Text × Json N))

def isSpace (c : Nat) : Bool := c == 32 || c == 9 || c == 10 || c == 13

theorem no_space : ∀ c ∈ ([] : Text), isSpace c = true := List.forall_mem_nil _

/-- The characters of numbers: digits, signs, the point and the exponent. -/
def isNumeric (c : Nat) : Bool :=
  (48 ≤ c && c ≤ 57) || c == 43 || c == 45 || c == 46 || c == 69 || c == 101

/-! ## Strings -/

def hexDigit (n : Nat) : Nat := if n < 10 then 48 + n else 87 + n

def hexValue (c : Nat) : Option Nat :=
  if 48 ≤ c ∧ c ≤ 57 then some (c - 48)
  else if 97 ≤ c ∧ c ≤ 102 then some (c - 87)
  else if 65 ≤ c ∧ c ≤ 70 then some (c - 55)
  else none

def hex4 (n : Nat) : Text :=
  [hexDigit (n / 4096), hexDigit (n / 256 % 16), hexDigit (n / 16 % 16), hexDigit (n % 16)]

/-- The character that follows a reverse solidus, and what both stand for. -/
def shortEscape (e : Nat) : Option Nat :=
  if e = 34 then some 34
  else if e = 92 then some 92
  else if e = 47 then some 47
  else if e = 98 then some 8
  else if e = 102 then some 12
  else if e = 110 then some 10
  else if e = 114 then some 13
  else if e = 116 then some 9
  else none

/-- The rest of a string, after its opening mark. -/
def unquote : Text → Option (Text × Text)
  | [] => none
  | c :: rest =>
    if c = 34 then some ([], rest)
    else if c = 92 then
      match rest with
      | [] => none
      | e :: rest =>
        if e = 117 then
          match rest with
          | x :: y :: z :: w :: rest => do
            let unit := (← hexValue x) * 4096 + (← hexValue y) * 256 + (← hexValue z) * 16 +
              (← hexValue w)
            let read ← unquote rest
            return (unit :: read.1, read.2)
          | _ => none
        else do
          let unit ← shortEscape e
          let read ← unquote rest
          return (unit :: read.1, read.2)
    else if c < 32 then none
    else do
      let read ← unquote rest
      return (c :: read.1, read.2)

/-- The text stands for the string: each character is plain or escaped. -/
inductive Spelled : Text → Text → Prop where
  | nil : Spelled [] []
  | plain {c : Nat} {s t : Text} (unmarked : c ≠ 34) (unescaped : c ≠ 92) (printed : 32 ≤ c)
      (rest : Spelled s t) : Spelled (c :: s) (c :: t)
  | short {c e : Nat} {s t : Text} (escape : shortEscape e = some c) (rest : Spelled s t) :
      Spelled (c :: s) (92 :: e :: t)
  | hex {c : Nat} {s t : Text} (small : c < 65536) (rest : Spelled s t) :
      Spelled (c :: s) (92 :: 117 :: (hex4 c ++ t))

theorem hexValue_hexDigit {n : Nat} (small : n < 16) : hexValue (hexDigit n) = some n := by
  unfold hexDigit hexValue
  by_cases decimal : n < 10
  · rw [if_pos decimal, if_pos (by omega)]
    congr 1
    omega
  · rw [if_neg decimal, if_neg (by omega), if_pos (by omega)]
    congr 1
    omega

theorem shortEscape_ne_u {e c : Nat} (escape : shortEscape e = some c) : e ≠ 117 := by
  intro same
  rw [same] at escape
  cases escape

theorem unquote_mark (rest : Text) : unquote (34 :: rest) = some ([], rest) := by
  rw [unquote.eq_def]
  exact if_pos rfl

theorem unquote_plain {c : Nat} (unmarked : c ≠ 34) (unescaped : c ≠ 92) (printed : 32 ≤ c)
    (rest : Text) :
    unquote (c :: rest) = (unquote rest).map fun read => (c :: read.1, read.2) := by
  rw [unquote.eq_def]
  simp only [if_neg unmarked, if_neg unescaped, if_neg (Nat.not_lt.2 printed)]
  cases unquote rest with
  | none => rfl
  | some read => rfl

theorem unquote_short {c e : Nat} (escape : shortEscape e = some c) (rest : Text) :
    unquote (92 :: e :: rest) = (unquote rest).map fun read => (c :: read.1, read.2) := by
  rw [unquote.eq_def]
  simp only [if_neg (show ¬ 92 = 34 by decide), if_neg (shortEscape_ne_u escape), escape]
  cases unquote rest with
  | none => rfl
  | some read => rfl

theorem unquote_hex {c : Nat} (small : c < 65536) (rest : Text) :
    unquote (92 :: 117 :: (hex4 c ++ rest)) =
      (unquote rest).map fun read => (c :: read.1, read.2) := by
  have digits : c / 4096 * 4096 + c / 256 % 16 * 256 + c / 16 % 16 * 16 + c % 16 = c := by omega
  rw [unquote.eq_def]
  simp only [if_neg (show ¬ 92 = 34 by decide), hex4, List.cons_append, List.nil_append,
    hexValue_hexDigit (show c / 4096 < 16 by omega),
    hexValue_hexDigit (show c / 256 % 16 < 16 by omega),
    hexValue_hexDigit (show c / 16 % 16 < 16 by omega),
    hexValue_hexDigit (show c % 16 < 16 by omega)]
  cases unquote rest with
  | none => rfl
  | some read => exact congrArg (fun unit => some (unit :: read.1, read.2)) digits

theorem unquote_spelled {s t : Text} (spelled : Spelled s t) (rest : Text) :
    unquote (t ++ 34 :: rest) = some (s, rest) := by
  induction spelled with
  | nil => exact unquote_mark rest
  | plain unmarked unescaped printed _ ih =>
    rw [List.cons_append, unquote_plain unmarked unescaped printed, ih]
    rfl
  | short escape _ ih =>
    rw [List.cons_append, List.cons_append, unquote_short escape, ih]
    rfl
  | hex small _ ih =>
    rw [List.cons_append, List.cons_append, List.append_assoc, unquote_hex small, ih]
    rfl

/-- The escape of a mark, a reverse solidus or a control character. -/
def escapeChar (c : Nat) : Text :=
  if c = 92 then [92, 92]
  else if c = 34 then [92, 34]
  else if c = 8 then [92, 98]
  else if c = 12 then [92, 102]
  else if c = 10 then [92, 110]
  else if c = 13 then [92, 114]
  else if c = 9 then [92, 116]
  else if c < 32 then 92 :: 117 :: hex4 c
  else [c]

theorem spelled_escapeChar (c : Nat) {s t : Text} (rest : Spelled s t) :
    Spelled (c :: s) (escapeChar c ++ t) := by
  unfold escapeChar
  split
  next same =>
    subst same
    exact .short rfl rest
  split
  next same =>
    subst same
    exact .short rfl rest
  split
  next same =>
    subst same
    exact .short rfl rest
  split
  next same =>
    subst same
    exact .short rfl rest
  split
  next same =>
    subst same
    exact .short rfl rest
  split
  next same =>
    subst same
    exact .short rfl rest
  split
  next same =>
    subst same
    exact .short rfl rest
  split
  next low => exact .hex (by omega) rest
  next backslash mark _ _ _ _ _ printed => exact .plain mark backslash (Nat.not_lt.1 printed) rest

/-! ## Printing -/

/-- How a type of numbers is written; what is written is read back. -/
structure NumberFormat (N : Type) where
  write : N → Text
  read : Text → Option N
  read_write : ∀ n, read (write n) = some n
  numeric : ∀ n, ∀ c ∈ write n, isNumeric c = true
  nonempty : ∀ n, write n ≠ []

/-- A way to print: numbers, escapes, and the white space before a member and after a colon. -/
structure Dialect (N : Type) where
  numbers : NumberFormat N
  escape : Text → Text
  newline : Nat → Text
  afterColon : Text
  escape_spelled : ∀ s, Spelled s (escape s)
  newline_space : ∀ level, ∀ c ∈ newline level, isSpace c = true
  colon_space : ∀ c ∈ afterColon, isSpace c = true

variable {N : Type}

def Dialect.quoted (d : Dialect N) (s : Text) : Text := 34 :: (d.escape s ++ [34])

mutual

def print (d : Dialect N) (level : Nat) : Json N → Text
  | .null => [110, 117, 108, 108]
  | .bool true => [116, 114, 117, 101]
  | .bool false => [102, 97, 108, 115, 101]
  | .number n => d.numbers.write n
  | .text s => d.quoted s
  | .array [] => [91, 93]
  | .array (item :: items) =>
    91 :: (d.newline (level + 1) ++ (print d (level + 1) item ++
      (printItems d (level + 1) items ++ (d.newline level ++ [93]))))
  | .object [] => [123, 125]
  | .object ((key, item) :: fields) =>
    123 :: (d.newline (level + 1) ++ (d.quoted key ++ (58 :: (d.afterColon ++
      (print d (level + 1) item ++
        (printFields d (level + 1) fields ++ (d.newline level ++ [125])))))))

/-- The items after the first one. -/
def printItems (d : Dialect N) (level : Nat) : List (Json N) → Text
  | [] => []
  | item :: items => 44 :: (d.newline level ++ (print d level item ++ printItems d level items))

def printFields (d : Dialect N) (level : Nat) : List (Text × Json N) → Text
  | [] => []
  | (key, item) :: fields =>
    44 :: (d.newline level ++ (d.quoted key ++ (58 :: (d.afterColon ++ (print d level item ++
      printFields d level fields)))))

end

/-! ## What is done to the parts of a value -/

section Rebuild
variable (build : List (Text × Json N) → List (Text × Json N))

mutual

/-- The value with every object built again from its properties. -/
def rebuild : Json N → Json N
  | .null => .null
  | .bool value => .bool value
  | .number n => .number n
  | .text s => .text s
  | .array items => .array (rebuildItems items)
  | .object fields => .object (build (rebuildFields fields))

def rebuildItems : List (Json N) → List (Json N)
  | [] => []
  | item :: items => rebuild item :: rebuildItems items

def rebuildFields : List (Text × Json N) → List (Text × Json N)
  | [] => []
  | (key, item) :: fields => (key, rebuild item) :: rebuildFields fields

end

variable {build}

theorem rebuildItems_map (items : List (Json N)) :
    rebuildItems build items = items.map (rebuild build) := by
  induction items with
  | nil => rw [rebuildItems, List.map_nil]
  | cons item items ih => rw [rebuildItems, ih, List.map_cons]

theorem rebuildFields_map (fields : List (Text × Json N)) :
    rebuildFields build fields = fields.map fun field => (field.1, rebuild build field.2) := by
  induction fields with
  | nil => rw [rebuildFields, List.map_nil]
  | cons field fields ih =>
    obtain ⟨key, item⟩ := field
    rw [rebuildFields, ih, List.map_cons]

end Rebuild

mutual

/-- Properties that are kept as they come make the same value again. -/
theorem rebuild_id (v : Json N) : rebuild id v = v := by
  match v with
  | .null => rw [rebuild]
  | .bool _ => rw [rebuild]
  | .number _ => rw [rebuild]
  | .text _ => rw [rebuild]
  | .array items => rw [rebuild, rebuildItems_id items]
  | .object fields => rw [rebuild, rebuildFields_id fields, id]

theorem rebuildItems_id (items : List (Json N)) : rebuildItems id items = items := by
  match items with
  | [] => rw [rebuildItems]
  | item :: items => rw [rebuildItems, rebuild_id item, rebuildItems_id items]

theorem rebuildFields_id (fields : List (Text × Json N)) : rebuildFields id fields = fields := by
  match fields with
  | [] => rw [rebuildFields]
  | (key, item) :: fields => rw [rebuildFields, rebuild_id item, rebuildFields_id fields]

end

section Substitution
variable {M : Type} (f : N → Json M)

mutual

/-- Every number is replaced by a value. -/
def substitute : Json N → Json M
  | .null => .null
  | .bool value => .bool value
  | .number n => f n
  | .text s => .text s
  | .array items => .array (substituteItems items)
  | .object fields => .object (substituteFields fields)

def substituteItems : List (Json N) → List (Json M)
  | [] => []
  | item :: items => substitute item :: substituteItems items

def substituteFields : List (Text × Json N) → List (Text × Json M)
  | [] => []
  | (key, item) :: fields => (key, substitute item) :: substituteFields fields

end

theorem substituteItems_map (items : List (Json N)) :
    substituteItems f items = items.map (substitute f) := by
  induction items with
  | nil => rfl
  | cons item items ih => rw [substituteItems, ih, List.map_cons]

theorem substituteFields_map (fields : List (Text × Json N)) :
    substituteFields f fields = fields.map fun field => (field.1, substitute f field.2) := by
  induction fields with
  | nil => rfl
  | cons field fields ih =>
    obtain ⟨key, item⟩ := field
    rw [substituteFields, ih, List.map_cons]

end Substitution

/-- The value with its numbers as another reader has them. -/
def seen {M : Type} (see : N → M) (v : Json N) : Json M := substitute (fun n => .number (see n)) v

mutual

/-- Numbers that are seen as they are make the same value. -/
theorem seen_id (v : Json N) : seen id v = v := by
  match v with
  | .null => rw [seen, substitute]
  | .bool _ => rw [seen, substitute]
  | .number _ => rw [seen, substitute, id]
  | .text _ => rw [seen, substitute]
  | .array items => rw [seen, substitute, seenItems_id items]
  | .object fields => rw [seen, substitute, seenFields_id fields]

theorem seenItems_id (items : List (Json N)) :
    substituteItems (fun n => .number (id n)) items = items := by
  match items with
  | [] => rw [substituteItems]
  | item :: items => rw [substituteItems, ← seen, seen_id item, seenItems_id items]

theorem seenFields_id (fields : List (Text × Json N)) :
    substituteFields (fun n => .number (id n)) fields = fields := by
  match fields with
  | [] => rw [substituteFields]
  | (key, item) :: fields => rw [substituteFields, ← seen, seen_id item, seenFields_id fields]

end

section Nesting
variable (P : N → Prop)

mutual

/-- The numbers satisfy a condition, and no more containers than this stand in one another. -/
def Fits : Nat → Json N → Prop
  | _, .null => True
  | _, .bool _ => True
  | _, .number n => P n
  | _, .text _ => True
  | 0, .array _ => False
  | depth + 1, .array items => FitsItems depth items
  | 0, .object _ => False
  | depth + 1, .object fields => FitsFields depth fields

def FitsItems (depth : Nat) : List (Json N) → Prop
  | [] => True
  | item :: items => Fits depth item ∧ FitsItems depth items

def FitsFields (depth : Nat) : List (Text × Json N) → Prop
  | [] => True
  | (_, item) :: fields => Fits depth item ∧ FitsFields depth fields

end

variable {P}

theorem fitsItems_iff {depth : Nat} {items : List (Json N)} :
    FitsItems P depth items ↔ ∀ item ∈ items, Fits P depth item := by
  induction items with
  | nil =>
    rw [FitsItems]
    exact ⟨fun _ _ none => absurd none List.not_mem_nil, fun _ => trivial⟩
  | cons item items ih => rw [FitsItems, ih, List.forall_mem_cons]

theorem fitsFields_iff {depth : Nat} {fields : List (Text × Json N)} :
    FitsFields P depth fields ↔ ∀ field ∈ fields, Fits P depth field.2 := by
  induction fields with
  | nil =>
    rw [FitsFields]
    exact ⟨fun _ _ none => absurd none List.not_mem_nil, fun _ => trivial⟩
  | cons field fields ih =>
    obtain ⟨key, item⟩ := field
    rw [FitsFields, ih, List.forall_mem_cons]

mutual

theorem fits_mono {Q : N → Prop} (weaker : ∀ n, P n → Q n) {depth : Nat} {v : Json N}
    (fits : Fits P depth v) : Fits Q depth v := by
  match v with
  | .null =>
    rw [Fits]
    trivial
  | .bool _ =>
    rw [Fits]
    trivial
  | .number n =>
    rw [Fits] at fits ⊢
    exact weaker n fits
  | .text _ =>
    rw [Fits]
    trivial
  | .array items =>
    cases depth with
    | zero => exact fits
    | succ depth =>
      rw [Fits] at fits ⊢
      exact fitsItems_mono weaker items fits
  | .object fields =>
    cases depth with
    | zero => exact fits
    | succ depth =>
      rw [Fits] at fits ⊢
      exact fitsFields_mono weaker fields fits

theorem fitsItems_mono {Q : N → Prop} (weaker : ∀ n, P n → Q n) {depth : Nat}
    (items : List (Json N)) (fits : FitsItems P depth items) : FitsItems Q depth items := by
  match items with
  | [] =>
    rw [FitsItems]
    trivial
  | item :: items =>
    rw [FitsItems] at fits ⊢
    exact ⟨fits_mono weaker fits.1, fitsItems_mono weaker items fits.2⟩

theorem fitsFields_mono {Q : N → Prop} (weaker : ∀ n, P n → Q n) {depth : Nat}
    (fields : List (Text × Json N)) (fits : FitsFields P depth fields) :
    FitsFields Q depth fields := by
  match fields with
  | [] =>
    rw [FitsFields]
    trivial
  | (_, item) :: fields =>
    rw [FitsFields] at fits ⊢
    exact ⟨fits_mono weaker fits.1, fitsFields_mono weaker fields fits.2⟩

end

end Nesting

end JsonText
