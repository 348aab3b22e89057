import SpacerocksCoa.CheckoutUrls
import SpacerocksCoa.FallibleSteps
import SpacerocksCoa.UniqueColumns

/-!
# The Meteoritical Bulletin pipeline

A row of the published table is checked by the updater and stored in the snapshot; a lookup
reads it back, checks it again and answers through the response model; the browser checks the
answer a fourth time. The three stages of the service share one rule for texts, and the
browser has its own. A text is a list of characters. What the browser makes of a decimal
literal is a parameter, of which only the rounding to nearest is known.

The download, the CSV syntax, the files of the snapshot and the JSON syntax are left out.
-/
namespace MetbullPipeline
open CheckoutUrls FallibleSteps

/-! ## Texts -/

/-- The rule for texts of the updater and of the reader. -/
def textWithin (maximum : Nat) (value : List Char) : Bool :=
  1 ≤ value.length && value.length ≤ maximum && value.all (fun c => 32 ≤ c.toNat)

def canonicalCode (text : List Char) : Bool :=
  text.length ≤ 9 && text.all digit && text.head?.any (fun c => c != '0')

def int (text : List Char) : Nat := Nat.ofDigitChars 10 text 0

/-- `str` of a code. -/
def codeText (code : Nat) : List Char := Nat.toDigits 10 code

def unsigned (text : List Char) : List Char := (afterPrefix ['-'] text).getD text

def wholeDigits (text : List Char) : List Char := (unsigned text).takeWhile digit

def afterWhole (text : List Char) : List Char := (unsigned text).dropWhile digit

/-- `^-?(?:0|[1-9][0-9]*)(?:\.[0-9]+)?$` -/
def decimalCoordinate (text : List Char) : Bool :=
  (wholeDigits text == ['0'] || (wholeDigits text).head?.any (fun c => c != '0')) &&
    (afterWhole text == [] ||
      ((afterWhole text).head? == some '.' && (afterWhole text).tail != [] &&
        (afterWhole text).tail.all digit))

/-- The number `mantissa / 10 ^ scale`. -/
structure Decimal where
  mantissa : Int
  scale : Nat
  deriving DecidableEq

def tenTo : Nat → Int
  | 0 => 1
  | scale + 1 => 10 * tenTo scale

def Decimal.atLeast (value : Decimal) (bound : Int) : Prop :=
  bound * tenTo value.scale ≤ value.mantissa

def Decimal.atMost (value : Decimal) (bound : Int) : Prop :=
  value.mantissa ≤ bound * tenTo value.scale

instance (value : Decimal) (bound : Int) : Decidable (value.atLeast bound) :=
  inferInstanceAs (Decidable (bound * tenTo value.scale ≤ value.mantissa))

instance (value : Decimal) (bound : Int) : Decidable (value.atMost bound) :=
  inferInstanceAs (Decidable (value.mantissa ≤ bound * tenTo value.scale))

/-- What a decimal literal denotes. -/
def Decimal.ofText (text : List Char) : Decimal :=
  let fraction := (afterWhole text).tail
  let magnitude : Int := int (wholeDigits text ++ fraction)
  ⟨if text.head? = some '-' then -magnitude else magnitude, fraction.length⟩

/-! ## The updater -/

/-- The columns of a row that the updater reads. -/
structure CsvRow where
  code : List Char
  name : List Char
  status : List Char
  fall : List Char
  year : List Char
  place : List Char
  classification : List Char
  latitude : List Char
  longitude : List Char

def CsvRow.ofColumns : List (List Char) → Option CsvRow
  | [code, name, _abbrev, status, fall, year, place, classification, _mass, _metBull,
      _antarctic, latitude, longitude, _comment] =>
    some ⟨code, name, status, fall, year, place, classification, latitude, longitude⟩
  | _ => none

/-- A row of the table `records`. -/
structure StoredRecord where
  code : Nat
  canonicalName : List Char
  recordStatus : List Char
  recommendedClassification : List Char
  fallOrFind : List Char
  yearFound : Option Nat
  country : Option (List Char)
  latitude : Option (List Char)
  longitude : Option (List Char)
  deriving DecidableEq

def allowedStatuses : List String :=
  ["Official", "Relict", "Provisional", "Pseudo", "Crater", "Doubtful", "Discredited",
   "Undocumented", "Artifact"]

def fallMarkers : List String := ["", "Y", "Yc", "Yp", "Np", "Nd"]

def fallValues : List String := ["Y", "Yc", "Yp"]

def countryNames : List String :=
  ["Afghanistan", "Algeria", "Angola", "Argentina", "Armenia", "Australia", "Austria",
   "Azerbaijan", "Bangladesh", "Belarus", "Belgium", "Bolivia", "Bosnia and Herzegovina",
   "Botswana", "Brazil", "Bulgaria", "Burkina Faso", "Cambodia", "Cameroon", "Canada",
   "Central African Republic", "Chad", "Chile", "China", "Colombia", "Costa Rica", "Croatia",
   "Cuba", "Czech Republic", "Denmark", "Ecuador", "Egypt", "Estonia", "Ethiopia", "Finland",
   "France", "Germany", "Ghana", "Greece", "Greenland", "Guatemala", "Honduras", "Hungary",
   "India", "Indonesia", "Iran", "Iraq", "Ireland", "Isle of Man", "Israel", "Italy", "Jamaica",
   "Japan", "Jordan", "Kazakhstan", "Kenya", "Laos", "Latvia", "Lebanon", "Lesotho", "Libya",
   "Lithuania", "Madagascar", "Malawi", "Mali", "Mauritania", "Mauritius", "Mexico", "Mongolia",
   "Morocco", "Namibia", "Netherlands", "New Zealand", "Nicaragua", "Niger", "Nigeria",
   "North Korea", "Norway", "Oman", "Pakistan", "Papua New Guinea", "Paraguay", "Peru",
   "Philippines", "Poland", "Portugal", "Qatar", "Romania", "Russia", "Rwanda", "Saudi Arabia",
   "Slovakia", "Slovenia", "Somalia", "South Africa", "South Korea", "South Sudan", "Spain",
   "Sri Lanka", "Sudan", "Sweden", "Switzerland", "Syria", "Tajikistan", "Tanzania", "Thailand",
   "Tunisia", "Turkey", "Turkmenistan", "Uganda", "Ukraine", "United Arab Emirates",
   "United Kingdom", "United States", "Uruguay", "Uzbekistan", "Venezuela", "Vietnam",
   "Western Sahara", "Yemen", "Zambia", "Zimbabwe"]

def countryAliases : List (String × String) :=
  [("Burma", "Myanmar"), ("Congo - Dem. Rep.", "Democratic Republic of the Congo"),
   ("Ivory Coast", "Cote d'Ivoire"), ("Swaziland", "Eswatini"), ("USA", "United States")]

def listed (names : List String) (text : List Char) : Bool :=
  names.any fun name => name.toList == text

def Updater.boundedText (value : List Char) (maximum rowNumber : Nat) (field : String) :
    Except String Unit :=
  if textWithin maximum value then .ok ()
  else .error s!"CSV row {rowNumber} has an invalid {field}"

def yearOrNone (value : List Char) : Option Nat :=
  if 1 ≤ value.length ∧ value.length ≤ 4 ∧ value.all digit then
    if 1 ≤ int value ∧ int value ≤ 9999 then some (int value) else none
  else none

/-- What follows the last `", "` of a text. -/
def lastPart : List Char → Option (List Char)
  | [] => none
  | c :: rest =>
    match lastPart rest with
    | some part => some part
    | none => if c = ',' then afterPrefix [' '] rest else none

def countryOrNone (place : List Char) : Option (List Char) :=
  let candidate := (lastPart place).getD place
  if listed countryNames candidate then some candidate
  else (countryAliases.find? fun entry => entry.1.toList == candidate).map fun entry =>
    entry.2.toList

def Updater.coordinate (value : List Char) (minimum maximum : Int) (rowNumber : Nat) :
    Except String (Option (List Char)) :=
  if 32 < value.length ∨ decimalCoordinate value = false then
    .error s!"CSV row {rowNumber} has invalid coordinates"
  else
    let parsed := Decimal.ofText value
    .ok (if parsed.atLeast minimum ∧ parsed.atMost maximum then some value else none)

def coordinatesOrNone (latitude longitude : List Char) (rowNumber : Nat) :
    Except String (Option (List Char × List Char)) :=
  if latitude = [] ∧ longitude = [] then .ok none
  else if latitude = [] ∨ longitude = [] then
    .error s!"CSV row {rowNumber} has incomplete coordinates"
  else do
    let parsedLatitude ← Updater.coordinate latitude (-90) 90 rowNumber
    let parsedLongitude ← Updater.coordinate longitude (-180) 180 rowNumber
    return match parsedLatitude, parsedLongitude with
      | some north, some east => some (north, east)
      | _, _ => none

def validatedRow (columns : List (List Char)) (rowNumber : Nat) : Except String StoredRecord :=
  match CsvRow.ofColumns columns with
  | none => .error s!"CSV row {rowNumber} does not contain 14 columns"
  | some row => do
    if canonicalCode row.code = false then
      throw s!"CSV row {rowNumber} has a noncanonical code"
    Updater.boundedText row.name 128 rowNumber "Name"
    Updater.boundedText row.classification 128 rowNumber "Type"
    if listed allowedStatuses row.status = false then
      throw s!"CSV row {rowNumber} has an unknown Status"
    if listed fallMarkers row.fall = false then
      throw s!"CSV row {rowNumber} has an unknown Fall marker"
    let coordinates ← coordinatesOrNone row.latitude row.longitude rowNumber
    return ⟨int row.code, row.name, row.status, row.classification,
      if listed fallValues row.fall then "Fall".toList else "Find".toList, yearOrNone row.year,
      countryOrNone row.place, coordinates.map Prod.fst, coordinates.map Prod.snd⟩

/-- The loop over the rows, with the codes seen. -/
def collectRows (rowNumber : Nat) (seenCodes : List Nat) :
    List (List (List Char)) → Except String (List StoredRecord)
  | [] => .ok []
  | row :: rest => do
    let record ← validatedRow row rowNumber
    if record.code ∈ seenCodes then
      throw s!"CSV row {rowNumber} repeats canonical code {record.code}"
    let records ← collectRows (rowNumber + 1) (record.code :: seenCodes) rest
    return record :: records

def expectedSentinel : StoredRecord :=
  ⟨87447, "Northwest Africa 18652".toList, "Relict".toList, "Relict iron".toList, "Find".toList,
    some 2018, some "Western Sahara".toList, none, none⟩

def expectedHeader : List String :=
  ["Code", "Name", "Abbrev", "Status", "Fall", "Year", "Place", "Type", "Mass", "MetBull",
   "Antarctic", "Lat", "Long", "Comment"]

/-- The records of a parsed table, in the order of their codes. -/
def validatedRows (minimumRowCount : Nat) (header : List (List Char))
    (rows : List (List (List Char))) : Except String (List StoredRecord) := do
  if header ≠ expectedHeader.map String.toList then
    throw "CSV header does not match the official 14-column schema"
  let records ← collectRows 2 [] rows
  if records.length < minimumRowCount then
    throw s!"CSV contains fewer than {minimumRowCount} records"
  if (records.find? fun record => record.code = 87447) ≠ some expectedSentinel then
    throw "CSV sentinel 87447 is missing or invalid"
  return records.mergeSort fun a b => a.code ≤ b.code

/-! ## The reader and the response -/

/-- `MetbullRecord` of the service. -/
structure MetbullRecord where
  code : Nat
  officialUrl : List Char
  canonicalName : List Char
  recordStatus : List Char
  officialName : Bool
  recommendedClassification : List Char
  fallOrFind : List Char
  yearFound : Option Nat
  country : Option (List Char)
  latitude : Option (List Char)
  longitude : Option (List Char)
  deriving DecidableEq

inductive LookupError where
  | invalidCode | notFound | notOfficial | recordInvalid
  deriving DecidableEq

def officialUrlBase : List Char := "https://www.lpi.usra.edu/meteor/metbull.cfm?code=".toList

def officialStatus (status : List Char) : Prop :=
  status = "Official".toList ∨ status = "Relict".toList

instance (status : List Char) : Decidable (officialStatus status) :=
  inferInstanceAs (Decidable (status = "Official".toList ∨ status = "Relict".toList))

def fallOrFindText (text : List Char) : Prop := text = "Fall".toList ∨ text = "Find".toList

instance (text : List Char) : Decidable (fallOrFindText text) :=
  inferInstanceAs (Decidable (text = "Fall".toList ∨ text = "Find".toList))

def Reader.boundedText (value : List Char) (maximum : Nat) : Except LookupError (List Char) :=
  if textWithin maximum value then .ok value else .error .recordInvalid

def validatedYear : Option Nat → Except LookupError (Option Nat)
  | none => .ok none
  | some value => if 1 ≤ value ∧ value ≤ 9999 then .ok (some value) else .error .recordInvalid

def validatedCountry : Option (List Char) → Except LookupError (Option (List Char))
  | none => .ok none
  | some value => (Reader.boundedText value 64).map some

def Reader.coordinate (value : List Char) (minimum maximum : Int) :
    Except LookupError (List Char) :=
  if 32 < value.length ∨ decimalCoordinate value = false then .error .recordInvalid
  else if (Decimal.ofText value).atLeast minimum ∧ (Decimal.ofText value).atMost maximum then
    .ok value
  else .error .recordInvalid

def validatedCoordinates : Option (List Char) → Option (List Char) →
    Except LookupError (Option (List Char) × Option (List Char))
  | none, none => .ok (none, none)
  | some latitude, some longitude => do
    let north ← Reader.coordinate latitude (-90) 90
    let east ← Reader.coordinate longitude (-180) 180
    return (some north, some east)
  | _, _ => .error .recordInvalid

def lookup (records : List StoredRecord) (code : Nat) : Except LookupError MetbullRecord :=
  if canonicalCode (codeText code) = false then .error .invalidCode
  else
    match records.find? fun record => record.code = code with
    | none => .error .notFound
    | some row =>
      if ¬ officialStatus row.recordStatus then .error .notOfficial
      else do
        let canonicalName ← Reader.boundedText row.canonicalName 128
        let recommendedClassification ← Reader.boundedText row.recommendedClassification 128
        if ¬ fallOrFindText row.fallOrFind then throw .recordInvalid
        let yearFound ← validatedYear row.yearFound
        let coordinates ← validatedCoordinates row.latitude row.longitude
        let country ← validatedCountry row.country
        return ⟨code, officialUrlBase ++ codeText code, canonicalName, row.recordStatus, true,
          recommendedClassification, row.fallOrFind, yearFound, country, coordinates.1,
          coordinates.2⟩

def lengthWithin (maximum : Nat) (value : List Char) : Bool :=
  1 ≤ value.length && value.length ≤ maximum

def responseCoordinate (value : List Char) : Bool :=
  value.length ≤ 32 && decimalCoordinate value

/-- `MetbullRecordResponse`: its fields and its validator. -/
def responseAccepts (record : MetbullRecord) : Bool :=
  (1 ≤ record.code && record.code ≤ 999999999) &&
    (afterPrefix officialUrlBase record.officialUrl).any canonicalCode &&
    lengthWithin 128 record.canonicalName && lengthWithin 64 record.recordStatus &&
    record.officialName && lengthWithin 128 record.recommendedClassification &&
    decide (fallOrFindText record.fallOrFind) &&
    record.yearFound.all (fun year => 1 ≤ year && year ≤ 9999) &&
    record.country.all (lengthWithin 128) && record.latitude.all responseCoordinate &&
    record.longitude.all responseCoordinate &&
    record.officialUrl == officialUrlBase ++ codeText record.code

inductive Json where
  | null
  | bool (value : Bool)
  | number (value : Int)
  | text (value : List Char)
  deriving DecidableEq

def Json.optional (value : Option (List Char)) : Json := value.elim .null .text

/-- The JSON object that the route emits. -/
def encode (record : MetbullRecord) : List (String × Json) :=
  [("code", .number record.code), ("official_url", .text record.officialUrl),
   ("canonical_name", .text record.canonicalName), ("record_status", .text record.recordStatus),
   ("official_name", .bool record.officialName),
   ("recommended_classification", .text record.recommendedClassification),
   ("fall_or_find", .text record.fallOrFind),
   ("year_found", record.yearFound.elim .null fun year => .number year),
   ("country", .optional record.country), ("latitude", .optional record.latitude),
   ("longitude", .optional record.longitude)]

inductive RouteError where
  | invalidRequest | recordNotFound | nameNotOfficial | lookupUnavailable
  deriving DecidableEq

def LookupError.route : LookupError → RouteError
  | .notFound => .recordNotFound
  | .notOfficial => .nameNotOfficial
  | .invalidCode | .recordInvalid => .lookupUnavailable

/-- `metbull_record`: the answer to a request for a code. -/
def metbullRecord (records : List StoredRecord) (code : List Char) :
    Except RouteError (List (String × Json)) :=
  if canonicalCode code = false then .error .invalidRequest
  else
    match lookup records (int code) with
    | .error error => .error error.route
    | .ok record =>
      if responseAccepts record then .ok (encode record) else .error .lookupUnavailable

/-! ## The browser -/

/-- `MetbullRecord` of the browser. -/
structure BrowserRecord where
  code : Nat
  officialUrl : List Char
  canonicalName : List Char
  recordStatus : List Char
  recommendedClassification : List Char
  fallOrFind : List Char
  yearFound : Option Int
  country : Option (List Char)
  latitude : Option (List Char)
  longitude : Option (List Char)
  deriving DecidableEq

def invalidData : String := "The Meteoritical Bulletin service returned invalid data."
def mismatchedData : String := "The Meteoritical Bulletin service returned mismatched data."
def invalidYear : String := "The Meteoritical Bulletin service returned an invalid year."
def invalidCoordinates : String :=
  "The Meteoritical Bulletin service returned invalid coordinates."

def hasExactKeys (value : List (String × Json)) (required : List String) : Bool :=
  required.all (fun key => (value.map Prod.fst).contains key) &&
    (value.map Prod.fst).all required.contains

def metbullKeys : List String :=
  ["code", "official_url", "canonical_name", "record_status", "official_name",
   "recommended_classification", "fall_or_find", "year_found", "country", "latitude",
   "longitude"]

/-- `/[\u0000-\u001f\u007f]/` -/
def controlCharacter (c : Char) : Bool := c.toNat ≤ 31 || c.toNat == 127

/-- What `parseMetbullText` accepts. -/
def browserText (maximum : Nat) (value : List Char) : Prop :=
  1 ≤ utf16Length value ∧ utf16Length value ≤ maximum ∧ strip scriptSpace value = value ∧
    value.any controlCharacter = false

instance (maximum : Nat) (value : List Char) : Decidable (browserText maximum value) :=
  inferInstanceAs (Decidable (1 ≤ utf16Length value ∧ utf16Length value ≤ maximum ∧
    strip scriptSpace value = value ∧ value.any controlCharacter = false))

def parseMetbullText (value : Option Json) (maximum : Nat) : Except String (List Char) :=
  match value with
  | some (.text text) => if browserText maximum text then .ok text else .error invalidData
  | _ => .error invalidData

def parseMetbullOptionalText (value : Option Json) (maximum : Nat) :
    Except String (Option (List Char)) :=
  if value = some .null then .ok none else (parseMetbullText value maximum).map some

/-- `number` is `Number` on a text: a finite double is a decimal fraction. -/
def parseMetbullCoordinate (number : List Char → Option Decimal) (value : Option Json)
    (maximum : Int) : Except String (Option (List Char)) := do
  match ← parseMetbullOptionalText value 32 with
  | none => return none
  | some coordinate =>
    if decimalCoordinate coordinate = false then throw invalidCoordinates
    match number coordinate with
    | none => throw invalidCoordinates
    | some numeric =>
      if numeric.atLeast (-maximum) ∧ numeric.atMost maximum then return some coordinate
      else throw invalidCoordinates

def safeInteger (value : Int) : Prop := -9007199254740991 ≤ value ∧ value ≤ 9007199254740991

instance (value : Int) : Decidable (safeInteger value) :=
  inferInstanceAs (Decidable (-9007199254740991 ≤ value ∧ value ≤ 9007199254740991))

/-- The fields that are compared, not parsed. -/
def matched (value : List (String × Json)) (expectedCode : List Char) : Prop :=
  safeInteger (int expectedCode) ∧ value.lookup "code" = some (.number (int expectedCode)) ∧
    value.lookup "official_name" = some (.bool true) ∧
    value.lookup "official_url" = some (.text (officialUrlBase ++ expectedCode)) ∧
    (value.lookup "fall_or_find" = some (.text "Fall".toList) ∨
      value.lookup "fall_or_find" = some (.text "Find".toList))

instance (value : List (String × Json)) (expectedCode : List Char) :
    Decidable (matched value expectedCode) :=
  instDecidableAnd

def parseYear (value : Option Json) : Except String (Option Int) :=
  match value with
  | some .null => .ok none
  | some (.number year) =>
    if safeInteger year ∧ 1 ≤ year ∧ year ≤ 9999 then .ok (some year) else .error invalidYear
  | _ => .error invalidYear

def textOf : Option Json → List Char
  | some (.text text) => text
  | _ => []

def parseMetbullRecord (number : List Char → Option Decimal) (value : List (String × Json))
    (expectedCode : List Char) : Except String BrowserRecord := do
  if hasExactKeys value metbullKeys = false then throw invalidData
  if ¬ matched value expectedCode then throw mismatchedData
  let yearFound ← parseYear (value.lookup "year_found")
  let canonicalName ← parseMetbullText (value.lookup "canonical_name") 128
  let recordStatus ← parseMetbullText (value.lookup "record_status") 64
  let recommendedClassification ←
    parseMetbullText (value.lookup "recommended_classification") 128
  let country ← parseMetbullOptionalText (value.lookup "country") 128
  let latitude ← parseMetbullCoordinate number (value.lookup "latitude") 90
  let longitude ← parseMetbullCoordinate number (value.lookup "longitude") 180
  return ⟨int expectedCode, textOf (value.lookup "official_url"), canonicalName, recordStatus,
    recommendedClassification, textOf (value.lookup "fall_or_find"), yearFound, country,
    latitude, longitude⟩

/-- A literal of the grammar is rounded to nearest, and no rounding crosses a whole number
that a double can hold. -/
def RoundsLiterals (number : List Char → Option Decimal) : Prop :=
  ∀ text, text.length ≤ 32 → decimalCoordinate text = true →
    ∃ numeric, number text = some numeric ∧ ∀ bound : Int, safeInteger bound →
      ((Decimal.ofText text).atLeast bound → numeric.atLeast bound) ∧
        ((Decimal.ofText text).atMost bound → numeric.atMost bound)

/-! ## Codes -/

theorem digitChar_of_digit {c : Char} (number : digit c = true) :
    Nat.digitChar (c.toNat - 48) = c := by
  simp only [digit, Bool.and_eq_true, decide_eq_true_eq] at number
  apply Char.toNat_inj.1
  rw [Nat.toNat_digitChar_of_lt_ten (by omega)]
  omega

theorem int_snoc (text : List Char) (c : Char) :
    int (text ++ [c]) = 10 * int text + (c.toNat - 48) := by
  rw [int, Nat.ofDigitChars_append, Nat.ofDigitChars_cons, Nat.ofDigitChars_nil]
  rfl

/-- A canonical code and its number determine each other. -/
theorem codeText_int {text : List Char} (digits : ∀ c ∈ text, digit c = true) (filled : text ≠ [])
    (head : text.head? ≠ some '0') : codeText (int text) = text ∧ 0 < int text := by
  induction text using List.reverseRecOn with
  | nil => exact absurd rfl filled
  | append_singleton front c ih =>
    have number := digits c (List.mem_append_right front List.mem_cons_self)
    have small : c.toNat - 48 < 10 := by
      simp only [digit, Bool.and_eq_true, decide_eq_true_eq] at number
      omega
    rw [int_snoc]
    by_cases empty : front = []
    · subst empty
      have positive : 0 < c.toNat - 48 := by
        simp only [digit, Bool.and_eq_true, decide_eq_true_eq] at number
        have other : c.toNat ≠ 48 := fun same => head (congrArg Option.some (Char.toNat_inj.1 same))
        omega
      refine ⟨?_, by omega⟩
      show codeText (10 * 0 + (c.toNat - 48)) = _
      rw [Nat.mul_zero, Nat.zero_add, codeText, Nat.toDigits_of_lt_base small,
        digitChar_of_digit number, List.nil_append]
    · obtain ⟨same, positive⟩ := ih (fun d member => digits d (List.mem_append_left _ member))
        empty (by rwa [List.head?_append_of_ne_nil _ empty] at head)
      refine ⟨?_, by omega⟩
      rw [codeText, ← Nat.toDigits_append_toDigits (by decide) positive small,
        Nat.toDigits_of_lt_base small, digitChar_of_digit number]
      exact congrArg (· ++ [c]) same

theorem canonicalCode_range {text : List Char} (canonical : canonicalCode text = true) :
    codeText (int text) = text ∧ 1 ≤ int text ∧ int text ≤ 999999999 := by
  simp only [canonicalCode, Bool.and_eq_true, decide_eq_true_eq, List.all_eq_true] at canonical
  obtain ⟨⟨short, digits⟩, head⟩ := canonical
  have shape : text ≠ [] ∧ text.head? ≠ some '0' := by
    cases text with
    | nil => exact absurd head (by decide)
    | cons c rest =>
      refine ⟨List.cons_ne_nil _ _, fun zero => ?_⟩
      cases zero
      exact Bool.noConfusion (show false = true from head)
  obtain ⟨same, positive⟩ := codeText_int digits shape.1 shape.2
  have bound : int text < 10 ^ 9 := by
    rw [← Nat.length_toDigits_le_iff (by decide) (by decide)]
    rw [codeText] at same
    rw [same]
    exact short
  exact ⟨same, positive, by omega⟩

/-! ## Decimal literals -/

theorem unsigned_text (text : List Char) : text = unsigned text ∨ text = '-' :: unsigned text := by
  unfold unsigned
  cases read : afterPrefix ['-'] text with
  | none => exact Or.inl rfl
  | some rest => exact Or.inr (afterPrefix_some read)

theorem decimal_chars {text : List Char} (decimal : decimalCoordinate text = true) :
    text ≠ [] ∧ ∀ c ∈ text, 45 ≤ c.toNat ∧ c.toNat ≤ 57 := by
  simp only [decimalCoordinate, Bool.and_eq_true, Bool.or_eq_true, beq_iff_eq] at decimal
  obtain ⟨whole, after⟩ := decimal
  have split : wholeDigits text ++ afterWhole text = unsigned text :=
    List.takeWhile_append_dropWhile
  have wholeSome : wholeDigits text ≠ [] := by
    intro empty
    rw [empty] at whole
    exact absurd whole (by decide)
  have ofDigit : ∀ c, digit c = true → 45 ≤ c.toNat ∧ c.toNat ≤ 57 := by
    intro c number
    simp only [digit, Bool.and_eq_true, decide_eq_true_eq] at number
    omega
  have body : ∀ c ∈ unsigned text, 45 ≤ c.toNat ∧ c.toNat ≤ 57 := by
    intro c member
    rw [← split] at member
    rcases List.mem_append.1 member with first | second
    · exact ofDigit c (List.all_eq_true.1 List.all_takeWhile c first)
    · rcases after with none | ⟨⟨dot, _⟩, digits⟩
      · rw [none] at second
        exact absurd second List.not_mem_nil
      · cases shape : afterWhole text with
        | nil =>
          rw [shape] at second
          exact absurd second List.not_mem_nil
        | cons d rest =>
          rw [shape] at second dot digits
          cases dot
          rcases List.mem_cons.1 second with rfl | later
          · decide
          · exact ofDigit c (List.all_eq_true.1 digits c later)
  have unsignedSome : unsigned text ≠ [] := by
    rw [← split]
    exact fun empty => wholeSome (List.append_eq_nil_iff.1 empty).1
  rcases unsigned_text text with same | signed
  · rw [same]
    exact ⟨unsignedSome, body⟩
  · rw [signed]
    refine ⟨List.cons_ne_nil _ _, fun c member => ?_⟩
    rcases List.mem_cons.1 member with rfl | later
    · decide
    · exact body c later

/-! ## What each side makes of a text -/

/-- What the browser asks of a text that the service has accepted. -/
def Presentable (value : List Char) : Prop :=
  strip scriptSpace value = value ∧ utf16Length value ≤ 128 ∧ ∀ c ∈ value, c.toNat ≠ 127

theorem length_le_utf16Length (text : List Char) : text.length ≤ utf16Length text := by
  induction text with
  | nil => exact Nat.le_refl 0
  | cons c rest ih =>
    rw [utf16Length, List.length_cons]
    split <;> omega

theorem browserText_iff {value : List Char} (accepted : textWithin 128 value = true) :
    browserText 128 value ↔ Presentable value := by
  simp only [textWithin, Bool.and_eq_true, decide_eq_true_eq, List.all_eq_true] at accepted
  obtain ⟨⟨filled, _⟩, printable⟩ := accepted
  have length := length_le_utf16Length value
  have control : value.any controlCharacter = false ↔ ∀ c ∈ value, c.toNat ≠ 127 := by
    rw [List.any_eq_false]
    constructor
    · intro none c member delete
      exact none c member (by simp [controlCharacter, delete])
    · intro none c member control
      have one := printable c member
      have other := none c member
      simp only [controlCharacter, Bool.or_eq_true, decide_eq_true_eq, beq_iff_eq] at control
      omega
  unfold browserText Presentable
  rw [control]
  constructor
  · rintro ⟨_, short, stripped, plain⟩
    exact ⟨stripped, short, plain⟩
  · rintro ⟨stripped, short, plain⟩
    exact ⟨by omega, short, stripped, plain⟩

theorem not_scriptSpace {c : Char} (range : 33 ≤ c.toNat ∧ c.toNat ≤ 126) :
    scriptSpace c = false := by
  have apart : ∀ n : Nat, 127 ≤ n → c.toNat ≠ n := fun n large => by omega
  simp only [scriptSpace, Bool.or_eq_false_iff, Bool.and_eq_false_iff, beq_eq_false_iff_ne,
    decide_eq_false_iff_not]
  omega

theorem browserText_plain {maximum : Nat} {value : List Char} (filled : value ≠ [])
    (short : value.length ≤ maximum) (plain : ∀ c ∈ value, 33 ≤ c.toNat ∧ c.toNat ≤ 126) :
    browserText maximum value := by
  have length := utf16Length_eq fun c member => (plain c member).2
  have positive := List.length_pos_iff.2 filled
  refine ⟨by omega, by omega, strip_eq fun c member => not_scriptSpace (plain c member), ?_⟩
  rw [List.any_eq_false]
  intro c member control
  have range := plain c member
  simp only [controlCharacter, Bool.or_eq_true, decide_eq_true_eq, beq_iff_eq] at control
  omega

/-- Every name that a place can become is a text for the reader and for the browser. -/
def countryFits (name : String) : Prop :=
  textWithin 64 name.toList = true ∧ browserText 128 name.toList

instance (name : String) : Decidable (countryFits name) :=
  instDecidableAnd

theorem countryNames_fit : countryNames.all (fun name => decide (countryFits name)) = true := by
  decide +kernel

theorem countryAliases_fit :
    countryAliases.all (fun entry => decide (countryFits entry.2)) = true := by
  decide

theorem countryOrNone_fits {place country : List Char} (read : countryOrNone place = some country) :
    ∃ name, country = name.toList ∧ countryFits name := by
  simp only [countryOrNone] at read
  split at read
  · next member =>
    cases read
    obtain ⟨name, known, same⟩ := List.any_eq_true.1 member
    exact ⟨name, (beq_iff_eq.1 same).symm,
      of_decide_eq_true (List.all_eq_true.1 countryNames_fit name known)⟩
  · cases found : countryAliases.find? fun entry =>
        entry.1.toList == (lastPart place).getD place with
    | none =>
      rw [found] at read
      cases read
    | some entry =>
      rw [found] at read
      cases read
      exact ⟨entry.2, rfl, of_decide_eq_true
        (List.all_eq_true.1 countryAliases_fit entry (List.mem_of_find?_eq_some found))⟩

/-! ## What the updater stores -/

/-- A coordinate that every stage reads. -/
def coordinateFits (bound : Int) (value : List Char) : Prop :=
  value.length ≤ 32 ∧ decimalCoordinate value = true ∧
    (Decimal.ofText value).atLeast (-bound) ∧ (Decimal.ofText value).atMost bound

/-- What the updater knows of a record when it stores it. -/
structure Valid (record : StoredRecord) : Prop where
  code : ∃ text, canonicalCode text = true ∧ record.code = int text
  canonicalName : textWithin 128 record.canonicalName = true
  recommendedClassification : textWithin 128 record.recommendedClassification = true
  fallOrFind : fallOrFindText record.fallOrFind
  yearFound : ∀ year ∈ record.yearFound, 1 ≤ year ∧ year ≤ 9999
  country : ∀ country ∈ record.country, ∃ name, country = name.toList ∧ countryFits name
  coordinates : (record.latitude = none ∧ record.longitude = none) ∨
    ∃ north east, record.latitude = some north ∧ record.longitude = some east ∧
      coordinateFits 90 north ∧ coordinateFits 180 east

theorem updater_boundedText {value : List Char} {maximum rowNumber : Nat} {field : String}
    {done : Unit} (ok : Updater.boundedText value maximum rowNumber field = .ok done) :
    textWithin maximum value = true := by
  unfold Updater.boundedText at ok
  split at ok
  · assumption
  · cases ok

theorem updater_coordinate {value kept : List Char} {bound : Int} {rowNumber : Nat}
    (ok : Updater.coordinate value (-bound) bound rowNumber = .ok (some kept)) :
    kept = value ∧ coordinateFits bound value := by
  unfold Updater.coordinate at ok
  split at ok
  · cases ok
  · next good =>
    rw [not_or, Nat.not_lt, Bool.not_eq_false] at good
    have inner := Except.ok.inj ok
    split at inner
    · next range =>
      cases inner
      exact ⟨rfl, good.1, good.2, range⟩
    · cases inner

theorem coordinatesOrNone_fits {latitude longitude : List Char} {rowNumber : Nat}
    {kept : Option (List Char × List Char)}
    (ok : coordinatesOrNone latitude longitude rowNumber = .ok kept) :
    ∀ pair ∈ kept, coordinateFits 90 pair.1 ∧ coordinateFits 180 pair.2 := by
  intro pair member
  cases member
  unfold coordinatesOrNone at ok
  split at ok
  · cases ok
  split at ok
  · cases ok
  obtain ⟨north, okNorth, ok⟩ := except_bind_ok ok
  obtain ⟨east, okEast, ok⟩ := except_bind_ok ok
  cases north with
  | none => cases ok
  | some north =>
    cases east with
    | none => cases ok
    | some east =>
      cases ok
      obtain ⟨rfl, first⟩ := updater_coordinate okNorth
      obtain ⟨rfl, second⟩ := updater_coordinate okEast
      exact ⟨first, second⟩

theorem yearOrNone_range {value : List Char} {year : Nat} (read : yearOrNone value = some year) :
    1 ≤ year ∧ year ≤ 9999 := by
  unfold yearOrNone at read
  split at read
  · split at read
    · next range =>
      cases read
      exact range
    · cases read
  · cases read

/-- An accepted row is a valid record. -/
theorem validatedRow_valid {columns : List (List Char)} {rowNumber : Nat} {record : StoredRecord}
    (ok : validatedRow columns rowNumber = .ok record) : Valid record := by
  unfold validatedRow at ok
  split at ok
  · cases ok
  · next row _ =>
    obtain ⟨canonical, ok⟩ := guard_ok ok
    obtain ⟨_, nameOk, ok⟩ := except_bind_ok ok
    obtain ⟨_, typeOk, ok⟩ := except_bind_ok ok
    obtain ⟨_, ok⟩ := guard_ok ok
    obtain ⟨_, ok⟩ := guard_ok ok
    obtain ⟨coordinates, read, ok⟩ := except_bind_ok ok
    cases ok
    refine ⟨⟨row.code, Bool.eq_true_of_not_eq_false canonical, rfl⟩, updater_boundedText nameOk,
      updater_boundedText typeOk, ?_, fun year found => yearOrNone_range found,
      fun country found => countryOrNone_fits found, ?_⟩
    · show fallOrFindText (if _ then _ else _)
      split
      · exact Or.inl rfl
      · exact Or.inr rfl
    · cases coordinates with
      | none => exact Or.inl ⟨rfl, rfl⟩
      | some pair =>
        obtain ⟨first, second⟩ := coordinatesOrNone_fits read pair rfl
        exact Or.inr ⟨pair.1, pair.2, rfl, rfl, first, second⟩

theorem collectRows_spec {rows : List (List (List Char))} {rowNumber : Nat} {seenCodes : List Nat}
    {records : List StoredRecord} (ok : collectRows rowNumber seenCodes rows = .ok records) :
    (∀ record ∈ records, Valid record ∧ record.code ∉ seenCodes) ∧
      (records.map StoredRecord.code).Nodup := by
  induction rows generalizing rowNumber seenCodes records with
  | nil =>
    cases ok
    exact ⟨fun record member => absurd member List.not_mem_nil, List.nodup_nil⟩
  | cons row rest ih =>
    obtain ⟨record, valid, ok⟩ := except_bind_ok ok
    obtain ⟨fresh, ok⟩ := guard_ok ok
    obtain ⟨others, collected, ok⟩ := except_bind_ok ok
    cases ok
    obtain ⟨each, distinct⟩ := ih collected
    constructor
    · intro one member
      rcases List.mem_cons.1 member with rfl | later
      · exact ⟨validatedRow_valid valid, fresh⟩
      · exact ⟨(each one later).1, fun seen => (each one later).2 (List.mem_cons_of_mem _ seen)⟩
    · rw [List.map_cons, List.nodup_cons]
      refine ⟨fun repeated => ?_, distinct⟩
      obtain ⟨one, later, same⟩ := List.mem_map.1 repeated
      exact (each one later).2 (same ▸ List.mem_cons_self)

/-- The stored records are valid, and no two share a code. -/
theorem validatedRows_spec {minimumRowCount : Nat} {header : List (List Char)}
    {rows : List (List (List Char))} {records : List StoredRecord}
    (ok : validatedRows minimumRowCount header rows = .ok records) :
    (∀ record ∈ records, Valid record) ∧ (records.map StoredRecord.code).Nodup := by
  unfold validatedRows at ok
  obtain ⟨_, ok⟩ := guard_ok ok
  obtain ⟨collected, read, ok⟩ := except_bind_ok ok
  obtain ⟨_, ok⟩ := guard_ok ok
  obtain ⟨_, ok⟩ := guard_ok ok
  cases ok
  obtain ⟨each, distinct⟩ := collectRows_spec read
  have same := List.mergeSort_perm collected fun a b => decide (a.code ≤ b.code)
  exact ⟨fun record member => (each record (same.mem_iff.1 member)).1,
    ((same.map StoredRecord.code).nodup_iff).2 distinct⟩

theorem find_code {records : List StoredRecord} {stored : StoredRecord}
    (distinct : (records.map StoredRecord.code).Nodup) (member : stored ∈ records) :
    (records.find? fun record => record.code = stored.code) = some stored :=
  UniqueColumns.find_of_mem distinct member

/-! ## The reader and the response model -/

/-- The record that a lookup owes for a stored one. -/
def StoredRecord.published (stored : StoredRecord) : MetbullRecord :=
  ⟨stored.code, officialUrlBase ++ codeText stored.code, stored.canonicalName,
    stored.recordStatus, true, stored.recommendedClassification, stored.fallOrFind,
    stored.yearFound, stored.country, stored.latitude, stored.longitude⟩

theorem reader_boundedText {value : List Char} {maximum : Nat}
    (fits : textWithin maximum value = true) : Reader.boundedText value maximum = .ok value :=
  if_pos fits

theorem validatedYear_ok {year : Option Nat} (range : ∀ y ∈ year, 1 ≤ y ∧ y ≤ 9999) :
    validatedYear year = .ok year := by
  cases year with
  | none => rfl
  | some value => exact if_pos (range value rfl)

theorem validatedCountry_ok {country : Option (List Char)}
    (fits : ∀ c ∈ country, textWithin 64 c = true) : validatedCountry country = .ok country := by
  cases country with
  | none => rfl
  | some value =>
    rw [validatedCountry, reader_boundedText (fits value rfl)]
    rfl

theorem reader_coordinate {value : List Char} {bound : Int} (fits : coordinateFits bound value) :
    Reader.coordinate value (-bound) bound = .ok value := by
  obtain ⟨short, decimal, range⟩ := fits
  rw [Reader.coordinate, if_neg, if_pos range]
  rw [decimal]
  rintro (long | wrong)
  · omega
  · cases wrong

theorem validatedCoordinates_ok {stored : StoredRecord} (valid : Valid stored) :
    validatedCoordinates stored.latitude stored.longitude =
      .ok (stored.latitude, stored.longitude) := by
  rcases valid.coordinates with ⟨north, east⟩ | ⟨north, east, atNorth, atEast, first, second⟩
  · rw [north, east]
    rfl
  · rw [atNorth, atEast, validatedCoordinates]
    have one : Reader.coordinate north (-90) 90 = .ok north := reader_coordinate first
    have two : Reader.coordinate east (-180) 180 = .ok east := reader_coordinate second
    rw [one, two]
    rfl

/-- A stored record is read back with its own values. -/
theorem lookup_stored {records : List StoredRecord} {stored : StoredRecord} (valid : Valid stored)
    (distinct : (records.map StoredRecord.code).Nodup) (member : stored ∈ records)
    (official : officialStatus stored.recordStatus) :
    lookup records stored.code = .ok stored.published := by
  obtain ⟨text, canonical, code⟩ := valid.code
  have codeOk : canonicalCode (codeText stored.code) = true := by
    rw [code, (canonicalCode_range canonical).1]
    exact canonical
  have countryOk : ∀ c ∈ stored.country, textWithin 64 c = true := by
    intro c found
    obtain ⟨name, rfl, fits⟩ := valid.country c found
    exact fits.1
  unfold lookup
  rw [codeOk, if_neg nofun, find_code distinct member]
  simp only [reader_boundedText valid.canonicalName,
    reader_boundedText valid.recommendedClassification, validatedYear_ok valid.yearFound,
    validatedCountry_ok countryOk, validatedCoordinates_ok valid]
  rw [if_neg (not_not.2 official)]
  simp only [bind, Except.bind, valid.fallOrFind, not_true_eq_false, if_false]
  rfl

theorem textWithin_length {maximum : Nat} {value : List Char}
    (fits : textWithin maximum value = true) : lengthWithin maximum value = true := by
  simp only [textWithin, Bool.and_eq_true] at fits
  simp only [lengthWithin, Bool.and_eq_true]
  exact fits.1

theorem afterPrefix_base (rest : List Char) :
    afterPrefix officialUrlBase (officialUrlBase ++ rest) = some rest :=
  afterPrefix_append officialUrlBase rest

theorem response_stored {stored : StoredRecord} (valid : Valid stored)
    (official : officialStatus stored.recordStatus) :
    responseAccepts stored.published = true := by
  obtain ⟨text, canonical, code⟩ := valid.code
  obtain ⟨same, low, high⟩ := canonicalCode_range canonical
  have status : lengthWithin 64 stored.recordStatus = true := by
    rcases official with first | second
    · rw [first]
      decide
    · rw [second]
      decide
  have country : stored.country.all (lengthWithin 128) = true := by
    cases found : stored.country with
    | none => rfl
    | some value =>
      obtain ⟨name, rfl, fits⟩ := valid.country value found
      have short := textWithin_length fits.1
      simp only [lengthWithin, Bool.and_eq_true, decide_eq_true_eq] at short
      simp only [Option.all_some, lengthWithin, Bool.and_eq_true, decide_eq_true_eq]
      omega
  have year : stored.yearFound.all (fun year => 1 ≤ year && year ≤ 9999) = true := by
    cases found : stored.yearFound with
    | none => rfl
    | some value =>
      have range := valid.yearFound value found
      simp only [Option.all_some, Bool.and_eq_true, decide_eq_true_eq]
      exact range
  have ofFits : ∀ {bound : Int} {value : List Char}, coordinateFits bound value →
      responseCoordinate value = true := by
    intro bound value fits
    rw [responseCoordinate, fits.2.1, Bool.and_true]
    exact decide_eq_true fits.1
  have coordinates : stored.latitude.all responseCoordinate = true ∧
      stored.longitude.all responseCoordinate = true := by
    rcases valid.coordinates with ⟨north, east⟩ | ⟨north, east, atNorth, atEast, first, second⟩
    · rw [north, east]
      exact ⟨rfl, rfl⟩
    · rw [atNorth, atEast]
      exact ⟨ofFits first, ofFits second⟩
  simp only [responseAccepts, StoredRecord.published, afterPrefix_base, Option.any_some, code, same,
    canonical, status, country, year, coordinates.1, coordinates.2, valid.fallOrFind,
    textWithin_length valid.canonicalName, textWithin_length valid.recommendedClassification, low,
    high, decide_true, Bool.and_true, beq_self_eq_true]

/-! ## The browser -/

theorem parse_text {text : List Char} {maximum : Nat} (fits : browserText maximum text) :
    parseMetbullText (some (.text text)) maximum = .ok text :=
  if_pos fits

theorem parse_text_refused {text : List Char} {maximum : Nat} (bad : ¬ browserText maximum text) :
    parseMetbullText (some (.text text)) maximum = .error invalidData :=
  if_neg bad

theorem parse_optional {value : Option (List Char)} {maximum : Nat}
    (fits : ∀ text ∈ value, browserText maximum text) :
    parseMetbullOptionalText (some (.optional value)) maximum = .ok value := by
  cases value with
  | none => rfl
  | some text =>
    have other : some (Json.text text) ≠ some .null := fun same => by cases same
    show (if some (Json.text text) = some .null then .ok none
      else (parseMetbullText (some (.text text)) maximum).map some) = _
    rw [if_neg other, parse_text (fits text rfl)]
    rfl

theorem parse_coordinate {number : List Char → Option Decimal} (rounds : RoundsLiterals number)
    {value : Option (List Char)} {bound : Int} (safe : safeInteger bound ∧ safeInteger (-bound))
    (fits : ∀ text ∈ value, coordinateFits bound text) :
    parseMetbullCoordinate number (some (.optional value)) bound = .ok value := by
  have texts : ∀ text ∈ value, browserText 32 text := by
    intro text found
    obtain ⟨short, decimal, _⟩ := fits text found
    obtain ⟨filled, chars⟩ := decimal_chars decimal
    exact browserText_plain filled short fun c member => by
      have range := chars c member
      omega
  unfold parseMetbullCoordinate
  rw [parse_optional texts]
  cases value with
  | none => rfl
  | some text =>
    obtain ⟨short, decimal, low, high⟩ := fits text rfl
    obtain ⟨numeric, read, keeps⟩ := rounds text short decimal
    have range : numeric.atLeast (-bound) ∧ numeric.atMost bound :=
      ⟨(keeps (-bound) safe.2).1 low, (keeps bound safe.1).2 high⟩
    simp only [bind, Except.bind, decimal, read, Bool.true_eq_false, if_false]
    exact if_pos range

/-- The record of the browser for a stored one. -/
def StoredRecord.shown (stored : StoredRecord) : BrowserRecord :=
  ⟨stored.code, officialUrlBase ++ codeText stored.code, stored.canonicalName,
    stored.recordStatus, stored.recommendedClassification, stored.fallOrFind,
    stored.yearFound.map Int.ofNat, stored.country, stored.latitude, stored.longitude⟩

theorem encode_keys (record : MetbullRecord) :
    hasExactKeys (encode record) metbullKeys = true := by
  have keys : (encode record).map Prod.fst = metbullKeys := rfl
  rw [hasExactKeys, keys]
  decide

/-- The browser finds every field of the record under its key. -/
theorem encode_fields (record : MetbullRecord) :
    (encode record).lookup "official_url" = some (.text record.officialUrl) ∧
      (encode record).lookup "canonical_name" = some (.text record.canonicalName) ∧
      (encode record).lookup "record_status" = some (.text record.recordStatus) ∧
      (encode record).lookup "recommended_classification" =
        some (.text record.recommendedClassification) ∧
      (encode record).lookup "fall_or_find" = some (.text record.fallOrFind) ∧
      (encode record).lookup "year_found" =
        some (record.yearFound.elim .null fun year => .number year) ∧
      (encode record).lookup "country" = some (.optional record.country) ∧
      (encode record).lookup "latitude" = some (.optional record.latitude) ∧
      (encode record).lookup "longitude" = some (.optional record.longitude) :=
  ⟨rfl, rfl, rfl, rfl, rfl, rfl, rfl, rfl, rfl⟩

theorem parse_year {year : Option Nat} (range : ∀ y ∈ year, 1 ≤ y ∧ y ≤ 9999) :
    parseYear (some (year.elim .null fun y => .number y)) = .ok (year.map Int.ofNat) := by
  cases year with
  | none => rfl
  | some value =>
    have small := range value rfl
    have safe : safeInteger (value : Int) ∧ 1 ≤ (value : Int) ∧ (value : Int) ≤ 9999 := by
      unfold safeInteger
      omega
    exact if_pos safe

theorem status_fits {status : List Char} (official : officialStatus status) :
    browserText 64 status := by
  rcases official with rfl | rfl
  · decide
  · decide

theorem matched_stored {stored : StoredRecord} (valid : Valid stored) {request : List Char}
    (canonical : canonicalCode request = true) (asked : int request = stored.code) :
    matched (encode stored.published) request := by
  obtain ⟨same, low, high⟩ := canonicalCode_range canonical
  refine ⟨?_, ?_, rfl, ?_, ?_⟩
  · unfold safeInteger
    omega
  · rw [asked]
    rfl
  · rw [← same, asked]
    rfl
  · rcases valid.fallOrFind with first | second
    · exact Or.inl (congrArg (fun text => some (Json.text text)) first)
    · exact Or.inr (congrArg (fun text => some (Json.text text)) second)

/-- The answer for a stored record is refused only for its name or its classification. -/
theorem parse_stored {number : List Char → Option Decimal} (rounds : RoundsLiterals number)
    {stored : StoredRecord} (valid : Valid stored) (official : officialStatus stored.recordStatus)
    {request : List Char} (canonical : canonicalCode request = true)
    (asked : int request = stored.code) :
    parseMetbullRecord number (encode stored.published) request =
      if browserText 128 stored.canonicalName ∧
          browserText 128 stored.recommendedClassification then .ok stored.shown
      else .error invalidData := by
  have compared := matched_stored valid canonical asked
  have year := parse_year valid.yearFound
  have country : parseMetbullOptionalText (some (.optional stored.country)) 128 =
      .ok stored.country := parse_optional fun text found => by
    obtain ⟨name, rfl, fits⟩ := valid.country text found
    exact fits.2
  have coordinates : parseMetbullCoordinate number (some (.optional stored.latitude)) 90 =
        .ok stored.latitude ∧
      parseMetbullCoordinate number (some (.optional stored.longitude)) 180 =
        .ok stored.longitude := by
    rcases valid.coordinates with ⟨north, east⟩ | ⟨north, east, atNorth, atEast, first, second⟩
    · rw [north, east]
      exact ⟨rfl, rfl⟩
    · rw [atNorth, atEast]
      exact ⟨parse_coordinate rounds (by decide) (by rintro _ ⟨⟩; exact first),
        parse_coordinate rounds (by decide) (by rintro _ ⟨⟩; exact second)⟩
  have status := parse_text (status_fits official)
  obtain ⟨urlField, nameField, statusField, typeField, fallField, yearField, countryField,
    latitudeField, longitudeField⟩ := encode_fields stored.published
  unfold parseMetbullRecord
  rw [encode_keys, if_neg nofun, if_neg (not_not.2 compared), urlField, nameField, statusField,
    typeField, fallField, yearField, countryField, latitudeField, longitudeField]
  simp only [StoredRecord.published, year, country, coordinates.1, coordinates.2, status, asked,
    bind, Except.bind]
  by_cases name : browserText 128 stored.canonicalName
  · rw [parse_text name]
    by_cases classification : browserText 128 stored.recommendedClassification
    · rw [parse_text classification, if_pos ⟨name, classification⟩]
      rfl
    · rw [parse_text_refused classification, if_neg fun both => classification both.2]
  · rw [parse_text_refused name, if_neg fun both => name both.1]

/-! ## The pipeline -/

/-- What the pipeline owes a stored record: a lookup returns its values, the response model
accepts them, and the browser accepts what the route emits for them. -/
def Agreement (number : List Char → Option Decimal) (records : List StoredRecord)
    (stored : StoredRecord) (request : List Char) : Prop :=
  lookup records stored.code = .ok stored.published ∧
    responseAccepts stored.published = true ∧
    ∃ answer parsed, metbullRecord records request = .ok answer ∧
      parseMetbullRecord number answer request = .ok parsed

theorem route_stored {records : List StoredRecord} {stored : StoredRecord} {request : List Char}
    (canonical : canonicalCode request = true) (asked : int request = stored.code)
    (found : lookup records stored.code = .ok stored.published)
    (accepts : responseAccepts stored.published = true) :
    metbullRecord records request = .ok (encode stored.published) := by
  rw [metbullRecord, canonical, if_neg nofun, asked, found]
  exact if_pos accepts

theorem agreement_iff {number : List Char → Option Decimal} (rounds : RoundsLiterals number)
    {records : List StoredRecord} {stored : StoredRecord} (valid : Valid stored)
    (distinct : (records.map StoredRecord.code).Nodup) (member : stored ∈ records)
    (official : officialStatus stored.recordStatus) {request : List Char}
    (canonical : canonicalCode request = true) (asked : int request = stored.code) :
    Agreement number records stored request ↔
      Presentable stored.canonicalName ∧ Presentable stored.recommendedClassification := by
  have found := lookup_stored valid distinct member official
  have accepts := response_stored valid official
  have answered := route_stored canonical asked found accepts
  have parsed := parse_stored rounds valid official canonical asked
  rw [← browserText_iff valid.canonicalName, ← browserText_iff valid.recommendedClassification]
  constructor
  · rintro ⟨_, _, answer, shown, route, read⟩
    rw [answered] at route
    cases route
    rw [parsed] at read
    by_contra refused
    rw [if_neg refused] at read
    cases read
  · intro texts
    rw [if_pos texts] at parsed
    exact ⟨found, accepts, encode stored.published, stored.shown, answered, parsed⟩

/-- Every stage keeps the values of an official record, and the pipeline carries it to the
browser exactly when its name and its classification have no blank at either end, no delete
character and at most 128 units of the browser. -/
theorem pipeline_agrees_iff {number : List Char → Option Decimal}
    (rounds : RoundsLiterals number) {minimumRowCount : Nat} {header : List (List Char)}
    {rows : List (List (List Char))} {records : List StoredRecord}
    (accepted : validatedRows minimumRowCount header rows = .ok records) {stored : StoredRecord}
    (member : stored ∈ records) (official : officialStatus stored.recordStatus)
    {request : List Char} (canonical : canonicalCode request = true)
    (asked : int request = stored.code) :
    Agreement number records stored request ↔
      Presentable stored.canonicalName ∧ Presentable stored.recommendedClassification := by
  obtain ⟨valid, distinct⟩ := validatedRows_spec accepted
  exact agreement_iff rounds (valid stored member) distinct member official canonical asked

/-- A reading of literals that rounds nothing. -/
def exactNumber (text : List Char) : Option Decimal := some (Decimal.ofText text)

theorem exactNumber_rounds : RoundsLiterals exactNumber :=
  fun text _ _ => ⟨Decimal.ofText text, rfl, fun _ _ => ⟨id, id⟩⟩

def sampleRow (name : String) : List (List Char) :=
  ["1", name, "", "Official", "Y", "1880", "North Rhine-Westphalia, Germany", "L5", "21 g", "",
   "", "50.75", "6.0625", ""].map String.toList

def sentinelRow : List (List Char) :=
  ["87447", "Northwest Africa 18652", "", "Relict", "", "2018", "Western Sahara", "Relict iron",
   "", "", "", "", "", ""].map String.toList

def sampleRecord (name : String) : StoredRecord :=
  ⟨1, name.toList, "Official".toList, "L5".toList, "Fall".toList, some 1880,
    some "Germany".toList, some "50.75".toList, some "6.0625".toList⟩

theorem sample_rows :
    collectRows 2 [] [sampleRow "Aachen", sentinelRow] =
        .ok [sampleRecord "Aachen", expectedSentinel] ∧
      collectRows 2 [] [sampleRow "Aachen ", sentinelRow] =
        .ok [sampleRecord "Aachen ", expectedSentinel] := by
  decide

theorem validatedRows_sorted {rows : List (List (List Char))} {records : List StoredRecord}
    (collected : collectRows 2 [] rows = .ok records)
    (sentinel : (records.find? fun record => record.code = 87447) = some expectedSentinel)
    (sorted : records.Pairwise fun a b => decide (a.code ≤ b.code) = true) :
    validatedRows records.length (expectedHeader.map String.toList) rows = .ok records := by
  unfold validatedRows
  simp only [ne_eq, not_true_eq_false, if_false, collected, bind, Except.bind, sentinel,
    lt_self_iff_false, List.mergeSort_of_pairwise sorted]
  rfl

theorem sample_accepted (name : String)
    (collected : collectRows 2 [] [sampleRow name, sentinelRow] =
      .ok [sampleRecord name, expectedSentinel]) :
    validatedRows 2 (expectedHeader.map String.toList) [sampleRow name, sentinelRow] =
      .ok [sampleRecord name, expectedSentinel] :=
  validatedRows_sorted collected rfl (by
    refine List.Pairwise.cons (fun other member => ?_) (List.pairwise_singleton _ _)
    rcases List.mem_singleton.1 member with rfl
    exact decide_eq_true (by decide : 1 ≤ 87447))

theorem sample_agrees :
    Agreement exactNumber [sampleRecord "Aachen", expectedSentinel] (sampleRecord "Aachen")
      ['1'] :=
  (pipeline_agrees_iff exactNumber_rounds (sample_accepted "Aachen" sample_rows.1)
    List.mem_cons_self (Or.inl rfl) (by decide) (by decide)).2
    ⟨⟨by decide, by decide, all_decided (by decide)⟩,
      by decide, by decide, all_decided (by decide)⟩

/-- A name with a blank at its end is stored, found and emitted, and the browser refuses it. -/
theorem trailing_blank_is_refused :
    validatedRows 2 (expectedHeader.map String.toList) [sampleRow "Aachen ", sentinelRow] =
        .ok [sampleRecord "Aachen ", expectedSentinel] ∧
      officialStatus (sampleRecord "Aachen ").recordStatus ∧
      canonicalCode ['1'] = true ∧ int ['1'] = (sampleRecord "Aachen ").code ∧
      metbullRecord [sampleRecord "Aachen ", expectedSentinel] ['1'] =
        .ok (encode (sampleRecord "Aachen ").published) ∧
      ¬ Agreement exactNumber [sampleRecord "Aachen ", expectedSentinel] (sampleRecord "Aachen ")
        ['1'] := by
  have accepted := sample_accepted "Aachen " sample_rows.2
  obtain ⟨valid, distinct⟩ := validatedRows_spec accepted
  have member : sampleRecord "Aachen " ∈ [sampleRecord "Aachen ", expectedSentinel] :=
    List.mem_cons_self
  have official : officialStatus (sampleRecord "Aachen ").recordStatus := Or.inl rfl
  have canonical : canonicalCode ['1'] = true := by decide
  have asked : int ['1'] = (sampleRecord "Aachen ").code := by decide
  refine ⟨accepted, official, canonical, asked,
    route_stored canonical asked (lookup_stored (valid _ member) distinct member official)
      (response_stored (valid _ member) official), fun agrees => ?_⟩
  have presentable := (agreement_iff exactNumber_rounds (valid _ member) distinct member official
    canonical asked).1 agrees
  exact absurd presentable.1.1 (by decide)

end MetbullPipeline
