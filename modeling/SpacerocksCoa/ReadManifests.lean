import SpacerocksCoa.Utf16Texts

/-!
# A manifest read back

The builder prints the manifest as a text of UTF-16 units and encodes it; the verifier decodes
the bytes and parses the characters. The encoder replaces a surrogate that stands alone, but the
printed text has none: a string with one is written with an escape. So what the verifier parses
is the value that was printed, with its properties in another order.
-/
namespace ReadManifests
open JsonText (Text Same Distinct NumberFormat isNumeric hexDigit hex4 escapeChar units substitute
  substituteItems substituteFields substituteItems_map substituteFields_map substitute_same
  everywhere_substitute)
open ManifestJson (quoteUnit quoteUnits pretty stableStringify jsonParse)
open CodeUnits (isHigh isLow unitChar chars)
open PackageVerifier (Json)
open Utf16Texts

/-! ## Printed texts -/

theorem hexDigit_small (n : Nat) (small : n < 16) : hexDigit n < 128 := by
  unfold hexDigit
  split <;> omega

theorem hex4_small {c : Nat} (surrogate : c < 65536) : ∀ d ∈ hex4 c, d < 0xd800 := by
  intro d member
  simp only [hex4, List.mem_cons, List.not_mem_nil, or_false] at member
  rcases member with rfl | rfl | rfl | rfl
  · have := hexDigit_small (c / 4096) (by omega)
    omega
  · have := hexDigit_small (c / 256 % 16) (by omega)
    omega
  · have := hexDigit_small (c / 16 % 16) (by omega)
    omega
  · have := hexDigit_small (c % 16) (by omega)
    omega

theorem escapeChar_wellFormed {c : Nat} (plain : (isHigh c || isLow c) = false) :
    WellFormed (escapeChar c) := by
  by_cases small : c < 0xd800
  · apply wellFormed_small
    intro d member
    unfold escapeChar at member
    split_ifs at member with _ _ _ _ _ _ _ control
    all_goals simp only [List.mem_cons, List.not_mem_nil, or_false] at member
    · omega
    · omega
    · omega
    · omega
    · omega
    · omega
    · omega
    · rcases member with rfl | rfl | digit
      · omega
      · omega
      · exact hex4_small (by omega) d digit
    · omega
  · have kept : escapeChar c = [c] := by
      unfold escapeChar
      rw [if_neg (by omega), if_neg (by omega), if_neg (by omega), if_neg (by omega),
        if_neg (by omega), if_neg (by omega), if_neg (by omega), if_neg (by omega)]
    rw [kept]
    exact .unit plain .nil

theorem quoteUnit_wellFormed (c : Nat) : WellFormed (quoteUnit c) := by
  unfold quoteUnit
  split
  next surrogate =>
    simp only [isHigh, isLow, Bool.or_eq_true, Bool.and_eq_true, decide_eq_true_eq] at surrogate
    apply wellFormed_small
    intro d member
    rcases List.mem_cons.1 member with rfl | rest
    · omega
    · rcases List.mem_cons.1 rest with rfl | digit
      · omega
      · exact hex4_small (by omega) d digit
  next plain => exact escapeChar_wellFormed (Bool.eq_false_iff.2 plain)

theorem quoteUnits_wellFormed (s : Text) : WellFormed (quoteUnits s) := by
  fun_induction quoteUnits s with
  | case1 => exact .nil
  | case2 c => exact quoteUnit_wellFormed c
  | case3 c d rest both ih =>
    rw [Bool.and_eq_true] at both
    exact .pair both.1 both.2 ih
  | case4 c d rest single ih => exact wellFormed_append (quoteUnit_wellFormed c) ih

variable {N : Type} (numbers : NumberFormat N)

theorem indent_wellFormed (level : Nat) : WellFormed (ManifestJson.indent level) := by
  apply wellFormed_small
  intro c member
  rcases List.mem_cons.1 member with rfl | blank
  · omega
  · rw [List.eq_of_mem_replicate blank]
    omega

theorem quoted_wellFormed (s : Text) : WellFormed ((pretty numbers).quoted s) := by
  refine .unit rfl (wellFormed_append (quoteUnits_wellFormed s) ?_)
  exact .unit rfl .nil

theorem blank_wellFormed : WellFormed (pretty numbers).afterColon := .unit rfl .nil

theorem write_wellFormed (n : N) : WellFormed (numbers.write n) := by
  apply wellFormed_small
  intro c member
  have numeric := numbers.numeric n c member
  simp only [isNumeric, Bool.or_eq_true, Bool.and_eq_true, decide_eq_true_eq, beq_iff_eq] at numeric
  omega

mutual

theorem print_wellFormed (v : JsonText.Json N) (level : Nat) :
    WellFormed (JsonText.print (pretty numbers) level v) := by
  match v with
  | .null =>
    rw [JsonText.print]
    exact wellFormed_small (by decide)
  | .bool true =>
    rw [JsonText.print]
    exact wellFormed_small (by decide)
  | .bool false =>
    rw [JsonText.print]
    exact wellFormed_small (by decide)
  | .number n => exact write_wellFormed numbers n
  | .text s => exact quoted_wellFormed numbers s
  | .array [] =>
    rw [JsonText.print]
    exact wellFormed_small (by decide)
  | .array (item :: items) =>
    rw [JsonText.print]
    refine .unit rfl (wellFormed_append (indent_wellFormed _) ?_)
    refine wellFormed_append (print_wellFormed item _) ?_
    refine wellFormed_append (printItems_wellFormed items _) ?_
    exact wellFormed_append (indent_wellFormed _) (.unit rfl .nil)
  | .object [] =>
    rw [JsonText.print]
    exact wellFormed_small (by decide)
  | .object ((key, item) :: fields) =>
    rw [JsonText.print]
    refine .unit rfl (wellFormed_append (indent_wellFormed _) ?_)
    refine wellFormed_append (quoted_wellFormed numbers key) (.unit rfl ?_)
    refine wellFormed_append (blank_wellFormed numbers) ?_
    refine wellFormed_append (print_wellFormed item _) ?_
    refine wellFormed_append (printFields_wellFormed fields _) ?_
    exact wellFormed_append (indent_wellFormed _) (.unit rfl .nil)

theorem printItems_wellFormed (items : List (JsonText.Json N)) (level : Nat) :
    WellFormed (JsonText.printItems (pretty numbers) level items) := by
  match items with
  | [] => exact .nil
  | item :: items =>
    rw [JsonText.printItems]
    refine .unit rfl (wellFormed_append (indent_wellFormed _) ?_)
    exact wellFormed_append (print_wellFormed item _) (printItems_wellFormed items _)

theorem printFields_wellFormed (fields : List (Text × JsonText.Json N)) (level : Nat) :
    WellFormed (JsonText.printFields (pretty numbers) level fields) := by
  match fields with
  | [] => exact .nil
  | (key, item) :: fields =>
    rw [JsonText.printFields]
    refine .unit rfl (wellFormed_append (indent_wellFormed _) ?_)
    refine wellFormed_append (quoted_wellFormed numbers key) (.unit rfl ?_)
    refine wellFormed_append (blank_wellFormed numbers) ?_
    exact wellFormed_append (print_wellFormed item _) (printFields_wellFormed fields _)

end

theorem stableStringify_wellFormed (v : JsonText.Json N) :
    WellFormed (stableStringify numbers v) :=
  wellFormed_append (print_wellFormed numbers _ 0) (.unit rfl .nil)

/-! ## Properties -/

def findField (fields : List (Text × JsonText.Json N)) (key : Text) :
    Option (JsonText.Json N) :=
  (fields.find? fun field => decide (field.1 = key)).map Prod.snd

theorem findField_cons (name key : Text) (v : JsonText.Json N)
    (fields : List (Text × JsonText.Json N)) :
    findField ((name, v) :: fields) key = if name = key then some v else findField fields key := by
  unfold findField
  by_cases here : name = key
  · rw [List.find?_cons_of_pos (by simpa using here), if_pos here]
    rfl
  · rw [List.find?_cons_of_neg (by simpa using here), if_neg here]

theorem findField_append (before after : List (Text × JsonText.Json N)) (key : Text) :
    findField (before ++ after) key = (findField before key).or (findField after key) := by
  unfold findField
  rw [List.find?_append]
  cases before.find? fun field => decide (field.1 = key) with
  | none => rfl
  | some field => rfl

theorem findField_some_iff {fields : List (Text × JsonText.Json N)}
    (distinct : (JsonText.keys fields).Nodup) (key : Text) (v : JsonText.Json N) :
    findField fields key = some v ↔ (key, v) ∈ fields := by
  induction fields with
  | nil => simp [findField]
  | cons field fields ih =>
    obtain ⟨name, value⟩ := field
    rw [JsonText.keys, List.map_cons, List.nodup_cons] at distinct
    rw [findField_cons, List.mem_cons]
    by_cases here : name = key
    · subst here
      have other : (name, v) ∉ fields := by
        intro member
        exact distinct.1 (List.mem_map.2 ⟨_, member, rfl⟩)
      simp [other, eq_comm]
    · have differs : (key, v) ≠ (name, value) := by
        intro same
        exact here (congrArg Prod.fst same).symm
      rw [if_neg here, ih distinct.2]
      simp [differs]

theorem findField_perm {fields reordered : List (Text × JsonText.Json N)}
    (distinct : (JsonText.keys fields).Nodup) (perm : fields.Perm reordered) (key : Text) :
    findField fields key = findField reordered key := by
  have others : (JsonText.keys reordered).Nodup := (perm.map Prod.fst).nodup_iff.1 distinct
  apply Option.ext
  intro v
  rw [findField_some_iff distinct, findField_some_iff others, perm.mem_iff]

/-- What stays of a value when properties are reordered in it. -/
inductive SameShape : JsonText.Json N → JsonText.Json N → Prop where
  | leaf (v : JsonText.Json N) : SameShape v v
  | array {items others : List (JsonText.Json N)} (same : List.Forall₂ Same items others) :
      SameShape (.array items) (.array others)
  | object {fields others : List (Text × JsonText.Json N)}
      (same : ∀ key, Option.Rel Same (findField fields key) (findField others key)) :
      SameShape (.object fields) (.object others)

theorem rel_refl (v : Option (JsonText.Json N)) : Option.Rel Same v v := by
  cases v with
  | none => exact .none
  | some v => exact .some (.refl v)

theorem rel_trans {u v w : Option (JsonText.Json N)} (first : Option.Rel Same u v)
    (second : Option.Rel Same v w) : Option.Rel Same u w := by
  cases first with
  | none => exact second
  | some same =>
    cases second with
    | some next => exact .some (same.trans next)

theorem forall₂_refl (items : List (JsonText.Json N)) : List.Forall₂ Same items items :=
  List.forall₂_same.2 fun v _ => .refl v

theorem forall₂_trans {first second third : List (JsonText.Json N)}
    (one : List.Forall₂ Same first second) (two : List.Forall₂ Same second third) :
    List.Forall₂ Same first third := by
  induction one generalizing third with
  | nil => exact two
  | cons same _ ih =>
    cases two with
    | cons next others => exact .cons (same.trans next) (ih others)

theorem SameShape.trans {u v w : JsonText.Json N} (first : SameShape u v)
    (second : SameShape v w) : SameShape u w := by
  cases first with
  | leaf => exact second
  | array same =>
    cases second with
    | leaf => exact .array same
    | array next => exact .array (forall₂_trans same next)
  | object same =>
    cases second with
    | leaf => exact .object same
    | object next => exact .object fun key => rel_trans (same key) (next key)

theorem sameShape_of_same {v w : JsonText.Json N} (same : Same v w) (distinct : Distinct v) :
    SameShape v w := by
  induction same with
  | refl v => exact .leaf v
  | trans one _ first second =>
    exact (first distinct).trans (second (JsonText.distinct_same one distinct))
  | item before after same _ =>
    exact .array (List.rel_append (forall₂_refl before) (.cons same (forall₂_refl after)))
  | field before after key same _ =>
    apply SameShape.object
    intro name
    rw [findField_append, findField_append, findField_cons, findField_cons]
    cases findField before name with
    | some v => exact rel_refl _
    | none =>
      by_cases here : key = name
      · rw [if_pos here, if_pos here]
        exact .some same
      · rw [if_neg here, if_neg here]
        exact rel_refl _
  | order perm =>
    rw [Distinct, JsonText.Everywhere] at distinct
    apply SameShape.object
    intro key
    rw [findField_perm distinct.1 perm]
    exact rel_refl _

/-! ## What the verifier sees -/

mutual

/-- The verifier's view of a value, given what it sees of a number. -/
def reading (number : N → Json) : JsonText.Json N → Json
  | .null => .null
  | .bool value => .bool value
  | .number n => number n
  | .text s => .text (chars s)
  | .array items => .array (readingItems number items)
  | .object fields => .object (readingFields number fields)

def readingItems (number : N → Json) : List (JsonText.Json N) → List Json
  | [] => []
  | item :: items => reading number item :: readingItems number items

def readingFields (number : N → Json) : List (Text × JsonText.Json N) → List (String × Json)
  | [] => []
  | (key, item) :: fields =>
    (String.ofList (chars key), reading number item) :: readingFields number fields

end

/-- `JSON.parse` of decoded characters; `double` is the value of a number. -/
def parseJson (double : N → Rat) (text : List Char) : Option Json :=
  (jsonParse numbers (utf16 text)).map (reading fun n => .number (double n))

variable (number : N → Json)

/-- A key is read as this one only when it is this one. -/
theorem key_iff {s : String} (plain : Plain s) (key : Text) :
    String.ofList (chars key) = s ↔ key = units s := by
  constructor
  · intro same
    have text : chars key = s.toList := by
      rw [← same, String.toList_ofList]
    have own := units_of_small (s := key) (by rw [text]; exact plain)
    rw [own, text, JsonText.units_ascii plain]
  · rintro rfl
    rw [chars_units plain, String.ofList_toList]

theorem lookup_reading {s : String} (plain : Plain s)
    (fields : List (Text × JsonText.Json N)) :
    (readingFields number fields).lookup s =
      (findField fields (units s)).map (reading number) := by
  induction fields with
  | nil => rfl
  | cons field fields ih =>
    obtain ⟨name, v⟩ := field
    rw [readingFields, List.lookup_cons, findField_cons, ih]
    by_cases here : name = units s
    · have same : (s == String.ofList (chars name)) = true := by
        rw [beq_iff_eq]
        exact ((key_iff plain name).2 here).symm
      rw [same, if_pos here]
      rfl
    · have differs : (s == String.ofList (chars name)) = false := by
        rw [beq_eq_false_iff_ne]
        exact fun same => here ((key_iff plain name).1 same.symm)
      rw [differs, if_neg here]

theorem readingItems_map (items : List (JsonText.Json N)) :
    readingItems number items = items.map (reading number) := by
  induction items with
  | nil => rfl
  | cons item items ih => rw [readingItems, ih, List.map_cons]

/-! ## A printed value -/

/-- A property that is written down, when it is not undefined. -/
def present (field : String × Option (JsonText.Json N)) : Option (Text × JsonText.Json N) :=
  field.2.map fun v => (units field.1, v)

def record (fields : List (String × Option (JsonText.Json N))) : JsonText.Json N :=
  .object (fields.filterMap present)

theorem findField_present (name key : String) (value : Option (JsonText.Json N))
    (fields : List (String × Option (JsonText.Json N))) :
    findField (((name, value) :: fields).filterMap present) (units key) =
      if name = key then value.or (findField (fields.filterMap present) (units key))
      else findField (fields.filterMap present) (units key) := by
  cases value with
  | none =>
    have absent : present (name, (none : Option (JsonText.Json N))) = none := rfl
    rw [List.filterMap_cons_none absent]
    split <;> rfl
  | some v =>
    have written : present (name, some v) = some (units name, v) := rfl
    rw [List.filterMap_cons_some written, findField_cons]
    by_cases here : name = key
    · rw [if_pos (congrArg units here), if_pos here]
      rfl
    · rw [if_neg fun same => here (JsonText.units_injective same), if_neg here]

theorem findField_absent (fields : List (String × Option (JsonText.Json N))) (key : String)
    (absent : key ∉ fields.map Prod.fst) :
    findField (fields.filterMap present) (units key) = none := by
  induction fields with
  | nil => rfl
  | cons field fields ih =>
    rw [List.map_cons, List.mem_cons, not_or] at absent
    rw [findField_present, if_neg fun same => absent.1 same.symm, ih absent.2]

theorem findField_record {fields : List (String × Option (JsonText.Json N))} {key : String}
    {value : Option (JsonText.Json N)} (names : (fields.map Prod.fst).Nodup)
    (member : (key, value) ∈ fields) :
    findField (fields.filterMap present) (units key) = value := by
  induction fields with
  | nil => cases member
  | cons field fields ih =>
    rw [List.map_cons, List.nodup_cons] at names
    rcases List.mem_cons.1 member with rfl | later
    · rw [findField_present, if_pos rfl, findField_absent fields key names.1, Option.or_none]
    · have other : field.1 ≠ key := by
        rintro rfl
        exact names.1 (List.mem_map.2 ⟨_, later, rfl⟩)
      rw [findField_present, if_neg other, ih names.2 later]

/-- What the verifier sees is the value, with its properties in some order. -/
def Shows (json : Json) (v : JsonText.Json N) : Prop :=
  ∃ parsed, json = reading number parsed ∧ Same parsed v ∧ Distinct parsed

variable {number}

theorem shows_text {json : Json} {s : Text}
    (shows : Shows number json (.text s : JsonText.Json N)) : json = .text (chars s) := by
  obtain ⟨parsed, rfl, same, distinct⟩ := shows
  cases sameShape_of_same same distinct with
  | leaf => rfl

theorem shows_null {json : Json}
    (shows : Shows number json (.null : JsonText.Json N)) : json = .null := by
  obtain ⟨parsed, rfl, same, distinct⟩ := shows
  cases sameShape_of_same same distinct with
  | leaf => rfl

theorem shows_number {json : Json} {n : N} (shows : Shows number json (.number n)) :
    json = number n := by
  obtain ⟨parsed, rfl, same, distinct⟩ := shows
  cases sameShape_of_same same distinct with
  | leaf => rfl

theorem distinct_items {items : List (JsonText.Json N)}
    (distinct : Distinct (.array items)) : ∀ item ∈ items, Distinct item := by
  rw [Distinct, JsonText.Everywhere, JsonText.everywhereItems_iff] at distinct
  exact distinct

theorem distinct_fields {fields : List (Text × JsonText.Json N)}
    (distinct : Distinct (.object fields)) : ∀ field ∈ fields, Distinct field.2 := by
  rw [Distinct, JsonText.Everywhere, JsonText.everywhereFields_iff] at distinct
  exact distinct.2

theorem shows_items {parsed items : List (JsonText.Json N)}
    (pairs : List.Forall₂ Same parsed items) (distinct : ∀ item ∈ parsed, Distinct item) :
    List.Forall₂ (Shows number) (parsed.map (reading number)) items := by
  induction pairs with
  | nil => exact .nil
  | cons one _ ih =>
    constructor
    · exact ⟨_, rfl, one, distinct _ List.mem_cons_self⟩
    · exact ih fun item member => distinct item (List.mem_cons_of_mem _ member)

theorem shows_array {json : Json} {items : List (JsonText.Json N)}
    (shows : Shows number json (.array items)) :
    ∃ seen, json = .array seen ∧ List.Forall₂ (Shows number) seen items := by
  obtain ⟨parsed, rfl, same, distinct⟩ := shows
  cases sameShape_of_same same distinct with
  | leaf =>
    refine ⟨_, by rw [reading, readingItems_map], ?_⟩
    exact shows_items (forall₂_refl items) (distinct_items distinct)
  | array pairs =>
    refine ⟨_, by rw [reading, readingItems_map], ?_⟩
    exact shows_items pairs (distinct_items distinct)

theorem findField_distinct {fields : List (Text × JsonText.Json N)} {key : Text}
    {v : JsonText.Json N} (distinct : Distinct (.object fields))
    (found : findField fields key = some v) : Distinct v := by
  obtain ⟨field, here, rfl⟩ := Option.map_eq_some_iff.1 found
  exact distinct_fields distinct field (List.mem_of_find?_eq_some here)

theorem shows_found {fields others : List (Text × JsonText.Json N)} {key : Text}
    (distinct : Distinct (.object fields))
    (same : Option.Rel Same (findField fields key) (findField others key)) :
    Option.Rel (Shows number) ((findField fields key).map (reading number))
      (findField others key) := by
  cases found : findField fields key with
  | none =>
    rw [found] at same
    cases other : findField others key with
    | none => exact .none
    | some w =>
      rw [other] at same
      cases same
  | some v =>
    rw [found] at same
    cases other : findField others key with
    | none =>
      rw [other] at same
      cases same
    | some w =>
      rw [other] at same
      cases same with
      | some one => exact .some ⟨v, rfl, one, findField_distinct distinct found⟩

theorem shows_object {json : Json} {others : List (Text × JsonText.Json N)}
    (shows : Shows number json (.object others)) {key : String} (plain : Plain key) :
    Option.Rel (Shows number) (json.get key) (findField others (units key)) := by
  obtain ⟨parsed, rfl, same, distinct⟩ := shows
  have shape := sameShape_of_same same distinct
  cases parsed with
  | object fields =>
    have found : (reading number (.object fields)).get key =
        (findField fields (units key)).map (reading number) := by
      rw [reading, Json.get, lookup_reading number plain]
    rw [found]
    apply shows_found distinct
    cases shape with
    | leaf => exact rel_refl _
    | object same => exact same (units key)
  | _ => cases shape

/-- A property of a record, at its place among those that the source writes down. -/
theorem shows_record {json : Json} {fields : List (String × Option (JsonText.Json N))}
    (shows : Shows number json (record fields)) (names : (fields.map Prod.fst).Nodup)
    {key : String} {value : Option (JsonText.Json N)} (plain : Plain key) (place : Nat)
    (here : fields[place]? = some (key, value)) :
    Option.Rel (Shows number) (json.get key) value := by
  have found := shows_object shows plain
  rwa [findField_record names (List.mem_of_getElem? here)] at found

/-- Two readings of one value, by the order of the properties. -/
def Reordered (number : N → Json) (a b : Json) : Prop :=
  ∃ w, b = reading number w ∧ Shows number a w

theorem reordered_get (scalar : ∀ n key, (number n).get key = none) {a b : Json}
    (reordered : Reordered number a b) {key : String} (plain : Plain key) :
    Option.Rel (Reordered number) (a.get key) (b.get key) := by
  obtain ⟨w, rfl, shows⟩ := reordered
  cases w with
  | object others =>
    have found := shows_object shows plain
    have own : (reading number (.object others)).get key =
        (findField others (units key)).map (reading number) := by
      rw [reading, Json.get, lookup_reading number plain]
    rw [own]
    generalize a.get key = seen at found ⊢
    generalize findField others (units key) = stored at found ⊢
    cases found with
    | none => exact .none
    | some one => exact .some ⟨_, rfl, one⟩
  | array items =>
    obtain ⟨seen, rfl, _⟩ := shows_array shows
    rw [reading]
    exact .none
  | number n =>
    rw [shows_number shows, reading, scalar]
    exact .none
  | text s =>
    rw [shows_text shows, reading]
    exact .none
  | null =>
    rw [shows_null shows, reading]
    exact .none
  | bool value =>
    obtain ⟨parsed, rfl, same, distinct⟩ := shows
    cases sameShape_of_same same distinct with
    | leaf =>
      rw [reading]
      exact .none

/-! ## Numbers -/

mutual

theorem reading_substitute {M : Type} (number : M → Json) (f : N → JsonText.Json M)
    (v : JsonText.Json N) :
    reading number (substitute f v) = reading (fun n => reading number (f n)) v := by
  match v with
  | .null => rw [substitute, reading, reading]
  | .bool _ => rw [substitute, reading, reading]
  | .number n => rw [substitute, reading]
  | .text _ => rw [substitute, reading, reading]
  | .array items => rw [substitute, reading, reading, readingItems_substitute number f items]
  | .object fields => rw [substitute, reading, reading, readingFields_substitute number f fields]

theorem readingItems_substitute {M : Type} (number : M → Json) (f : N → JsonText.Json M)
    (items : List (JsonText.Json N)) :
    readingItems number (substituteItems f items) =
      readingItems (fun n => reading number (f n)) items := by
  match items with
  | [] => rfl
  | item :: items =>
    rw [substituteItems, readingItems, readingItems, reading_substitute number f item,
      readingItems_substitute number f items]

theorem readingFields_substitute {M : Type} (number : M → Json) (f : N → JsonText.Json M)
    (fields : List (Text × JsonText.Json N)) :
    readingFields number (substituteFields f fields) =
      readingFields (fun n => reading number (f n)) fields := by
  match fields with
  | [] => rfl
  | (key, item) :: fields =>
    rw [substituteFields, readingFields, readingFields, reading_substitute number f item,
      readingFields_substitute number f fields]

end

/-- A number of the language, by the finite ones. -/
inductive Number (N : Type) where
  | nan
  | infinite (negative : Bool)
  | finite (value : N)

/-- `JSON.stringify` writes what is no finite number as null. -/
def printable : Number N → JsonText.Json N
  | .nan => .null
  | .infinite _ => .null
  | .finite value => .number value

def exactly (value : N) : JsonText.Json (Number N) := .number (.finite value)

/-- All numbers in the value are finite: printing loses none. -/
def Finite (v : JsonText.Json (Number N)) : Prop := substitute exactly (substitute printable v) = v

theorem finite_text (s : Text) : Finite (.text s : JsonText.Json (Number N)) := by
  rw [Finite, substitute, substitute]

theorem finite_number (n : N) : Finite (.number (.finite n)) := by
  rw [Finite, substitute, printable, substitute, exactly]

theorem finite_bool (value : Bool) : Finite (.bool value : JsonText.Json (Number N)) := by
  rw [Finite, substitute, substitute]

theorem finite_array {items : List (JsonText.Json (Number N))}
    (each : ∀ item ∈ items, Finite item) : Finite (.array items) := by
  rw [Finite, substitute, substitute, substituteItems_map, substituteItems_map, List.map_map]
  exact congrArg _ ((List.map_congr_left each).trans (List.map_id items))

theorem finite_record {fields : List (String × Option (JsonText.Json (Number N)))}
    (each : ∀ field ∈ fields, ∀ v ∈ field.2, Finite v) : Finite (record fields) := by
  have inner : ∀ field ∈ fields.filterMap present,
      (field.1, substitute exactly (substitute printable field.2)) = id field := by
    intro field member
    obtain ⟨source, inside, written⟩ := List.mem_filterMap.1 member
    obtain ⟨v, value, rfl⟩ := Option.map_eq_some_iff.1 written
    exact congrArg (Prod.mk _) (each source inside v value)
  rw [Finite, record, substitute, substitute, substituteFields_map, substituteFields_map,
    List.map_map]
  exact congrArg _ ((List.map_congr_left inner).trans (List.map_id _))

/-! ## What is read back -/

/-- Every object has distinct keys, none of them the setter's. -/
def Plainly (v : JsonText.Json N) : Prop := Distinct v ∧ ManifestJson.ProtoFree v

theorem keys_present (fields : List (String × Option (JsonText.Json N))) :
    (JsonText.keys (fields.filterMap present)).Sublist (fields.map fun field => units field.1) := by
  induction fields with
  | nil => exact .slnil
  | cons field fields ih =>
    obtain ⟨name, value⟩ := field
    cases value with
    | none =>
      rw [List.filterMap_cons_none rfl]
      exact ih.cons _
    | some v =>
      have written : present (name, some v) = some (units name, v) := rfl
      rw [List.filterMap_cons_some written]
      exact ih.cons_cons _

theorem plainly_record {fields : List (String × Option (JsonText.Json N))}
    (names : (fields.map Prod.fst).Nodup) (free : "__proto__" ∉ fields.map Prod.fst)
    (each : ∀ field ∈ fields, ∀ v ∈ field.2, Plainly v) : Plainly (record fields) := by
  have sub := keys_present fields
  have distinct : (fields.map fun field => units field.1).Nodup := by
    have injective : Function.Injective units := fun _ _ => JsonText.units_injective
    have mapped := names.map injective
    rwa [List.map_map] at mapped
  have inner : ∀ field ∈ fields.filterMap present, Plainly field.2 := by
    intro field member
    obtain ⟨source, inside, written⟩ := List.mem_filterMap.1 member
    obtain ⟨v, value, rfl⟩ := Option.map_eq_some_iff.1 written
    exact each source inside v value
  have proto : ManifestJson.protoKey ∉ JsonText.keys (fields.filterMap present) := by
    intro member
    obtain ⟨field, inside, same⟩ := List.mem_map.1 (sub.subset member)
    have name : field.1 = "__proto__" := JsonText.units_injective same
    exact free (name ▸ List.mem_map_of_mem inside)
  constructor
  · rw [Distinct, record, JsonText.Everywhere, JsonText.everywhereFields_iff]
    exact ⟨distinct.sublist sub, fun field member => (inner field member).1⟩
  · rw [ManifestJson.ProtoFree, record, JsonText.Everywhere, JsonText.everywhereFields_iff]
    exact ⟨proto, fun field member => (inner field member).2⟩

theorem plainly_array {items : List (JsonText.Json N)} (each : ∀ item ∈ items, Plainly item) :
    Plainly (.array items) := by
  constructor
  · rw [Distinct, JsonText.Everywhere, JsonText.everywhereItems_iff]
    exact fun item member => (each item member).1
  · rw [ManifestJson.ProtoFree, JsonText.Everywhere, JsonText.everywhereItems_iff]
    exact fun item member => (each item member).2

theorem plainly_text (s : Text) : Plainly (.text s : JsonText.Json N) := by
  constructor
  · rw [Distinct, JsonText.Everywhere]
    trivial
  · rw [ManifestJson.ProtoFree, JsonText.Everywhere]
    trivial

theorem plainly_number (n : N) : Plainly (.number n) := by
  constructor
  · rw [Distinct, JsonText.Everywhere]
    trivial
  · rw [ManifestJson.ProtoFree, JsonText.Everywhere]
    trivial

theorem plainly_bool (value : Bool) : Plainly (.bool value : JsonText.Json N) := by
  constructor
  · rw [Distinct, JsonText.Everywhere]
    trivial
  · rw [ManifestJson.ProtoFree, JsonText.Everywhere]
    trivial

theorem plainly_printable {v : JsonText.Json (Number N)} (plainly : Plainly v) :
    Plainly (substitute printable v) := by
  have leaf : ∀ (P : List Text → Prop) (n : Number N), JsonText.Everywhere P (printable n) := by
    intro P n
    cases n with
    | nan =>
      rw [printable, JsonText.Everywhere]
      trivial
    | infinite negative =>
      rw [printable, JsonText.Everywhere]
      trivial
    | finite value =>
      rw [printable, JsonText.Everywhere]
      trivial
  exact ⟨everywhere_substitute (leaf _) plainly.1, everywhere_substitute (leaf _) plainly.2⟩

/-- The text of a plain value, decoded and parsed, shows the value. -/
theorem parsed_shows (double : N → Rat) {v : JsonText.Json N} (plainly : Plainly v)
    (small : ∀ c ∈ stableStringify numbers v, c < 65536) :
    ∃ json, parseJson numbers double (chars (stableStringify numbers v)) = some json ∧
      Shows (fun n => .number (double n)) json v := by
  obtain ⟨distinct, free⟩ := plainly
  obtain ⟨parsed, read, same⟩ := (ManifestJson.readsBack_iff numbers distinct).2 free
  refine ⟨_, ?_, parsed, rfl, same, JsonText.distinct_same same.symm distinct⟩
  rw [parseJson, utf16_chars (stableStringify_wellFormed numbers v) small, read]
  rfl

theorem stableStringify_object (numbers : NumberFormat N)
    (fields : List (Text × JsonText.Json N)) :
    ∃ rest, stableStringify numbers (.object fields) = 123 :: rest := by
  obtain ⟨sorted, object⟩ : ∃ sorted, ManifestJson.sortJson (.object fields) = .object sorted := by
    rw [ManifestJson.sortJson, JsonText.rebuild]
    exact ⟨_, rfl⟩
  rw [stableStringify, object]
  cases sorted with
  | nil => exact ⟨_, rfl⟩
  | cons field sorted =>
    obtain ⟨key, item⟩ := field
    exact ⟨_, rfl⟩

/-! ## What was printed -/

theorem substitute_record {M : Type} (f : N → JsonText.Json M)
    (fields : List (String × Option (JsonText.Json N))) :
    substitute f (record fields) =
      record (fields.map fun field => (field.1, field.2.map (substitute f))) := by
  rw [record, substitute, substituteFields_map, record, List.map_filterMap, List.filterMap_map]
  refine congrArg _ (List.filterMap_congr fun field _ => ?_)
  obtain ⟨name, value⟩ := field
  cases value with
  | none => rfl
  | some v => rfl

/-- The verifier sees a value that was printed from this one. -/
def Prints (double : N → Rat) (json : Json) (v : JsonText.Json (Number N)) : Prop :=
  Shows (fun n => .number (double n)) json (substitute printable v)

variable {double : N → Rat} {json : Json}

theorem prints_text {s : Text} (prints : Prints double json (.text s)) : json = .text (chars s) :=
  shows_text prints

theorem prints_finite {n : N} (prints : Prints double json (.number (.finite n))) :
    json = .number (double n) :=
  @shows_number N (fun n => .number (double n)) json n prints

theorem prints_array {items : List (JsonText.Json (Number N))}
    (prints : Prints double json (.array items)) :
    ∃ seen, json = .array seen ∧ List.Forall₂ (Prints double) seen items := by
  rw [Prints, substitute, substituteItems_map] at prints
  obtain ⟨seen, rfl, pairs⟩ := shows_array prints
  refine ⟨seen, rfl, ?_⟩
  rwa [List.forall₂_map_right_iff] at pairs

/-- A property of a printed record, by its place. -/
theorem prints_record {fields : List (String × Option (JsonText.Json (Number N)))}
    (prints : Prints double json (record fields)) (names : (fields.map Prod.fst).Nodup)
    {key : String} {value : Option (JsonText.Json (Number N))} (plain : Plain key) (place : Nat)
    (here : fields[place]? = some (key, value)) :
    Option.Rel (Prints double) (json.get key) value := by
  rw [Prints, substitute_record] at prints
  have same : ((fields.map fun field => (field.1, field.2.map (substitute printable))).map
      Prod.fst) = fields.map Prod.fst := by
    rw [List.map_map]
    rfl
  have there : (fields.map fun field => (field.1, field.2.map (substitute printable)))[place]? =
      some (key, value.map (substitute printable)) := by
    rw [List.getElem?_map, here]
    rfl
  have found := shows_record prints (by rwa [same]) plain place there
  cases value with
  | none =>
    cases seen : json.get key with
    | none => exact .none
    | some j =>
      rw [seen] at found
      cases found
  | some v =>
    cases seen : json.get key with
    | none =>
      rw [seen] at found
      cases found
    | some j =>
      rw [seen] at found
      cases found with
      | some one => exact .some one

theorem prints_absent {fields : List (String × Option (JsonText.Json (Number N)))}
    (prints : Prints double json (record fields)) {key : String} (plain : Plain key)
    (absent : key ∉ fields.map Prod.fst) : json.get key = none := by
  rw [Prints, substitute_record] at prints
  have same : ((fields.map fun field => (field.1, field.2.map (substitute printable))).map
      Prod.fst) = fields.map Prod.fst := by
    rw [List.map_map]
    rfl
  have found := shows_object prints plain
  rw [findField_absent _ key (by rwa [same])] at found
  cases seen : json.get key with
  | none => rfl
  | some j =>
    rw [seen] at found
    cases found

end ReadManifests
