import SpacerocksCoa.CodeUnits
import SpacerocksCoa.JsonOrder
import SpacerocksCoa.JsonReaders

/-!
# Canonical manifest text

`stableStringify` builds every object again with its keys in sorted order and prints the
result with an indentation of two spaces. An object is its list of own properties in the order
in which the language enumerates them, array indices first. The rebuilt object is filled by
assignment, and an assignment to `__proto__` makes no own property: such a field is left out of
the text.
-/
namespace ManifestJson
open JsonText
open CodeUnits (isHigh isLow)

variable {N : Type}

/-! ## Objects -/

/-- `__proto__` -/
def protoKey : Text := "__proto__".toList.map Char.toNat

/-- A key that is an array index, and the index. -/
def arrayIndex (key : Text) : Option Nat :=
  if key ≠ [] ∧ key.all (fun c => 48 ≤ c && c ≤ 57) ∧ (key.head? = some 48 → key = [48]) then
    let index := key.foldl (fun n c => 10 * n + (c - 48)) 0
    if index < 4294967295 then some index else none
  else none

/-- The property comes before one with this index. -/
def precedes (index : Nat) (field : Text × Json N) : Bool :=
  (arrayIndex field.1).any fun other => other < index

/-- A property is written: in its place when it is there, else after those it follows. -/
def setOwn (fields : List (Text × Json N)) (key : Text) (value : Json N) :
    List (Text × Json N) :=
  if key ∈ keys fields then
    fields.map fun field => if field.1 = key then (key, value) else field
  else
    match arrayIndex key with
    | none => fields ++ [(key, value)]
    | some index =>
      fields.takeWhile (precedes index) ++ (key, value) :: fields.dropWhile (precedes index)

/-- `sorted[key] = value` on an object literal: `__proto__` is a setter there. -/
def assign (fields : List (Text × Json N)) (key : Text) (value : Json N) :
    List (Text × Json N) :=
  if key = protoKey then fields else setOwn fields key value

/-- The reduction of `sortJson` over the sorted keys. -/
def sortObject (fields : List (Text × Json N)) : List (Text × Json N) :=
  (sortFields fields).foldl (fun sorted field => assign sorted field.1 field.2) []

def sortJson (value : Json N) : Json N := rebuild sortObject value

/-! ## Text -/

/-- A unit that no other one completes: a surrogate is escaped. -/
def quoteUnit (c : Nat) : Text :=
  if isHigh c || isLow c then 92 :: 117 :: hex4 c else escapeChar c

def quoteUnits : Text → Text
  | [] => []
  | [c] => quoteUnit c
  | c :: d :: rest =>
    if isHigh c && isLow d then c :: d :: quoteUnits rest
    else quoteUnit c ++ quoteUnits (d :: rest)

theorem spelled_quoteUnit (c : Nat) {s t : Text} (rest : Spelled s t) :
    Spelled (c :: s) (quoteUnit c ++ t) := by
  unfold quoteUnit
  split
  next surrogate =>
    simp only [isHigh, isLow, Bool.or_eq_true, Bool.and_eq_true, decide_eq_true_eq] at surrogate
    exact .hex (by omega) rest
  next => exact spelled_escapeChar c rest

theorem spelled_quoteUnits (s : Text) : Spelled s (quoteUnits s) := by
  induction s using quoteUnits.induct with
  | case1 => exact .nil
  | case2 c =>
    have whole := spelled_quoteUnit c .nil
    rw [List.append_nil] at whole
    exact whole
  | case3 c d rest pair ih =>
    rw [quoteUnits, if_pos pair]
    simp only [isHigh, isLow, Bool.and_eq_true, decide_eq_true_eq] at pair
    exact .plain (by omega) (by omega) (by omega) (.plain (by omega) (by omega) (by omega) ih)
  | case4 c d rest single ih =>
    rw [quoteUnits, if_neg single]
    exact spelled_quoteUnit c ih

/-- A line break and two spaces for each level. -/
def indent (level : Nat) : Text := 10 :: List.replicate (2 * level) 32

theorem indent_space (level : Nat) : ∀ c ∈ indent level, isSpace c = true := by
  intro c member
  rcases List.mem_cons.1 member with line | blank
  · rw [line]
    rfl
  · rw [List.eq_of_mem_replicate blank]
    rfl

theorem blank_space : ∀ c ∈ [32], isSpace c = true := by
  intro c member
  rw [List.mem_singleton.1 member]
  rfl

def pretty (numbers : NumberFormat N) : Dialect N where
  numbers := numbers
  escape := quoteUnits
  newline := indent
  afterColon := [32]
  escape_spelled := spelled_quoteUnits
  newline_space := indent_space
  colon_space := blank_space

/-- `JSON.stringify(sortJson(value), null, 2)` and a final line break. -/
def stableStringify (numbers : NumberFormat N) (value : Json N) : Text :=
  print (pretty numbers) 0 (sortJson value) ++ [10]

/-- An object of `JSON.parse`: each property of the text becomes an own property. -/
def parsedObject (fields : List (Text × Json N)) : List (Text × Json N) :=
  fields.foldl (fun object field => setOwn object field.1 field.2) []

def jsonParse (numbers : NumberFormat N) (text : Text) : Option (Json N) :=
  parse numbers.read parsedObject text

/-! ## Built objects -/

theorem setOwn_perm {fields : List (Text × Json N)} {key : Text} (value : Json N)
    (new : key ∉ keys fields) : (setOwn fields key value).Perm (fields ++ [(key, value)]) := by
  rw [setOwn, if_neg new]
  cases arrayIndex key with
  | none => exact .refl _
  | some index =>
    have split := @List.takeWhile_append_dropWhile _ (precedes index) fields
    have here := @List.perm_middle _ (key, value) (fields.takeWhile (precedes index))
      (fields.dropWhile (precedes index))
    rw [split] at here
    exact here.trans (@List.perm_append_comm _ [(key, value)] fields)

theorem foldl_setOwn_perm {object fields : List (Text × Json N)}
    (distinct : (keys (object ++ fields)).Nodup) :
    (fields.foldl (fun object field => setOwn object field.1 field.2) object).Perm
      (object ++ fields) := by
  induction fields generalizing object with
  | nil =>
    rw [List.append_nil]
    exact .refl _
  | cons field fields ih =>
    have new : field.1 ∉ keys object := by
      intro old
      rw [keys, List.map_append, List.map_cons] at distinct
      exact (List.nodup_append.1 distinct).2.2 _ old _ List.mem_cons_self rfl
    have set := setOwn_perm field.2 new
    have shape : object ++ field :: fields = object ++ [field] ++ fields := by
      rw [List.append_assoc, List.singleton_append]
    rw [shape] at distinct ⊢
    have step : (setOwn object field.1 field.2 ++ fields).Perm (object ++ [field] ++ fields) :=
      set.append_right fields
    have still : (keys (setOwn object field.1 field.2 ++ fields)).Nodup :=
      (step.map Prod.fst).nodup_iff.2 distinct
    exact (ih still).trans step

theorem parsedObject_perm {fields : List (Text × Json N)} (distinct : (keys fields).Nodup) :
    (parsedObject fields).Perm fields :=
  @foldl_setOwn_perm N [] fields distinct

/-- What the reduction builds: the sorted properties but `__proto__`. -/
theorem sortObject_parsed (fields : List (Text × Json N)) :
    sortObject fields =
      parsedObject ((sortFields fields).filter fun field => field.1 ≠ protoKey) := by
  have step (sorted : List (Text × Json N)) (rest : List (Text × Json N)) :
      rest.foldl (fun sorted field => assign sorted field.1 field.2) sorted =
        (rest.filter fun field => field.1 ≠ protoKey).foldl
          (fun object field => setOwn object field.1 field.2) sorted := by
    induction rest generalizing sorted with
    | nil => rfl
    | cons field rest ih =>
      by_cases proto : field.1 = protoKey
      · rw [List.foldl_cons, assign, if_pos proto, List.filter_cons_of_neg (by simpa using proto),
          ih]
      · rw [List.foldl_cons, assign, if_neg proto, List.filter_cons_of_pos (by simpa using proto),
          List.foldl_cons, ih]
  exact step [] (sortFields fields)

theorem sortObject_perm {fields : List (Text × Json N)} (distinct : (keys fields).Nodup) :
    (sortObject fields).Perm (fields.filter fun field => field.1 ≠ protoKey) := by
  have sorted := (sortFields_perm fields).filter fun field => field.1 ≠ protoKey
  have kept : (keys (fields.filter fun field => field.1 ≠ protoKey)).Nodup :=
    distinct.sublist (List.filter_sublist.map _)
  rw [sortObject_parsed]
  exact (parsedObject_perm ((sorted.map Prod.fst).nodup_iff.2 kept)).trans sorted

theorem sortObject_eq {fields reordered : List (Text × Json N)} (distinct : (keys fields).Nodup)
    (perm : fields.Perm reordered) : sortObject fields = sortObject reordered := by
  rw [sortObject, sortObject, sortFields_eq distinct perm]

/-! ## Fields that are kept -/

/-- No object in the value has a key `__proto__`. -/
def ProtoFree (value : Json N) : Prop := Everywhere (fun names => protoKey ∉ names) value

/-- What `sortJson` builds has each key once and no `__proto__`. -/
theorem sortJson_plain {value : Json N} (distinct : Distinct value) :
    Distinct (sortJson value) ∧ ProtoFree (sortJson value) := by
  have built (fields : List (Text × Json N)) (names : (keys fields).Nodup) :
      ((keys (sortObject fields)).Nodup ∧ protoKey ∉ keys (sortObject fields)) ∧
        sortObject fields ⊆ fields := by
    have perm := sortObject_perm names
    have kept : (keys (fields.filter fun field => field.1 ≠ protoKey)).Nodup :=
      names.sublist (List.filter_sublist.map _)
    refine ⟨⟨(perm.map Prod.fst).nodup_iff.2 kept, ?_⟩, ?_⟩
    · intro proto
      obtain ⟨field, member, same⟩ := List.mem_map.1 ((perm.map Prod.fst).mem_iff.1 proto)
      exact absurd same (of_decide_eq_true (List.mem_filter.1 member).2)
    · intro field member
      exact (List.mem_filter.1 (perm.mem_iff.1 member)).1
  exact ⟨everywhere_rebuild (fun fields names => ⟨(built fields names).1.1, (built fields names).2⟩)
    value distinct,
    everywhere_rebuild (fun fields names => ⟨(built fields names).1.2, (built fields names).2⟩)
    value distinct⟩

theorem sortJson_eq {v w : Json N} (same : Same v w) (distinct : Distinct v) :
    sortJson v = sortJson w :=
  rebuild_eq (fun _ _ => sortObject_eq) same distinct

theorem sortJson_same {value : Json N} (distinct : Distinct value) (free : ProtoFree value) :
    Same (sortJson value) value := by
  refine rebuild_same ?_ value (everywhere_and distinct free)
  rintro fields ⟨names, proto⟩
  have perm := sortObject_perm names
  have all : fields.filter (fun field => field.1 ≠ protoKey) = fields := by
    rw [List.filter_eq_self]
    intro field member
    refine decide_eq_true ?_
    intro same
    exact proto (same ▸ List.mem_map_of_mem member)
  rwa [all] at perm

theorem protoFree_same {v w : Json N} (same : Same v w) (free : ProtoFree v) : ProtoFree w :=
  everywhere_same (fun perm missing member => missing (perm.mem_iff.2 member)) same free

/-! ## Reading the text back -/

/-- What the parser makes of the text of a value. -/
theorem parse_stableStringify (numbers : NumberFormat N) (value : Json N) :
    jsonParse numbers (stableStringify numbers value) =
      some (rebuild parsedObject (sortJson value)) := by
  have line : ∀ c ∈ [10], isSpace c = true := by
    intro c member
    rw [List.mem_singleton.1 member]
    rfl
  exact @parse_print N parsedObject (pretty numbers) (sortJson value) [10] line

theorem parsed_same {value : Json N} (distinct : Distinct value) :
    Same (rebuild parsedObject (sortJson value)) (sortJson value) :=
  rebuild_same (fun _ names => parsedObject_perm names) _ (sortJson_plain distinct).1

/-- Parsing the text gives back an equal value. -/
def ReadsBack (numbers : NumberFormat N) (value : Json N) : Prop :=
  ∃ parsed, jsonParse numbers (stableStringify numbers value) = some parsed ∧ Same parsed value

theorem readsBack_iff (numbers : NumberFormat N) {value : Json N} (distinct : Distinct value) :
    ReadsBack numbers value ↔ ProtoFree value := by
  constructor
  · rintro ⟨parsed, read, same⟩
    rw [parse_stableStringify] at read
    cases read
    exact protoFree_same ((parsed_same distinct).symm.trans same) (sortJson_plain distinct).2
  · intro free
    exact ⟨_, parse_stableStringify numbers value,
      (parsed_same distinct).trans (sortJson_same distinct free)⟩

/-- The text of two values is canonical: one for any order of keys, read back as the value it
was written from, and shared by equal values only. -/
structure Canonical (numbers : NumberFormat N) (v w : Json N) : Prop where
  orderless : Same v w → stableStringify numbers v = stableStringify numbers w
  readsBack : ReadsBack numbers v ∧ ReadsBack numbers w
  injective : stableStringify numbers v = stableStringify numbers w → Same v w

theorem canonical_iff (numbers : NumberFormat N) (v w : Json N) (left : Distinct v)
    (right : Distinct w) : Canonical numbers v w ↔ ProtoFree v ∧ ProtoFree w := by
  constructor
  · rintro ⟨_, ⟨first, second⟩, _⟩
    exact ⟨(readsBack_iff numbers left).1 first, (readsBack_iff numbers right).1 second⟩
  · rintro ⟨first, second⟩
    refine ⟨?_, ⟨(readsBack_iff numbers left).2 first, (readsBack_iff numbers right).2 second⟩, ?_⟩
    · intro same
      rw [stableStringify, stableStringify, sortJson_eq same left]
    · intro texts
      have parsed : rebuild parsedObject (sortJson v) = rebuild parsedObject (sortJson w) := by
        refine Option.some.inj ?_
        rw [← parse_stableStringify numbers, ← parse_stableStringify numbers, texts]
      have back := (parsed_same left).trans (sortJson_same left first)
      have other := (parsed_same right).trans (sortJson_same right second)
      exact back.symm.trans (parsed ▸ other)

/-! Numbers of one digit, and an object with a key `__proto__`. -/

def writeDigit (n : Fin 10) : Text := [48 + n.val]

def readDigit (s : Text) : Option (Fin 10) := (List.finRange 10).find? fun n => writeDigit n == s

theorem readDigit_writeDigit : ∀ n, readDigit (writeDigit n) = some n := by decide

theorem writeDigit_numeric : ∀ n, ∀ c ∈ writeDigit n, isNumeric c = true := by decide

theorem writeDigit_nonempty : ∀ n, writeDigit n ≠ [] := by decide

def oneDigit : NumberFormat (Fin 10) where
  write := writeDigit
  read := readDigit
  read_write := readDigit_writeDigit
  numeric := writeDigit_numeric
  nonempty := writeDigit_nonempty

def protoObject : Json (Fin 10) := .object [(protoKey, .number 1)]

def emptyObject : Json (Fin 10) := .object []

theorem protoObject_distinct : Distinct protoObject := by
  rw [Distinct, protoObject, Everywhere]
  exact ⟨List.nodup_singleton _, ⟨by rw [Everywhere]; trivial, trivial⟩⟩

theorem emptyObject_distinct : Distinct emptyObject := by
  rw [Distinct, emptyObject, Everywhere]
  exact ⟨List.nodup_nil, trivial⟩

/-- An object with the key has the text of one without it, and is not read back. -/
theorem protoObject_dropped :
    stableStringify oneDigit protoObject = stableStringify oneDigit emptyObject ∧
      ¬ ∀ v w : Json (Fin 10), Distinct v → Distinct w → Canonical oneDigit v w := by
  refine ⟨rfl, fun always => ?_⟩
  have proto := always protoObject emptyObject protoObject_distinct emptyObject_distinct
  have same := proto.injective rfl
  have free : ProtoFree emptyObject := by
    rw [ProtoFree, emptyObject, Everywhere]
    exact ⟨List.not_mem_nil, trivial⟩
  have wrong := protoFree_same same.symm free
  rw [ProtoFree, protoObject, Everywhere] at wrong
  exact wrong.1 List.mem_cons_self

/-! A record in two orders, with array indices among its keys. -/

def photograph : Json (Fin 10) :=
  .object [(units "path", .text (units "a.jpg")), (units "10", .null), (units "9", .bool true)]

def photographReordered : Json (Fin 10) :=
  .object [(units "9", .bool true), (units "path", .text (units "a.jpg")), (units "10", .null)]

def specimen : Json (Fin 10) :=
  .object [(units "weight", .number 5), (units "photographs", .array [.number 1, photograph]),
    (units "Weight", .object [])]

def specimenReordered : Json (Fin 10) :=
  .object [(units "photographs", .array [.number 1, photographReordered]),
    (units "Weight", .object []), (units "weight", .number 5)]

theorem specimen_same : Same specimen specimenReordered := by
  have photo : Same photograph photographReordered :=
    .order (@List.perm_append_comm _ [_, _] [_])
  have list : Same (.array [.number 1, photograph]) (.array [.number 1, photographReordered]) :=
    .item [.number 1] [] photo
  have inner : Same specimen (.object [(units "weight", .number 5),
      (units "photographs", .array [.number 1, photographReordered]),
      (units "Weight", .object [])]) :=
    .field [(units "weight", .number 5)] [(units "Weight", .object [])] _ list
  exact inner.trans (.order (@List.perm_append_comm _ [_] [_, _]))

theorem specimen_keys {P : List Text → Prop} (empty : P [])
    (photo : P [units "path", units "10", units "9"])
    (outer : P [units "weight", units "photographs", units "Weight"]) : Everywhere P specimen := by
  simp only [specimen, photograph, Everywhere, EverywhereItems, EverywhereFields, keys,
    List.map_cons, List.map_nil, and_true, true_and]
  exact ⟨outer, photo, empty⟩

theorem specimen_canonical : Canonical oneDigit specimen specimenReordered ∧
    stableStringify oneDigit specimen = stableStringify oneDigit specimenReordered := by
  have distinct : Distinct specimen := specimen_keys (by decide) (by decide) (by decide)
  have free : ProtoFree specimen := specimen_keys (by decide) (by decide) (by decide)
  have canonical := (canonical_iff oneDigit specimen specimenReordered distinct
    (distinct_same specimen_same distinct)).2 ⟨free, protoFree_same specimen_same free⟩
  exact ⟨canonical, canonical.orderless specimen_same⟩

end ManifestJson
