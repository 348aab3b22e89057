import SpacerocksCoa.FallibleSteps
import SpacerocksCoa.JsonText

/-!
# Readers of JSON

A reader skips white space and decodes every escape, so it is one for all dialects. How it takes
a number from the text, what it makes of the properties of an object, which nestings it refuses
and what its errors are is up to the reader. What was printed is read back when the reader takes
its numbers and its nesting.
-/
namespace JsonText
open FallibleSteps

variable {E N M : Type}

/-- A reader; reading a number uses some of the text. -/
structure Reader (E N : Type) where
  number : Text → Except E (N × Text)
  build : List (Text × Json N) → List (Text × Json N)
  tooDeep : Nat → Option E
  malformed : E
  number_shortens : ∀ source found, number source = .ok found → found.2.length < source.length

variable (r : Reader E N)

/-! ## Reading -/

def Reader.literal (word : Text) (value : Json N) (rest : Text) : Except E (Json N × Text) :=
  if rest.take word.length = word then .ok (value, rest.drop word.length) else .error r.malformed

def Reader.string (source : Text) : Except E (Text × Text) :=
  match unquote source with
  | none => .error r.malformed
  | some found => .ok found

/-- A container is opened inside so many others. -/
def Reader.enter (depth : Nat) : Except E Unit :=
  match r.tooDeep depth with
  | none => .ok ()
  | some error => .error error

mutual

/-- The value at the start of a text and what follows it. -/
def value : Nat → Nat → Text → Except E (Json N × Text)
  | 0, _, _ => .error r.malformed
  | fuel + 1, depth, source =>
    match source.dropWhile isSpace with
    | [] => .error r.malformed
    | c :: rest =>
      if c = 110 then r.literal [117, 108, 108] .null rest
      else if c = 116 then r.literal [114, 117, 101] (.bool true) rest
      else if c = 102 then r.literal [97, 108, 115, 101] (.bool false) rest
      else if c = 34 then do
        let found ← r.string rest
        return (.text found.1, found.2)
      else if c = 91 then do
        r.enter depth
        match rest.dropWhile isSpace with
        | [] => .error r.malformed
        | close :: after =>
          if close = 93 then return (.array [], after)
          else
            let found ← items fuel (depth + 1) rest
            return (.array found.1, found.2)
      else if c = 123 then do
        r.enter depth
        match rest.dropWhile isSpace with
        | [] => .error r.malformed
        | close :: after =>
          if close = 125 then return (.object (r.build []), after)
          else
            let found ← fields fuel (depth + 1) rest
            return (.object (r.build found.1), found.2)
      else do
        let found ← r.number (c :: rest)
        return (.number found.1, found.2)

def items : Nat → Nat → Text → Except E (List (Json N) × Text)
  | 0, _, _ => .error r.malformed
  | fuel + 1, depth, source => do
    let first ← value fuel depth source
    match first.2.dropWhile isSpace with
    | [] => .error r.malformed
    | c :: rest =>
      if c = 93 then return ([first.1], rest)
      else if c = 44 then do
        let more ← items fuel depth rest
        return (first.1 :: more.1, more.2)
      else .error r.malformed

def fields : Nat → Nat → Text → Except E (List (Text × Json N) × Text)
  | 0, _, _ => .error r.malformed
  | fuel + 1, depth, source =>
    match source.dropWhile isSpace with
    | [] => .error r.malformed
    | mark :: afterMark =>
      if mark = 34 then do
        let key ← r.string afterMark
        match key.2.dropWhile isSpace with
        | [] => .error r.malformed
        | colon :: afterColon =>
          if colon = 58 then do
            let first ← value fuel depth afterColon
            match first.2.dropWhile isSpace with
            | [] => .error r.malformed
            | c :: rest =>
              if c = 125 then return ([(key.1, first.1)], rest)
              else if c = 44 then do
                let more ← fields fuel depth rest
                return ((key.1, first.1) :: more.1, more.2)
              else .error r.malformed
          else .error r.malformed
      else .error r.malformed

end

/-- A whole text: one value, and white space around it. -/
def scan (source : Text) : Except E (Json N) := do
  let found ← value r (2 * source.length + 1) 0 source
  if found.2.dropWhile isSpace = [] then return found.1 else .error r.malformed

/-- The reader of a format of numbers, at any depth. -/
def plain (read : Text → Option N) (build : List (Text × Json N) → List (Text × Json N)) :
    Reader Unit N where
  number source :=
    if source.takeWhile isNumeric = [] then .error ()
    else
      match read (source.takeWhile isNumeric) with
      | none => .error ()
      | some n => .ok (n, source.dropWhile isNumeric)
  build := build
  tooDeep _ := none
  malformed := ()
  number_shortens := by
    intro source found read
    split at read
    · cases read
    · next some_digit =>
      split at read
      · cases read
      · cases read
        have lengths := congrArg List.length (@List.takeWhile_append_dropWhile _ isNumeric source)
        have positive := List.length_pos_of_ne_nil some_digit
        rw [List.length_append] at lengths
        dsimp only
        omega

def parse (read : Text → Option N) (build : List (Text × Json N) → List (Text × Json N))
    (source : Text) : Option (Json N) := (scan (plain read build) source).toOption

/-! ## Fuel -/

theorem dropWhile_shortens {source rest : Text} {c : Nat}
    (start : source.dropWhile isSpace = c :: rest) : rest.length < source.length := by
  have within := (List.dropWhile_suffix (l := source) isSpace).length_le
  rw [start, List.length_cons] at within
  omega

theorem unquote_shortens (source : Text) :
    ∀ found, unquote source = some found → found.2.length < source.length := by
  induction source using unquote.induct with
  | case1 =>
    intro found read
    cases read
  | case2 rest =>
    intro found read
    rw [unquote_mark] at read
    cases read
    exact Nat.lt_succ_self _
  | case3 =>
    intro found read
    cases read
  | case4 x y z w rest _ ih =>
    intro found read
    rw [unquote.eq_def] at read
    obtain ⟨_, _, read⟩ := Option.bind_eq_some_iff.1 read
    obtain ⟨_, _, read⟩ := Option.bind_eq_some_iff.1 read
    obtain ⟨_, _, read⟩ := Option.bind_eq_some_iff.1 read
    obtain ⟨_, _, read⟩ := Option.bind_eq_some_iff.1 read
    obtain ⟨inner, unquoted, read⟩ := Option.bind_eq_some_iff.1 read
    cases read
    have shorter := ih inner unquoted
    simp only [List.length_cons]
    omega
  | case5 rest few _ =>
    intro found read
    rw [unquote.eq_def] at read
    simp only [if_neg (show ¬ 92 = 34 by decide), if_true] at read
    cases read
  | case6 e rest long _ ih =>
    intro found read
    rw [unquote.eq_def] at read
    simp only [if_neg (show ¬ 92 = 34 by decide), if_true, if_neg long] at read
    obtain ⟨_, _, read⟩ := Option.bind_eq_some_iff.1 read
    obtain ⟨inner, unquoted, read⟩ := Option.bind_eq_some_iff.1 read
    cases read
    have shorter := ih inner unquoted
    simp only [List.length_cons]
    omega
  | case7 c rest mark escape control =>
    intro found read
    rw [unquote.eq_def] at read
    simp only [if_neg mark, if_neg escape, if_pos control] at read
    cases read
  | case8 c rest mark escape printed ih =>
    intro found read
    rw [unquote_plain mark escape (Nat.not_lt.1 printed)] at read
    obtain ⟨inner, unquoted, rfl⟩ := Option.map_eq_some_iff.1 read
    have shorter := ih inner unquoted
    simp only [List.length_cons]
    omega

theorem literal_shortens {word rest : Text} {v : Json N} {found : Json N × Text}
    (read : r.literal word v rest = .ok found) : found.2.length ≤ rest.length := by
  unfold Reader.literal at read
  split at read
  · cases read
    exact (List.drop_suffix _ _).length_le
  · cases read

theorem string_shortens {source : Text} {found : Text × Text} (read : r.string source = .ok found) :
    found.2.length < source.length := by
  unfold Reader.string at read
  cases unquoted : unquote source with
  | none =>
    rw [unquoted] at read
    cases read
  | some pair =>
    rw [unquoted] at read
    cases read
    exact unquote_shortens source _ unquoted

/-- What follows a value, a list of items or of properties is shorter than the text. -/
structure Shortens (fuel : Nat) : Prop where
  values : ∀ depth source found, value r fuel depth source = .ok found →
    found.2.length < source.length
  items : ∀ depth source found, items r fuel depth source = .ok found →
    found.2.length < source.length
  fields : ∀ depth source found, fields r fuel depth source = .ok found →
    found.2.length < source.length

variable {r}

/-- What follows a container is shorter than what follows its opening bracket. -/
theorem container_shortens {α : Type} {rest : Text} {depth final : Nat} {empty : Json N}
    {inner : Except E (α × Text)} {found : Json N × Text} (make : α → Json N)
    (shorter : ∀ all, inner = .ok all → all.2.length < rest.length)
    (read : (do
      r.enter depth
      match rest.dropWhile isSpace with
      | [] => .error r.malformed
      | close :: after =>
        if close = final then return (empty, after)
        else
          let all ← inner
          return (make all.1, all.2)) = .ok found) : found.2.length < rest.length := by
  obtain ⟨-, -, read⟩ := except_bind_ok read
  cases inside : rest.dropWhile isSpace with
  | nil =>
    rw [inside] at read
    cases read
  | cons close after =>
    rw [inside] at read
    dsimp only at read
    split at read
    · cases read
      exact dropWhile_shortens inside
    · obtain ⟨all, listed, read⟩ := except_bind_ok read
      cases read
      exact shorter all listed

theorem value_shortens {fuel : Nat} (inner : Shortens r fuel) {depth : Nat} {source : Text}
    {found : Json N × Text} (read : value r (fuel + 1) depth source = .ok found) :
    found.2.length < source.length := by
  rw [value] at read
  cases start : source.dropWhile isSpace with
  | nil =>
    rw [start] at read
    cases read
  | cons c rest =>
    have shorter := dropWhile_shortens start
    rw [start] at read
    dsimp only at read
    split at read
    · exact Nat.lt_of_le_of_lt (literal_shortens r read) shorter
    split at read
    · exact Nat.lt_of_le_of_lt (literal_shortens r read) shorter
    split at read
    · exact Nat.lt_of_le_of_lt (literal_shortens r read) shorter
    split at read
    · obtain ⟨text, string, read⟩ := except_bind_ok read
      cases read
      exact Nat.lt_trans (string_shortens r string) shorter
    split at read
    · have inside := container_shortens .array (inner.items (depth + 1) rest) read
      exact Nat.lt_trans inside shorter
    split at read
    · have inside := container_shortens (fun all => .object (r.build all))
        (inner.fields (depth + 1) rest) read
      exact Nat.lt_trans inside shorter
    · obtain ⟨n, number, read⟩ := except_bind_ok read
      cases read
      have used := r.number_shortens _ _ number
      rw [List.length_cons] at used
      exact Nat.lt_of_le_of_lt (Nat.le_of_lt_succ used) shorter

theorem items_shortens {fuel : Nat} (inner : Shortens r fuel) {depth : Nat} {source : Text}
    {found : List (Json N) × Text} (read : items r (fuel + 1) depth source = .ok found) :
    found.2.length < source.length := by
  rw [items] at read
  obtain ⟨first, head, read⟩ := except_bind_ok read
  have shorter := inner.values _ _ _ head
  cases after : first.2.dropWhile isSpace with
  | nil =>
    rw [after] at read
    cases read
  | cons c rest =>
    have further := Nat.lt_trans (dropWhile_shortens after) shorter
    rw [after] at read
    dsimp only at read
    split at read
    · cases read
      exact further
    split at read
    · obtain ⟨more, others, read⟩ := except_bind_ok read
      cases read
      have used := inner.items _ _ _ others
      exact Nat.lt_trans used further
    · cases read

theorem fields_shortens {fuel : Nat} (inner : Shortens r fuel) {depth : Nat} {source : Text}
    {found : List (Text × Json N) × Text} (read : fields r (fuel + 1) depth source = .ok found) :
    found.2.length < source.length := by
  rw [fields] at read
  cases start : source.dropWhile isSpace with
  | nil =>
    rw [start] at read
    cases read
  | cons mark afterMark =>
    rw [start] at read
    dsimp only at read
    split at read
    · obtain ⟨key, name, read⟩ := except_bind_ok read
      have named := Nat.lt_trans (string_shortens r name) (dropWhile_shortens start)
      cases separator : key.2.dropWhile isSpace with
      | nil =>
        rw [separator] at read
        cases read
      | cons colon afterColon =>
        rw [separator] at read
        dsimp only at read
        split at read
        · obtain ⟨first, head, read⟩ := except_bind_ok read
          have shorter := Nat.lt_trans (inner.values _ _ _ head)
            (Nat.lt_trans (dropWhile_shortens separator) named)
          cases after : first.2.dropWhile isSpace with
          | nil =>
            rw [after] at read
            cases read
          | cons c rest =>
            have further := Nat.lt_trans (dropWhile_shortens after) shorter
            rw [after] at read
            dsimp only at read
            split at read
            · cases read
              exact further
            split at read
            · obtain ⟨more, others, read⟩ := except_bind_ok read
              cases read
              have used := inner.fields _ _ _ others
              exact Nat.lt_trans used further
            · cases read
        · cases read
    · cases read

variable (r)

theorem shortens (fuel : Nat) : Shortens r fuel := by
  induction fuel with
  | zero =>
    refine ⟨?_, ?_, ?_⟩
    · intro depth source found read
      rw [value] at read
      cases read
    · intro depth source found read
      rw [items] at read
      cases read
    · intro depth source found read
      rw [fields] at read
      cases read
  | succ fuel ih =>
    exact ⟨fun _ _ _ => value_shortens ih, fun _ _ _ => items_shortens ih,
      fun _ _ _ => fields_shortens ih⟩

/-- Two amounts of fuel that both suffice for a text read the same. -/
structure SameReading (fuel other : Nat) : Prop where
  values : ∀ depth source, 2 * source.length < fuel → 2 * source.length < other →
    value r fuel depth source = value r other depth source
  items : ∀ depth source, 2 * source.length + 1 < fuel → 2 * source.length + 1 < other →
    items r fuel depth source = items r other depth source
  fields : ∀ depth source, 2 * source.length + 1 < fuel → 2 * source.length + 1 < other →
    fields r fuel depth source = fields r other depth source

variable {r} {fuel other : Nat}

theorem value_sameReading (inner : SameReading r fuel other) (depth : Nat) {source : Text}
    (enough : 2 * source.length < fuel + 1) (enough' : 2 * source.length < other + 1) :
    value r (fuel + 1) depth source = value r (other + 1) depth source := by
  rw [value, value]
  cases start : source.dropWhile isSpace with
  | nil => rfl
  | cons c rest =>
    have shorter := dropWhile_shortens start
    simp only [inner.items (depth + 1) rest (by omega) (by omega),
      inner.fields (depth + 1) rest (by omega) (by omega)]

theorem items_sameReading (inner : SameReading r fuel other) (depth : Nat) {source : Text}
    (enough : 2 * source.length + 1 < fuel + 1) (enough' : 2 * source.length + 1 < other + 1) :
    items r (fuel + 1) depth source = items r (other + 1) depth source := by
  rw [items, items, inner.values depth source (by omega) (by omega)]
  cases head : value r other depth source with
  | error _ => rfl
  | ok first =>
    have shorter := (shortens r other).values _ _ _ head
    rw [bind_next rfl, bind_next rfl]
    cases after : first.2.dropWhile isSpace with
    | nil => rfl
    | cons c rest =>
      have further := dropWhile_shortens after
      simp only [inner.items depth rest (by omega) (by omega)]

theorem fields_sameReading (inner : SameReading r fuel other) (depth : Nat) {source : Text}
    (enough : 2 * source.length + 1 < fuel + 1) (enough' : 2 * source.length + 1 < other + 1) :
    fields r (fuel + 1) depth source = fields r (other + 1) depth source := by
  rw [fields, fields]
  cases start : source.dropWhile isSpace with
  | nil => rfl
  | cons mark afterMark =>
    have marked := dropWhile_shortens start
    dsimp only
    cases name : r.string afterMark with
    | error _ => rfl
    | ok key =>
      have named := string_shortens r name
      rw [bind_next rfl, bind_next rfl]
      cases separator : key.2.dropWhile isSpace with
      | nil => rfl
      | cons colon afterColon =>
        have divided := dropWhile_shortens separator
        dsimp only
        rw [inner.values depth afterColon (by omega) (by omega)]
        cases head : value r other depth afterColon with
        | error _ => rfl
        | ok first =>
          have shorter := (shortens r other).values _ _ _ head
          rw [bind_next rfl, bind_next rfl]
          cases after : first.2.dropWhile isSpace with
          | nil => rfl
          | cons c rest =>
            have further := dropWhile_shortens after
            simp only [inner.fields depth rest (by omega) (by omega)]

variable (r)

theorem sameReading (fuel other : Nat) : SameReading r fuel other := by
  induction fuel generalizing other with
  | zero =>
    exact ⟨fun _ _ none => absurd none (Nat.not_lt_zero _),
      fun _ _ none => absurd none (Nat.not_lt_zero _),
      fun _ _ none => absurd none (Nat.not_lt_zero _)⟩
  | succ fuel ih =>
    cases other with
    | zero =>
      exact ⟨fun _ _ _ none => absurd none (Nat.not_lt_zero _),
        fun _ _ _ none => absurd none (Nat.not_lt_zero _),
        fun _ _ _ none => absurd none (Nat.not_lt_zero _)⟩
    | succ other =>
      exact ⟨fun depth _ => value_sameReading (ih other) depth,
        fun depth _ => items_sameReading (ih other) depth,
        fun depth _ => fields_sameReading (ih other) depth⟩

/-- The fuel of a whole text never runs out: with more of it the text is read the same. -/
theorem scan_fuel (source : Text) {fuel : Nat} (enough : 2 * source.length < fuel) :
    value r fuel 0 source = value r (2 * source.length + 1) 0 source :=
  (sameReading r fuel (2 * source.length + 1)).values 0 source enough (Nat.lt_succ_self _)

/-! ## Reading what was printed -/

mutual

/-- The fuel that reading the value takes. -/
def weight : Json N → Nat
  | .null => 1
  | .bool _ => 1
  | .number _ => 1
  | .text _ => 1
  | .array items => weightItems items + 1
  | .object fields => weightFields fields + 1

def weightItems : List (Json N) → Nat
  | [] => 0
  | item :: items => weight item + weightItems items + 1

def weightFields : List (Text × Json N) → Nat
  | [] => 0
  | (_, item) :: fields => weight item + weightFields fields + 1

end

theorem weight_pos (v : Json N) : 0 < weight v := by
  cases v <;> simp only [weight] <;> omega

/-- The text goes on with no character of a number. -/
def Stops (rest : Text) : Prop := ∀ c ∈ rest.head?, isNumeric c = false

theorem numeric_of_space {c : Nat} (space : isSpace c = true) : isNumeric c = false := by
  unfold isSpace at space
  unfold isNumeric
  simp only [Bool.or_eq_true, beq_iff_eq] at space
  rcases space with ((blank | tab) | line) | back <;> subst c <;> rfl

theorem stops_nil : Stops [] := by
  intro c first
  cases first

theorem stops_cons {c : Nat} (other : isNumeric c = false) (rest : Text) : Stops (c :: rest) := by
  intro first same
  cases same
  exact other

theorem stops_append {space rest : Text} (spaces : ∀ c ∈ space, isSpace c = true)
    (stops : Stops rest) : Stops (space ++ rest) := by
  cases space with
  | nil => exact stops
  | cons c space => exact stops_cons (numeric_of_space (spaces c List.mem_cons_self)) _

theorem stops_printItems (d : Dialect N) (level : Nat) (more : List (Json N)) {rest : Text}
    (stops : Stops rest) : Stops (printItems d level more ++ rest) := by
  cases more with
  | nil =>
    rw [printItems]
    exact stops
  | cons item more =>
    rw [printItems]
    exact stops_cons rfl _

theorem stops_printFields (d : Dialect N) (level : Nat) (more : List (Text × Json N))
    {rest : Text} (stops : Stops rest) : Stops (printFields d level more ++ rest) := by
  cases more with
  | nil =>
    rw [printFields]
    exact stops
  | cons field more =>
    rw [printFields]
    exact stops_cons rfl _

theorem skip {space rest : Text} {c : Nat} (spaces : ∀ c ∈ space, isSpace c = true)
    (printed : isSpace c = false) :
    (space ++ (c :: rest)).dropWhile isSpace = c :: rest := by
  rw [List.dropWhile_append_of_pos spaces, List.dropWhile_cons_of_neg]
  rw [printed]
  decide

theorem numeric_first (format : NumberFormat N) (n : N) :
    ∃ c word, format.write n = c :: word ∧ isNumeric c = true := by
  cases written : format.write n with
  | nil => exact absurd written (format.nonempty n)
  | cons c word =>
    refine ⟨c, word, rfl, format.numeric n c ?_⟩
    rw [written]
    exact List.mem_cons_self

theorem span_numeric (format : NumberFormat N) (n : N) {rest : Text} (stops : Stops rest) :
    (format.write n ++ rest).takeWhile isNumeric = format.write n ∧
      (format.write n ++ rest).dropWhile isNumeric = rest := by
  rw [List.takeWhile_append_of_pos (format.numeric n),
    List.dropWhile_append_of_pos (format.numeric n)]
  cases rest with
  | nil => exact ⟨List.append_nil _, rfl⟩
  | cons c rest =>
    have other := stops c rfl
    rw [List.takeWhile_cons_of_neg (by rw [other]; decide),
      List.dropWhile_cons_of_neg (by rw [other]; decide)]
    exact ⟨List.append_nil _, rfl⟩

/-- A value starts with a character that is no space and closes nothing. -/
theorem print_first (d : Dialect N) (level : Nat) (v : Json N) :
    ∃ c word, print d level v = c :: word ∧ isSpace c = false ∧ c ≠ 93 := by
  cases v with
  | null => exact ⟨110, _, by rw [print], rfl, by decide⟩
  | bool value =>
    cases value with
    | true => exact ⟨116, _, by rw [print], rfl, by decide⟩
    | false => exact ⟨102, _, by rw [print], rfl, by decide⟩
  | number n =>
    obtain ⟨c, word, written, numeric⟩ := numeric_first d.numbers n
    refine ⟨c, word, by rw [print, written], ?_, ?_⟩
    · cases space : isSpace c with
      | false => rfl
      | true => exact absurd ((numeric_of_space space).symm.trans numeric) (by decide)
    · intro same
      rw [same] at numeric
      exact absurd numeric (by decide)
  | text s => exact ⟨34, _, by rw [print, Dialect.quoted], rfl, by decide⟩
  | array items =>
    cases items with
    | nil => exact ⟨91, _, by rw [print], rfl, by decide⟩
    | cons item items => exact ⟨91, _, by rw [print], rfl, by decide⟩
  | object fields =>
    cases fields with
    | nil => exact ⟨123, _, by rw [print], rfl, by decide⟩
    | cons field fields => exact ⟨123, _, by rw [print], rfl, by decide⟩

section
variable (d : Dialect N) (r : Reader E M) (see : N → M)

/-- The reader takes the number from the text and sees it in its own way. -/
def Takes (n : N) : Prop :=
  ∀ rest, Stops rest → r.number (d.numbers.write n ++ rest) = .ok (see n, rest)

/-- The reader enters so many containers that stand in one another, the first at this depth. -/
def Enters (depth more : Nat) : Prop := ∀ k < more, r.tooDeep (depth + k) = none

/-- With this fuel every printed value of the weight is read back, after any space. -/
def ReadsValues (fuel : Nat) : Prop :=
  ∀ v level depth more space rest, (∀ c ∈ space, isSpace c = true) → Stops rest →
    Fits (Takes d r see) more v → Enters r depth more → weight v ≤ fuel →
    value r fuel depth (space ++ (print d level v ++ rest)) =
      .ok (rebuild r.build (seen see v), rest)

def ReadsItems (fuel : Nat) : Prop :=
  ∀ item items level depth more space gap rest, (∀ c ∈ space, isSpace c = true) →
    (∀ c ∈ gap, isSpace c = true) → FitsItems (Takes d r see) more (item :: items) →
    Enters r depth more → weightItems (item :: items) ≤ fuel →
    JsonText.items r fuel depth
        (space ++ (print d level item ++ (printItems d level items ++ (gap ++ (93 :: rest))))) =
      .ok ((item :: items).map (rebuild r.build ∘ seen see), rest)

def ReadsFields (fuel : Nat) : Prop :=
  ∀ key item fields level depth more space gap rest, (∀ c ∈ space, isSpace c = true) →
    (∀ c ∈ gap, isSpace c = true) → FitsFields (Takes d r see) more ((key, item) :: fields) →
    Enters r depth more → weightFields ((key, item) :: fields) ≤ fuel →
    JsonText.fields r fuel depth
        (space ++ (d.quoted key ++ (58 :: (d.afterColon ++ (print d level item ++
          (printFields d level fields ++ (gap ++ (125 :: rest)))))))) =
      .ok (((key, item) :: fields).map fun field => (field.1, rebuild r.build (seen see field.2)),
        rest)

variable {d r see}

theorem quoted_append (key rest : Text) :
    d.quoted key ++ rest = 34 :: (d.escape key ++ 34 :: rest) := by
  rw [Dialect.quoted, List.cons_append, List.append_assoc]
  rfl

theorem string_escaped (key rest : Text) :
    r.string (d.escape key ++ 34 :: rest) = .ok (key, rest) := by
  rw [Reader.string, unquote_spelled (d.escape_spelled key)]

theorem enters_first {depth more : Nat} (enters : Enters r depth (more + 1)) :
    r.enter depth = .ok () := by
  have first := enters 0 (Nat.succ_pos more)
  rw [Nat.add_zero] at first
  rw [Reader.enter, first]

theorem enters_next {depth more : Nat} (enters : Enters r depth (more + 1)) :
    Enters r (depth + 1) more := by
  intro k below
  have later := enters (k + 1) (Nat.succ_lt_succ below)
  rwa [← Nat.add_assoc, Nat.add_right_comm] at later

theorem reads_items {fuel : Nat} (values : ReadsValues d r see fuel)
    (following : ReadsItems d r see fuel) : ReadsItems d r see (fuel + 1) := by
  intro item items level depth more space gap rest spaces gaps fits enters light
  rw [weightItems] at light
  rw [FitsItems] at fits
  have close : Stops (gap ++ (93 :: rest)) := stops_append gaps (stops_cons rfl rest)
  have first := values item level depth more space _ spaces (stops_printItems d level items close)
    fits.1 enters (by omega)
  rw [JsonText.items, bind_next first]
  cases items with
  | nil =>
    have bracket : isSpace 93 = false := rfl
    simp only [printItems, List.nil_append, skip gaps bracket, if_pos]
    rfl
  | cons next items =>
    have others := following next items level depth more (d.newline level) gap rest
      (d.newline_space level) gaps fits.2 enters (by omega)
    have comma (after : Text) : (44 :: after).dropWhile isSpace = 44 :: after := rfl
    rw [printItems, List.cons_append, List.append_assoc, List.append_assoc]
    simp only [comma, if_neg (show ¬ 44 = 93 by decide), if_pos]
    rw [bind_next others]
    rfl

theorem reads_fields {fuel : Nat} (values : ReadsValues d r see fuel)
    (following : ReadsFields d r see fuel) : ReadsFields d r see (fuel + 1) := by
  intro key item fields level depth more space gap rest spaces gaps fits enters light
  rw [weightFields] at light
  rw [FitsFields] at fits
  have close : Stops (gap ++ (125 :: rest)) := stops_append gaps (stops_cons rfl rest)
  have first := values item level depth more d.afterColon _ d.colon_space
    (stops_printFields d level fields close) fits.1 enters (by omega)
  have colon (after : Text) : (58 :: after).dropWhile isSpace = 58 :: after := rfl
  rw [JsonText.fields, quoted_append, skip spaces rfl]
  simp only [if_pos, bind_next (string_escaped (d := d) (r := r) key _), colon]
  rw [bind_next first]
  cases fields with
  | nil =>
    have brace : isSpace 125 = false := rfl
    simp only [printFields, List.nil_append, skip gaps brace, if_pos]
    rfl
  | cons next fields =>
    obtain ⟨nextKey, next⟩ := next
    have others := following nextKey next fields level depth more (d.newline level) gap rest
      (d.newline_space level) gaps fits.2 enters (by omega)
    have comma (after : Text) : (44 :: after).dropWhile isSpace = 44 :: after := rfl
    rw [printFields, List.cons_append]
    simp only [List.append_assoc, List.cons_append, comma, if_neg (show ¬ 44 = 125 by decide),
      if_pos]
    rw [bind_next others]
    rfl

theorem literal_word (word : Text) (v : Json M) (rest : Text) :
    r.literal word v (word ++ rest) = .ok (v, rest) := by
  rw [Reader.literal, List.take_left, List.drop_left, if_pos rfl]

theorem rebuild_items (items : List (Json N)) :
    Json.array (items.map (rebuild r.build ∘ seen see)) =
      rebuild r.build (seen see (.array items)) := by
  rw [seen, substitute, substituteItems_map, rebuild, rebuildItems_map, List.map_map]
  rfl

theorem rebuild_fields (fields : List (Text × Json N)) :
    Json.object (r.build (fields.map fun field => (field.1, rebuild r.build (seen see field.2)))) =
      rebuild r.build (seen see (.object fields)) := by
  rw [seen, substitute, substituteFields_map, rebuild, rebuildFields_map, List.map_map]
  rfl

theorem value_array {fuel depth : Nat} {source rest : Text}
    (start : source.dropWhile isSpace = 91 :: rest) :
    value r (fuel + 1) depth source = do
      r.enter depth
      match rest.dropWhile isSpace with
      | [] => .error r.malformed
      | close :: after =>
        if close = 93 then return (.array [], after)
        else
          let found ← items r fuel (depth + 1) rest
          return (.array found.1, found.2) := by
  rw [value, start]
  rfl

theorem value_object {fuel depth : Nat} {source rest : Text}
    (start : source.dropWhile isSpace = 123 :: rest) :
    value r (fuel + 1) depth source = do
      r.enter depth
      match rest.dropWhile isSpace with
      | [] => .error r.malformed
      | close :: after =>
        if close = 125 then return (.object (r.build []), after)
        else
          let found ← fields r fuel (depth + 1) rest
          return (.object (r.build found.1), found.2) := by
  rw [value, start]
  rfl

theorem reads_values {fuel : Nat} (arrays : ReadsItems d r see fuel)
    (objects : ReadsFields d r see fuel) : ReadsValues d r see (fuel + 1) := by
  intro v level depth more space rest spaces stops fits enters light
  obtain ⟨c, word, printed, solid, _⟩ := print_first d level v
  have start : (space ++ (print d level v ++ rest)).dropWhile isSpace =
      print d level v ++ rest := by
    rw [printed, List.cons_append, skip spaces solid]
  cases v with
  | null =>
    rw [value, start, print]
    exact literal_word (r := r) [117, 108, 108] .null rest
  | bool value =>
    cases value with
    | true =>
      rw [JsonText.value, start, print]
      exact literal_word (r := r) [114, 117, 101] (.bool true) rest
    | false =>
      rw [JsonText.value, start, print]
      exact literal_word (r := r) [97, 108, 115, 101] (.bool false) rest
  | number n =>
    rw [Fits] at fits
    obtain ⟨c, word, written, numeric⟩ := numeric_first d.numbers n
    have taken := fits rest stops
    rw [value, start, print]
    rw [written, List.cons_append] at taken ⊢
    have plain : c ≠ 110 ∧ c ≠ 116 ∧ c ≠ 102 ∧ c ≠ 34 ∧ c ≠ 91 ∧ c ≠ 123 := by
      refine ⟨?_, ?_, ?_, ?_, ?_, ?_⟩ <;> intro same <;> rw [same] at numeric <;>
        exact absurd numeric (by decide)
    obtain ⟨n1, n2, n3, n4, n5, n6⟩ := plain
    simp only [if_neg n1, if_neg n2, if_neg n3, if_neg n4, if_neg n5, if_neg n6]
    rw [bind_next taken]
    rfl
  | text s =>
    rw [value, start, print, quoted_append]
    simp only [if_neg (show ¬ 34 = 110 by decide), if_neg (show ¬ 34 = 116 by decide),
      if_neg (show ¬ 34 = 102 by decide), if_pos]
    rw [bind_next (string_escaped s rest)]
    rfl
  | array items =>
    cases more with
    | zero => exact (fits : False).elim
    | succ more =>
      rw [Fits] at fits
      have entered := enters_first enters
      cases items with
      | nil =>
        rw [print] at start ⊢
        rw [value_array start, bind_next entered]
        rfl
      | cons item items =>
        obtain ⟨first, after, itemPrinted, itemSolid, itemOpen⟩ := print_first d (level + 1) item
        have body := arrays item items (level + 1) (depth + 1) more (d.newline (level + 1))
          (d.newline level) rest (d.newline_space _) (d.newline_space _) fits
          (enters_next enters) (by rw [weight] at light; omega)
        rw [print, List.cons_append] at start ⊢
        rw [value_array start]
        simp only [List.append_assoc, List.cons_append, List.nil_append]
        rw [bind_next entered, bind_next body, itemPrinted, List.cons_append,
          skip (d.newline_space _) itemSolid]
        simp only [if_neg itemOpen, ← rebuild_items]
        rfl
  | object fields =>
    cases more with
    | zero => exact (fits : False).elim
    | succ more =>
      rw [Fits] at fits
      have entered := enters_first enters
      cases fields with
      | nil =>
        rw [print] at start ⊢
        rw [value_object start, bind_next entered]
        rfl
      | cons field fields =>
        obtain ⟨key, item⟩ := field
        have body := objects key item fields (level + 1) (depth + 1) more (d.newline (level + 1))
          (d.newline level) rest (d.newline_space _) (d.newline_space _) fits
          (enters_next enters) (by rw [weight] at light; omega)
        rw [print, List.cons_append] at start ⊢
        rw [value_object start]
        simp only [List.append_assoc, List.cons_append, List.nil_append]
        rw [bind_next entered, bind_next body, quoted_append,
          skip (d.newline_space _) (show isSpace 34 = false from rfl)]
        simp only [if_neg (show ¬ 34 = 125 by decide), ← rebuild_fields]
        rfl

theorem reads_all (fuel : Nat) :
    ReadsValues d r see fuel ∧ ReadsItems d r see fuel ∧ ReadsFields d r see fuel := by
  induction fuel with
  | zero =>
    refine ⟨?_, ?_, ?_⟩
    · intro v level depth more space rest _ _ _ _ light
      exact absurd light (Nat.not_le.2 (weight_pos v))
    · intro item items level depth more space gap rest _ _ _ _ light
      rw [weightItems] at light
      omega
    · intro key item fields level depth more space gap rest _ _ _ _ light
      rw [weightFields] at light
      omega
  | succ fuel ih =>
    obtain ⟨values, arrays, objects⟩ := ih
    exact ⟨reads_values arrays objects, reads_items values arrays, reads_fields values objects⟩

end

/-! ## The whole text -/

theorem write_length (format : NumberFormat N) (n : N) : 1 ≤ (format.write n).length :=
  List.length_pos_of_ne_nil (format.nonempty n)

mutual

/-- A text is long enough to be the fuel of its own reading. -/
theorem weight_le_length (d : Dialect N) (v : Json N) (level : Nat) :
    weight v ≤ (print d level v).length := by
  match v with
  | .null =>
    simp only [weight, print, List.length_cons]
    omega
  | .bool true =>
    simp only [weight, print, List.length_cons]
    omega
  | .bool false =>
    simp only [weight, print, List.length_cons]
    omega
  | .number n =>
    simp only [weight, print]
    exact write_length d.numbers n
  | .text s =>
    simp only [weight, print, Dialect.quoted, List.length_cons]
    omega
  | .array [] =>
    simp only [weight, weightItems, print, List.length_cons]
    omega
  | .array (item :: items) =>
    have first := weight_le_length d item (level + 1)
    have others := weightItems_le_length d items (level + 1)
    simp only [weight, weightItems, print, List.length_cons, List.length_append]
    omega
  | .object [] =>
    simp only [weight, weightFields, print, List.length_cons]
    omega
  | .object ((key, item) :: fields) =>
    have first := weight_le_length d item (level + 1)
    have others := weightFields_le_length d fields (level + 1)
    simp only [weight, weightFields, print, List.length_cons, List.length_append]
    omega

theorem weightItems_le_length (d : Dialect N) (items : List (Json N)) (level : Nat) :
    weightItems items ≤ (printItems d level items).length := by
  match items with
  | [] =>
    rw [weightItems]
    exact Nat.zero_le _
  | item :: items =>
    have first := weight_le_length d item level
    have others := weightItems_le_length d items level
    simp only [weightItems, printItems, List.length_cons, List.length_append]
    omega

theorem weightFields_le_length (d : Dialect N) (fields : List (Text × Json N)) (level : Nat) :
    weightFields fields ≤ (printFields d level fields).length := by
  match fields with
  | [] =>
    rw [weightFields]
    exact Nat.zero_le _
  | (key, item) :: fields =>
    have first := weight_le_length d item level
    have others := weightFields_le_length d fields level
    simp only [weightFields, printFields, List.length_cons, List.length_append]
    omega

end

mutual

/-- The weight of a value is more than its nesting. -/
theorem fits_weight {P : N → Prop} (all : ∀ n, P n) (v : Json N) {depth : Nat}
    (light : weight v ≤ depth) : Fits P depth v := by
  match v with
  | .null =>
    rw [Fits]
    trivial
  | .bool _ =>
    rw [Fits]
    trivial
  | .number n =>
    rw [Fits]
    exact all n
  | .text _ =>
    rw [Fits]
    trivial
  | .array items =>
    rw [weight] at light
    cases depth with
    | zero => omega
    | succ depth =>
      rw [Fits]
      exact fitsItems_weight all items (by omega)
  | .object fields =>
    rw [weight] at light
    cases depth with
    | zero => omega
    | succ depth =>
      rw [Fits]
      exact fitsFields_weight all fields (by omega)

theorem fitsItems_weight {P : N → Prop} (all : ∀ n, P n) (items : List (Json N)) {depth : Nat}
    (light : weightItems items ≤ depth) : FitsItems P depth items := by
  match items with
  | [] =>
    rw [FitsItems]
    trivial
  | item :: items =>
    rw [weightItems] at light
    rw [FitsItems]
    exact ⟨fits_weight all item (by omega), fitsItems_weight all items (by omega)⟩

theorem fitsFields_weight {P : N → Prop} (all : ∀ n, P n) (fields : List (Text × Json N))
    {depth : Nat} (light : weightFields fields ≤ depth) : FitsFields P depth fields := by
  match fields with
  | [] =>
    rw [FitsFields]
    trivial
  | (_, item) :: fields =>
    rw [weightFields] at light
    rw [FitsFields]
    exact ⟨fits_weight all item (by omega), fitsFields_weight all fields (by omega)⟩

end

/-- A reader that takes the numbers and the nesting of a value reads its text. -/
theorem scan_print {d : Dialect N} {r : Reader E M} {see : N → M} {v : Json N} {more : Nat}
    (fits : Fits (Takes d r see) more v) (enters : Enters r 0 more) {ending : Text}
    (spaces : ∀ c ∈ ending, isSpace c = true) :
    scan r (print d 0 v ++ ending) = .ok (rebuild r.build (seen see v)) := by
  have stops : Stops ending := List.append_nil ending ▸ stops_append spaces stops_nil
  have light : weight v ≤ 2 * (print d 0 v ++ ending).length + 1 := by
    have own := weight_le_length d v 0
    rw [List.length_append]
    omega
  obtain ⟨values, _, _⟩ :=
    @reads_all E N M d r see (2 * (print d 0 v ++ ending).length + 1)
  have read := values v 0 0 more [] ending (fun _ none => absurd none List.not_mem_nil) stops fits
    enters light
  rw [List.nil_append] at read
  have rest : ending.dropWhile isSpace = [] := by
    have whole := @List.dropWhile_append_of_pos _ isSpace ending [] spaces
    rwa [List.append_nil] at whole
  rw [scan, bind_next read, if_pos rest]
  rfl

theorem plain_takes (d : Dialect N) (build : List (Text × Json N) → List (Text × Json N)) (n : N) :
    Takes d (plain d.numbers.read build) id n := by
  intro rest stops
  obtain ⟨taken, dropped⟩ := span_numeric d.numbers n stops
  have some_digit : (d.numbers.write n ++ rest).takeWhile isNumeric ≠ [] := by
    rw [taken]
    exact d.numbers.nonempty n
  simp only [plain, if_neg some_digit]
  simp only [taken, dropped, d.numbers.read_write, id]

theorem parse_print {build : List (Text × Json N) → List (Text × Json N)} (d : Dialect N)
    (v : Json N) {ending : Text} (spaces : ∀ c ∈ ending, isSpace c = true) :
    parse d.numbers.read build (print d 0 v ++ ending) = some (rebuild build v) := by
  have read := scan_print (fits_weight (plain_takes d build) v (Nat.le_refl _)) (fun _ _ => rfl)
    spaces
  rw [seen_id] at read
  rw [parse, read]
  rfl

/-- A text is printed from one value only. -/
theorem print_injective (d : Dialect N) {v w : Json N} (same : print d 0 v = print d 0 w) :
    v = w := by
  have read (u : Json N) : parse d.numbers.read id (print d 0 u) = some u := by
    have whole := @parse_print N id d u [] fun _ none => absurd none List.not_mem_nil
    rwa [List.append_nil, rebuild_id] at whole
  exact Option.some.inj ((read v).symm.trans ((congrArg _ same).trans (read w)))

end JsonText
