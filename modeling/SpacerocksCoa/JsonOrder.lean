import SpacerocksCoa.JsonText

/-!
# JSON values up to the order of properties

Two values are the same when one comes from the other by reordering the properties of objects
in it. What is done to every object of a value is `rebuild` with what is done to one: when that
keeps the properties, the value stays the same, and when it does not look at their order, values
that are the same become equal. Sorting the properties by key does both.
-/
namespace JsonText

variable {N : Type}

inductive Same : Json N → Json N → Prop where
  | refl (v : Json N) : Same v v
  | trans {u v w : Json N} (first : Same u v) (second : Same v w) : Same u w
  | item {v w : Json N} (before after : List (Json N)) (same : Same v w) :
      Same (.array (before ++ v :: after)) (.array (before ++ w :: after))
  | field {v w : Json N} (before after : List (Text × Json N)) (key : Text) (same : Same v w) :
      Same (.object (before ++ (key, v) :: after)) (.object (before ++ (key, w) :: after))
  | order {fields reordered : List (Text × Json N)} (perm : fields.Perm reordered) :
      Same (.object fields) (.object reordered)

theorem Same.symm {v w : Json N} (same : Same v w) : Same w v := by
  induction same with
  | refl v => exact .refl v
  | trans _ _ first second => exact .trans second first
  | item before after _ ih => exact .item before after ih
  | field before after key _ ih => exact .field before after key ih
  | order perm => exact .order perm.symm

def keys (fields : List (Text × Json N)) : List Text := fields.map Prod.fst

mutual

/-- The keys of every object in the value. -/
def Everywhere (P : List Text → Prop) : Json N → Prop
  | .null => True
  | .bool _ => True
  | .number _ => True
  | .text _ => True
  | .array items => EverywhereItems P items
  | .object fields => P (keys fields) ∧ EverywhereFields P fields

def EverywhereItems (P : List Text → Prop) : List (Json N) → Prop
  | [] => True
  | item :: items => Everywhere P item ∧ EverywhereItems P items

def EverywhereFields (P : List Text → Prop) : List (Text × Json N) → Prop
  | [] => True
  | (_, item) :: fields => Everywhere P item ∧ EverywhereFields P fields

end

/-- An object has each key once. -/
def Distinct (v : Json N) : Prop := Everywhere List.Nodup v

variable {P : List Text → Prop}

theorem everywhereItems_iff (items : List (Json N)) :
    EverywhereItems P items ↔ ∀ item ∈ items, Everywhere P item := by
  induction items with
  | nil =>
    rw [EverywhereItems]
    exact ⟨fun _ _ none => absurd none List.not_mem_nil, fun _ => trivial⟩
  | cons item items ih => rw [EverywhereItems, ih, List.forall_mem_cons]

theorem everywhereFields_iff (fields : List (Text × Json N)) :
    EverywhereFields P fields ↔ ∀ field ∈ fields, Everywhere P field.2 := by
  induction fields with
  | nil =>
    rw [EverywhereFields]
    exact ⟨fun _ _ none => absurd none List.not_mem_nil, fun _ => trivial⟩
  | cons field fields ih =>
    obtain ⟨key, item⟩ := field
    rw [EverywhereFields, ih, List.forall_mem_cons]

theorem forall_mem_replace {α : Type} {Q : α → Prop} {v w : α} {before after : List α}
    (all : ∀ x ∈ before ++ v :: after, Q x) (new : Q w) : ∀ x ∈ before ++ w :: after, Q x := by
  intro x member
  rcases List.mem_append.1 member with first | last
  · exact all x (List.mem_append_left _ first)
  · rcases List.mem_cons.1 last with here | later
    · exact here ▸ new
    · exact all x (List.mem_append_right _ (List.mem_cons_of_mem _ later))

theorem keys_replace (before after : List (Text × Json N)) (key : Text) (v w : Json N) :
    keys (before ++ (key, v) :: after) = keys (before ++ (key, w) :: after) := by
  simp only [keys, List.map_append, List.map_cons]

theorem everywhere_same
    (free : ∀ {first second : List Text}, first.Perm second → P first → P second)
    {v w : Json N} (same : Same v w) (all : Everywhere P v) : Everywhere P w := by
  induction same with
  | refl v => exact all
  | trans _ _ first second => exact second (first all)
  | item before after _ ih =>
    rw [Everywhere, everywhereItems_iff] at all ⊢
    exact forall_mem_replace all (ih (all _ (List.mem_append_right _ List.mem_cons_self)))
  | field before after key _ ih =>
    rw [Everywhere, everywhereFields_iff] at all ⊢
    refine ⟨keys_replace before after key _ _ ▸ all.1, ?_⟩
    exact forall_mem_replace all.2 (ih (all.2 _ (List.mem_append_right _ List.mem_cons_self)))
  | order perm =>
    rw [Everywhere, everywhereFields_iff] at all ⊢
    exact ⟨free (perm.map _) all.1, fun field member => all.2 field (perm.mem_iff.2 member)⟩

mutual

theorem everywhere_and {Q : List Text → Prop} {v : Json N} (first : Everywhere P v)
    (second : Everywhere Q v) : Everywhere (fun names => P names ∧ Q names) v := by
  match v with
  | .null =>
    rw [Everywhere]
    trivial
  | .bool _ =>
    rw [Everywhere]
    trivial
  | .number _ =>
    rw [Everywhere]
    trivial
  | .text _ =>
    rw [Everywhere]
    trivial
  | .array items =>
    rw [Everywhere] at first second ⊢
    exact everywhereItems_and items first second
  | .object fields =>
    rw [Everywhere] at first second ⊢
    exact ⟨⟨first.1, second.1⟩, everywhereFields_and fields first.2 second.2⟩

theorem everywhereItems_and {Q : List Text → Prop} (items : List (Json N))
    (first : EverywhereItems P items) (second : EverywhereItems Q items) :
    EverywhereItems (fun names => P names ∧ Q names) items := by
  match items with
  | [] => trivial
  | item :: items =>
    rw [EverywhereItems] at first second ⊢
    exact ⟨everywhere_and first.1 second.1, everywhereItems_and items first.2 second.2⟩

theorem everywhereFields_and {Q : List Text → Prop} (fields : List (Text × Json N))
    (first : EverywhereFields P fields) (second : EverywhereFields Q fields) :
    EverywhereFields (fun names => P names ∧ Q names) fields := by
  match fields with
  | [] => trivial
  | (key, item) :: fields =>
    rw [EverywhereFields] at first second ⊢
    exact ⟨everywhere_and first.1 second.1, everywhereFields_and fields first.2 second.2⟩

end

theorem distinct_same {v w : Json N} (same : Same v w) (distinct : Distinct v) : Distinct w :=
  everywhere_same (fun perm => perm.nodup_iff.1) same distinct

/-! ## What is done to every object -/

variable {build : List (Text × Json N) → List (Text × Json N)}

theorem rebuildFields_keys (fields : List (Text × Json N)) :
    keys (rebuildFields build fields) = keys fields := by
  rw [rebuildFields_map, keys, List.map_map]
  rfl

mutual

theorem rebuild_same (keeps : ∀ fields, P (keys fields) → (build fields).Perm fields)
    (v : Json N) (all : Everywhere P v) : Same (rebuild build v) v := by
  match v with
  | .null =>
    rw [rebuild]
    exact .refl _
  | .bool _ =>
    rw [rebuild]
    exact .refl _
  | .number _ =>
    rw [rebuild]
    exact .refl _
  | .text _ =>
    rw [rebuild]
    exact .refl _
  | .array items =>
    rw [Everywhere] at all
    rw [rebuild]
    exact rebuildItems_same keeps items all []
  | .object fields =>
    rw [Everywhere] at all
    rw [rebuild]
    refine .trans (.order (keeps _ ?_)) (rebuildFields_same keeps fields all.2 [])
    rw [rebuildFields_keys]
    exact all.1

theorem rebuildItems_same (keeps : ∀ fields, P (keys fields) → (build fields).Perm fields)
    (items : List (Json N)) (all : EverywhereItems P items) (before : List (Json N)) :
    Same (.array (before ++ rebuildItems build items)) (.array (before ++ items)) := by
  match items with
  | [] =>
    rw [rebuildItems]
    exact .refl _
  | item :: items =>
    rw [EverywhereItems] at all
    rw [rebuildItems]
    refine .trans (.item before _ (rebuild_same keeps item all.1)) ?_
    have others := rebuildItems_same keeps items all.2 (before ++ [item])
    rwa [List.append_assoc, List.append_assoc] at others

theorem rebuildFields_same (keeps : ∀ fields, P (keys fields) → (build fields).Perm fields)
    (fields : List (Text × Json N)) (all : EverywhereFields P fields)
    (before : List (Text × Json N)) :
    Same (.object (before ++ rebuildFields build fields)) (.object (before ++ fields)) := by
  match fields with
  | [] =>
    rw [rebuildFields]
    exact .refl _
  | (key, item) :: fields =>
    rw [EverywhereFields] at all
    rw [rebuildFields]
    refine .trans (.field before _ key (rebuild_same keeps item all.1)) ?_
    have others := rebuildFields_same keeps fields all.2 (before ++ [(key, item)])
    rwa [List.append_assoc, List.append_assoc] at others

end

mutual

/-- What holds of the keys of every object that is built. -/
theorem everywhere_rebuild {Q : List Text → Prop}
    (built : ∀ fields, P (keys fields) → Q (keys (build fields)) ∧ build fields ⊆ fields)
    (v : Json N) (all : Everywhere P v) : Everywhere Q (rebuild build v) := by
  match v with
  | .null =>
    rw [rebuild, Everywhere]
    trivial
  | .bool _ =>
    rw [rebuild, Everywhere]
    trivial
  | .number _ =>
    rw [rebuild, Everywhere]
    trivial
  | .text _ =>
    rw [rebuild, Everywhere]
    trivial
  | .array items =>
    rw [Everywhere] at all
    rw [rebuild, Everywhere, everywhereItems_iff, rebuildItems_map, List.forall_mem_map]
    exact everywhereItems_rebuild built items all
  | .object fields =>
    rw [Everywhere] at all
    obtain ⟨names, members⟩ := built (rebuildFields build fields) (by
      rw [rebuildFields_keys]
      exact all.1)
    rw [rebuild, Everywhere, everywhereFields_iff]
    refine ⟨names, fun field member => ?_⟩
    have old := members member
    rw [rebuildFields_map] at old
    obtain ⟨source, inside, same⟩ := List.mem_map.1 old
    rw [← same]
    exact everywhereFields_rebuild built fields all.2 source inside

theorem everywhereItems_rebuild {Q : List Text → Prop}
    (built : ∀ fields, P (keys fields) → Q (keys (build fields)) ∧ build fields ⊆ fields)
    (items : List (Json N)) (all : EverywhereItems P items) :
    ∀ item ∈ items, Everywhere Q (rebuild build item) := by
  match items with
  | [] => exact fun _ none => absurd none List.not_mem_nil
  | item :: items =>
    rw [EverywhereItems] at all
    exact List.forall_mem_cons.2
      ⟨everywhere_rebuild built item all.1, everywhereItems_rebuild built items all.2⟩

theorem everywhereFields_rebuild {Q : List Text → Prop}
    (built : ∀ fields, P (keys fields) → Q (keys (build fields)) ∧ build fields ⊆ fields)
    (fields : List (Text × Json N)) (all : EverywhereFields P fields) :
    ∀ field ∈ fields, Everywhere Q (rebuild build field.2) := by
  match fields with
  | [] => exact fun _ none => absurd none List.not_mem_nil
  | (key, item) :: fields =>
    rw [EverywhereFields] at all
    exact List.forall_mem_cons.2
      ⟨everywhere_rebuild built item all.1, everywhereFields_rebuild built fields all.2⟩

end

theorem rebuild_eq
    (orderless : ∀ fields reordered, (keys fields).Nodup → fields.Perm reordered →
      build fields = build reordered)
    {v w : Json N} (same : Same v w) (distinct : Distinct v) :
    rebuild build v = rebuild build w := by
  induction same with
  | refl v => rfl
  | trans first _ left right => exact (left distinct).trans (right (distinct_same first distinct))
  | item before after _ ih =>
    rw [Distinct, Everywhere, everywhereItems_iff] at distinct
    have inner := ih (distinct _ (List.mem_append_right _ List.mem_cons_self))
    simp only [rebuild, rebuildItems_map, List.map_append, List.map_cons, inner]
  | field before after key _ ih =>
    rw [Distinct, Everywhere, everywhereFields_iff] at distinct
    have inner := ih (distinct.2 _ (List.mem_append_right _ List.mem_cons_self))
    simp only [rebuild, rebuildFields_map, List.map_append, List.map_cons, inner]
  | @order fields reordered perm =>
    rw [Distinct, Everywhere] at distinct
    rw [rebuild, rebuild, orderless _ (rebuildFields build reordered)]
    · rw [rebuildFields_keys]
      exact distinct.1
    · rw [rebuildFields_map, rebuildFields_map]
      exact perm.map _

/-! ## Sorted properties -/

/-- Keys are compared code by code, and a key comes after its prefixes. -/
def KeyLe (first second : Text) : Prop := @LE.le (List Nat) List.instLE first second

instance (first second : Text) : Decidable (KeyLe first second) :=
  inferInstanceAs (Decidable (@LE.le (List Nat) List.instLE first second))

def sortFields (fields : List (Text × Json N)) : List (Text × Json N) :=
  fields.insertionSort fun first second => KeyLe first.1 second.1

theorem sortFields_perm (fields : List (Text × Json N)) : (sortFields fields).Perm fields :=
  List.perm_insertionSort _ fields

theorem sortFields_sorted (fields : List (Text × Json N)) :
    (sortFields fields).Pairwise fun first second => KeyLe first.1 second.1 := by
  have total : Std.Total fun first second : Text × Json N => KeyLe first.1 second.1 :=
    ⟨fun first second => List.le_total first.1 second.1⟩
  have transitive : IsTrans (Text × Json N) fun first second => KeyLe first.1 second.1 :=
    ⟨fun _ _ _ => List.le_trans⟩
  exact List.pairwise_insertionSort _ fields

theorem sortFields_eq {fields reordered : List (Text × Json N)} (distinct : (keys fields).Nodup)
    (perm : fields.Perm reordered) : sortFields fields = sortFields reordered := by
  have sorted := (sortFields_perm fields).trans (perm.trans (sortFields_perm reordered).symm)
  refine sorted.eq_of_pairwise ?_ (sortFields_sorted fields) (sortFields_sorted reordered)
  intro first second left right below above
  have one := (sortFields_perm fields).mem_iff.1 left
  have other := perm.mem_iff.2 ((sortFields_perm reordered).mem_iff.1 right)
  exact List.inj_on_of_nodup_map distinct one other (List.le_antisymm below above)

theorem sort_same {v : Json N} (distinct : Distinct v) : Same (rebuild sortFields v) v :=
  rebuild_same (fun fields _ => sortFields_perm fields) v distinct

theorem sort_eq {v w : Json N} (same : Same v w) (distinct : Distinct v) :
    rebuild sortFields v = rebuild sortFields w :=
  rebuild_eq (fun _ _ => sortFields_eq) same distinct

/-- Sorted values are equal exactly when the values are the same. -/
theorem sort_eq_iff {v w : Json N} (left : Distinct v) (right : Distinct w) :
    rebuild sortFields v = rebuild sortFields w ↔ Same v w := by
  constructor
  · intro equal
    exact .trans (sort_same left).symm (equal ▸ sort_same right)
  · exact fun same => sort_eq same left

/-! ## What is done to the numbers -/

section Substitution
variable {M : Type} (f : N → Json M)

theorem substituteFields_keys (fields : List (Text × Json N)) :
    keys (substituteFields f fields) = keys fields := by
  rw [substituteFields_map, keys, keys, List.map_map]
  rfl

theorem substitute_same {v w : Json N} (same : Same v w) :
    Same (substitute f v) (substitute f w) := by
  induction same with
  | refl v => exact .refl _
  | trans _ _ first second => exact .trans first second
  | item before after _ ih =>
    simp only [substitute, substituteItems_map, List.map_append, List.map_cons]
    exact .item _ _ ih
  | field before after key _ ih =>
    simp only [substitute, substituteFields_map, List.map_append, List.map_cons]
    exact .field _ _ key ih
  | order perm =>
    simp only [substitute, substituteFields_map]
    exact .order (perm.map _)

variable {f} {P : List Text → Prop}

mutual

theorem everywhere_substitute (leaves : ∀ n, Everywhere P (f n))
    {v : Json N} (all : Everywhere P v) :
    Everywhere P (substitute f v) := by
  match v with
  | .null =>
    rw [substitute, Everywhere]
    trivial
  | .bool _ =>
    rw [substitute, Everywhere]
    trivial
  | .number n =>
    rw [substitute]
    exact leaves n
  | .text _ =>
    rw [substitute, Everywhere]
    trivial
  | .array items =>
    rw [Everywhere] at all
    rw [substitute, Everywhere]
    exact everywhereItems_substitute leaves items all
  | .object fields =>
    rw [Everywhere] at all
    rw [substitute, Everywhere, substituteFields_keys]
    exact ⟨all.1, everywhereFields_substitute leaves fields all.2⟩

theorem everywhereItems_substitute (leaves : ∀ n, Everywhere P (f n))
    (items : List (Json N)) (all : EverywhereItems P items) :
    EverywhereItems P (substituteItems f items) := by
  match items with
  | [] => trivial
  | item :: items =>
    rw [EverywhereItems] at all
    rw [substituteItems, EverywhereItems]
    exact ⟨everywhere_substitute leaves all.1, everywhereItems_substitute leaves items all.2⟩

theorem everywhereFields_substitute (leaves : ∀ n, Everywhere P (f n))
    (fields : List (Text × Json N)) (all : EverywhereFields P fields) :
    EverywhereFields P (substituteFields f fields) := by
  match fields with
  | [] => trivial
  | (key, item) :: fields =>
    rw [EverywhereFields] at all
    rw [substituteFields, EverywhereFields]
    exact ⟨everywhere_substitute leaves all.1, everywhereFields_substitute leaves fields all.2⟩

end

end Substitution

theorem everywhere_number (n : N) : Everywhere P (.number n) := by
  rw [Everywhere]
  trivial

theorem seen_distinct {M : Type} {see : N → M} {v : Json N} (distinct : Distinct v) :
    Distinct (seen see v) :=
  everywhere_substitute (fun _ => everywhere_number _) distinct

/-- The order of properties makes no difference to the numbers and the nesting. -/
theorem fits_same {Q : N → Prop} {v w : Json N} (same : Same v w) {depth : Nat}
    (fits : Fits Q depth v) : Fits Q depth w := by
  induction same generalizing depth with
  | refl v => exact fits
  | trans _ _ first second => exact second (first fits)
  | item before after _ ih =>
    cases depth with
    | zero => exact fits
    | succ depth =>
      rw [Fits, fitsItems_iff] at fits ⊢
      exact forall_mem_replace fits (ih (fits _ (List.mem_append_right _ List.mem_cons_self)))
  | field before after key _ ih =>
    cases depth with
    | zero => exact fits
    | succ depth =>
      rw [Fits, fitsFields_iff] at fits ⊢
      exact forall_mem_replace fits (ih (fits _ (List.mem_append_right _ List.mem_cons_self)))
  | order perm =>
    cases depth with
    | zero => exact fits
    | succ depth =>
      rw [Fits, fitsFields_iff] at fits ⊢
      exact fun field member => fits field (perm.mem_iff.2 member)

end JsonText
