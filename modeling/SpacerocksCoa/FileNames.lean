import Mathlib.Data.List.DropRight
import SpacerocksCoa.FreshSearch
import SpacerocksCoa.SessionStorage

/-!
# The file names of photographs

A photograph is stored under its uploaded name, made safe and then numbered until no other
photograph has it in any case. What the normalization of the name gives does not matter: only
safe characters are left of it.
-/
namespace FileNames
open JsonText (Text units)
open CodeUnits

/-! ## Safe names -/

def safeChar (c : Nat) : Bool := alphanumeric c || c == 46 || c == 95 || c == 45

/-- `name.replaceAll("\\", "/").split("/").pop()` -/
def baseName (name : Text) : Text :=
  (name.map fun c => if c = 92 then 47 else c).rtakeWhile fun c => c != 47

/-- `[\u0300-\u036f]` -/
def combining (c : Nat) : Bool := 768 ≤ c && c ≤ 879

/-- `replace(/[^A-Za-z0-9._-]+/g, "-")`; the flag says that a run of other characters goes on. -/
def replaceRuns : Bool → Text → Text
  | _, [] => []
  | running, c :: rest =>
    if safeChar c then c :: replaceRuns false rest
    else if running then replaceRuns true rest
    else 45 :: replaceRuns true rest

/-- `replace(/^-+|-+$/g, "")` -/
def trimHyphens (s : Text) : Text := (s.dropWhile fun c => c == 45).rdropWhile fun c => c == 45

/-- `normalize` stands for the normalization to NFKD. -/
def sanitizeFileName (normalize : Text → Text) (name : Text) : Text :=
  let normalized := (normalize (baseName name)).filter fun c => !combining c
  let safe := trimHyphens (replaceRuns false normalized)
  if safe ≠ [] ∧ safe ≠ units "." ∧ safe ≠ units ".." then safe else units "file"

/-! ## Free names -/

def lastIndexOf (c : Nat) (s : Text) : Int :=
  if c ∈ s then ((s.length - 1 - s.reverse.idxOf c : Nat) : Int) else -1

def stem (safe : Text) : Text :=
  if 0 < lastIndexOf 46 safe then safe.take (lastIndexOf 46 safe).toNat else safe

def extension (safe : Text) : Text :=
  if 0 < lastIndexOf 46 safe then safe.drop (lastIndexOf 46 safe).toNat else []

/-- `${stem}-${suffix}${extension}` -/
def numbered (safe : Text) (suffix : Nat) : Text :=
  stem safe ++ 45 :: (natText suffix ++ extension safe)

/-- The loop of `uniqueFileName`; `none` is out of fuel. -/
def freeName (safe : Text) (used : List Text) : Nat → Text → Nat → Option Text
  | 0, _, _ => none
  | fuel + 1, candidate, suffix =>
    if toLowerCase candidate ∈ used then
      freeName safe used fuel (numbered safe suffix) (suffix + 1)
    else some candidate

/-- The name, and the set of used names with it. -/
def uniqueFileName (normalize : Text → Text) (fuel : Nat) (name : Text) (used : List Text) :
    Option (Text × List Text) :=
  let safe := sanitizeFileName normalize name
  match freeName safe used fuel safe 2 with
  | none => none
  | some candidate => some (candidate, toLowerCase candidate :: used)

/-- The names that the photographs get one after another. -/
def fileNames (normalize : Text → Text) (fuel : Nat) : List Text → List Text → Option (List Text)
  | [], _ => some []
  | name :: rest, used =>
    match uniqueFileName normalize fuel name used with
    | none => none
    | some (candidate, used) =>
      match fileNames normalize fuel rest used with
      | none => none
      | some others => some (candidate :: others)

/-- `original-photographs/${fileName}` -/
def photographPath (fileName : Text) : Text := units "original-photographs/" ++ fileName

/-! ## What is left of a name -/

/-- A name that can stand in a package. -/
structure SafeName (s : Text) : Prop where
  characters : s.all safeChar = true
  filled : s ≠ []
  here : s ≠ units "."
  parent : s ≠ units ".."

theorem replaceRuns_safe (running : Bool) (s : Text) :
    ∀ c ∈ replaceRuns running s, safeChar c = true := by
  induction s generalizing running with
  | nil =>
    intro c member
    cases running <;> cases member
  | cons d rest ih =>
    intro c member
    unfold replaceRuns at member
    split at member
    · next safe =>
      rcases List.mem_cons.1 member with rfl | later
      · exact safe
      · exact ih false c later
    · split at member
      · exact ih true c member
      · rcases List.mem_cons.1 member with rfl | later
        · decide
        · exact ih true c later

theorem trimHyphens_subset {s : Text} {c : Nat} (member : c ∈ trimHyphens s) : c ∈ s := by
  unfold trimHyphens List.rdropWhile at member
  have inner := (List.dropWhile_sublist _).subset (List.mem_reverse.1 member)
  exact (List.dropWhile_sublist _).subset (List.mem_reverse.1 inner)

theorem sanitizeFileName_safe (normalize : Text → Text) (name : Text) :
    SafeName (sanitizeFileName normalize name) := by
  unfold sanitizeFileName
  simp only
  split
  · next distinct =>
    refine ⟨List.all_eq_true.2 fun c member => ?_, distinct.1, distinct.2.1, distinct.2.2⟩
    exact replaceRuns_safe false _ c (trimHyphens_subset member)
  · exact ⟨by decide, by decide, by decide, by decide⟩

example : sanitizeFileName id (units "C:\\photos\\Front view.jpg") = units "Front-view.jpg" := by
  decide
example : sanitizeFileName id (units "-.-") = units "file" := by decide

/-! ## Numbered names -/

theorem stem_extension (safe : Text) : stem safe ++ extension safe = safe := by
  unfold stem extension
  split
  · exact List.take_append_drop _ safe
  · exact List.append_nil safe

theorem toLowerCase_natText (n : Nat) : toLowerCase (natText n) = natText n :=
  toLowerCase_eq fun c member => by
    have digit := natText_digit n c member
    omega

/-- The names that are tried one after another. -/
def candidates (safe : Text) : Nat → Text
  | 0 => safe
  | n + 1 => numbered safe (n + 2)

theorem numbered_length (safe : Text) (suffix : Nat) :
    (numbered safe suffix).length = safe.length + 1 + (natText suffix).length := by
  have whole := congrArg List.length (stem_extension safe)
  rw [List.length_append] at whole
  rw [numbered, List.length_append, List.length_cons, List.length_append]
  omega

theorem numbered_injective {safe : Text} {m n : Nat}
    (same : toLowerCase (numbered safe m) = toLowerCase (numbered safe n)) : m = n := by
  have split : ∀ k, toLowerCase (numbered safe k) =
      toLowerCase (stem safe) ++ 45 :: (natText k ++ toLowerCase (extension safe)) := by
    intro k
    have marked : toLowerCase (45 :: (natText k ++ extension safe)) =
        45 :: toLowerCase (natText k ++ extension safe) := rfl
    rw [numbered, toLowerCase_append, marked, toLowerCase_append, toLowerCase_natText]
  rw [split, split] at same
  have tail := List.tail_eq_of_cons_eq (List.append_cancel_left same)
  exact natText_injective (List.append_cancel_right tail)

theorem candidates_injective (safe : Text) :
    Function.Injective fun i => toLowerCase (candidates safe i) := by
  have longer : ∀ n, toLowerCase safe ≠ toLowerCase (numbered safe n) := by
    intro n same
    have lengths := congrArg List.length same
    rw [toLowerCase_length, toLowerCase_length, numbered_length] at lengths
    omega
  intro i j same
  cases i with
  | zero =>
    cases j with
    | zero => rfl
    | succ j => exact absurd same (longer _)
  | succ i =>
    cases j with
    | zero => exact absurd same.symm (longer _)
    | succ j => exact congrArg Nat.succ (Nat.add_right_cancel (numbered_injective same))

/-! ## The loop -/

/-- The loop tries the candidates until one is free. -/
theorem freeName_eq (safe : Text) (used : List Text) (fuel index : Nat) :
    freeName safe used fuel (candidates safe index) (index + 2) =
      (FreshSearch.search (fun i => toLowerCase (candidates safe i)) used fuel index).map
        (candidates safe) := by
  induction fuel generalizing index with
  | zero => rfl
  | succ fuel ih =>
    have step : freeName safe used (fuel + 1) (candidates safe index) (index + 2) =
        if toLowerCase (candidates safe index) ∈ used then
          freeName safe used fuel (candidates safe (index + 1)) (index + 1 + 2)
        else some (candidates safe index) := rfl
    rw [step, FreshSearch.search]
    by_cases taken : toLowerCase (candidates safe index) ∈ used
    · rw [if_pos taken, if_pos taken]
      exact ih (index + 1)
    · rw [if_neg taken, if_neg taken]
      rfl

theorem numbered_safe {safe : Text} (valid : SafeName safe) (suffix : Nat) :
    SafeName (numbered safe suffix) := by
  have hyphen : 45 ∈ numbered safe suffix :=
    List.mem_append_right _ List.mem_cons_self
  refine ⟨List.all_eq_true.2 fun c member => ?_, ?_, ?_, ?_⟩
  · have inside : c ∈ stem safe ++ extension safe → safeChar c = true := by
      rw [stem_extension]
      exact List.all_eq_true.1 valid.characters c
    rcases List.mem_append.1 member with first | rest
    · exact inside (List.mem_append_left _ first)
    · rcases List.mem_cons.1 rest with rfl | later
      · decide
      · rcases List.mem_append.1 later with digits | last
        · have digit := natText_digit _ _ digits
          simp only [safeChar, alphanumeric, CodeUnits.digit, digit.1, digit.2, decide_true,
            Bool.true_or, Bool.and_self]
        · exact inside (List.mem_append_right _ last)
  · intro empty
    rw [empty] at hyphen
    cases hyphen
  · intro dot
    rw [dot] at hyphen
    exact absurd hyphen (by decide)
  · intro dots
    rw [dots] at hyphen
    exact absurd hyphen (by decide)

theorem candidates_safe {safe : Text} (valid : SafeName safe) (index : Nat) :
    SafeName (candidates safe index) := by
  cases index with
  | zero => exact valid
  | succ index => exact numbered_safe valid _

/-- One name: the loop ends, whatever fuel it has beyond the number of used names. -/
theorem uniqueFileName_ends (normalize : Text → Text) (name : Text) (used : List Text) :
    ∃ candidate, SafeName candidate ∧ toLowerCase candidate ∉ used ∧
      ∀ fuel, used.length < fuel → uniqueFileName normalize fuel name used =
        some (candidate, toLowerCase candidate :: used) := by
  have valid := sanitizeFileName_safe normalize name
  obtain ⟨found, ended⟩ := FreshSearch.search_ends
    (candidates_injective (sanitizeFileName normalize name)) (Nat.lt_succ_self used.length) 0
  refine ⟨candidates (sanitizeFileName normalize name) found, candidates_safe valid found,
    FreshSearch.search_fresh ended, fun fuel enough => ?_⟩
  have loop := freeName_eq (sanitizeFileName normalize name) used fuel 0
  rw [FreshSearch.search_more enough ended, Option.map_some] at loop
  have named : freeName (sanitizeFileName normalize name) used fuel
      (sanitizeFileName normalize name) 2 =
        some (candidates (sanitizeFileName normalize name) found) := loop
  simp only [uniqueFileName, named]

/-! ## All names -/

/-- The names that are given are new, safe and distinct in any case. -/
theorem fileNames_from (normalize : Text → Text) (names used : List Text) :
    ∃ outputs, (∀ fuel, used.length + names.length < fuel →
        fileNames normalize fuel names used = some outputs) ∧
      outputs.length = names.length ∧ (∀ output ∈ outputs, SafeName output) ∧
      (outputs.map toLowerCase).Nodup ∧ ∀ output ∈ outputs, toLowerCase output ∉ used := by
  induction names generalizing used with
  | nil =>
    exact ⟨[], fun _ _ => rfl, rfl, fun _ none => absurd none List.not_mem_nil, List.nodup_nil,
      fun _ none => absurd none List.not_mem_nil⟩
  | cons name rest ih =>
    obtain ⟨candidate, valid, fresh, ends⟩ := uniqueFileName_ends normalize name used
    obtain ⟨others, goes, length, safe, distinct, unused⟩ := ih (toLowerCase candidate :: used)
    refine ⟨candidate :: others, fun fuel enough => ?_, congrArg Nat.succ length, ?_, ?_, ?_⟩
    · rw [List.length_cons] at enough
      have more : (toLowerCase candidate :: used).length + rest.length < fuel := by
        rw [List.length_cons]
        omega
      simp only [fileNames, ends fuel (by omega), goes fuel more]
    · intro output member
      rcases List.mem_cons.1 member with rfl | later
      · exact valid
      · exact safe output later
    · rw [List.map_cons, List.nodup_cons]
      refine ⟨fun again => ?_, distinct⟩
      obtain ⟨output, member, same⟩ := List.mem_map.1 again
      exact unused output member (same ▸ List.mem_cons_self)
    · intro output member
      rcases List.mem_cons.1 member with rfl | later
      · exact fresh
      · exact fun known => unused output later (List.mem_cons_of_mem _ known)

example : fileNames id 3 (["a.jpg", "A.jpg", "a-2.jpg"].map units) [] =
    some (["a.jpg", "A-2.jpg", "a-2-2.jpg"].map units) := by decide

/-- Every photograph gets a name, the loop ends with every fuel beyond the number of names, and
no two photographs get the same path. -/
theorem file_names_are_unique (normalize : Text → Text) (names : List Text) :
    ∃ outputs, (∀ fuel, names.length < fuel →
        fileNames normalize fuel names [] = some outputs) ∧
      outputs.length = names.length ∧ (∀ output ∈ outputs, SafeName output) ∧
      (outputs.map toLowerCase).Nodup ∧ (outputs.map photographPath).Nodup := by
  obtain ⟨outputs, ends, length, safe, distinct, -⟩ := fileNames_from normalize names []
  refine ⟨outputs, fun fuel enough => ends fuel (by rw [List.length_nil]; omega), length, safe,
    distinct, ?_⟩
  have plain : outputs.Nodup := List.Nodup.of_map toLowerCase distinct
  exact plain.map fun a b same => List.append_cancel_left same

end FileNames
