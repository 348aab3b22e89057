import Mathlib.Data.List.Perm.Subperm
import Mathlib.Data.List.Nodup

/-!
# The first candidate that is not used

A loop that tries one candidate after another until one is not in a list. Candidates that are
distinct fill the list up, so the loop ends after at most one step more than the list is long.
-/
namespace FreshSearch

variable {α : Type} [DecidableEq α]

/-- The first index from `index` on whose candidate is not used; `none` is out of fuel. -/
def search (candidate : Nat → α) (used : List α) : Nat → Nat → Option Nat
  | 0, _ => none
  | fuel + 1, index =>
    if candidate index ∈ used then search candidate used fuel (index + 1) else some index

variable {candidate : Nat → α} {used : List α}

theorem search_fresh {fuel index found : Nat}
    (ended : search candidate used fuel index = some found) : candidate found ∉ used := by
  induction fuel generalizing index with
  | zero => cases ended
  | succ fuel ih =>
    unfold search at ended
    split at ended
    · exact ih ended
    · next fresh =>
      cases ended
      exact fresh

/-- More fuel finds the same. -/
theorem search_more {fuel more index found : Nat} (le : fuel ≤ more)
    (ended : search candidate used fuel index = some found) :
    search candidate used more index = some found := by
  induction fuel generalizing index more with
  | zero => cases ended
  | succ fuel ih =>
    obtain ⟨more, rfl⟩ := Nat.exists_eq_succ_of_ne_zero (Nat.ne_of_gt (Nat.lt_of_lt_of_le
      (Nat.succ_pos fuel) le))
    unfold search at ended ⊢
    split at ended
    · next taken =>
      rw [if_pos taken]
      exact ih (Nat.le_of_succ_le_succ le) ended
    · next fresh =>
      rw [if_neg fresh]
      exact ended

theorem search_none {fuel index : Nat} (failed : search candidate used fuel index = none) :
    ∀ i < fuel, candidate (index + i) ∈ used := by
  induction fuel generalizing index with
  | zero => exact fun i small => absurd small (Nat.not_lt_zero i)
  | succ fuel ih =>
    unfold search at failed
    split at failed
    · next taken =>
      intro i small
      cases i with
      | zero => exact taken
      | succ i =>
        have later := ih failed i (Nat.lt_of_succ_lt_succ small)
        rwa [Nat.add_right_comm] at later
    · cases failed

theorem search_ends (distinct : Function.Injective candidate) {fuel : Nat}
    (enough : used.length < fuel) (index : Nat) :
    ∃ found, search candidate used fuel index = some found := by
  cases result : search candidate used fuel index with
  | some found => exact ⟨found, rfl⟩
  | none =>
    have taken := search_none result
    have tried : ((List.range fuel).map fun i => candidate (index + i)).Nodup :=
      (List.nodup_map_iff fun i j same => Nat.add_left_cancel (distinct same)).2 List.nodup_range
    have within : ((List.range fuel).map fun i => candidate (index + i)) ⊆ used := by
      intro a member
      obtain ⟨i, small, rfl⟩ := List.mem_map.1 member
      exact taken i (List.mem_range.1 small)
    have few := (List.subperm_of_subset tried within).length_le
    rw [List.length_map, List.length_range] at few
    exact absurd enough (Nat.not_lt.2 few)

end FreshSearch
