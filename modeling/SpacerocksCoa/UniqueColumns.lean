import Mathlib.Data.List.Nodup

/-!
# Rows with a unique column

The rows of a table are a list, and no value of a unique column occurs twice in it. A lookup by
the column finds a row under its own value, and a selection whose rows agree in the column has
at most one of them.
-/
namespace UniqueColumns

variable {α β : Type} {key : α → β} {rows : List α}

theorem find_of_mem [BEq β] [LawfulBEq β] (nodup : (rows.map key).Nodup) {row : α}
    (member : row ∈ rows) : rows.find? (fun other => key other == key row) = some row := by
  cases found : rows.find? fun other => key other == key row with
  | none =>
    have missed := List.find?_eq_none.1 found row member
    rw [beq_self_eq_true] at missed
    exact absurd rfl missed
  | some other =>
    have same : key other = key row := by simpa using List.find?_some found
    rw [List.inj_on_of_nodup_map nodup (List.mem_of_find?_eq_some found) member same]

/-- At most one row of a list carries a value of a unique column. -/
theorem filter_unique (nodup : (rows.map key).Nodup) {keep : α → Bool}
    (same : ∀ x ∈ rows, ∀ y ∈ rows, keep x = true → keep y = true → key x = key y) :
    (rows.filter keep).length ≤ 1 := by
  have unique : (rows.filter keep).Nodup := (nodup.of_map).filter keep
  cases kept : rows.filter keep with
  | nil => exact Nat.zero_le 1
  | cons x rest =>
    cases rest with
    | nil => exact Nat.le_refl 1
    | cons y rest =>
      rw [kept] at unique
      have atX : x ∈ rows.filter keep := by
        rw [kept]
        exact List.mem_cons_self
      have atY : y ∈ rows.filter keep := by
        rw [kept]
        exact List.mem_cons_of_mem x List.mem_cons_self
      obtain ⟨memberX, keepX⟩ := List.mem_filter.1 atX
      obtain ⟨memberY, keepY⟩ := List.mem_filter.1 atY
      have equal : x = y := List.inj_on_of_nodup_map nodup memberX memberY
        (same x memberX y memberY keepX keepY)
      rw [equal] at unique
      exact absurd List.mem_cons_self (List.nodup_cons.1 unique).1

end UniqueColumns
