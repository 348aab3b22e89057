import Mathlib.Logic.Basic

/-!
# Sequences of steps that can fail

A checked computation is a sequence of guards and binds in `Except`. That it succeeds means
that every guard passed and every bound computation succeeded; these rules take such a
success apart and put it together again, one step at a time.
-/
namespace FallibleSteps

variable {ε α β : Type}

theorem except_bind_ok {x : Except ε α} {f : α → Except ε β} {b : β}
    (h : (x >>= f) = .ok b) : ∃ a, x = .ok a ∧ f a = .ok b := by
  cases x with
  | error e => cases h
  | ok a => exact ⟨a, rfl, h⟩

theorem bind_pass {x : Except ε α} {f : α → Except ε β} {a : α} {b : β} (ok : x = .ok a)
    (rest : f a = .ok b) : (x >>= f) = .ok b := by
  rw [ok]
  exact rest

theorem bind_next {x : Except ε α} {f : α → Except ε β} {a : α} (ok : x = .ok a) :
    (x >>= f) = f a := by
  rw [ok]
  rfl

theorem bind_stop {x : Except ε α} {f : α → Except ε β} {e : ε} (failed : x = .error e) :
    (x >>= f) = .error e := by
  rw [failed]
  rfl

section Guard
variable {refused : Prop} [Decidable refused] {error : ε} {next : PUnit → Except ε β} {b : β}

/-- A guard of a `do` block: it throws, or the rest runs. -/
theorem guard_ok
    (ok : (if refused then (throw error >>= next) else next PUnit.unit) = .ok b) :
    ¬ refused ∧ next PUnit.unit = .ok b := by
  by_cases bad : refused
  · rw [if_pos bad] at ok
    cases ok
  · rw [if_neg bad] at ok
    exact ⟨bad, ok⟩

theorem guard_pass (good : ¬ refused) (rest : next PUnit.unit = .ok b) :
    (if refused then (throw error >>= next) else next PUnit.unit) = .ok b := by
  rw [if_neg good]
  exact rest

theorem guard_stop (bad : refused) :
    (if refused then (throw error >>= next) else next PUnit.unit) = .error error := by
  rw [if_pos bad]
  rfl

end Guard

end FallibleSteps
