import SpacerocksCoa.TransactionalPrograms

/-!
# What a program can return for a transcript of its requests

A client of a remote service is a program whose requests all have one type of reply. Its run
on a list of replies leaves a transcript, the requests with their replies in order. `Ensures`
says what holds of every value that the program can return together with its transcript,
whatever the service replies; `evaluate` runs the program against a service whose replies are
a function of the request.
-/
namespace ProgramTranscripts
open TransactionalPrograms

variable {Q A E α β : Type}

/-- Every request with its reply, in order. -/
abbrev Transcript (Q A : Type) := List (Q × A)

/-- The run on a list of replies; no outcome if it is too short. -/
def replay : Prog Q (fun _ => A) E α → List A → Option (Except E α × Transcript Q A)
  | .done a, _ => some (.ok a, [])
  | .fail e, _ => some (.error e, [])
  | .ask _ _, [] => none
  | .ask q k, reply :: rest =>
    match replay (k reply) rest with
    | none => none
    | some (result, transcript) => some (result, (q, reply) :: transcript)

/-- Every value that is returned satisfies `post` with its transcript. -/
def Ensures : Prog Q (fun _ => A) E α → (Transcript Q A → α → Prop) → Prop
  | .done a, post => post [] a
  | .fail _, _ => True
  | .ask q k, post => ∀ reply, Ensures (k reply) fun transcript => post ((q, reply) :: transcript)

/-- The run against a service that answers by a function. -/
def evaluate (answer : Q → A) : Prog Q (fun _ => A) E α → Except E α
  | .done a => .ok a
  | .fail e => .error e
  | .ask q k => evaluate answer (k (answer q))

theorem ensures_mono {p : Prog Q (fun _ => A) E α} {P P' : Transcript Q A → α → Prop}
    (ensures : Ensures p P) (weaker : ∀ transcript a, P transcript a → P' transcript a) :
    Ensures p P' := by
  induction p generalizing P P' with
  | done a => exact weaker [] a ensures
  | fail e => trivial
  | ask q k ih =>
    intro reply
    exact ih reply (ensures reply) fun transcript a => weaker ((q, reply) :: transcript) a

theorem ensures_bind {p : Prog Q (fun _ => A) E α} {f : α → Prog Q (fun _ => A) E β}
    {P : Transcript Q A → α → Prop} {post : Transcript Q A → β → Prop} (first : Ensures p P)
    (rest : ∀ before a, P before a →
      Ensures (f a) fun transcript => post (before ++ transcript)) : Ensures (p >>= f) post := by
  induction p generalizing P post with
  | done a => exact rest [] a first
  | fail e => trivial
  | ask q k ih =>
    intro reply
    exact ih reply (first reply) fun before a holds => rest ((q, reply) :: before) a holds

theorem ensures_request {q : Q} {P : Transcript Q A → A → Prop}
    (all : ∀ reply, P [(q, reply)] reply) :
    Ensures (Prog.request q : Prog Q (fun _ => A) E A) P := all

theorem ensures_lift {result : Except E α} {P : Transcript Q A → α → Prop}
    (all : ∀ a, result = .ok a → P [] a) :
    Ensures (Prog.lift result : Prog Q (fun _ => A) E α) P := by
  cases result with
  | ok a => exact all a rfl
  | error e => trivial

theorem ensures_done {a : α} {P : Transcript Q A → α → Prop} (holds : P [] a) :
    Ensures (.done a : Prog Q (fun _ => A) E α) P := holds

/-- An attempted program that ends in a value ends as the program does. -/
theorem ensures_attempt {p : Prog Q (fun _ => A) E α} {P : Transcript Q A → α → Prop}
    (ensures : Ensures p P) :
    Ensures p.attempt fun transcript result => ∀ a, result = .ok a → P transcript a := by
  induction p generalizing P with
  | done b =>
    intro a same
    cases same
    exact ensures
  | fail e =>
    intro a same
    cases same
  | ask q k ih =>
    intro reply
    exact ih reply (ensures reply)

/-- What `Ensures` says about runs. -/
theorem ensures_replay {p : Prog Q (fun _ => A) E α} {post : Transcript Q A → α → Prop}
    (ensures : Ensures p post) {replies : List A} {a : α} {transcript : Transcript Q A}
    (run : replay p replies = some (.ok a, transcript)) : post transcript a := by
  induction p generalizing replies transcript post with
  | done b =>
    cases run
    exact ensures
  | fail e => cases run
  | ask q k ih =>
    cases replies with
    | nil => cases run
    | cons reply rest =>
      simp only [replay] at run
      cases later : replay (k reply) rest with
      | none =>
        rw [later] at run
        cases run
      | some out =>
        obtain ⟨result, tail⟩ := out
        rw [later] at run
        cases run
        exact ih reply (ensures reply) later

@[simp] theorem evaluate_done (answer : Q → A) (a : α) :
    evaluate answer (.done a : Prog Q (fun _ => A) E α) = .ok a := rfl

@[simp] theorem evaluate_fail (answer : Q → A) (e : E) :
    evaluate answer (.fail e : Prog Q (fun _ => A) E α) = .error e := rfl

@[simp] theorem evaluate_request (answer : Q → A) (q : Q) :
    evaluate answer (Prog.request q : Prog Q (fun _ => A) E A) = .ok (answer q) := rfl

@[simp] theorem evaluate_lift (answer : Q → A) (result : Except E α) :
    evaluate answer (Prog.lift result : Prog Q (fun _ => A) E α) = result := by
  cases result with
  | ok a => rfl
  | error e => rfl

theorem evaluate_bind (answer : Q → A) (p : Prog Q (fun _ => A) E α)
    (f : α → Prog Q (fun _ => A) E β) :
    evaluate answer (p >>= f) = (evaluate answer p).bind fun a => evaluate answer (f a) := by
  induction p with
  | done a => rfl
  | fail e => rfl
  | ask q k ih => exact ih (answer q)

@[simp] theorem evaluate_attempt (answer : Q → A) (p : Prog Q (fun _ => A) E α) :
    evaluate answer p.attempt = .ok (evaluate answer p) := by
  induction p with
  | done a => rfl
  | fail e => rfl
  | ask q k ih => exact ih (answer q)

/-- What `Ensures` says about a run against a function. -/
theorem ensures_evaluate {p : Prog Q (fun _ => A) E α} {P : Transcript Q A → α → Prop}
    (ensures : Ensures p P) {answer : Q → A} {a : α} (run : evaluate answer p = .ok a) :
    ∃ transcript, P transcript a ∧ ∀ entry ∈ transcript, entry.2 = answer entry.1 := by
  induction p generalizing P with
  | done b =>
    cases run
    exact ⟨[], ensures, fun entry member => absurd member List.not_mem_nil⟩
  | fail e => cases run
  | ask q k ih =>
    obtain ⟨transcript, holds, answered⟩ := ih (answer q) (ensures (answer q)) run
    refine ⟨(q, answer q) :: transcript, holds, ?_⟩
    intro entry member
    rcases List.mem_cons.1 member with rfl | later
    · rfl
    · exact answered entry later

/-- The steps that a run against a function takes, one after another. -/
theorem evaluate_bind_ok {answer : Q → A} {p : Prog Q (fun _ => A) E α} {a : α}
    (first : evaluate answer p = .ok a) (f : α → Prog Q (fun _ => A) E β) :
    evaluate answer (p >>= f) = evaluate answer (f a) := by
  rw [evaluate_bind, first]
  rfl

end ProgramTranscripts
