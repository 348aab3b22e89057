import Mathlib.Data.List.Basic

/-!
# Programs that reach a shared world through requests

A program is a tree of requests: it ends with a value or an error, or it asks for
one request and goes on with the reply. Every request is answered in one atomic
step, so the interleavings of several programs are the interleavings of their
requests. The environment picks the answer of everything the world does not
determine (clocks, fresh identifiers, remote services) at each step.

The second half is a rely-guarantee rule over these interleavings and an
invariant rule for runs that follow one another and may stop anywhere. Nothing
here is about fairness: a program may be left unfinished forever.
-/
namespace TransactionalPrograms

inductive Prog (Q : Type) (R : Q → Type) (E α : Type) where
  | done (value : α)
  | fail (error : E)
  | ask (request : Q) (next : R request → Prog Q R E α)

variable {Q : Type} {R : Q → Type} {E α β : Type}

namespace Prog

def bind : Prog Q R E α → (α → Prog Q R E β) → Prog Q R E β
  | done a, f => f a
  | fail e, _ => fail e
  | ask q k, f => ask q (fun r => (k r).bind f)

/-- An error of the first program goes to the handler; its value does not. -/
def handle : Prog Q R E α → (E → Prog Q R E α) → Prog Q R E α
  | done a, _ => done a
  | fail e, f => f e
  | ask q k, f => ask q (fun r => (k r).handle f)

/-- The outcome as a value, so that a caller can look at errors without failing. -/
def attempt : Prog Q R E α → Prog Q R E (Except E α)
  | done a => done (.ok a)
  | fail e => done (.error e)
  | ask q k => ask q (fun r => (k r).attempt)

def request (q : Q) : Prog Q R E (R q) := ask q done

def lift : Except E α → Prog Q R E α
  | .ok a => done a
  | .error e => fail e

instance : Monad (Prog Q R E) where
  pure := done
  bind := bind

instance : MonadExcept E (Prog Q R E) where
  throw := fail
  tryCatch := handle

@[simp] lemma pure_eq (a : α) : (pure a : Prog Q R E α) = done a := rfl
@[simp] lemma throw_eq (e : E) : (throw e : Prog Q R E α) = fail e := rfl
@[simp] lemma done_bind (a : α) (f : α → Prog Q R E β) : (done a >>= f) = f a := rfl
@[simp] lemma fail_bind (e : E) (f : α → Prog Q R E β) :
    ((fail e : Prog Q R E α) >>= f) = fail e := rfl
@[simp] lemma ask_bind (q : Q) (k : R q → Prog Q R E α) (f : α → Prog Q R E β) :
    (ask q k >>= f) = ask q (fun r => k r >>= f) := rfl
@[simp] lemma request_bind (q : Q) (f : R q → Prog Q R E β) :
    (request q >>= f) = ask q f := rfl
@[simp] lemma lift_ok (a : α) : (lift (.ok a) : Prog Q R E α) = done a := rfl
@[simp] lemma lift_error (e : E) : (lift (.error e) : Prog Q R E α) = fail e := rfl
@[simp] lemma tryCatch_done (a : α) (f : E → Prog Q R E α) :
    tryCatch (done a : Prog Q R E α) f = done a := rfl
@[simp] lemma tryCatch_fail (e : E) (f : E → Prog Q R E α) :
    tryCatch (fail e : Prog Q R E α) f = f e := rfl
@[simp] lemma tryCatch_ask (q : Q) (k : R q → Prog Q R E α) (f : E → Prog Q R E α) :
    tryCatch (ask q k) f = ask q (fun r => tryCatch (k r) f) := rfl
@[simp] lemma attempt_done (a : α) : (done a : Prog Q R E α).attempt = done (.ok a) := rfl
@[simp] lemma attempt_fail (e : E) : (fail e : Prog Q R E α).attempt = done (.error e) := rfl
@[simp] lemma attempt_ask (q : Q) (k : R q → Prog Q R E α) :
    (ask q k).attempt = ask q (fun r => (k r).attempt) := rfl

end Prog

/-! ## One program alone -/

variable {W Env T : Type}

/-- Serves one request after another from the list of environment choices. No
outcome means that the program stopped where the list ended. -/
def serve (perform : Env → (q : Q) → W → R q × W) :
    Prog Q R E α → List Env → W → Option (Except E α) × W
  | .done a, _, w => (some (.ok a), w)
  | .fail e, _, w => (some (.error e), w)
  | .ask _ _, [], w => (none, w)
  | .ask q k, env :: rest, w =>
    serve perform (k (perform env q w).1) rest (perform env q w).2

/-- Every request that is served satisfies the condition in the world it meets. -/
def Along (perform : Env → (q : Q) → W → R q × W) (allowed : Env → Q → W → Prop) :
    Prog Q R E α → List Env → W → Prop
  | .done _, _, _ => True
  | .fail _, _, _ => True
  | .ask _ _, [], _ => True
  | .ask q k, env :: rest, w => allowed env q w ∧
    Along perform allowed (k (perform env q w).1) rest (perform env q w).2

instance decideAlong (perform : Env → (q : Q) → W → R q × W) (allowed : Env → Q → W → Prop)
    [∀ env q w, Decidable (allowed env q w)] :
    (p : Prog Q R E α) → (envs : List Env) → (w : W) → Decidable (Along perform allowed p envs w)
  | .done _, _, _ => .isTrue trivial
  | .fail _, _, _ => .isTrue trivial
  | .ask _ _, [], _ => .isTrue trivial
  | .ask q k, env :: rest, w =>
    have := decideAlong perform allowed (k (perform env q w).1) rest (perform env q w).2
    inferInstanceAs (Decidable (allowed env q w ∧ _))

/-- Serves every request up to the end of the program. -/
def execute (perform : Env → (q : Q) → W → R q × W) :
    Prog Q R E α → (Nat → Env) → W → Except E α × W
  | .done a, _, w => (.ok a, w)
  | .fail e, _, w => (.error e, w)
  | .ask q k, envs, w =>
    execute perform (k (perform (envs 0) q w).1) (fun n => envs (n + 1)) (perform (envs 0) q w).2

/-- Every request the program can make, whatever the replies, is of one kind. -/
def Only (kind : Q → Prop) : Prog Q R E α → Prop
  | .done _ => True
  | .fail _ => True
  | .ask q k => kind q ∧ ∀ r, Only kind (k r)

lemma only_request {kind : Q → Prop} {q : Q} (h : kind q) :
    Only kind (Prog.request q : Prog Q R E (R q)) := ⟨h, fun _ => trivial⟩

lemma only_bind {kind : Q → Prop} {p : Prog Q R E α} {f : α → Prog Q R E β}
    (first : Only kind p) (rest : ∀ a, Only kind (f a)) : Only kind (p >>= f) := by
  induction p with
  | done a => exact rest a
  | fail e => trivial
  | ask q k ih => exact ⟨first.1, fun r => ih r (first.2 r)⟩

lemma only_attempt {kind : Q → Prop} {p : Prog Q R E α} (only : Only kind p) :
    Only kind p.attempt := by
  induction p with
  | done a => trivial
  | fail e => trivial
  | ask q k ih => exact ⟨only.1, fun r => ih r (only.2 r)⟩

/-- The invariant holds at every request and at the end, and the program ends as `post`
says, when it runs alone and its requests are served under the condition. -/
def Keeps (perform : Env → (q : Q) → W → R q × W) (allowed : Env → Q → W → Prop)
    (inv : W → Prop) (post : Except E α → W → Prop) : Prog Q R E α → W → Prop
  | .done a, w => inv w ∧ post (.ok a) w
  | .fail e, w => inv w ∧ post (.error e) w
  | .ask q k, w => inv w ∧ ∀ env, allowed env q w →
    Keeps perform allowed inv post (k (perform env q w).1) (perform env q w).2

section
variable {perform : Env → (q : Q) → W → R q × W} {allowed : Env → Q → W → Prop} {inv : W → Prop}

lemma keeps_of_only {kind : Q → Prop} (requests : ∀ env q w, kind q → inv w →
    inv (perform env q w).2) {p : Prog Q R E α} (only : Only kind p) {w : W} (hw : inv w) :
    Keeps perform allowed inv (fun _ _ => True) p w := by
  induction p generalizing w with
  | done a => exact ⟨hw, trivial⟩
  | fail e => exact ⟨hw, trivial⟩
  | ask q k ih => exact ⟨hw, fun env _ => ih _ (only.2 _) (requests env q w only.1 hw)⟩

lemma keeps_request_bind {post : Except E α → W → Prop} {q : Q} {f : R q → Prog Q R E α} {w : W}
    (hw : inv w) (next : ∀ env, allowed env q w →
      Keeps perform allowed inv post (f (perform env q w).1) (perform env q w).2) :
    Keeps perform allowed inv post (Prog.request q >>= f) w := ⟨hw, next⟩

lemma keeps_bind {post : Except E β → W → Prop} {p : Prog Q R E α} {f : α → Prog Q R E β} {w : W}
    (keeps : Keeps perform allowed inv (fun r w => match r with
      | .ok a => Keeps perform allowed inv post (f a) w
      | .error e => post (.error e) w) p w) :
    Keeps perform allowed inv post (p >>= f) w := by
  induction p generalizing w with
  | done a => exact keeps.2
  | fail e => exact keeps
  | ask q k ih => exact ⟨keeps.1, fun env served => ih _ (keeps.2 env served)⟩

lemma keeps_mono {post post' : Except E α → W → Prop} {p : Prog Q R E α} {w : W}
    (weaken : ∀ r w, inv w → post r w → post' r w)
    (keeps : Keeps perform allowed inv post p w) : Keeps perform allowed inv post' p w := by
  induction p generalizing w with
  | done a => exact ⟨keeps.1, weaken _ _ keeps.1 keeps.2⟩
  | fail e => exact ⟨keeps.1, weaken _ _ keeps.1 keeps.2⟩
  | ask q k ih => exact ⟨keeps.1, fun env served => ih _ (keeps.2 env served)⟩

lemma only_any {p : Prog Q R E α} : Only (fun _ => True) p := by
  induction p with
  | done a => trivial
  | fail e => trivial
  | ask q k ih => exact ⟨trivial, ih⟩

/-- What holds of every request a program can make holds along its runs. -/
lemma along_of_only {kind : Q → Prop} {p : Prog Q R E α} (only : Only kind p) {envs : List Env}
    {w : W} : Along perform (fun _ q _ => kind q) p envs w := by
  induction p generalizing envs w with
  | done a => trivial
  | fail e => trivial
  | ask q k ih =>
    cases envs with
    | nil => trivial
    | cons env rest => exact ⟨only.1, ih _ (only.2 _)⟩

/-- What holds of every choice of the environment holds along the runs. -/
lemma along_of_all {choice : Env → Prop} {p : Prog Q R E α} {envs : List Env} {w : W}
    (all : ∀ env ∈ envs, choice env) : Along perform (fun env _ _ => choice env) p envs w := by
  induction p generalizing envs w with
  | done a => trivial
  | fail e => trivial
  | ask q k ih =>
    cases envs with
    | nil => trivial
    | cons env rest =>
      refine ⟨all env List.mem_cons_self, ih _ ?_⟩
      intro other member
      exact all other (List.mem_cons_of_mem _ member)

/-- Stopped anywhere, the program leaves the invariant. -/
theorem serve_keeps {post : Except E α → W → Prop} {p : Prog Q R E α} {envs : List Env} {w : W}
    (keeps : Keeps perform allowed inv post p w) (along : Along perform allowed p envs w) :
    inv (serve perform p envs w).2 := by
  induction p generalizing envs w with
  | done a => exact keeps.1
  | fail e => exact keeps.1
  | ask q k ih =>
    cases envs with
    | nil => exact keeps.1
    | cons env rest => exact ih _ (keeps.2 env along.1) along.2

end

/-! ## Many programs at once -/

structure Run (Q : Type) (R : Q → Type) (E α T : Type) where
  tag : T
  prog : Prog Q R E α

structure Config (Q : Type) (R : Q → Type) (E α T W : Type) where
  world : W
  runs : List (Run Q R E α T)

/-- What answers the requests, and what may arrive from outside: an arrival
changes the world in one step and may start new runs. -/
structure Service (Q : Type) (R : Q → Type) (E α T W Env S : Type) where
  perform : Env → (q : Q) → W → R q × W
  arrive : S → W → W × List (Run Q R E α T)

inductive Move (Env S : Type) where
  | serve (run : Nat) (env : Env)
  | arrive (arrival : S)
  | crash (run : Nat)

variable {S : Type}

def Service.step (service : Service Q R E α T W Env S) (c : Config Q R E α T W) :
    Move Env S → Config Q R E α T W
  | .serve i env =>
    match c.runs[i]? with
    | some ⟨tag, .ask q k⟩ =>
      ⟨(service.perform env q c.world).2,
        c.runs.set i ⟨tag, k (service.perform env q c.world).1⟩⟩
    | _ => c
  | .arrive s => ⟨(service.arrive s c.world).1, c.runs ++ (service.arrive s c.world).2⟩
  | .crash i => ⟨c.world, c.runs.eraseIdx i⟩

def Service.run (service : Service Q R E α T W Env S) :
    List (Move Env S) → Config Q R E α T W → Config Q R E α T W
  | [], c => c
  | m :: rest, c => service.run rest (service.step c m)

/-- A condition on the steps of a run: on each request with the run that makes it,
and on each arrival, in the world that the step meets. -/
structure StepCondition (Q Env S T W : Type) where
  request : T → Env → Q → W → Prop
  arrival : S → W → Prop

def StepCondition.Meets (cond : StepCondition Q Env S T W) (c : Config Q R E α T W) :
    Move Env S → Prop
  | .serve i env =>
    match c.runs[i]? with
    | some ⟨tag, .ask q _⟩ => cond.request tag env q c.world
    | _ => True
  | .arrive s => cond.arrival s c.world
  | .crash _ => True

def StepCondition.MeetsAll (cond : StepCondition Q Env S T W)
    (service : Service Q R E α T W Env S) :
    List (Move Env S) → Config Q R E α T W → Prop
  | [], _ => True
  | m :: rest, c => cond.Meets c m ∧ cond.MeetsAll service rest (service.step c m)

section
variable (cond : StepCondition Q Env S T W)
  [∀ tag env q w, Decidable (cond.request tag env q w)] [∀ s w, Decidable (cond.arrival s w)]

instance (c : Config Q R E α T W) : (m : Move Env S) → Decidable (cond.Meets c m)
  | .serve i env =>
    match found : c.runs[i]? with
    | some ⟨tag, .ask q k⟩ =>
      decidable_of_iff (cond.request tag env q c.world) (by simp [StepCondition.Meets, found])
    | some ⟨tag, .done a⟩ => .isTrue (by simp [StepCondition.Meets, found])
    | some ⟨tag, .fail e⟩ => .isTrue (by simp [StepCondition.Meets, found])
    | none => .isTrue (by simp [StepCondition.Meets, found])
  | .arrive s => inferInstanceAs (Decidable (cond.arrival s c.world))
  | .crash _ => .isTrue trivial

instance decideMeetsAll (service : Service Q R E α T W Env S) :
    (moves : List (Move Env S)) → (c : Config Q R E α T W) →
      Decidable (cond.MeetsAll service moves c)
  | [], _ => .isTrue trivial
  | m :: rest, c =>
    have := decideMeetsAll service rest (service.step c m)
    inferInstanceAs (Decidable (cond.Meets c m ∧ _))

end

/-! ## Rely and guarantee -/

/-- What every run may count on and has to respect: an invariant of the world, a
preorder along which the world moves, and what a run's requests may meet. -/
structure Discipline (Q Env T W : Type) where
  inv : W → Prop
  rely : W → W → Prop
  rely_refl : ∀ w, rely w w
  rely_trans : ∀ {a b c}, rely a b → rely b c → rely a c
  allowed : T → Env → Q → W → Prop

/-- Whatever the other runs do between two requests of the program, each request
keeps the invariant, moves the world along the preorder, and the program ends only
as `post` says. -/
def Safe (perform : Env → (q : Q) → W → R q × W) (d : Discipline Q Env T W) (tag : T)
    (post : Except E α → W → Prop) : Prog Q R E α → W → Prop
  | .done a, w => ∀ w', d.rely w w' → d.inv w' → post (.ok a) w'
  | .fail e, w => ∀ w', d.rely w w' → d.inv w' → post (.error e) w'
  | .ask q k, w => ∀ w', d.rely w w' → d.inv w' → ∀ env, d.allowed tag env q w' →
    d.inv (perform env q w').2 ∧ d.rely w' (perform env q w').2 ∧
      Safe perform d tag post (k (perform env q w').1) (perform env q w').2

section
variable {perform : Env → (q : Q) → W → R q × W} {d : Discipline Q Env T W} {tag : T}

lemma safe_stable {post : Except E α → W → Prop} {p : Prog Q R E α} {w w' : W}
    (safe : Safe perform d tag post p w) (later : d.rely w w') :
    Safe perform d tag post p w' := by
  cases p with
  | done a => exact fun w'' h inv => safe w'' (d.rely_trans later h) inv
  | fail e => exact fun w'' h inv => safe w'' (d.rely_trans later h) inv
  | ask q k => exact fun w'' h inv => safe w'' (d.rely_trans later h) inv

lemma safe_of_later {post : Except E α → W → Prop} {p : Prog Q R E α} {w : W}
    (safe : ∀ w', d.rely w w' → d.inv w' → Safe perform d tag post p w') :
    Safe perform d tag post p w := by
  cases p with
  | done a => exact fun w' h inv => safe w' h inv w' (d.rely_refl w') inv
  | fail e => exact fun w' h inv => safe w' h inv w' (d.rely_refl w') inv
  | ask q k => exact fun w' h inv => safe w' h inv w' (d.rely_refl w') inv

lemma safe_mono {post post' : Except E α → W → Prop} {p : Prog Q R E α} {w : W}
    (weaken : ∀ r w, d.inv w → post r w → post' r w)
    (safe : Safe perform d tag post p w) : Safe perform d tag post' p w := by
  induction p generalizing w with
  | done a => exact fun w' h inv => weaken _ _ inv (safe w' h inv)
  | fail e => exact fun w' h inv => weaken _ _ inv (safe w' h inv)
  | ask q k ih =>
    intro w' h inv env allowed
    obtain ⟨keeps, moves, next⟩ := safe w' h inv env allowed
    exact ⟨keeps, moves, ih _ next⟩

/-- A program ends later than it started. -/
lemma safe_rely {post : Except E α → W → Prop} {p : Prog Q R E α} {w : W}
    (safe : Safe perform d tag post p w) :
    Safe perform d tag (fun r w' => d.rely w w' ∧ post r w') p w := by
  suffices later : ∀ w₀, d.rely w₀ w →
      Safe perform d tag (fun r w' => d.rely w₀ w' ∧ post r w') p w from later w (d.rely_refl w)
  intro w₀ before
  induction p generalizing w with
  | done a => exact fun w' h inv => ⟨d.rely_trans before h, safe w' h inv⟩
  | fail e => exact fun w' h inv => ⟨d.rely_trans before h, safe w' h inv⟩
  | ask q k ih =>
    intro w' h inv env allowed
    obtain ⟨keeps, moves, next⟩ := safe w' h inv env allowed
    exact ⟨keeps, moves, ih _ next (d.rely_trans (d.rely_trans before h) moves)⟩

lemma safe_bind {post : Except E β → W → Prop} {p : Prog Q R E α}
    {f : α → Prog Q R E β} {w : W}
    (safe : Safe perform d tag (fun r w => match r with
      | .ok a => Safe perform d tag post (f a) w
      | .error e => post (.error e) w) p w) :
    Safe perform d tag post (p >>= f) w := by
  induction p generalizing w with
  | done a => exact safe_of_later fun w' h inv => safe w' h inv
  | fail e => exact safe
  | ask q k ih =>
    intro w' h inv env allowed
    obtain ⟨keeps, moves, next⟩ := safe w' h inv env allowed
    exact ⟨keeps, moves, ih _ next⟩

lemma safe_attempt {post : Except E (Except E α) → W → Prop} {p : Prog Q R E α} {w : W}
    (safe : Safe perform d tag (fun r w => post (.ok r) w) p w) :
    Safe perform d tag post p.attempt w := by
  induction p generalizing w with
  | done a => exact safe
  | fail e => exact safe
  | ask q k ih =>
    intro w' h inv env allowed
    obtain ⟨keeps, moves, next⟩ := safe w' h inv env allowed
    exact ⟨keeps, moves, ih _ next⟩

end

/-- What the rule carries along a run: the invariant, and for every unfinished
program that it is safe from the present world on. -/
structure Disciplined (service : Service Q R E α T W Env S) (d : Discipline Q Env T W)
    (post : T → Except E α → W → Prop) (c : Config Q R E α T W) : Prop where
  inv : d.inv c.world
  runs : ∀ run ∈ c.runs, Safe service.perform d run.tag (post run.tag) run.prog c.world

/-- Every arrival keeps the invariant, moves along the preorder and starts safe runs only. -/
def ArrivalsSafe (service : Service Q R E α T W Env S) (d : Discipline Q Env T W)
    (post : T → Except E α → W → Prop) (arrival : S → W → Prop) : Prop :=
  ∀ s w, d.inv w → arrival s w →
    d.inv (service.arrive s w).1 ∧ d.rely w (service.arrive s w).1 ∧
      ∀ run ∈ (service.arrive s w).2,
        Safe service.perform d run.tag (post run.tag) run.prog (service.arrive s w).1

section
variable {service : Service Q R E α T W Env S} {d : Discipline Q Env T W}
  {post : T → Except E α → W → Prop} {arrival : S → W → Prop}

lemma step_disciplined (arrivals : ArrivalsSafe service d post arrival)
    {c : Config Q R E α T W} (hc : Disciplined service d post c) {m : Move Env S}
    (meets : (⟨d.allowed, arrival⟩ : StepCondition Q Env S T W).Meets c m) :
    Disciplined service d post (service.step c m) := by
  cases m with
  | serve i env =>
    cases found : c.runs[i]? with
    | none => simpa only [Service.step, found] using hc
    | some run =>
      obtain ⟨tag, prog⟩ := run
      have safe := hc.runs _ (List.mem_of_getElem? found)
      cases prog with
      | done a => simpa only [Service.step, found] using hc
      | fail e => simpa only [Service.step, found] using hc
      | ask q k =>
        simp only [StepCondition.Meets, found] at meets
        obtain ⟨keeps, moves, next⟩ := safe c.world (d.rely_refl _) hc.inv env meets
        simp only [Service.step, found]
        refine ⟨keeps, fun run hrun => ?_⟩
        rcases List.mem_or_eq_of_mem_set hrun with old | rfl
        · exact safe_stable (hc.runs run old) moves
        · exact next
  | arrive s =>
    obtain ⟨keeps, moves, starts⟩ := arrivals s c.world hc.inv meets
    refine ⟨keeps, fun run hrun => ?_⟩
    rcases List.mem_append.1 hrun with old | new
    · exact safe_stable (hc.runs run old) moves
    · exact starts run new
  | crash i =>
    exact ⟨hc.inv, fun run hrun => hc.runs run (List.mem_of_mem_eraseIdx hrun)⟩

theorem run_disciplined (arrivals : ArrivalsSafe service d post arrival)
    {moves : List (Move Env S)} {c : Config Q R E α T W} (hc : Disciplined service d post c)
    (meets : (⟨d.allowed, arrival⟩ : StepCondition Q Env S T W).MeetsAll service moves c) :
    Disciplined service d post (service.run moves c) := by
  induction moves generalizing c with
  | nil => exact hc
  | cons m rest ih => exact ih (step_disciplined arrivals hc meets.1) meets.2

lemma step_rely (arrivals : ArrivalsSafe service d post arrival) {c : Config Q R E α T W}
    (hc : Disciplined service d post c) {m : Move Env S}
    (meets : (⟨d.allowed, arrival⟩ : StepCondition Q Env S T W).Meets c m) :
    d.rely c.world (service.step c m).world := by
  cases m with
  | serve i env =>
    cases found : c.runs[i]? with
    | none => simpa only [Service.step, found] using d.rely_refl c.world
    | some run =>
      obtain ⟨tag, prog⟩ := run
      have safe := hc.runs _ (List.mem_of_getElem? found)
      cases prog with
      | done a => simpa only [Service.step, found] using d.rely_refl c.world
      | fail e => simpa only [Service.step, found] using d.rely_refl c.world
      | ask q k =>
        simp only [StepCondition.Meets, found] at meets
        simp only [Service.step, found]
        exact (safe c.world (d.rely_refl _) hc.inv env meets).2.1
  | arrive s => exact (arrivals s c.world hc.inv meets).2.1
  | crash i => exact d.rely_refl c.world

/-- Of two beginnings of a run the longer one leaves a later world. -/
theorem run_take_rely (arrivals : ArrivalsSafe service d post arrival)
    {moves : List (Move Env S)} {c : Config Q R E α T W} (hc : Disciplined service d post c)
    (meets : (⟨d.allowed, arrival⟩ : StepCondition Q Env S T W).MeetsAll service moves c)
    {i j : Nat} (before : i ≤ j) :
    d.rely (service.run (moves.take i) c).world (service.run (moves.take j) c).world := by
  induction moves generalizing c i j with
  | nil =>
    rw [List.take_nil, List.take_nil]
    exact d.rely_refl _
  | cons m rest ih =>
    have after := step_disciplined arrivals hc meets.1
    have onward : ∀ i' j', i' ≤ j' → _ := fun i' j' => ih after meets.2 (i := i') (j := j')
    cases j with
    | zero =>
      rw [Nat.le_zero.1 before]
      exact d.rely_refl _
    | succ j =>
      cases i with
      | zero => exact d.rely_trans (step_rely arrivals hc meets.1) (onward 0 j (Nat.zero_le j))
      | succ i => exact onward i j (Nat.le_of_succ_le_succ before)

end

/-! ## Invariants of the world alone -/

section
variable {service : Service Q R E α T W Env S} {cond : StepCondition Q Env S T W}
  (inv : W → Prop)

/-- When every request, whoever makes it, keeps the invariant, no program has to be
looked at. -/
theorem run_inv
    (requests : ∀ tag env q w, inv w → cond.request tag env q w →
      inv (service.perform env q w).2)
    (arrivals : ∀ s w, inv w → cond.arrival s w → inv (service.arrive s w).1)
    {moves : List (Move Env S)} {c : Config Q R E α T W} (hc : inv c.world)
    (meets : cond.MeetsAll service moves c) : inv (service.run moves c).world := by
  induction moves generalizing c with
  | nil => exact hc
  | cons m rest ih =>
    refine ih ?_ meets.2
    have here := meets.1
    cases m with
    | serve i env =>
      cases found : c.runs[i]? with
      | none => simpa only [Service.step, found] using hc
      | some run =>
        obtain ⟨tag, prog⟩ := run
        cases prog with
        | done a => simpa only [Service.step, found] using hc
        | fail e => simpa only [Service.step, found] using hc
        | ask q k =>
          simp only [StepCondition.Meets, found] at here
          simpa only [Service.step, found] using requests tag env q c.world hc here
    | arrive s => exact arrivals s c.world hc here
    | crash i => exact hc

/-- The same when only requests of one kind keep it and all programs make only those. -/
theorem run_inv_of_only (kind : Q → Prop)
    (requests : ∀ tag env q w, kind q → inv w → cond.request tag env q w →
      inv (service.perform env q w).2)
    (arrivals : ∀ s w, inv w → cond.arrival s w → inv (service.arrive s w).1)
    (starts : ∀ s w, ∀ run ∈ (service.arrive s w).2, Only kind run.prog)
    {moves : List (Move Env S)} {c : Config Q R E α T W} (hc : inv c.world)
    (runs : ∀ run ∈ c.runs, Only kind run.prog)
    (meets : cond.MeetsAll service moves c) : inv (service.run moves c).world := by
  induction moves generalizing c with
  | nil => exact hc
  | cons m rest ih =>
    have here := meets.1
    cases m with
    | serve i env =>
      cases found : c.runs[i]? with
      | none =>
        refine ih ?_ ?_ meets.2
        · simpa only [Service.step, found] using hc
        · simpa only [Service.step, found] using runs
      | some run =>
        obtain ⟨tag, prog⟩ := run
        have only := runs _ (List.mem_of_getElem? found)
        cases prog with
        | done a =>
          refine ih ?_ ?_ meets.2
          · simpa only [Service.step, found] using hc
          · simpa only [Service.step, found] using runs
        | fail e =>
          refine ih ?_ ?_ meets.2
          · simpa only [Service.step, found] using hc
          · simpa only [Service.step, found] using runs
        | ask q k =>
          simp only [StepCondition.Meets, found] at here
          refine ih ?_ ?_ meets.2
          · simpa only [Service.step, found] using requests tag env q c.world only.1 hc here
          · simp only [Service.step, found]
            intro run hrun
            rcases List.mem_or_eq_of_mem_set hrun with old | rfl
            · exact runs run old
            · exact only.2 _
    | arrive s =>
      refine ih (arrivals s c.world hc here) (fun run hrun => ?_) meets.2
      rcases List.mem_append.1 hrun with old | new
      · exact runs run old
      · exact starts s c.world run new
    | crash i =>
      exact ih hc (fun run hrun => runs run (List.mem_of_mem_eraseIdx hrun)) meets.2

end

end TransactionalPrograms
