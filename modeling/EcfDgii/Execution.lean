import Mathlib.Logic.Function.Basic
import EcfDgii.Programs

/-!
Running programs against a world.

A `Host` answers requests: given an input (what the environment decides in that
step) and the world, it produces the reply and the next world.  Three ways to
run are defined over it.

1. `Host.run` runs one program to its end, or until the environment kills it.
   `Host.run_sound` carries an invariant of log and world along the run, one
   permitted request at a time; `Host.run_agree` runs the same program in two
   worlds and keeps a relation between them.
2. `Session` runs whole operations one after another.
3. `Pool` runs any number of operations at once, in any order of their
   requests, and lets any of them die between two requests.
   `Pool.Sound` is the usual pair of an invariant of the world and one of each
   thread; `Pool.Sound.play` carries it along every schedule from what one
   request does, so no proof about interleavings repeats the induction.

Claims that only hold on some schedules are stated with `Pool.Meets`: a
condition every move has to satisfy in the pool it is made in.
-/

set_option autoImplicit false

namespace EcfDgii.Execution

open EcfDgii.Programs

/-- Who answers the questions of a program. -/
structure Host (I : Interface) (σ ι : Type) where
  answer : ι → σ → (r : I.Request) → I.Reply r × σ

/-- How a run ended. -/
inductive Outcome (α : Type)
  | returned (value : α)
  | threw (error : String)
  | killed

/-- The end of a run: its outcome, everything asked and answered, the world. -/
structure Run (I : Interface) (α σ : Type) where
  outcome : Outcome α
  log : List (Event I)
  world : σ

variable {I : Interface} {α σ ι : Type}

/-- Run one program.  The environment's inputs come one per request; `none`
kills the process instead of answering. -/
def Host.run (h : Host I σ ι) :
    (ℕ → Option ι) → σ → List (Event I) → Program I α → Run I α σ
  | _, w, log, .done a => ⟨.returned a, log, w⟩
  | _, w, log, .throw e => ⟨.threw e, log, w⟩
  | inputs, w, log, .ask r next =>
    match inputs 0 with
    | none => ⟨.killed, log, w⟩
    | some i =>
      let (x, w') := h.answer i w r
      run h (fun n => inputs (n + 1)) w' (log ++ [⟨r, x⟩]) (next x)

/-- Every event of the log satisfies a condition relative to those before it. -/
def Along (C : List (Event I) → Event I → Prop) (log : List (Event I)) : Prop :=
  ∀ before e, before ++ [e] <+: log → C before e

theorem Along.append {C : List (Event I) → Event I → Prop} {log : List (Event I)} {e : Event I}
    (h : Along C log) (last : C log e) : Along C (log ++ [e]) := by
  intro before e' cut
  rcases List.prefix_concat_iff.mp cut with whole | earlier
  · obtain ⟨rfl, same⟩ := List.append_inj' whole rfl
    rw [List.singleton_inj.mp same]
    exact last
  · exact h before e' earlier

theorem Along.of_mem {C : List (Event I) → Event I → Prop} {log : List (Event I)} {e : Event I}
    (h : Along C log) (member : e ∈ log) : ∃ before, before ++ [e] <+: log ∧ C before e := by
  obtain ⟨before, after, rfl⟩ := List.append_of_mem member
  have cut : before ++ [e] <+: before ++ e :: after := ⟨after, by simp⟩
  exact ⟨before, cut, h before e cut⟩

theorem along_nil (C : List (Event I) → Event I → Prop) : Along C [] := fun before e cut =>
  absurd (List.prefix_nil.mp cut) (by simp)

theorem along_true (log : List (Event I)) : Along (fun _ _ => True) log := fun _ _ _ => trivial

variable {h : Host I σ ι} {inputs : ℕ → Option ι} {w : σ} {log : List (Event I)}
  {p : Program I α}

/-- A run only adds to its log. -/
theorem Host.run_prefix (h : Host I σ ι) (inputs : ℕ → Option ι) (w : σ) (log : List (Event I))
    (p : Program I α) : log <+: (h.run inputs w log p).log := by
  induction p generalizing inputs w log with
  | done a => exact List.prefix_rfl
  | throw e => exact List.prefix_rfl
  | ask r next ih =>
    rw [Host.run]
    split
    · exact List.prefix_rfl
    · exact (List.prefix_append log _).trans (ih _ _ _ _)

/-- What the leaves of a program guarantee at the end of a run. -/
def Outcome.Satisfies (post : α → Prop) (exn : String → Prop) : Outcome α → Prop
  | .returned a => post a
  | .threw e => exn e
  | .killed => True

/-- A run whose process is never killed ends by itself. -/
theorem Host.run_ends (h : Host I σ ι) (inputs : ℕ → ι) (w : σ) (log : List (Event I))
    (p : Program I α) : (h.run (fun n => some (inputs n)) w log p).outcome ≠ .killed := by
  induction p generalizing inputs w log with
  | done a => exact nofun
  | throw e => exact nofun
  | ask r next ih => exact ih _ (fun n => inputs (n + 1)) _ _

/-- What holds at the end of every run that ends by itself. -/
theorem Outcome.Satisfies.ended {P : Prop} {outcome : Outcome α}
    (h : outcome.Satisfies (fun _ => P) fun _ => P) (ends : outcome ≠ .killed) : P := by
  cases outcome with
  | returned value => exact h
  | threw error => exact h
  | killed => exact absurd rfl ends

/-- Under a steady environment a request is answered and the rest runs on. -/
theorem Host.run_perform_bind (h : Host I σ ι) (i : ι) (w : σ) (log : List (Event I))
    (r : I.Request) (k : I.Reply r → Program I α) :
    h.run (fun _ => some i) w log (.perform r >>= k) =
      h.run (fun _ => some i) (h.answer i w r).2 (log ++ [⟨r, (h.answer i w r).1⟩])
        (k (h.answer i w r).1) := rfl

/-- A request of a process that is not killed is answered, and the rest runs on. -/
theorem Host.run_perform (h : Host I σ ι) (inputs : ℕ → ι) (w : σ) (log : List (Event I))
    (r : I.Request) (k : I.Reply r → Program I α) :
    h.run (fun n => some (inputs n)) w log (.perform r >>= k) =
      h.run (fun n => some (inputs (n + 1))) (h.answer (inputs 0) w r).2
        (log ++ [⟨r, (h.answer (inputs 0) w r).1⟩]) (k (h.answer (inputs 0) w r).1) := rfl

/-- The inputs that are left after a run from one log to another. -/
def remaining (inputs : ℕ → Option ι) (log log' : List (Event I)) : ℕ → Option ι :=
  fun n => inputs (n + (log'.length - log.length))

theorem remaining_self (inputs : ℕ → Option ι) (log : List (Event I)) :
    remaining inputs log log = inputs := by
  funext n
  simp [remaining]

theorem remaining_step {inputs : ℕ → Option ι} {log log' : List (Event I)} {e : Event I}
    (longer : log ++ [e] <+: log') :
    remaining (fun n => inputs (n + 1)) (log ++ [e]) log' = remaining inputs log log' := by
  funext n
  have bound := longer.length_le
  rw [List.length_append, List.length_singleton] at bound
  simp only [remaining, List.length_append, List.length_singleton]
  congr 1
  omega

/-- A sequence runs as its parts do, the second on the inputs that are left. -/
theorem Host.run_bind_remaining {β : Type} (h : Host I σ ι) (inputs : ℕ → Option ι) (w : σ)
    (log : List (Event I)) (p : Program I α) (k : α → Program I β) :
    h.run inputs w log (p >>= k) =
      match h.run inputs w log p with
      | ⟨.returned a, log', w'⟩ => h.run (remaining inputs log log') w' log' (k a)
      | ⟨.threw e, log', w'⟩ => ⟨.threw e, log', w'⟩
      | ⟨.killed, log', w'⟩ => ⟨.killed, log', w'⟩ := by
  induction p generalizing inputs w log with
  | done a => simp [Host.run, remaining_self]
  | throw e => rfl
  | ask r next ih =>
    rw [Program.bind_ask, Host.run, Host.run]
    cases inputs 0 with
    | none => rfl
    | some i =>
      have longer := Host.run_prefix h (fun n => inputs (n + 1)) (h.answer i w r).2
        (log ++ [⟨r, (h.answer i w r).1⟩]) (next (h.answer i w r).1)
      dsimp only
      rw [ih]
      generalize h.run (fun n => inputs (n + 1)) (h.answer i w r).2
        (log ++ [⟨r, (h.answer i w r).1⟩]) (next (h.answer i w r).1) = run at longer
      obtain ⟨outcome, log', w'⟩ := run
      cases outcome with
      | returned a => dsimp only; rw [remaining_step longer]
      | threw e => rfl
      | killed => rfl

/-- And a handler on the inputs that are left where the protected part throws. -/
theorem Host.run_tryCatch_remaining (h : Host I σ ι) (inputs : ℕ → Option ι) (w : σ)
    (log : List (Event I)) (p : Program I α) (handler : String → Program I α) :
    h.run inputs w log (p.tryCatch handler) =
      match h.run inputs w log p with
      | ⟨.threw e, log', w'⟩ => h.run (remaining inputs log log') w' log' (handler e)
      | r => r := by
  induction p generalizing inputs w log with
  | done a => rfl
  | throw e => simp [Program.tryCatch, Host.run, remaining_self]
  | ask r next ih =>
    rw [Program.tryCatch, Host.run, Host.run]
    cases inputs 0 with
    | none => rfl
    | some i =>
      have longer := Host.run_prefix h (fun n => inputs (n + 1)) (h.answer i w r).2
        (log ++ [⟨r, (h.answer i w r).1⟩]) (next (h.answer i w r).1)
      dsimp only
      rw [ih]
      generalize h.run (fun n => inputs (n + 1)) (h.answer i w r).2
        (log ++ [⟨r, (h.answer i w r).1⟩]) (next (h.answer i w r).1) = run at longer
      obtain ⟨outcome, log', w'⟩ := run
      cases outcome with
      | threw e => dsimp only; rw [remaining_step longer]
      | returned a => rfl
      | killed => rfl

/-- An attempt runs as what it attempts, and returns how that ended. -/
theorem Host.run_attempt (h : Host I σ ι) (inputs : ℕ → Option ι) (w : σ) (log : List (Event I))
    (p : Program I α) :
    h.run inputs w log ((p.bind fun a => .done (Except.ok a)).tryCatch fun e => .done (.error e)) =
      match h.run inputs w log p with
      | ⟨.returned a, log', w'⟩ => ⟨.returned (.ok a), log', w'⟩
      | ⟨.threw e, log', w'⟩ => ⟨.returned (.error e), log', w'⟩
      | ⟨.killed, log', w'⟩ => ⟨.killed, log', w'⟩ := by
  induction p generalizing inputs w log with
  | done a => rfl
  | throw e => rfl
  | ask r next ih =>
    rw [Program.bind, Program.tryCatch, Host.run, Host.run]
    cases inputs 0 with
    | none => rfl
    | some i => exact ih _ _ _ _

/-- Under a steady environment a sequence runs as its parts do. -/
theorem Host.run_bind {β : Type} (h : Host I σ ι) (i : ι) (w : σ) (log : List (Event I))
    (p : Program I α) (k : α → Program I β) :
    h.run (fun _ => some i) w log (p >>= k) =
      match h.run (fun _ => some i) w log p with
      | ⟨.returned a, log', w'⟩ => h.run (fun _ => some i) w' log' (k a)
      | ⟨.threw e, log', w'⟩ => ⟨.threw e, log', w'⟩
      | ⟨.killed, log', w'⟩ => ⟨.killed, log', w'⟩ :=
  Host.run_bind_remaining h _ w log p k

/-- And a handler runs where the protected part throws. -/
theorem Host.run_tryCatch (h : Host I σ ι) (i : ι) (w : σ) (log : List (Event I))
    (p : Program I α) (handler : String → Program I α) :
    h.run (fun _ => some i) w log (p.tryCatch handler) =
      match h.run (fun _ => some i) w log p with
      | ⟨.threw e, log', w'⟩ => h.run (fun _ => some i) w' log' (handler e)
      | r => r :=
  Host.run_tryCatch_remaining h _ w log p handler

section Runs

variable {permits : List (Event I) → I.Request → Prop} {post : List (Event I) → α → Prop}
  {exn : List (Event I) → String → Prop}

/-- **Run rule.** An invariant of log and world that every permitted request
keeps holds at the end of every run, on which the leaves' postconditions hold. -/
theorem Host.run_sound {J : List (Event I) → σ → Prop} {C : List (Event I) → Event I → Prop}
    (step : ∀ log w r i, permits log r → J log w → C log ⟨r, (h.answer i w r).1⟩ →
      J (log ++ [⟨r, (h.answer i w r).1⟩]) (h.answer i w r).2)
    (follows : p.Follows (.logging permits) post exn log) (holds : J log w)
    (along : Along C (h.run inputs w log p).log) :
    J (h.run inputs w log p).log (h.run inputs w log p).world ∧
      (h.run inputs w log p).outcome.Satisfies (post (h.run inputs w log p).log)
        (exn (h.run inputs w log p).log) := by
  induction p generalizing inputs w log with
  | done a => exact ⟨holds, follows⟩
  | throw e => exact ⟨holds, follows⟩
  | ask r next ih =>
    obtain ⟨allowed, continues⟩ := (follows_logging_ask r next).mp follows
    rw [Host.run] at along ⊢
    split
    · exact ⟨holds, trivial⟩
    · next i _ =>
      simp only [*] at along
      have first : C log ⟨r, (h.answer i w r).1⟩ :=
        along log _ (Host.run_prefix h _ _ _ _)
      exact ih _ (continues _) (step log w r i allowed holds first) along

/-- The rule without a condition on the events. -/
theorem Host.run_keeps {J : List (Event I) → σ → Prop}
    (step : ∀ log w r i, permits log r → J log w →
      J (log ++ [⟨r, (h.answer i w r).1⟩]) (h.answer i w r).2)
    (follows : p.Follows (.logging permits) post exn log) (holds : J log w) :
    J (h.run inputs w log p).log (h.run inputs w log p).world ∧
      (h.run inputs w log p).outcome.Satisfies (post (h.run inputs w log p).log)
        (exn (h.run inputs w log p).log) :=
  Host.run_sound (C := fun _ _ => True) (fun log w r i a b _ => step log w r i a b) follows holds
    (along_true _)

/-- **Two-run rule.** If related worlds answer every permitted request alike and
stay related, as long as what happens in the first meets a condition, the same
program ends alike in both. -/
theorem Host.run_agree_along {R : List (Event I) → σ → σ → Prop}
    {C : List (Event I) → Event I → Prop} {v : σ}
    (step : ∀ log w v r i, permits log r → R log w v → C log ⟨r, (h.answer i w r).1⟩ →
      (h.answer i w r).1 = (h.answer i v r).1 ∧
        R (log ++ [⟨r, (h.answer i w r).1⟩]) (h.answer i w r).2 (h.answer i v r).2)
    (follows : p.Follows (.logging permits) post exn log) (related : R log w v)
    (along : Along C (h.run inputs w log p).log) :
    (h.run inputs w log p).outcome = (h.run inputs v log p).outcome ∧
      (h.run inputs w log p).log = (h.run inputs v log p).log ∧
      R (h.run inputs w log p).log (h.run inputs w log p).world
        (h.run inputs v log p).world := by
  induction p generalizing inputs w v log with
  | done a => exact ⟨rfl, rfl, related⟩
  | throw e => exact ⟨rfl, rfl, related⟩
  | ask r next ih =>
    obtain ⟨allowed, continues⟩ := (follows_logging_ask r next).mp follows
    simp only [Host.run] at along ⊢
    cases given : inputs 0 with
    | none => exact ⟨rfl, rfl, related⟩
    | some i =>
      rw [given] at along
      have first : C log ⟨r, (h.answer i w r).1⟩ := along log _ (Host.run_prefix h _ _ _ _)
      obtain ⟨same, stays⟩ := step log w v r i allowed related first
      have rest := @ih _ (fun n => inputs (n + 1)) _ _ _ (continues _) stays along
      simpa only [same] using rest

/-- The rule without a condition. -/
theorem Host.run_agree {R : List (Event I) → σ → σ → Prop} {v : σ}
    (step : ∀ log w v r i, permits log r → R log w v →
      (h.answer i w r).1 = (h.answer i v r).1 ∧
        R (log ++ [⟨r, (h.answer i w r).1⟩]) (h.answer i w r).2 (h.answer i v r).2)
    (follows : p.Follows (.logging permits) post exn log) (related : R log w v) :
    (h.run inputs w log p).outcome = (h.run inputs v log p).outcome ∧
      (h.run inputs w log p).log = (h.run inputs v log p).log ∧
      R (h.run inputs w log p).log (h.run inputs w log p).world
        (h.run inputs v log p).world :=
  Host.run_agree_along (C := fun _ _ => True) (fun log w v r i a b _ => step log w v r i a b)
    follows related (along_true _)

end Runs

/-! ## Operations one after another -/

/-- A finished operation: which one, in which world, and how it ran. -/
structure Episode (Ω : Type) (I : Interface) (α σ : Type) where
  operation : Ω
  before : σ
  run : Run I α σ

/-- Operations run one at a time, each from the world the last one left. -/
inductive Session {Ω : Type} (h : Host I σ ι) (program : Ω → Program I α) (w₀ : σ) :
    List (Episode Ω I α σ) → σ → Prop
  | start : Session h program w₀ [] w₀
  | operate {past w} (op : Ω) (inputs : ℕ → Option ι) (before : Session h program w₀ past w) :
    Session h program w₀ (past ++ [⟨op, w, h.run inputs w [] (program op)⟩])
      (h.run inputs w [] (program op)).world

/-- **Session rule.** If every operation run from a world with the invariant
keeps it and gives `Q`, the invariant holds at the end of a session and `Q` of
every operation in it; `C` is a condition on the operations run. -/
theorem Session.episodes {Ω : Type} {program : Ω → Program I α} {w₀ : σ} {J : σ → Prop}
    {C Q : Episode Ω I α σ → Prop}
    (keeps : ∀ op inputs w, J w → C ⟨op, w, h.run inputs w [] (program op)⟩ →
      J (h.run inputs w [] (program op)).world ∧ Q ⟨op, w, h.run inputs w [] (program op)⟩)
    (initial : J w₀) {past : List (Episode Ω I α σ)} (s : Session h program w₀ past w)
    (met : ∀ e ∈ past, C e) : J w ∧ ∀ e ∈ past, Q e := by
  induction s with
  | start => exact ⟨initial, by simp⟩
  | operate op inputs before ih =>
    obtain ⟨holds, each⟩ := ih fun e member => met e (List.mem_append_left _ member)
    obtain ⟨stays, last⟩ := keeps op inputs _ holds (met _ (by simp))
    refine ⟨stays, fun e member => ?_⟩
    rcases List.mem_append.mp member with old | new
    · exact each e old
    · rw [List.mem_singleton.mp new]
      exact last

/-! ## Operations at the same time -/

/-- One operation under way: what it was asked to do, what it has seen, and
what is left of it. -/
structure Thread (Ω : Type) (I : Interface) (α : Type) where
  operation : Ω
  log : List (Event I)
  rest : Program I α

/-- Operations under way over one world, and everything that has happened. -/
structure Pool (Ω : Type) (I : Interface) (α σ : Type) where
  world : σ
  thread : ℕ → Thread Ω I α
  history : List (ℕ × Event I)

/-- The scheduler lets one thread ask its next question, or kills it. -/
inductive Move (ι : Type)
  | step (t : ℕ) (input : ι)
  | kill (t : ℕ)

variable {Ω : Type}

/-- Nothing asked yet. -/
def Pool.start (program : Ω → Program I α) (operations : ℕ → Ω) (w : σ) : Pool Ω I α σ where
  world := w
  thread t := ⟨operations t, [], program (operations t)⟩
  history := []

/-- The next event of a thread under an input, if it is still running. -/
def Pool.nextEvent (h : Host I σ ι) (p : Pool Ω I α σ) (t : ℕ) (i : ι) : Option (Event I) :=
  match (p.thread t).rest with
  | .ask r _ => some ⟨r, (h.answer i p.world r).1⟩
  | _ => none

/-- A thread is running while it has a question left. -/
def Thread.Running (th : Thread Ω I α) : Prop := ∃ r next, th.rest = .ask r next

/-- The pool after one move. -/
def Pool.move (h : Host I σ ι) (p : Pool Ω I α σ) : Move ι → Pool Ω I α σ
  | .step t i =>
    match (p.thread t).rest with
    | .ask r next =>
      let (x, w) := h.answer i p.world r
      { world := w
        thread := Function.update p.thread t
          ⟨(p.thread t).operation, (p.thread t).log ++ [⟨r, x⟩], next x⟩
        history := p.history ++ [(t, ⟨r, x⟩)] }
    | _ => p
  | .kill t =>
    { p with thread := Function.update p.thread t { p.thread t with rest := .throw "killed" } }

/-- The pool after a schedule. -/
def Pool.play (h : Host I σ ι) : Pool Ω I α σ → List (Move ι) → Pool Ω I α σ :=
  List.foldl (Pool.move h)

/-- Every move of the schedule satisfies a condition in the pool it is made in. -/
def Pool.Meets (h : Host I σ ι) (C : Pool Ω I α σ → Move ι → Prop) :
    Pool Ω I α σ → List (Move ι) → Prop
  | _, [] => True
  | p, m :: rest => C p m ∧ Meets h C (p.move h m) rest

/-- A schedule can be checked move by move. -/
instance Pool.Meets.decidable (h : Host I σ ι) (C : Pool Ω I α σ → Move ι → Prop)
    [∀ p m, Decidable (C p m)] : (p : Pool Ω I α σ) → (moves : List (Move ι)) →
    Decidable (p.Meets h C moves)
  | _, [] => .isTrue trivial
  | p, m :: rest =>
    match (inferInstance : Decidable (C p m)), Pool.Meets.decidable h C (p.move h m) rest with
    | .isTrue now, .isTrue later => .isTrue ⟨now, later⟩
    | .isFalse now, _ => .isFalse fun met => now met.1
    | _, .isFalse later => .isFalse fun met => later met.2

theorem Pool.meets_true {h : Host I σ ι} (p : Pool Ω I α σ) (moves : List (Move ι)) :
    p.Meets h (fun _ _ => True) moves := by
  induction moves generalizing p with
  | nil => trivial
  | cons m rest ih => exact ⟨trivial, ih _⟩

theorem Pool.Meets.mono {h : Host I σ ι} {C C' : Pool Ω I α σ → Move ι → Prop}
    (weaker : ∀ p m, C p m → C' p m) {moves : List (Move ι)} :
    ∀ {p : Pool Ω I α σ}, p.Meets h C moves → p.Meets h C' moves := by
  induction moves with
  | nil => exact fun _ => trivial
  | cons m rest ih => exact fun met => ⟨weaker _ m met.1, ih met.2⟩

theorem Pool.Meets.and {h : Host I σ ι} {C C' : Pool Ω I α σ → Move ι → Prop}
    {moves : List (Move ι)} : ∀ {p : Pool Ω I α σ}, p.Meets h C moves → p.Meets h C' moves →
      p.Meets h (fun p m => C p m ∧ C' p m) moves := by
  induction moves with
  | nil => exact fun _ _ => trivial
  | cons m rest ih => exact fun met met' => ⟨⟨met.1, met'.1⟩, ih met.2 met'.2⟩

variable {pool : Pool Ω I α σ} {t : ℕ} {i : ι} {r : I.Request} {next : I.Reply r → Program I α}

theorem Pool.move_step (running : (pool.thread t).rest = .ask r next) :
    pool.move h (.step t i) =
      { world := (h.answer i pool.world r).2
        thread := Function.update pool.thread t
          ⟨(pool.thread t).operation, (pool.thread t).log ++ [⟨r, (h.answer i pool.world r).1⟩],
            next (h.answer i pool.world r).1⟩
        history := pool.history ++ [(t, ⟨r, (h.answer i pool.world r).1⟩)] } := by
  simp only [Pool.move, running]

/-- A next event is the answer to a question that is left. -/
theorem Pool.nextEvent_some {x : I.Reply r} (happens : pool.nextEvent h t i = some ⟨r, x⟩) :
    ∃ next, (pool.thread t).rest = .ask r next ∧ (h.answer i pool.world r).1 = x := by
  unfold Pool.nextEvent at happens
  split at happens
  · next r' next rest =>
    obtain ⟨rfl, same⟩ := Event.mk.inj (Option.some.inj happens)
    exact ⟨next, rest, eq_of_heq same⟩
  · cases happens

/-- What a move adds to the logs. -/
theorem Pool.log_step (running : (pool.thread t).rest = .ask r next) (u : ℕ) :
    ((pool.move h (.step t i)).thread u).log =
      if u = t then (pool.thread t).log ++ [⟨r, (h.answer i pool.world r).1⟩]
      else (pool.thread u).log := by
  simp only [Pool.move_step running, Function.update_apply]
  split <;> rfl

theorem Pool.log_kill (h : Host I σ ι) (p : Pool Ω I α σ) (t u : ℕ) :
    ((p.move h (.kill t)).thread u).log = (p.thread u).log := by
  simp only [Pool.move, Function.update_apply]
  split
  · next same => rw [same]
  · rfl

theorem Pool.move_idle (idle : ¬ (pool.thread t).Running) :
    pool.move h (.step t i) = pool := by
  simp only [Pool.move]
  split
  · next r next eq => exact absurd ⟨r, next, eq⟩ idle
  · rfl

/-- The step of one thread leaves the others where they are. -/
theorem Pool.thread_step {u : ℕ} (other : u ≠ t) (i : ι) :
    (pool.move h (.step t i)).thread u = pool.thread u := by
  by_cases running : (pool.thread t).Running
  · obtain ⟨r, next, rest⟩ := running
    rw [Pool.move_step rest]
    exact Function.update_of_ne other ..
  · rw [Pool.move_idle running]

/-- A move changes no thread's operation. -/
theorem Pool.operation_move (m : Move ι) :
    ((pool.move h m).thread t).operation = (pool.thread t).operation := by
  cases m with
  | kill t' =>
    simp only [Pool.move, Function.update_apply]
    split
    · next same => rw [same]
    · rfl
  | step t' i =>
    by_cases running : (pool.thread t').Running
    · obtain ⟨r, next, running⟩ := running
      simp only [Pool.move_step running, Function.update_apply]
      split
      · next same => rw [same]
      · rfl
    · rw [Pool.move_idle running]

/-- **Schedule rule.** What every move keeps holds after every schedule. -/
theorem Pool.play_invariant {J : Pool Ω I α σ → Prop} {C : Pool Ω I α σ → Move ι → Prop}
    (keeps : ∀ p m, J p → C p m → J (p.move h m)) {moves : List (Move ι)}
    (initial : J pool) (met : pool.Meets h C moves) : J (pool.play h moves) := by
  induction moves generalizing pool with
  | nil => exact initial
  | cons m rest ih => exact ih (keeps pool m initial met.1) met.2

theorem Pool.play_append (p : Pool Ω I α σ) (first rest : List (Move ι)) :
    p.play h (first ++ rest) = (p.play h first).play h rest :=
  List.foldl_append

/-- A schedule meets a condition when its first part does, and its second part
does from there. -/
theorem Pool.meets_append {C : Pool Ω I α σ → Move ι → Prop} {p : Pool Ω I α σ}
    {first rest : List (Move ι)} :
    p.Meets h C (first ++ rest) ↔ p.Meets h C first ∧ (p.play h first).Meets h C rest := by
  induction first generalizing p with
  | nil => exact ⟨fun met => ⟨trivial, met⟩, fun met => met.2⟩
  | cons m first ih => exact (and_congr_right fun _ => ih).trans and_assoc.symm

/-- A next event happens with the step. -/
theorem Pool.history_step {e : Event I} (happens : pool.nextEvent h t i = some e) :
    (t, e) ∈ (pool.move h (.step t i)).history := by
  obtain ⟨r, x⟩ := e
  obtain ⟨next, rest, rfl⟩ := Pool.nextEvent_some happens
  rw [Pool.move_step rest]
  exact List.mem_append_right _ List.mem_cons_self

/-- What has happened stays in the history. -/
theorem Pool.history_play {event : ℕ × Event I} (happened : event ∈ pool.history)
    (moves : List (Move ι)) : event ∈ (pool.play h moves).history := by
  refine Pool.play_invariant (J := fun p => event ∈ p.history) (fun p m happened _ => ?_) happened
    (Pool.meets_true _ moves)
  cases m with
  | kill t => exact happened
  | step t i =>
    by_cases running : (p.thread t).Running
    · obtain ⟨r, next, rest⟩ := running
      rw [Pool.move_step rest]
      exact List.mem_append_left _ happened
    · rw [Pool.move_idle running]
      exact happened

/-- A move adds at most one event to the history: the next one of its thread. -/
theorem Pool.history_move (h : Host I σ ι) (p : Pool Ω I α σ) (m : Move ι) :
    (p.move h m).history = p.history ∨ ∃ t i e, m = .step t i ∧ p.nextEvent h t i = some e ∧
      (p.move h m).history = p.history ++ [(t, e)] := by
  cases m with
  | kill t => exact .inl rfl
  | step t i =>
    by_cases running : (p.thread t).Running
    · obtain ⟨r, next, rest⟩ := running
      refine .inr ⟨t, i, ⟨r, (h.answer i p.world r).1⟩, rfl, ?_, by rw [Pool.move_step rest]⟩
      simp only [Pool.nextEvent, rest]
    · exact .inl (by rw [Pool.move_idle running])

/-- What has happened in a schedule has happened at one of its moves. -/
theorem Pool.happened {e : Event I} {moves : List (Move ι)} {p : Pool Ω I α σ}
    (happened : (t, e) ∈ (p.play h moves).history) (new : (t, e) ∉ p.history) :
    ∃ first i rest, moves = first ++ .step t i :: rest ∧
      (p.play h first).nextEvent h t i = some e := by
  induction moves generalizing p with
  | nil => exact absurd happened new
  | cons m moves ih =>
    by_cases now : (t, e) ∈ (p.move h m).history
    · rcases Pool.history_move h p m with same | ⟨u, i, e', rfl, next, grown⟩
      · exact absurd (same ▸ now) new
      · rcases List.mem_append.mp (grown ▸ now) with old | last
        · exact absurd old new
        · obtain ⟨rfl, rfl⟩ := Prod.mk.inj (List.mem_singleton.mp last)
          exact ⟨[], i, moves, rfl, next⟩
    · obtain ⟨first, i, rest, rfl, next⟩ := ih happened now
      exact ⟨m :: first, i, rest, rfl, next⟩

/-- A log only grows. -/
theorem Pool.log_play (p : Pool Ω I α σ) (t : ℕ) (moves : List (Move ι)) :
    (p.thread t).log <+: ((p.play h moves).thread t).log := by
  refine Pool.play_invariant (J := fun q => (p.thread t).log <+: (q.thread t).log)
    (fun q m longer _ => longer.trans ?_) List.prefix_rfl (Pool.meets_true _ moves)
  cases m with
  | kill u => exact (Pool.log_kill h q u t).symm ▸ List.prefix_rfl
  | step u i =>
    by_cases running : (q.thread u).Running
    · obtain ⟨r, next, rest⟩ := running
      rw [Pool.log_step rest]
      split
      · next same => exact same ▸ List.prefix_append _ _
      · exact List.prefix_rfl
    · exact (Pool.move_idle running).symm ▸ List.prefix_rfl

/-- A condition on every move of a schedule, in the pool it is made in. -/
theorem Pool.meets_of_split {C : Pool Ω I α σ → Move ι → Prop} {p : Pool Ω I α σ}
    {moves : List (Move ι)}
    (each : ∀ first m rest, moves = first ++ m :: rest → C (p.play h first) m) :
    p.Meets h C moves := by
  induction moves generalizing p with
  | nil => trivial
  | cons m moves ih =>
    refine ⟨each [] m moves rfl, ih fun first m' rest split => ?_⟩
    exact each (m :: first) m' rest (congrArg (m :: ·) split)

/-- Nor does a schedule. -/
theorem Pool.operation_play (t : ℕ) (moves : List (Move ι)) :
    ((pool.play h moves).thread t).operation = (pool.thread t).operation :=
  Pool.play_invariant (J := fun p => (p.thread t).operation = (pool.thread t).operation)
    (fun _ m same _ => (Pool.operation_move m).trans same) rfl (Pool.meets_true pool moves)

/-- What an invariant implies may be added to a schedule's condition. -/
theorem Pool.Meets.strengthen {J : Pool Ω I α σ → Prop} {C C' : Pool Ω I α σ → Move ι → Prop}
    (keeps : ∀ p m, J p → C p m → J (p.move h m)) (gives : ∀ p m, J p → C p m → C' p m)
    {moves : List (Move ι)} (initial : J pool) (met : pool.Meets h C moves) :
    pool.Meets h C' moves := by
  induction moves generalizing pool with
  | nil => trivial
  | cons m rest ih => exact ⟨gives pool m initial met.1, ih (keeps pool m initial met.1) met.2⟩

/-- What a thread has returned. -/
def Thread.result (th : Thread Ω I α) : Option α :=
  match th.rest with
  | .done a => some a
  | _ => none

/-- The next question of a thread. -/
def Thread.request (th : Thread Ω I α) : Option I.Request :=
  match th.rest with
  | .ask r _ => some r
  | _ => none

theorem Thread.rest_of_request {th : Thread Ω I α} (asks : th.request = some r) :
    ∃ next, th.rest = .ask r next := by
  unfold Thread.request at asks
  split at asks
  · next r' next rest =>
    obtain rfl := Option.some.inj asks
    exact ⟨next, rest⟩
  · exact absurd asks nofun

/-- A condition on the question a move lets a thread ask, if it has one. -/
def Pool.Next (C : ι → I.Request → Prop) (p : Pool Ω I α σ) : Move ι → Prop
  | .kill _ => True
  | .step t i => ∀ r ∈ (p.thread t).request, C i r

instance Pool.Next.decidable (C : ι → I.Request → Prop) [∀ i r, Decidable (C i r)]
    (p : Pool Ω I α σ) : (m : Move ι) → Decidable (p.Next C m)
  | .kill _ => .isTrue trivial
  | .step t i => inferInstanceAs (Decidable (∀ r ∈ (p.thread t).request, C i r))

theorem Pool.Next.ask {C : ι → I.Request → Prop} (met : pool.Next C (.step t i))
    (rest : (pool.thread t).rest = .ask r next) : C i r :=
  met r (by simp [Thread.request, rest])

/-- What a move does to the world: nothing, or what a question asked does. -/
theorem Pool.move_world (h : Host I σ ι) (p : Pool Ω I α σ) (m : Move ι) :
    (p.move h m).world = p.world ∨
      ∃ t i r next, m = .step t i ∧ (p.thread t).rest = .ask r next ∧
        (p.move h m).world = (h.answer i p.world r).2 := by
  cases m with
  | kill t => exact .inl rfl
  | step t i =>
    by_cases running : (p.thread t).Running
    · obtain ⟨r, next, rest⟩ := running
      exact .inr ⟨t, i, r, next, rfl, rest, by rw [Pool.move_step rest]⟩
    · exact .inl (by rw [Pool.move_idle running])

/-- The rest of every operation keeps to its permissions and its postcondition. -/
def Pool.Verified (permits : Ω → List (Event I) → I.Request → Prop)
    (post : Ω → List (Event I) → α → Prop) (p : Pool Ω I α σ) : Prop :=
  ∀ t, (p.thread t).rest.Follows (.logging (permits (p.thread t).operation))
    (post (p.thread t).operation) (fun _ _ => True) (p.thread t).log

section Verified

variable {permits : Ω → List (Event I) → I.Request → Prop} {post : Ω → List (Event I) → α → Prop}

/-- The next question of an operation is permitted. -/
theorem Pool.Verified.permitted (verified : pool.Verified permits post)
    (rest : (pool.thread t).rest = .ask r next) :
    permits (pool.thread t).operation (pool.thread t).log r := by
  have here := verified t
  rw [rest, follows_logging_ask] at here
  exact here.1

/-- What an operation has returned is as promised. -/
theorem Pool.Verified.returned (verified : pool.Verified permits post) {value : α}
    (result : (pool.thread t).result = some value) :
    post (pool.thread t).operation (pool.thread t).log value := by
  have here := verified t
  unfold Thread.result at result
  split at result
  · next a done =>
    rw [done] at here
    exact Option.some.inj result ▸ here
  · exact absurd result nofun

theorem Pool.Verified.move (verified : pool.Verified permits post) (m : Move ι) :
    (pool.move h m).Verified permits post := by
  intro t
  cases m with
  | kill t' =>
    simp only [Pool.move, Function.update_apply]
    split
    · trivial
    · exact verified t
  | step t' i =>
    by_cases running : (pool.thread t').Running
    · obtain ⟨r, next, eq⟩ := running
      have here := verified t'
      rw [eq, follows_logging_ask] at here
      simp only [Pool.move_step eq, Function.update_apply]
      split
      · exact here.2 _
      · exact verified t
    · rw [Pool.move_idle running]
      exact verified t

end Verified

/-- In every pool a schedule reaches, the rest of each operation keeps to its
permissions and its postcondition. -/
theorem Pool.follows_play {permits : Ω → List (Event I) → I.Request → Prop}
    {post : Ω → List (Event I) → α → Prop} {program : Ω → Program I α} {operations : ℕ → Ω}
    (verified : ∀ op, (program op).Follows (.logging (permits op)) (post op) (fun _ _ => True) [])
    (moves : List (Move ι)) (t : ℕ) :
    let th := ((Pool.start program operations w).play h moves).thread t
    th.rest.Follows (.logging (permits th.operation)) (post th.operation) (fun _ _ => True)
      th.log :=
  Pool.play_invariant (J := Pool.Verified permits post) (fun _ m verified _ => verified.move m)
    (fun _ => verified _) (Pool.meets_true _ moves) t

/-- What has happened is what the operations have seen. -/
def Pool.Told (p : Pool Ω I α σ) : Prop := ∀ t e, (t, e) ∈ p.history ↔ e ∈ (p.thread t).log

theorem Pool.told_start (program : Ω → Program I α) (operations : ℕ → Ω) (w : σ) :
    (Pool.start program operations w).Told :=
  fun _ _ => ⟨fun member => absurd member List.not_mem_nil,
    fun member => absurd member List.not_mem_nil⟩

theorem Pool.Told.move (told : pool.Told) (m : Move ι) : (pool.move h m).Told := by
  intro t e
  cases m with
  | kill t' =>
    rw [Pool.log_kill]
    exact told t e
  | step t' i =>
    by_cases running : (pool.thread t').Running
    · obtain ⟨r, next, eq⟩ := running
      rw [Pool.log_step eq, Pool.move_step eq]
      simp only [List.mem_append, List.mem_singleton, Prod.mk.injEq, told t e]
      split
      · next same => simp [same]
      · next other => simp [other]
    · rw [Pool.move_idle running]
      exact told t e

theorem Pool.told_play (program : Ω → Program I α) (operations : ℕ → Ω) (w : σ)
    (moves : List (Move ι)) : ((Pool.start program operations w).play h moves).Told :=
  Pool.play_invariant (J := Pool.Told) (fun _ m told _ => Pool.Told.move told m)
    (Pool.told_start program operations w) (Pool.meets_true _ moves)

section Soundness

variable {permits : Ω → List (Event I) → I.Request → Prop}
  {J : σ → List (ℕ × Event I) → Prop}
  {K : ℕ → Thread Ω I α → σ → List (ℕ × Event I) → Prop}

/-- An invariant of the world and the history, and one of every thread: its
remaining program keeps to its permissions, and `K` holds of it. -/
structure Pool.Sound (permits : Ω → List (Event I) → I.Request → Prop)
    (J : σ → List (ℕ × Event I) → Prop)
    (K : ℕ → Thread Ω I α → σ → List (ℕ × Event I) → Prop) (p : Pool Ω I α σ) : Prop where
  world : J p.world p.history
  follows : ∀ t, (p.thread t).rest.Follows (.logging (permits (p.thread t).operation))
    (fun _ _ => True) (fun _ _ => True) (p.thread t).log
  threads : ∀ t, K t (p.thread t) p.world p.history

/-- The programs' permissions and the initial invariants make the start sound. -/
theorem Pool.Sound.start {program : Ω → Program I α} {operations : ℕ → Ω}
    (verified : ∀ op, (program op).Follows (.logging (permits op)) (fun _ _ => True)
      (fun _ _ => True) [])
    (world : J w [])
    (threads : ∀ t, K t ⟨operations t, [], program (operations t)⟩ w []) :
    (Pool.start program operations w).Sound permits J K :=
  ⟨world, fun _ => verified _, threads⟩

/-- What one permitted request of one thread has to keep: the world's invariant,
its own thread's and those of the other threads. -/
def Pool.StepKeeps (h : Host I σ ι) (permits : Ω → List (Event I) → I.Request → Prop)
    (J : σ → List (ℕ × Event I) → Prop) (K : ℕ → Thread Ω I α → σ → List (ℕ × Event I) → Prop)
    (C : Pool Ω I α σ → Move ι → Prop) : Prop :=
  ∀ (p : Pool Ω I α σ) t i r next, p.Sound permits J K →
    (p.thread t).rest = .ask r next → C p (.step t i) →
    permits (p.thread t).operation (p.thread t).log r →
    J (h.answer i p.world r).2 (p.history ++ [(t, ⟨r, (h.answer i p.world r).1⟩)]) ∧
    K t ⟨(p.thread t).operation, (p.thread t).log ++ [⟨r, (h.answer i p.world r).1⟩],
        next (h.answer i p.world r).1⟩ (h.answer i p.world r).2
      (p.history ++ [(t, ⟨r, (h.answer i p.world r).1⟩)]) ∧
    ∀ t', t' ≠ t → K t' (p.thread t') (h.answer i p.world r).2
      (p.history ++ [(t, ⟨r, (h.answer i p.world r).1⟩)])

/-- A death has to keep the invariant of the thread that dies. -/
def Pool.KillKeeps (K : ℕ → Thread Ω I α → σ → List (ℕ × Event I) → Prop) : Prop :=
  ∀ t (th : Thread Ω I α) w history, K t th w history →
    K t { th with rest := .throw "killed" } w history

theorem Pool.Sound.move {C : Pool Ω I α σ → Move ι → Prop}
    (step : Pool.StepKeeps h permits J K C) (kill : Pool.KillKeeps K) (m : Move ι)
    (sound : pool.Sound permits J K) (met : C pool m) : (pool.move h m).Sound permits J K := by
  cases m with
  | kill t =>
    refine ⟨sound.world, fun t' => ?_, fun t' => ?_⟩
    · by_cases same : t' = t
      · subst same
        simp [Pool.move]
      · simpa [Pool.move, Function.update_of_ne same] using sound.follows t'
    · by_cases same : t' = t
      · subst same
        simpa [Pool.move] using kill _ _ _ _ (sound.threads t')
      · simpa [Pool.move, Function.update_of_ne same] using sound.threads t'
  | step t i =>
    by_cases running : (pool.thread t).Running
    · obtain ⟨r, next, eq⟩ := running
      have here := sound.follows t
      rw [eq, follows_logging_ask] at here
      obtain ⟨world, own, others⟩ := step pool t i r next sound eq met here.1
      rw [Pool.move_step eq]
      refine ⟨world, fun t' => ?_, fun t' => ?_⟩
      · by_cases same : t' = t
        · subst same
          simpa using here.2 _
        · simpa [Function.update_of_ne same] using sound.follows t'
      · by_cases same : t' = t
        · subst same
          simpa using own
        · simpa [Function.update_of_ne same] using others t' same
    · rwa [Pool.move_idle running]

/-- **Pool rule.** Soundness holds after every schedule whose moves meet the
condition. -/
theorem Pool.Sound.play {C : Pool Ω I α σ → Move ι → Prop}
    (step : Pool.StepKeeps h permits J K C) (kill : Pool.KillKeeps K) {moves : List (Move ι)}
    (initial : pool.Sound permits J K) (met : pool.Meets h C moves) :
    (pool.play h moves).Sound permits J K :=
  Pool.play_invariant (fun _ m sound now => Pool.Sound.move step kill m sound now) initial met

end Soundness

end EcfDgii.Execution
