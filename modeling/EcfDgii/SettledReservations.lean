import EcfDgii.DocumentInvariants
import EcfDgii.Reservations
import EcfDgii.WrappedOperations

/-!
What becomes of a reservation (`IdempotencyHandler::handle`).

Under a reservation the handler runs the operation, stores its response or
releases the key, and answers.  `answered_and_settled_iff` says when this ends
with one answer and no reservation left: the operation answers rather than
throws, and the database executes the statement that settles the reservation.
A `complete` that fails inside a `try` block of the operation is followed by the
release of the 500 that block answers.

An operation that throws is never answered by the handler: the callback of the
`catch` block was moved into the lambda given to the operation.
-/

set_option autoImplicit false

namespace EcfDgii.SettledReservations

open EcfDgii.Documents EcfDgii.Tables EcfDgii.Programs EcfDgii.Execution EcfDgii.Engine
open EcfDgii.Submission EcfDgii.Traces EcfDgii.DocumentInvariants EcfDgii.Reservations
open EcfDgii.WrappedOperations

variable {ext : Externals} {w : World} {log : Log} {key : String} {inputs : ℕ → Input}

/-- The caller got one response. -/
def AnsweredOnce (run : Run Api Unit World) : Prop := (answers run.log).length = 1
  deriving Decidable

/-- No reservation of the key is left. -/
def Settled (key : String) (w : World) : Prop :=
  ∀ r ∈ w.idempotency, r.key = key → r.status ≠ "Processing"

/-- The statement that settles the reservation runs: the first request after the
operation, or, when that `complete` fails inside a `try` block, the release that
follows it. -/
def Settling (ending : Ending) (first second : Input) : Prop :=
  first.databaseError = none ∨
    ∃ response label, ending = .answerInTry response label ∧
      shouldCache response.statusCode = true ∧ second.databaseError = none

/-! ## The callback -/

theorem complete_runs {i : Input} (runs : i.databaseError = none) (code : ℕ)
    (contentType body : String) :
    ((host ext).answer i w (.idempotency (.complete key code contentType body))).1 = .ok () ∧
      Settled key
        ((host ext).answer i w (.idempotency (.complete key code contentType body))).2 := by
  simp only [host, answerAt, idempotencyAnswer, runs]
  refine ⟨rfl, fun r here named => ?_⟩
  obtain ⟨old, member, rfl⟩ := List.mem_map.mp here
  by_cases same : old.key = key
  · by_cases processing : old.status = "Processing"
    · simp [same, processing]
    · simp [same, processing]
  · simp [same] at named

theorem release_runs {i : Input} (runs : i.databaseError = none) :
    Settled key ((host ext).answer i w (.idempotency (.release key))).2 := by
  simp only [host, answerAt, idempotencyAnswer, runs]
  intro r here named processing
  have kept := (List.mem_filter.mp here).2
  simp [named, processing] at kept

variable (ext w log key inputs) in
/-- When the settling statement runs, the response is answered and nothing of the
reservation is left. -/
theorem callback_settles (response : HttpResponse) (runs : (inputs 0).databaseError = none) :
    ∃ b v, (host ext).run (fun n => some (inputs n)) w log
        (idempotentCallback ext key response) = ⟨.returned (), b, v⟩ ∧
      answers b = answers log ++ [response] ∧ Settled key v := by
  unfold idempotentCallback
  split
  · obtain ⟨reply, settled⟩ := complete_runs (w := w) runs
      response.statusCode (HttpResponse.content ext response).1
      (HttpResponse.content ext response).2
    dsimp only
    rw [Host.run_perform, reply]
    refine ⟨_, _, rfl, ?_, settled⟩
    simp only [answers_append, List.append_assoc]
    rfl
  · rw [Host.run_perform]
    refine ⟨_, _, rfl, ?_, release_runs (w := w) runs⟩
    simp only [answers_append, List.append_assoc]
    rfl

variable (ext w log key inputs) in
/-- A release that fails is not noticed: the response is answered, and the
records stay as they were. -/
theorem callback_leaks (response : HttpResponse) {e : String}
    (released : shouldCache response.statusCode = false)
    (fails : (inputs 0).databaseError = some e) :
    ∃ b v, (host ext).run (fun n => some (inputs n)) w log
        (idempotentCallback ext key response) = ⟨.returned (), b, v⟩ ∧
      answers b = answers log ++ [response] ∧ v.idempotency = w.idempotency := by
  unfold idempotentCallback
  rw [if_neg (by simp [released]), Host.run_perform]
  refine ⟨_, _, rfl, ?_, ?_⟩
  · simp only [answers_append, List.append_assoc]
    rfl
  · simp only [host, answerAt, idempotencyAnswer, fails]

variable (ext w log key inputs) in
/-- A `complete` that fails throws out of the callback, before the answer. -/
theorem callback_throws (response : HttpResponse) {e : String}
    (kept : shouldCache response.statusCode = true)
    (fails : (inputs 0).databaseError = some e) :
    ∃ event v, (host ext).run (fun n => some (inputs n)) w log
        (idempotentCallback ext key response) = ⟨.threw e, log ++ [event], v⟩ ∧
      answers (log ++ [event]) = answers log ∧ v.idempotency = w.idempotency := by
  have reply : ((host ext).answer (inputs 0) w (.idempotency (.complete key response.statusCode
      (HttpResponse.content ext response).1 (HttpResponse.content ext response).2))).1 =
        .error e := by
    simp only [host, answerAt, idempotencyAnswer, fails]
    rfl
  unfold idempotentCallback
  rw [if_pos kept]
  dsimp only
  rw [Host.run_perform, reply]
  refine ⟨_, _, rfl, ?_, ?_⟩
  · rw [answers_append]
    exact List.append_nil _
  · simp only [host, answerAt, idempotencyAnswer, fails]

/-! ## The operation under the reservation -/

/-- The `catch` block of the handler answers nobody. -/
theorem catch_unanswered (e : String) :
    answers ((host ext).run (fun n => some (inputs n)) w log (do
      let _ ← ask (.idempotency (.release key))
      .throw e : Procedure Unit)).log = answers log := by
  rw [Host.run_perform]
  change answers (log ++ [_]) = _
  rw [answers_append]
  exact List.append_nil _

variable (ext inputs) in
/-- **The end of an operation.** From a reservation, a response delivered under
the handler is answered once and leaves nothing of the reservation exactly when
the settling statement runs. -/
theorem deliver_iff (ending : Ending) (held : HeldSince key 0 w.idempotency)
    (silent : answers log = []) :
    let run := (host ext).run (fun n => some (inputs n)) w log
      ((ending.deliver (idempotentCallback ext key)).tryCatch fun _ => do
        let _ ← ask (.idempotency (.release key))
        .throw "bad_function_call")
    AnsweredOnce run ∧ Settled key run.world ↔ Settling ending (inputs 0) (inputs 1) := by
  have unsettled : ∀ v : World, v.idempotency = w.idempotency → ¬ Settled key v := by
    intro v same settled
    obtain ⟨row, here, named, processing, -⟩ := held
    exact settled row (same ▸ here) named processing
  have once : ∀ {b : Log} {response : HttpResponse}, answers b = answers log ++ [response] →
      (answers b).length = 1 := fun eq => by rw [eq, silent]; rfl
  have left : ∀ event, remaining (fun n => some (inputs n)) log (log ++ [event]) =
      fun n => some (inputs (n + 1)) := fun event => by
    funext n
    simp [remaining]
  intro run
  cases ending with
  | answer response =>
    have settling : Settling (.answer response) (inputs 0) (inputs 1) ↔
        (inputs 0).databaseError = none := by
      refine ⟨fun h => h.resolve_right ?_, .inl⟩
      rintro ⟨_, _, same, _⟩
      cases same
    rw [settling]
    cases failed : (inputs 0).databaseError with
    | none =>
      obtain ⟨b, v, ran, answered, settled⟩ := callback_settles ext w log key inputs response failed
      simp only [run, Ending.deliver, Host.run_tryCatch_remaining, ran]
      exact iff_of_true ⟨once answered, settled⟩ trivial
    | some e =>
      refine iff_of_false ?_ (by rintro ⟨⟩)
      cases kept : shouldCache response.statusCode with
      | false =>
        obtain ⟨b, v, ran, -, same⟩ := callback_leaks ext w log key inputs response kept failed
        simp only [run, Ending.deliver, Host.run_tryCatch_remaining, ran]
        exact fun both => unsettled v same both.2
      | true =>
        obtain ⟨event, v, ran, unanswered, -⟩ := callback_throws ext w log key inputs response kept failed
        simp only [run, Ending.deliver, Host.run_tryCatch_remaining, ran, left]
        rintro ⟨one, -⟩
        rw [AnsweredOnce, catch_unanswered, unanswered, silent] at one
        exact absurd one (by decide)
  | answerInTry response label =>
    cases failed : (inputs 0).databaseError with
    | none =>
      obtain ⟨b, v, ran, answered, settled⟩ := callback_settles ext w log key inputs response failed
      simp only [run, Ending.deliver, Host.run_tryCatch_remaining, ran]
      exact iff_of_true ⟨once answered, settled⟩ (.inl failed)
    | some e =>
      have settling : Settling (.answerInTry response label) (inputs 0) (inputs 1) ↔
          shouldCache response.statusCode = true ∧ (inputs 1).databaseError = none := by
        refine ⟨fun h => ?_, fun h => .inr ⟨response, label, rfl, h⟩⟩
        rcases h with runs | ⟨_, _, same, h⟩
        · rw [failed] at runs
          cases runs
        · cases same
          exact h
      rw [settling]
      cases kept : shouldCache response.statusCode with
      | false =>
        obtain ⟨b, v, ran, -, same⟩ := callback_leaks ext w log key inputs response kept failed
        simp only [run, Ending.deliver, Host.run_tryCatch_remaining, ran]
        exact iff_of_false (fun both => unsettled v same both.2) (by rintro ⟨⟨⟩, -⟩)
      | true =>
        obtain ⟨event, v, ran, unanswered, same⟩ := callback_throws ext w log key inputs response kept failed
        -- the 500 of the operation's own `try` block is never kept
        have released : shouldCache (err (label ++ e) 500).statusCode = false := rfl
        cases failed' : (inputs 1).databaseError with
        | none =>
          obtain ⟨b, u, ran', answered, settled⟩ := callback_settles ext v (log ++ [event]) key
            (fun n => inputs (n + 1)) (err (label ++ e) 500) failed'
          simp only [run, Ending.deliver, Host.run_tryCatch_remaining, ran, left, ran']
          exact iff_of_true ⟨once (answered.trans (by rw [unanswered])), settled⟩ ⟨trivial, trivial⟩
        | some e' =>
          obtain ⟨b, u, ran', -, same'⟩ := callback_leaks ext v (log ++ [event]) key
            (fun n => inputs (n + 1)) (err (label ++ e) 500) released failed'
          simp only [run, Ending.deliver, Host.run_tryCatch_remaining, ran, left, ran']
          exact iff_of_false (fun both => unsettled u (same'.trans same) both.2) (by rintro ⟨-, ⟨⟩⟩)

/-- An operation's work answers nobody and keeps the reservation. -/
theorem work_keeps (op : IdempotentOperation) (inputs : ℕ → Option Input)
    (silent : answers log = []) (held : HeldSince key 0 w.idempotency) :
    answers ((host ext).run inputs w log op.work).log = [] ∧
      HeldSince key 0 ((host ext).run inputs w log op.work).world.idempotency := by
  refine (Host.run_keeps
    (J := fun b (u : World) => answers b = [] ∧ HeldSince key 0 u.idempotency)
    (fun b u r i (works : Working r) ⟨silent, held⟩ => ?_)
    (op.working.follows (P := fun _ => True)
      (fun _ _ works => works) (fun _ _ _ => trivial) trivial)
    ⟨silent, held⟩).1
  have outside : ∀ statement, r ≠ .idempotency statement := by
    rintro statement rfl
    exact works
  rw [answer_idempotency outside, answers_append, silent]
  refine ⟨?_, held⟩
  cases r with
  | respond response => exact works.elim
  | _ => rfl

/-- **One answer, no reservation left.** When the handler has reserved the key
for a request, the caller gets exactly one response and no reservation remains
if and only if the operation answers, instead of throwing, and the statement
that settles the reservation runs. -/
theorem answered_and_settled_iff (ext : Externals) (op : IdempotentOperation)
    (method key tenantId workerKeyId bodyText : String) (inputs : ℕ → Input) (w w₁ : World)
    (log₁ : Log) (asked : key ≠ "" ∧ method ∈ ["POST", "PUT", "PATCH"])
    (reserved : (host ext).run (fun n => some (inputs n)) w []
      (reserveOrGet ext (tenantId ++ ":" ++ key) (ext.sha256 bodyText) workerKeyId) =
        ⟨.returned .reserved, log₁, w₁⟩) :
    let handled := (host ext).run (fun n => some (inputs n)) w []
      (idempotencyHandle ext method key tenantId workerKeyId bodyText op.next)
    let worked := (host ext).run (fun n => some (inputs (n + log₁.length))) w₁ log₁ op.work
    AnsweredOnce handled ∧ Settled (tenantId ++ ":" ++ key) handled.world ↔
      ∃ ending, worked.outcome = .returned ending ∧
        Settling ending (inputs worked.log.length) (inputs (worked.log.length + 1)) := by
  obtain ⟨silent, held⟩ := reserveOrGet_reserved reserved
  intro handled worked
  have kept : answers worked.log = [] ∧ HeldSince _ 0 worked.world.idempotency :=
    work_keeps op _ silent held
  have longer : log₁ <+: worked.log := Host.run_prefix _ _ _ _ _
  have ends : worked.outcome ≠ .killed := Host.run_ends _ _ _ _ _
  have run : handled = (host ext).run (fun n => some (inputs (n + log₁.length))) w₁ log₁
      ((op.work >>= (·.deliver (idempotentCallback ext (tenantId ++ ":" ++ key)))).tryCatch
        fun _ => do
          let _ ← ask (.idempotency (.release (tenantId ++ ":" ++ key)))
          .throw "bad_function_call") := by
    have guard : ¬ (key = "" ∨ method ∉ ["POST", "PUT", "PATCH"]) := by
      rintro (blank | other)
      · exact asked.1 blank
      · exact other asked.2
    simp only [handled, idempotencyHandle, if_neg guard, Host.run_bind_remaining, reserved]
    rfl
  rw [run, Program.tryCatch_bind, Host.run_bind_remaining, Host.run_attempt,
    show (host ext).run (fun n => some (inputs (n + log₁.length))) w₁ log₁ op.work = worked from rfl]
  clear_value worked
  obtain ⟨outcome, b, v⟩ := worked
  have left : remaining (fun n => some (inputs (n + log₁.length))) log₁ b =
      fun n => some (inputs (n + b.length)) := by
    funext n
    have bound : log₁.length ≤ b.length := longer.length_le
    simp only [remaining]
    congr 2
    omega
  cases outcome with
  | killed => exact absurd rfl ends
  | threw e =>
    refine iff_of_false ?_ ?_
    · dsimp only
      rw [left, AnsweredOnce, catch_unanswered, kept.1]
      exact fun both => absurd both.1 (by decide)
    · rintro ⟨_, same, _⟩
      cases same
  | returned ending =>
    dsimp only
    rw [left]
    have delivered := deliver_iff ext (fun n => inputs (n + b.length)) ending kept.2 kept.1
    rw [Nat.zero_add, Nat.add_comm 1] at delivered
    refine delivered.trans ⟨fun settling => ⟨ending, rfl, settling⟩, ?_⟩
    rintro ⟨_, same, settling⟩
    cases same
    exact settling

/-! ## An operation that throws -/

/-- A command that `validateOrThrow` refuses. -/
def refused : IdempotentOperation where
  work := .throw "One or more validation failures have occurred."
  working := trivial

/-- An operation that answers. -/
def accepted : IdempotentOperation where
  work := return .answer (err "Invalid JSON body." 400)
  working := trivial

/-- The handler on a request with a key, from a sample world. -/
def handledAlone (op : IdempotentOperation) : Run Api Unit World :=
  (host sampleExternals).run (fun _ => some {}) sampleWorld []
    (idempotencyHandle sampleExternals "POST" "key" "tenant" "worker" "{}" op.next)

theorem accepted_answered_and_settled :
    AnsweredOnce (handledAlone accepted) ∧ Settled "tenant:key" (handledAlone accepted).world :=
  (answered_and_settled_iff sampleExternals accepted "POST" "key" "tenant" "worker" "{}"
    (fun _ => {}) sampleWorld _ _ (by decide) rfl).mpr ⟨_, rfl, .inl rfl⟩

/-- The refused command is answered by nobody. -/
theorem refused_unanswered :
    ¬ (AnsweredOnce (handledAlone refused) ∧
      Settled "tenant:key" (handledAlone refused).world) := by
  intro both
  exact absurd both.1 (by decide +kernel)

end EcfDgii.SettledReservations
