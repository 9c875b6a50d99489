import EcfDgii.DocumentInvariants

/-!
Terminal states under concurrency.

Every writer updates a whole row it read earlier, guarded by the row's id
alone.  A verdict committed in between is overwritten, so verdicts survive
exactly as long as nobody else is still going to write: `Holds` says which
operations are, by what they have read and committed so far.  The invariant
carried along a schedule is that an operation whose view is `Outdated` holds
the document no more.
-/

set_option autoImplicit false

namespace EcfDgii.TerminalStates

open EcfDgii.Documents EcfDgii.Tables EcfDgii.Programs EcfDgii.Execution EcfDgii.Engine
open EcfDgii.Transmission EcfDgii.Submission EcfDgii.StatusPolling EcfDgii.StatusUpdates
open EcfDgii.Traces EcfDgii.SubmissionTrace EcfDgii.SubmissionFollows EcfDgii.StatusTrace
open EcfDgii.DocumentInvariants

/-- A final verdict. -/
def Terminal (state : String) : Prop := state = "AcceptedByDgii" ∨ state = "RejectedByDgii"

instance : DecidablePred Terminal := fun _ => inferInstanceAs (Decidable (_ ∨ _))

/-- An event commits a statement. -/
def Commits (e : Event Api) (write : Write) : Prop :=
  ∃ writes, e = ⟨.saveChanges writes, (.ok () : Except String Unit)⟩ ∧ write ∈ writes

/-- An event commits a verdict on a document. -/
def CommitsTerminal (e : Event Api) (id : String) : Prop :=
  ∃ write, Commits e write ∧ write.doc.id = id ∧ Terminal write.doc.state

/-- An event gives its operation the current version of a document: it reads
it, or creates it. -/
def Shows (e : Event Api) (id : String) : Prop :=
  (∃ row ∈ revealed e, row.id = id) ∨ ∃ d time, Commits e (.insert d time) ∧ d.id = id

/-- Another operation has committed a verdict on a document since this one last
saw it. -/
def Outdated (history : History) (t : ℕ) (id : String) : Prop :=
  ∃ a b t' e, history = a ++ (t', e) :: b ∧ t' ≠ t ∧ CommitsTerminal e id ∧
    ∀ e', (t, e') ∈ b → ¬ Shows e' id

/-- A verdict is committed on a document only when no other operation under way
holds it. -/
def Undisturbed (ext : Externals) (p : EnginePool) : Move Input → Prop
  | .step t' input => ∀ e id, p.nextEvent (host ext) t' input = some e → CommitsTerminal e id →
      ∀ t, t ≠ t' → (p.thread t).Running → ¬ Holds (p.thread t).operation (p.thread t).log id
  | .kill _ => True

variable {ext : Externals} {services : Services} {op : Operation} {log : Log} {history : History}
  {t : ℕ} {id : String} {e : Event Api}

/-! ## Who writes, holds -/

/-- An unwritten log was unwritten before. -/
theorem unwritten_of_append (h : (progress (log ++ [e])).written = none) :
    (progress log).written = none := by
  rw [progress_append] at h
  unfold Progress.after at h
  split at h
  · exact h
  · cases h
  · exact h
  · split at h <;> exact h
  · exact h

theorem read_of_append {row : EcfDocumentRow} (unseen : ¬ Shows e row.id)
    (h : Read (log ++ [e]) row) : Read log row :=
  (read_append.mp h).resolve_right fun shown => unseen (.inl ⟨row, shown, rfl⟩)

/-- An operation comes to hold a document only by seeing it. -/
theorem holds_of_append (unseen : ¬ Shows e id)
    (writes : ∀ d time, Commits e (.update d time) → Holds op log d.id)
    (h : Holds op (log ++ [e]) id) : Holds op log id := by
  cases op with
  | submit req =>
    simp only [Holds, progress_append] at h
    unfold Progress.after at h
    split at h
    · next row =>
      rcases h with held | ⟨fresh, found, same, state, open'⟩
      · exact .inl held
      · cases same
        exact absurd (.inl ⟨row, List.mem_singleton_self row, state⟩) unseen
    · next write =>
      rcases h with ⟨d, written, same, state⟩ | ⟨fresh, -⟩
      · cases written
        cases write with
        | insert d time =>
          exact absurd (.inr ⟨d, time, ⟨_, rfl, List.mem_singleton_self _⟩, same⟩) unseen
        | update d time => exact same ▸ writes d time ⟨_, rfl, List.mem_singleton_self _⟩
      · cases fresh
    · exact h
    · split at h <;> exact h
    · exact h
  | getBySourceTxnId req =>
    obtain ⟨fresh, row, read, same, state⟩ := h
    exact ⟨unwritten_of_append fresh, row, read_of_append (same ▸ unseen) read, same, state⟩
  | status rncEmisor eNcf =>
    obtain ⟨fresh, row, read, same, state⟩ := h
    exact ⟨unwritten_of_append fresh, row, read_of_append (same ▸ unseen) read, same, state⟩
  | reconcile =>
    obtain ⟨row, ⟨minAge, pollDue, limit, rows, among, answer⟩, same⟩ := h
    rcases List.mem_append.mp answer with old | new
    · exact ⟨row, ⟨minAge, pollDue, limit, rows, among, old⟩, same⟩
    · rw [← List.mem_singleton.mp new] at unseen
      exact absurd (.inl ⟨row, among, same⟩) unseen
  | _ => exact h

/-! ## Views and what happens after them -/

/-- An outdated view was outdated before this event, or is outdated by it. -/
theorem outdated_append {t₀ : ℕ} (h : Outdated (history ++ [(t₀, e)]) t id) :
    (Outdated history t id ∧ (t = t₀ → ¬ Shows e id)) ∨ t₀ ≠ t ∧ CommitsTerminal e id := by
  obtain ⟨a, b, t', e', split, other, verdict, unseen⟩ := h
  rcases List.eq_nil_or_concat b with rfl | ⟨b, last, rfl⟩
  · obtain ⟨-, same⟩ := List.append_inj' split rfl
    cases List.singleton_inj.mp same
    exact .inr ⟨other, verdict⟩
  · rw [List.concat_eq_append, ← List.cons_append, ← List.append_assoc] at split
    obtain ⟨rfl, same⟩ := List.append_inj' split rfl
    cases List.singleton_inj.mp same
    rw [List.concat_eq_append] at unseen
    refine .inl ⟨⟨a, b, t', e', rfl, other, verdict, fun e' member => ?_⟩, ?_⟩
    · exact unseen e' (List.mem_append_left _ member)
    · rintro rfl
      exact unseen e (List.mem_append_right _ (List.mem_singleton_self _))

/-- No update is made from an outdated view. -/
def NoneLost (history : History) : Prop :=
  ∀ a t e b d time, history = a ++ (t, e) :: b → Commits e (.update d time) →
    ¬ Outdated a t d.id

/-- Who has an outdated view of a document and is still running does not hold
it. -/
def LetsGo (t : ℕ) (th : Thread Operation Api Unit) (history : History) : Prop :=
  ∀ id, Outdated history t id → th.Running → ¬ Holds th.operation th.log id

theorem noneLost_append {t₀ : ℕ} (h : NoneLost history)
    (last : ∀ d time, Commits e (.update d time) → ¬ Outdated history t₀ d.id) :
    NoneLost (history ++ [(t₀, e)]) := by
  intro a t e' b d time split commits
  rcases List.eq_nil_or_concat b with rfl | ⟨b, event, rfl⟩
  · obtain ⟨rfl, same⟩ := List.append_inj' split rfl
    cases List.singleton_inj.mp same
    exact last d time commits
  · rw [List.concat_eq_append, ← List.cons_append, ← List.append_assoc] at split
    obtain ⟨rfl, -⟩ := List.append_inj' split rfl
    exact h a t e' b d time rfl commits

/-- One request keeps the invariant. -/
theorem stepKeeps (ext : Externals) (services : Services) :
    Pool.StepKeeps (α := Unit) (host ext) (Asks ext services) (fun _ history => NoneLost history)
      (fun t th _ history => LetsGo t th history) (Undisturbed ext) := by
  intro p t input r next sound running condition permitted
  have happens := condition ⟨r, ((host ext).answer input p.world r).1⟩
  generalize same : (⟨r, ((host ext).answer input p.world r).1⟩ : Event Api) = e at happens ⊢
  have held : ∀ d time, Commits e (.update d time) →
      Holds (p.thread t).operation (p.thread t).log d.id := by
    rintro d time ⟨writes, rfl, member⟩
    have asked : r = .saveChanges writes := congrArg Event.request same
    subst asked
    exact holds_of_write (engineWrite_of_asks permitted _ member) rfl
  have letsGo := sound.threads t
  refine ⟨noneLost_append sound.world fun d time commits outdated =>
    letsGo d.id outdated ⟨r, next, running⟩ (held d time commits), ?_, fun t' other => ?_⟩
  · intro id outdated _ holds
    rcases outdated_append outdated with ⟨before, unseen⟩ | ⟨other, -⟩
    · exact letsGo id before ⟨r, next, running⟩ (holds_of_append (unseen rfl) held holds)
    · exact other rfl
  · intro id outdated runs
    rcases outdated_append outdated with ⟨before, -⟩ | ⟨-, verdict⟩
    · exact sound.threads t' id before runs
    · exact happens id (by simp only [Pool.nextEvent, running, same]) verdict t' other runs

/-- **No lost terminal state.** On every schedule of the engine's operations in
which a verdict is committed on a document only when no other operation under
way holds it, no operation updates a document on which another one has
committed a verdict since it last saw it. -/
theorem terminal_states_survive (ext : Externals) (services : Services)
    (operations : ℕ → Operation) (w : World) (moves : List (Move Input))
    (met : (engine ext services operations w).Meets (host ext) (Undisturbed ext) moves) :
    NoneLost ((engine ext services operations w).play (host ext) moves).history := by
  have start : NoneLost [] := fun a t e b d time split => absurd split (by simp)
  have sound := Pool.Sound.play (stepKeeps ext services)
    (fun t th _ history _ id _ running => by
      obtain ⟨r, next, eq⟩ := running
      cases eq)
    (Pool.Sound.start (program_follows ext services) start
      (fun t id outdated => by
        obtain ⟨a, b, t', e, split, -⟩ := outdated
        exact absurd split (by simp))) met
  exact sound.world

/-! ## Checking a schedule -/

/-- A submission, a background pass, the polling of the document, a status
query about it, and requests that read nothing. -/
def submitReconcileAsk : ℕ → Operation
  | 0 => .submit sampleRequest
  | 1 => .reconcile
  | 2 => .getBySourceTxnId { txnId := "TXN-1" }
  | 3 => .status "101672919" "E310000000001"
  | _ => .getById { txnId := "" }

/-- An event commits no verdict. -/
def undecided : Event Api → Bool
  | ⟨.saveChanges writes, .ok ()⟩ => writes.all fun write => decide (¬ Terminal write.doc.state)
  | _ => true

theorem undecided_sound (h : undecided e = true) : ¬ CommitsTerminal e id := by
  rintro ⟨write, ⟨writes, rfl, member⟩, -, terminal⟩
  have none := List.all_eq_true.mp h write member
  exact of_decide_eq_true none terminal

/-- The thread has asked nothing, or has ended. -/
def idle (th : Thread Operation Api Unit) : Bool :=
  th.log.isEmpty ||
    match th.rest with
    | .ask .. => false
    | _ => true

theorem idle_sound {th : Thread Operation Api Unit} (h : idle th = true) (running : th.Running) :
    ¬ Holds th.operation th.log id := by
  obtain ⟨r, next, eq⟩ := running
  have empty : th.log = [] := by simpa [idle, eq] using h
  rw [empty]
  intro holds
  have nothing : ∀ row, ¬ Read [] row := fun row read =>
    absurd read.choose_spec.1 List.not_mem_nil
  cases of : th.operation with
  | submit req =>
    rw [of] at holds
    rcases holds with ⟨d, written, -⟩ | ⟨-, row, found, -⟩
    · cases written
    · cases found
  | getBySourceTxnId req =>
    rw [of] at holds
    obtain ⟨-, row, read, -⟩ := holds
    exact nothing row read
  | status rncEmisor eNcf =>
    rw [of] at holds
    obtain ⟨-, row, read, -⟩ := holds
    exact nothing row read
  | reconcile =>
    rw [of] at holds
    obtain ⟨row, due, -⟩ := holds
    exact nothing row due.read
  | _ =>
    rw [of] at holds
    exact holds

/-- The condition, where every verdict comes while the other operations are
idle. -/
def undisturbed (p : EnginePool) : Move Input → Bool
  | .step t' input =>
    match p.nextEvent (host sampleExternals) t' input with
    | some e => undecided e || (List.range 4).all fun t => t == t' || idle (p.thread t)
    | none => true
  | .kill _ => true

theorem undisturbed_sound {p : EnginePool} {m : Move Input}
    (operations : ∀ t, (p.thread t).operation = submitReconcileAsk t)
    (h : undisturbed p m = true) : Undisturbed sampleExternals p m := by
  cases m with
  | kill t => trivial
  | step t' input =>
    intro e id next verdict t other running holds
    simp only [undisturbed, next, Bool.or_eq_true] at h
    rcases h with none | all
    · exact undecided_sound none verdict
    · by_cases first : t < 4
      · have at' := List.all_eq_true.mp all t (List.mem_range.mpr first)
        rw [Bool.or_eq_true, beq_iff_eq] at at'
        exact idle_sound (at'.resolve_left other) running holds
      · obtain ⟨n, rfl⟩ := Nat.exists_eq_add_of_le (Nat.le_of_not_lt first)
        rw [operations, Nat.add_comm] at holds
        exact holds

/-- Sent, rejected in a poll, and in process again by the status query. -/
def orderlyMoves : List (Move Input) :=
  steps 0 18 "trackId" ++ steps 2 10 "Rechazado" ++ steps 3 8 "En Proceso"

theorem orderlyMoves_undisturbed :
    (engine sampleExternals sampleServices submitReconcileAsk sampleWorld).Meets
      (host sampleExternals) (Undisturbed sampleExternals) orderlyMoves :=
  Pool.Meets.strengthen (C := fun p m => undisturbed p m = true)
    (J := fun p : EnginePool => ∀ t, (p.thread t).operation = submitReconcileAsk t)
    (fun p m kept _ t => (Pool.operation_move m).trans (kept t))
    (fun p m kept passed => undisturbed_sound kept passed) (fun t => rfl) (by decide +kernel)

theorem terminal_states_survive_sample :
    NoneLost ((engine sampleExternals sampleServices submitReconcileAsk sampleWorld).play
      (host sampleExternals) orderlyMoves).history :=
  terminal_states_survive sampleExternals sampleServices submitReconcileAsk sampleWorld
    orderlyMoves orderlyMoves_undisturbed

/-- A document sent, and read by a background pass five minutes later. -/
def passUnderWay : EnginePool :=
  (engine sampleExternals sampleServices submitReconcileAsk sampleWorld).play
    (host sampleExternals)
    (steps 0 18 "trackId" ++ [.step 1 { elapsed := 300 * 1000000000 }, .step 1 {}])

/-- While the pass waits, a poll commits the verdict; the pass then writes the
row back as it had read it. -/
theorem stale_pass_overwrites_verdict :
    (((passUnderWay.thread 1).log.flatMap revealed).map (·.state),
      (passUnderWay.play (host sampleExternals)
        (steps 2 10 "Aceptado")).world.documents.rows.map (·.state),
      (passUnderWay.play (host sampleExternals)
        (steps 2 10 "Aceptado" ++ steps 1 8 "")).world.documents.rows.map (·.state)) =
    (["Signed"], ["AcceptedByDgii"], ["Signed"]) := by
  decide +kernel

end EcfDgii.TerminalStates
