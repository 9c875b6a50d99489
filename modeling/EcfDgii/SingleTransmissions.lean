import Mathlib.Data.List.DropRight
import EcfDgii.FiscalNumbers
import EcfDgii.SettledTransmissions
import EcfDgii.UncertainDocuments
import EcfDgii.WrittenAhead

/-!
One transmission at a time (`DocumentsController::submit`,
`handleExistingDocument`).

The submissions of one source transaction share one row.  The unique index lets
one of them insert it; what comes after is guarded by nothing.  A submission that
finds the row writes it whole, as it read it, while the one that inserted it may be
about to send it, and then both do.

`Orderly` is the condition on each move under which every schedule of such
submissions keeps to `OneAtATime`.  The invariant has two halves.  `Ledger` is of
the row: whatever it says, it accounts for the transmissions.  `Sees` is of each
submission: while its attempt is open the row is its own, and what is not settled
is its own transmission (`Holds`); until it is disturbed, the row it has found is
the one in the table (`Knows`).
-/

set_option autoImplicit false

namespace EcfDgii.SingleTransmissions

open EcfDgii.Text EcfDgii.Timestamps EcfDgii.Documents EcfDgii.DgiiReplies EcfDgii.Tables
open EcfDgii.Programs EcfDgii.Execution EcfDgii.Engine EcfDgii.Transmission EcfDgii.Submission
open EcfDgii.Traces EcfDgii.SubmissionTrace EcfDgii.SubmissionFollows EcfDgii.StatusTrace
open EcfDgii.DocumentInvariants EcfDgii.UncertainDocuments EcfDgii.FiscalNumbers
open EcfDgii.SettledTransmissions EcfDgii.WrittenAhead

/-! ## The condition -/

/-- The columns of the unique index, as a submission fills them. -/
def keyOf (t : SubmissionTarget) : String × String × String :=
  (t.tenantId, t.dto.sourceReference.txnId, ambienteToString t.ambiente)

/-- The states of a document that the submission which wrote it is yet to send,
or to hear about. -/
def Open (state : String) : Prop := state = "SequenceAllocated" ∨ state = "AwaitingTransmission"
  deriving Decidable

/-- A submission in the middle of an attempt. -/
def underWay (th : Thread Operation Api Unit) : Bool :=
  th.request.isSome && (progress th.log).written.any fun d => Open d.state

/-- The event commits rows. -/
def commits : Event Api → Bool
  | ⟨.saveChanges _, .ok ()⟩ => true
  | _ => false

/-- The event commits rows or transmits one. -/
def touches (e : Event Api) : Bool := commits e || transmits e

/-- A thread finds the document. -/
def finds (t : ℕ) : ℕ × Event Api → Bool
  | (u, ⟨.documentBySourceTxnId .., .ok (some _)⟩) => u = t
  | _ => false

/-- Since a thread found the document, no other has written or transmitted it. -/
def Undisturbed (t : ℕ) (history : History) : Prop :=
  ∀ x ∈ history.rtakeWhile fun x => !finds t x, x.1 ≠ t → touches x.2 = false
  deriving Decidable

/-- A submission that found the document is about to write it for the first
time. -/
def takesOver (th : Thread Operation Api Unit) : Bool :=
  match th.request with
  | some (.saveChanges _) => (progress th.log).found.isSome && (progress th.log).written.isNone
  | _ => false

/-- It does so only on the row it has read, and while no other attempt is under
way. -/
def TakesOverAlone (p : EnginePool) : Move Input → Prop
  | .kill _ => True
  | .step t _ => takesOver (p.thread t) = true →
      Undisturbed t p.history ∧ ∀ x ∈ p.history, x.1 ≠ t → underWay (p.thread x.1) = false

/-- What DGII answers can be read as an answer: a status says something, and a
summary is accepted or rejected. -/
def Answered (ext : Externals) (log : Log) (e : Event Api) : Prop :=
  Says ext e ∧ lastVerdict ext (log ++ [e]) ≠ some .undecided

/-- **The condition.** -/
def Orderly (ext : Externals) (p : EnginePool) (m : Move Input) : Prop :=
  TakesOverAlone p m ∧ Each ext (fun _ => Answered ext) p m

/-! ## The invariant -/

variable {ext : Externals} {services : Services} {requests : ℕ → SubmitRequest}
  {key : String × String × String} {log : Log} {e : Event Api} {c : ℕ} {route : Route}
  {file : EcfFileName} {table next : DocumentTable} {d d' : EcfDocument} {row : EcfDocumentRow}
  {history : History} {t u : ℕ} {w w' : World}
  {th : Thread Operation Api Unit} {x : ℕ × Event Api} {write : Write}

/-- The row and the transmissions, over the world and everything that has
happened. -/
structure Ledger (ext : Externals) (key : String × String × String) (w : World)
    (history : History) : Prop where
  named : ∀ row ∈ w.documents.rows, row.tenantId = key.1 → row.sourceTxnId = key.2.1 →
    row.ambiente ≠ none
  stored : ∀ {c route file}, Posted (events history) c route file →
    ∃ row ∈ w.documents.rows, sourceKey row = some key
  rows : ∀ row ∈ w.documents.rows, sourceKey row = some key →
    Accounts ext (events history) row.toEcfDocument
  one : OneAtATime ext (events history)

/-- The thread that committed last. -/
def committer (history : History) : Option ℕ :=
  history.foldl (fun last x => if commits x.2 then some x.1 else last) none

@[simp] theorem committer_append (history : History) (x : ℕ × Event Api) :
    committer (history ++ [x]) = if commits x.2 then some x.1 else committer history := by
  simp [committer]

/-- An attempt of a thread: nobody has committed since, the row is as it left it,
and what is not settled is its own last transmission. -/
structure Holds (ext : Externals) (key : String × String × String) (t : ℕ) (log : Log)
    (w : World) (history : History) (d : EcfDocument) : Prop where
  last : committer history = some t
  row : ∃ row ∈ w.documents.rows, sourceKey row = some key ∧ row.toEcfDocument = d
  quiet : d.state = "SequenceAllocated" ∨ (progress log).sent = false →
    Settled ext (events history)
  out : ∀ {c route file}, Unresolved ext (events history) c route file →
    (progress log).posted = some (c, route)

/-- What a thread has found, while nobody disturbs it: the row is as it read it,
and after a status that says something nothing is unsettled. -/
structure Knows (ext : Externals) (key : String × String × String) (log : Log) (w : World)
    (history : History) (row : EcfDocumentRow) : Prop where
  member : row ∈ w.documents.rows
  named : sourceKey row = some key
  asked : ∀ {answer}, QueriedFound log row (.estado row.rncEmisor row.eNcf none none) answer →
    Definite (estadoOf ext answer) → Settled ext (events history)

/-- What is true of every thread. -/
structure Sees (ext : Externals) (requests : ℕ → SubmitRequest) (key : String × String × String)
    (t : ℕ) (th : Thread Operation Api Unit) (w : World) (history : History) : Prop where
  operation : th.operation = .submit (requests t)
  logged : ∀ e ∈ th.log, (t, e) ∈ history
  answered : Along (Answered ext) th.log
  written : ∀ {d}, (progress th.log).written = some d →
    ∃ row ∈ w.documents.rows, sourceKey row = some key ∧ row.id = d.id
  holds : th.Running → ∀ {d}, (progress th.log).written = some d → Open d.state →
    Holds ext key t th.log w history d
  found : ∀ {row}, (progress th.log).found = some row → (progress th.log).written = none →
    Undisturbed t history → Knows ext key th.log w history row

/-! ## Calm events -/

/-- An event that neither commits nor transmits. -/
theorem calm_iff : touches e = false ↔ commits e = false ∧ transmits e = false := by
  simp [touches]

/-- Only a commit or a transmission changes the documents. -/
theorem documents_of_calm {input : Input} {r : Request}
    (calm : touches ⟨r, (answerAt ext input w r).1⟩ = false) :
    (answerAt ext input w r).2.documents = w.documents := by
  by_cases saves : ∃ writes, r = .saveChanges writes
  · obtain ⟨writes, rfl⟩ := saves
    rcases answer_saveChanges ext input w writes with ⟨-, same⟩ | ⟨done, -⟩
    · rw [same]
    · rw [done] at calm
      cases calm
  · exact documents_of_other fun writes same => saves ⟨writes, same⟩

/-- What a calm event that finds nothing does to a thread's progress: at most, a
transmission of its own is refused. -/
theorem after_calm (calm : touches e = false) (unfound : finds t (t, e) = false) (p : Progress) :
    (p.after e).found = p.found ∧ (p.after e).written = p.written ∧
      (p.after e).posted = p.posted ∧ ((p.after e).sent = p.sent ∨
        ∃ c resp, e = ⟨.await c, resp⟩ ∧ resp.statusCode = 401 ∧
          p.posted.map Prod.fst = some c) := by
  unfold Progress.after
  split
  · simp [finds] at unfound
  · cases calm
  · cases calm
  · next c resp =>
    split
    · next own =>
      refine ⟨rfl, rfl, rfl, ?_⟩
      by_cases refused : resp.statusCode = 401
      · exact .inr ⟨c, resp, rfl, refused, own⟩
      · exact .inl (by simp [refused])
    · exact ⟨rfl, rfl, rfl, .inl rfl⟩
  · exact ⟨rfl, rfl, rfl, .inl rfl⟩

theorem Ledger.calm (h : Ledger ext key w history) (documents : w'.documents = w.documents)
    (calm : touches e = false) : Ledger ext key w' (history ++ [(t, e)]) := by
  have silent := (calm_iff.mp calm).2
  constructor
  · rw [documents]
    exact h.named
  · rw [documents, events_append]
    exact fun posted => h.stored (posted_of_silent silent posted)
  · rw [documents, events_append]
    exact fun row member same => (h.rows row member same).append silent
  · rw [events_append]
    exact h.one.append silent

theorem undisturbed_append (unfound : finds t x = false) :
    Undisturbed t (history ++ [x]) ↔ Undisturbed t history ∧ (x.1 ≠ t → touches x.2 = false) := by
  unfold Undisturbed
  rw [List.rtakeWhile_concat_pos _ _ _ (by simp [unfound])]
  simp only [List.mem_append, List.mem_singleton, or_imp, forall_and, forall_eq]

theorem finds_of_other (other : x.1 ≠ t) : finds t x = false := by
  unfold finds
  split
  · simpa using other
  · rfl

/-- A thread has seen what has happened to it. -/
theorem logged_append (logged : ∀ e ∈ log, (t, e) ∈ history) (e : Event Api) :
    ∀ e' ∈ log ++ [e], (t, e') ∈ history ++ [(t, e)] := by
  intro e' member
  rcases List.mem_append.mp member with old | new
  · exact List.mem_append_left _ (logged e' old)
  · rw [List.mem_singleton.mp new]
    exact List.mem_append_right _ (List.mem_singleton_self _)

theorem Holds.calm {log' : Log} (h : Holds ext key t log w history d)
    (documents : w'.documents = w.documents) (calm : touches e = false)
    (posted : (progress log').posted = (progress log).posted)
    (sent : (progress log').sent = (progress log).sent ∨ Settled ext (events history ++ [e])) :
    Holds ext key t log' w' (history ++ [(u, e)]) d := by
  obtain ⟨idle, silent⟩ := calm_iff.mp calm
  constructor
  · rw [committer_append, if_neg (by simp [idle])]
    exact h.last
  · rw [documents]
    exact h.row
  · rw [events_append]
    rcases sent with same | settled
    · rw [same]
      exact fun state => (h.quiet state).append silent
    · exact fun _ => settled
  · rw [events_append, posted]
    exact fun unresolved => h.out (unresolved.before silent)

theorem Sees.others_calm (h : Sees ext requests key t th w history) (other : u ≠ t)
    (documents : w'.documents = w.documents) (calm : touches e = false) :
    Sees ext requests key t th w' (history ++ [(u, e)]) := by
  refine ⟨h.operation, fun e' member => List.mem_append_left _ (h.logged e' member), h.answered,
    ?_, fun running d written state => (h.holds running written state).calm documents calm rfl
      (.inl rfl), fun found fresh undisturbed => ?_⟩
  · rw [documents]
    exact h.written
  · obtain ⟨before, -⟩ := (undisturbed_append (finds_of_other other)).mp undisturbed
    obtain ⟨member, named, asked⟩ := h.found found fresh before
    refine ⟨documents ▸ member, named, fun queried definite => ?_⟩
    rw [events_append]
    exact (asked queried definite).append (calm_iff.mp calm).2

/-- A refusal of its own last transmission leaves nothing unsettled. -/
theorem Holds.refused {resp : HttpReply} (h : Holds ext key t log w history d)
    (refused : resp.statusCode = 401) (own : (progress log).posted.map Prod.fst = some c) :
    Settled ext (events history ++ [⟨.await c, resp⟩]) := by
  refine settled_of_unresolved fun c' route' file' unresolved => ?_
  have posted := h.out (unresolved.before rfl)
  rw [posted] at own
  obtain rfl := Option.some.inj own
  exact unresolved.2 (.reply (List.mem_append_right _ (List.mem_singleton_self _))
    (.inl (by simp [verdict, refused])))

/-- A calm event of a thread. -/
theorem Sees.calm {rest : Program Api Unit} (h : Sees ext requests key t th w history)
    (ledger : Ledger ext key w history) (running : th.Running) (answered : Answered ext th.log e)
    (documents : w'.documents = w.documents) (calm : touches e = false)
    (unfound : finds t (t, e) = false) :
    Sees ext requests key t ⟨th.operation, th.log ++ [e], rest⟩ w' (history ++ [(t, e)]) := by
  obtain ⟨found, written, posted, sent⟩ := after_calm calm unfound (progress th.log)
  rw [← progress_append] at found written posted sent
  refine ⟨h.operation, logged_append h.logged _, h.answered.append answered, ?_, ?_, ?_⟩
  · dsimp only
    rw [written, documents]
    exact h.written
  · dsimp only
    rw [written]
    intro _ d last state
    have holds := h.holds running last state
    refine holds.calm documents calm posted (sent.imp_right ?_)
    rintro ⟨c, resp, rfl, refused, own⟩
    exact holds.refused refused own
  · dsimp only
    rw [written, found]
    intro row here fresh undisturbed
    obtain ⟨before, -⟩ := (undisturbed_append unfound).mp undisturbed
    obtain ⟨member, named, asked⟩ := h.found here fresh before
    refine ⟨documents ▸ member, named, fun {answer} queried definite => ?_⟩
    rw [events_append]
    rcases queriedFound_append queried with earlier | ⟨valid, client, token, rfl⟩
    · exact (asked earlier definite).append (calm_iff.mp calm).2
    · exact (ledger.rows row member named).asked valid definite

/-- A thread finds the document. -/
theorem Sees.finds {rest : Program Api Unit} {tenantId sourceTxnId : String}
    {ambiente : Option String} (h : Sees ext requests key t th w history)
    (event : e = ⟨.documentBySourceTxnId tenantId sourceTxnId ambiente,
      (.ok (some row) : Except String (Option EcfDocumentRow))⟩)
    (answered : Answered ext th.log e)
    (fresh : (progress th.log).found = none ∧ (progress th.log).written = none)
    (documents : w'.documents = w.documents) (member : row ∈ w.documents.rows)
    (named : sourceKey row = some key) :
    Sees ext requests key t ⟨th.operation, th.log ++ [e], rest⟩ w' (history ++ [(t, e)]) := by
  have written : (progress (th.log ++ [e])).written = none := by
    rw [progress_append, event]
    exact fresh.2
  refine ⟨h.operation, logged_append h.logged _, h.answered.append answered, ?_, ?_, ?_⟩
  · dsimp only
    rw [written]
    exact nofun
  · dsimp only
    rw [written]
    exact fun _ _ none => absurd none nofun
  · dsimp only
    intro row' here _ _
    rw [progress_append, event] at here
    obtain rfl : row = row' := Option.some.inj here
    refine ⟨documents ▸ member, named, fun {answer} queried definite => ?_⟩
    rcases queriedFound_append queried with ⟨start, before, ⟨middle, _, _, since, cut⟩, -⟩ |
      ⟨-, client, token, same⟩
    · have longer := since.trans ((List.prefix_append _ _).trans cut)
      exact absurd fresh.1 (found_of_earlier longer (by simp [before]))
    · exact nomatch congrArg Event.request (event.symm.trans same)

/-! ## Commits -/

variable {target : SubmissionTarget}

/-- A condition on the answers of a thread, at its last answer. -/
theorem decided_of_answered (h : Along (Answered ext) log) :
    lastVerdict ext log ≠ some .undecided := by
  rcases List.eq_nil_or_concat log with rfl | ⟨before, e, rfl⟩
  · exact nofun
  · rw [List.concat_eq_append] at h ⊢
    exact (h before e List.prefix_rfl).2

theorem spoke_of_answered (h : Along (Answered ext) log) : ∀ e ∈ log, Says ext e :=
  fun _ member => (h.of_mem member).choose_spec.2.1

/-- What the last answer carries settles the thread's transmission. -/
theorem Holds.carried (h : Holds ext key t log w history d)
    (logged : ∀ e ∈ log, e ∈ events history) (carried : RejectionCarried ext log) :
    Settled ext (events history) := by
  refine settled_of_unresolved fun c route file unresolved => ?_
  have posted := h.out unresolved
  have last : ∀ {v}, lastVerdict ext log = some v → ∃ resp, Replied (events history) c resp ∧
      verdict ext route resp = v := by
    intro v meaning
    unfold lastVerdict at meaning
    rw [posted] at meaning
    cases reply : (progress log).reply with
    | none =>
      rw [reply] at meaning
      cases meaning
    | some resp =>
      rw [reply] at meaning
      exact ⟨resp, logged _ (replied_of_reply posted reply), Option.some.inj meaning⟩
  rcases carried with rejected | ⟨trackId, answer, r, received, queried, read, rejects⟩
  · obtain ⟨resp, replied, meaning⟩ := last rejected
    exact unresolved.2 (.reply replied (.inr (.inr meaning)))
  · obtain ⟨resp, replied, meaning⟩ := last received
    exact unresolved.2 (.resultado replied meaning (queried.mono logged) read (.inr rejects))

theorem rejected_of_reconciled {estado : String}
    (state : (reconciled d estado).state = "RejectedByDgii") : Rejected estado = true := by
  by_contra rejects
  cases accepted : Accepted estado <;> simp [reconciled, accepted, rejects] at state

/-- What a submission writes next: the row of the key under the state of the
transmissions. -/
structure Accounted (ext : Externals) (key : String × String × String) (w : World)
    (history : History) (write : Write) : Prop where
  source : sourceOf write.doc = some key
  target : Target key w.documents write
  accounts : Accounts ext (events history) write.doc
  settled : Open write.doc.state → Settled ext (events history)

/-- A write of the attempt that holds the row. -/
theorem Holds.accounted {time : ℕ} (h : Holds ext key t log w history d)
    (ledger : Ledger ext key w history) (allocated : d.state = "SequenceAllocated")
    (content : sourceOf d' = sourceOf d) (id : d'.id = d.id) (number : d'.eNcf = d.eNcf)
    (state : d'.state ≠ "RejectedByDgii") : Accounted ext key w history (.update d' time) := by
  obtain ⟨row, member, named, rfl⟩ := h.row
  have settled := h.quiet (.inl allocated)
  exact ⟨content.trans named, ⟨row, member, named, id.symm⟩,
    (ledger.rows row member named).settled settled number state, fun _ => settled⟩

/-- The first write of a submission that found the row, with nothing unsettled. -/
theorem Knows.accounted {time : ℕ} (h : Knows ext key log w history row)
    (settled : Settled ext (events history)) (content : sourceOf d = sourceOf row.toEcfDocument)
    (id : d.id = row.id) (accounts : Accounts ext (events history) d) :
    Accounted ext key w history (.update d time) :=
  ⟨content.trans h.named, ⟨row, h.member, h.named, id.symm⟩, accounts, fun _ => settled⟩

/-- A write of the row's status, once it has been sent. -/
theorem Ledger.accounted {time : ℕ} (ledger : Ledger ext key w history)
    (member : row ∈ w.documents.rows) (named : sourceKey row = some key)
    (source : sourceOf d = sourceOf row.toEcfDocument) (content : SameContent row.toEcfDocument d)
    (sent : d.state ∈ sentStates)
    (rejects : d.state = "RejectedByDgii" →
      Settled ext (events history) ∧ RejectionSeen ext (events history) row.eNcf) :
    Accounted ext key w history (.update d time) := by
  have closed : ∀ state ∈ sentStates, ¬ Open state := by decide
  exact ⟨source.trans named, ⟨row, member, named, content.id.symm⟩,
    (ledger.rows row member named).status content sent rejects,
    fun opened => absurd opened (closed _ sent)⟩

/-- The key of a document goes with its identity. -/
theorem sourceOf_identity (same : identity d' = identity d) : sourceOf d' = sourceOf d := by
  simp only [identity, Prod.mk.injEq] at same
  obtain ⟨-, tenant, source, ambiente⟩ := same
  rw [sourceOf, sourceOf, tenant, source, ambiente]

theorem Sees.event (h : Sees ext requests key t th w history) :
    ∀ e ∈ th.log, e ∈ events history :=
  fun e member => List.mem_map.mpr ⟨(t, e), h.logged e member, rfl⟩

theorem reconciled_sent (d : EcfDocument) (estado : String) :
    (reconciled d estado).state ∈ sentStates := by
  rcases reconciled_state d estado with state | state | ⟨state, -⟩ <;> rw [state] <;> decide

theorem OutcomeState.sent (h : OutcomeState ext log d d') : d'.state ∈ sentStates := by
  cases h with
  | accepted state => rw [state]; decide
  | uncertain state => rw [state]; decide
  | signed state sentAt => rw [state]; decide
  | rejected state seen carried => rw [state]; decide
  | undecided state seen last => rw [state]; decide

/-- An outcome is a rejection only on one. -/
theorem OutcomeState.rejects (h : OutcomeState ext log d d')
    (decided : lastVerdict ext log ≠ some .undecided) (state : d'.state = "RejectedByDgii") :
    RejectionSeen ext log d.eNcf ∧ RejectionCarried ext log := by
  cases h with
  | accepted other => exact absurd (other.symm.trans state) (by decide)
  | uncertain other => exact absurd (other.symm.trans state) (by decide)
  | signed other sentAt => exact absurd (other.symm.trans state) (by decide)
  | rejected state seen carried => exact ⟨seen, carried⟩
  | undecided state seen last => exact absurd last decided

/-- **What a submission writes accounts for the transmissions.** -/
theorem Sees.accounted (h : Sees ext requests key t th w history)
    (ledger : Ledger ext key w history) (running : th.Running) (same : keyOf target = key)
    (alone : (progress th.log).found ≠ none → (progress th.log).written = none →
      Undisturbed t history)
    (writes : SubmitWrite ext target th.log write) (done : commit w.documents [write] = .ok next) :
    Accounted ext key w history write := by
  have spoke := spoke_of_answered h.answered
  have knows : ∀ {row}, (progress th.log).found = some row → (progress th.log).written = none →
      Knows ext key th.log w history row := fun found fresh =>
    h.found found fresh (alone (found ▸ nofun) fresh)
  cases writes with
  | @create id eNcf at' time fresh uuid issued =>
    have source : sourceOf (withContent ext target at' (newDocument target id eNcf)) = some key :=
      same ▸ rfl
    have none : ∀ {c route file}, ¬ Posted (events history) c route file := fun posted =>
      have ⟨_, member, named⟩ := ledger.stored posted
      no_source_of_insert done source member named
    exact ⟨source, trivial, accounts_renumbered (fun _ _ _ posted => (none posted).elim)
      fun posted => (none posted).elim, fun _ _ _ _ posted => (none posted).elim⟩
  | @refresh row at' time found fresh allowed =>
    have knows := knows found fresh
    have accounts := ledger.rows row knows.member knows.named
    have settled : Settled ext (events history) := by
      cases allowed with
      | neverTransmitted never => exact accounts.quiet (.inl never)
      | notFound _ queried missing old =>
        exact knows.asked queried (.inr (.inr (missing_of_notFound missing
          (spoke_of_queried spoke queried.queried))))
    exact knows.accounted settled rfl rfl (accounts.settled settled rfl (by simp))
  | @reissue row eNcf at' time found fresh rejected issued =>
    have knows := knows found fresh
    have accounts := ledger.rows row knows.member knows.named
    have settled := accounts.quiet (.inr rejected)
    exact knows.accounted settled rfl rfl (accounts_renumbered settled (accounts.rejected rejected))
  | @reconcile row d answer time found fresh unconfirmed only sentAt queried known =>
    have knows := knows found fresh
    have accounts := ledger.rows row knows.member knows.named
    refine ledger.accounted knows.member knows.named
      (sourceOf_identity ((reconciled_identity d (estadoOf ext answer)).trans
        (OnlyStatus.identity only)))
      (only.content.trans (reconciled_content d (estadoOf ext answer)))
      (reconciled_sent d (estadoOf ext answer)) fun state => ?_
    have rejects := rejected_of_reconciled state
    exact ⟨knows.asked queried (.inr (.inl rejects)),
      (RejectionSeen.estado queried.queried rejects).mono h.event⟩
  | signingFailed written state failed =>
    exact (h.holds running written (.inl state)).accounted ledger state rfl rfl rfl
      (by simp [signingFailed])
  | schemaInvalid written state made =>
    exact (h.holds running written (.inl state)).accounted ledger state rfl rfl rfl (by simp)
  | unsigned written state =>
    exact (h.holds running written (.inl state)).accounted ledger state rfl rfl rfl
      (by simp [unsigned])
  | awaiting written state made =>
    exact (h.holds running written (.inl state)).accounted ledger state rfl rfl rfl
      (by simp [signed])
  | @outcome d d' time written state outcome =>
    have holds := h.holds running written (.inr state)
    obtain ⟨row, member, named, rfl⟩ := holds.row
    refine ledger.accounted member named (sourceOf_identity (OnlyStatus.identity outcome.only))
      outcome.only.content (OutcomeState.sent outcome.state) fun rejects => ?_
    obtain ⟨seen, carried⟩ :=
      OutcomeState.rejects outcome.state (decided_of_answered h.answered) rejects
    exact ⟨holds.carried h.event carried, seen.mono h.event⟩

/-! ## One move -/

/-- While one thread's attempt is under way, no other's is. -/
theorem Sees.idle (h : Sees ext requests key u th w history)
    (mine : Holds ext key t log w history d) (other : u ≠ t) (running : th.Running) :
    ∀ {d'}, (progress th.log).written = some d' → ¬ Open d'.state :=
  fun written state => other (Option.some.inj
    ((h.holds running written state).last.symm.trans mine.last))

/-- What another thread sees of a commit or a transmission, when it is not in the
middle of an attempt. -/
theorem Sees.others_touched (h : Sees ext requests key t th w history) (other : u ≠ t)
    (touched : touches e = true)
    (idle : th.Running → ∀ {d}, (progress th.log).written = some d → ¬ Open d.state)
    (kept : ∀ row ∈ w.documents.rows, sourceKey row = some key →
      ∃ later ∈ w'.documents.rows, sourceKey later = some key ∧ later.id = row.id) :
    Sees ext requests key t th w' (history ++ [(u, e)]) := by
  refine ⟨h.operation, fun e' member => List.mem_append_left _ (h.logged e' member), h.answered,
    fun written => ?_, fun running d written state => absurd state (idle running written),
    fun found fresh undisturbed => ?_⟩
  · obtain ⟨row, member, named, id⟩ := h.written written
    obtain ⟨later, member, named, same⟩ := kept row member named
    exact ⟨later, member, named, same.trans id⟩
  · obtain ⟨-, calm⟩ := (undisturbed_append (finds_of_other other)).mp undisturbed
    exact absurd (calm other) (by simp [touched])

/-- A commit of an accounted write. -/
theorem Ledger.commit (h : Ledger ext key w history) (accounted : Accounted ext key w history write)
    (done : commit w.documents [write] = .ok w'.documents)
    (silent : transmits e = false) :
    Ledger ext key w' (history ++ [(t, e)]) := by
  obtain ⟨⟨row, member, named, doc⟩, only⟩ :=
    written_of_commit done accounted.source accounted.target
  constructor
  · intro row' member' tenant source
    rcases mem_commit done member' with old | ⟨_, among, wrote⟩
    · exact h.named row' old tenant source
    · have doc := wrote.doc
      rw [List.mem_singleton.mp among] at doc
      intro none
      have source := accounted.source
      rw [← doc, sourceOf, none] at source
      cases source
  · exact fun _ => ⟨row, member, named⟩
  · intro row' member' named'
    rw [events_append, only row' member' named']
    exact accounted.accounts.append silent
  · rw [events_append]
    exact h.one.append silent

/-- The thread that made it. -/
theorem Sees.commits {rest : Program Api Unit} (h : Sees ext requests key t th w history)
    (answered : Answered ext th.log ⟨.saveChanges [write], .ok ()⟩)
    (accounted : Accounted ext key w history write)
    (done : commit w.documents [write] = .ok w'.documents) :
    Sees ext requests key t ⟨th.operation, th.log ++ [⟨.saveChanges [write], .ok ()⟩], rest⟩ w'
      (history ++ [(t, ⟨.saveChanges [write], .ok ()⟩)]) := by
  obtain ⟨⟨row, member, named, doc⟩, -⟩ :=
    written_of_commit done accounted.source accounted.target
  have written : (progress (th.log ++ [⟨.saveChanges [write], .ok ()⟩])).written =
      some write.doc := by
    rw [progress_append]
    rfl
  refine ⟨h.operation, logged_append h.logged _, h.answered.append answered, ?_, ?_, ?_⟩
  · dsimp only
    rw [written]
    rintro d ⟨⟩
    exact ⟨row, member, named, congrArg EcfDocument.id doc⟩
  · dsimp only
    rw [written]
    rintro - d ⟨⟩ opened
    have settled : Settled ext (events (history ++ [(t, ⟨.saveChanges [write], .ok ()⟩)])) := by
      rw [events_append]
      exact (accounted.settled opened).append rfl
    refine ⟨?_, ⟨row, member, named, doc⟩, fun _ => settled,
      fun unresolved => (settled.none unresolved).elim⟩
    rw [committer_append]
    rfl
  · dsimp only
    rw [written]
    exact fun _ none => nomatch none

/-- A transmission of the attempt that holds the row. -/
theorem Ledger.post {client : EcfClient} {token xml : String} (h : Ledger ext key w history)
    (mine : Holds ext key t log w history d) (state : d.state = "AwaitingTransmission")
    (once : (progress log).sent = false) (documents : w'.documents = w.documents) :
    Ledger ext key w'
      (history ++ [(t, ⟨.post client route token xml ⟨d.rncEmisor, d.eNcf⟩, c⟩)]) := by
  obtain ⟨row, member, named, rfl⟩ := mine.row
  have settled := mine.quiet (.inr once)
  have accounts := h.rows row member named
  constructor
  · rw [documents]
    exact h.named
  · rw [documents]
    exact fun _ => ⟨row, member, named⟩
  · rw [documents, events_append]
    intro row' member' named'
    obtain rfl := eq_of_key w.documents.sources member' member named' named
    exact accounts.post settled state
  · rw [events_append]
    exact accounts.one settled h.one

/-- The thread that made it. -/
theorem Sees.posts {rest : Program Api Unit} {client : EcfClient} {token xml : String}
    (h : Sees ext requests key t th w history) (running : th.Running)
    (answered : Answered ext th.log ⟨.post client route token xml ⟨d.rncEmisor, d.eNcf⟩, c⟩)
    (written : (progress th.log).written = some d) (state : d.state = "AwaitingTransmission")
    (once : (progress th.log).sent = false) (documents : w'.documents = w.documents) :
    Sees ext requests key t ⟨th.operation,
      th.log ++ [⟨.post client route token xml ⟨d.rncEmisor, d.eNcf⟩, c⟩], rest⟩ w'
      (history ++ [(t, ⟨.post client route token xml ⟨d.rncEmisor, d.eNcf⟩, c⟩)]) := by
  have mine := h.holds running written (.inr state)
  have settled := mine.quiet (.inr once)
  have last : (progress (th.log ++
      [⟨.post client route token xml ⟨d.rncEmisor, d.eNcf⟩, c⟩])).written = some d := by
    rw [progress_append]
    exact written
  refine ⟨h.operation, logged_append h.logged _, h.answered.append answered, ?_, ?_, ?_⟩
  · dsimp only
    rw [last, documents]
    rintro d ⟨⟩
    exact h.written written
  · dsimp only
    rw [last]
    rintro - d ⟨⟩ -
    constructor
    · rw [committer_append]
      exact mine.last
    · rw [documents]
      exact mine.row
    · rintro (allocated | unsent)
      · exact absurd (allocated.symm.trans state) (by decide)
      · rw [progress_append] at unsent
        cases unsent
    · rw [events_append, progress_append]
      intro c' route' file' unresolved
      obtain ⟨rfl, rfl, -⟩ := settled.post unresolved
      rfl
  · dsimp only
    rw [last]
    exact fun _ none => nomatch none

theorem underWay_of_open (running : th.Running) (written : (progress th.log).written = some d)
    (opened : Open d.state) : underWay th = true := by
  obtain ⟨r, next, rest⟩ := running
  simp [underWay, Thread.request, rest, written, opened]

theorem takesOver_of_save {writes : List Write} {next : Except String Unit → Program Api Unit}
    (rest : th.rest = .ask (.saveChanges writes) next) (found : (progress th.log).found ≠ none)
    (fresh : (progress th.log).written = none) : takesOver th = true := by
  simp [takesOver, Thread.request, rest, fresh, Option.isSome_iff_ne_none, found]

/-- A submission inserts its document, writes the one it found for the first time,
or is in the middle of an attempt. -/
theorem submitWrite_kinds (writes : SubmitWrite ext target log write) :
    (∃ d time, write = .insert d time) ∨
      ((progress log).found ≠ none ∧ (progress log).written = none) ∨
      ∃ d, (progress log).written = some d ∧ Open d.state := by
  cases writes with
  | create => exact .inl ⟨_, _, rfl⟩
  | refresh found fresh => exact .inr (.inl ⟨found ▸ nofun, fresh⟩)
  | reissue found fresh => exact .inr (.inl ⟨found ▸ nofun, fresh⟩)
  | reconcile found fresh => exact .inr (.inl ⟨found ▸ nofun, fresh⟩)
  | signingFailed written state => exact .inr (.inr ⟨_, written, .inl state⟩)
  | schemaInvalid written state => exact .inr (.inr ⟨_, written, .inl state⟩)
  | unsigned written state => exact .inr (.inr ⟨_, written, .inl state⟩)
  | awaiting written state => exact .inr (.inr ⟨_, written, .inl state⟩)
  | outcome written state => exact .inr (.inr ⟨_, written, .inr state⟩)

/-- Requests outside the tables neither commit nor transmit. -/
theorem calm_of_outside {r : Request} (outside : Outside r) (x : r.Reply) :
    touches ⟨r, x⟩ = false := by
  cases r <;> first | rfl | exact outside.elim

theorem event_of_finds (found : finds t (u, e) = true) : ∃ tenantId sourceTxnId ambiente row,
    e = ⟨.documentBySourceTxnId tenantId sourceTxnId ambiente,
      (.ok (some row) : Except String (Option EcfDocumentRow))⟩ := by
  unfold finds at found
  split at found
  · next same =>
    cases same
    exact ⟨_, _, _, _, rfl⟩
  · cases found

/-- What every move keeps: the ledger of the row, and what each thread sees. -/
abbrev Kept (ext : Externals) (services : Services) (requests : ℕ → SubmitRequest)
    (key : String × String × String) (p : EnginePool) : Prop :=
  p.Sound (Asks ext services) (Ledger ext key) (Sees ext requests key)

variable {p : EnginePool} {input : Input} {r : Request} {rest : r.Reply → Program Api Unit}

/-- A lookup that finds the document. -/
theorem Kept.finds (kept : Kept ext services requests key p)
    (same : ∀ target, resolveTarget services (requests t) = .ok target → keyOf target = key)
    (permitted : SubmitAsks ext services (requests t) (p.thread t).log r)
    (answered : Answered ext (p.thread t).log ⟨r, ((host ext).answer input p.world r).1⟩)
    (documents : ((host ext).answer input p.world r).2.documents = p.world.documents)
    (found : finds t (t, ⟨r, ((host ext).answer input p.world r).1⟩) = true)
    (rest : Program Api Unit) :
    Sees ext requests key t ⟨(p.thread t).operation,
        (p.thread t).log ++ [⟨r, ((host ext).answer input p.world r).1⟩], rest⟩
      ((host ext).answer input p.world r).2
      (p.history ++ [(t, ⟨r, ((host ext).answer input p.world r).1⟩)]) := by
  obtain ⟨T, X, ambiente, row, event⟩ := event_of_finds found
  obtain rfl : r = .documentBySourceTxnId T X ambiente := congrArg Event.request event
  have answer := eq_of_heq (Event.mk.inj event).2
  have shown : row ∈ Traces.answered (input.database (.ok (getBySourceTxnId ext.instant input.pick
      T X ambiente p.world.documents))) := by
    rw [show input.database _ = _ from answer]
    exact List.mem_singleton_self row
  obtain ⟨member, matched⟩ := getBySourceTxnId_mem (answered_database shown)
  cases permitted with
  | outside outside => exact outside.elim
  | @lookup target resolved fresh =>
    have key := same target resolved
    have blank : ambienteToString target.ambiente ≠ "" := by
      cases target.ambiente <;> decide
    have named := named_of_source matched rfl blank ?_
    · exact (kept.threads t).finds event answered fresh documents member
        (named.trans (congrArg some key))
    · simp only [matchesSource, Bool.and_eq_true, decide_eq_true_eq] at matched
      refine kept.world.named row member ?_ ?_
      · rw [← key]
        exact matched.1.1
      · rw [← key]
        exact matched.1.2

/-- A commit: nobody else is in the middle of an attempt. -/
theorem Kept.commits {write : Write} {next : Except String Unit → Program Api Unit}
    (kept : Kept ext services requests key p)
    (same : ∀ target, resolveTarget services (requests t) = .ok target → keyOf target = key)
    (rest : (p.thread t).rest = .ask (.saveChanges [write]) next)
    (met : TakesOverAlone p (.step t input))
    (answered : Answered ext (p.thread t).log ⟨.saveChanges [write], .ok ()⟩)
    (resolved : resolveTarget services (requests t) = .ok target)
    (writes : SubmitWrite ext target (p.thread t).log write)
    (done : commit p.world.documents [write] = .ok w'.documents) (next : Program Api Unit) :
    Ledger ext key w' (p.history ++ [(t, ⟨.saveChanges [write], .ok ()⟩)]) ∧
      Sees ext requests key t ⟨(p.thread t).operation,
        (p.thread t).log ++ [⟨.saveChanges [write], .ok ()⟩], next⟩ w'
        (p.history ++ [(t, ⟨.saveChanges [write], .ok ()⟩)]) ∧
      ∀ u, u ≠ t → Sees ext requests key u (p.thread u) w'
        (p.history ++ [(t, ⟨.saveChanges [write], .ok ()⟩)]) := by
  have running : (p.thread t).Running := ⟨_, _, rest⟩
  have mine := kept.threads t
  have alone := fun found fresh => met (takesOver_of_save rest found fresh)
  have accounted := mine.accounted kept.world running (same target resolved)
    (fun found fresh => (alone found fresh).1) writes done
  refine ⟨kept.world.commit accounted done rfl, mine.commits answered accounted done,
    fun u other => ?_⟩
  refine (kept.threads u).others_touched (Ne.symm other) rfl ?_
    fun row member named => kept_of_commit done accounted.source member named
  intro active d written opened
  rcases submitWrite_kinds writes with ⟨d', time, rfl⟩ | ⟨found, fresh⟩ | ⟨d', last, open'⟩
  · obtain ⟨row, member, named, -⟩ := (kept.threads u).written written
    exact no_source_of_insert done accounted.source member named
  · obtain ⟨write', member, -⟩ := mem_of_written written
    have idle := (alone found fresh).2 _ ((kept.threads u).logged _ member) other
    exact absurd (underWay_of_open active written opened) (by simp [idle])
  · exact (kept.threads u).idle (mine.holds running last open') other active written opened

/-- **Step.** A move that meets the condition keeps the ledger, and what every
thread sees. -/
theorem kept_step (same : ∀ t target, resolveTarget services (requests t) = .ok target →
    keyOf target = key) :
    Pool.StepKeeps (host ext) (Asks ext services) (Ledger ext key) (Sees ext requests key)
      (Orderly ext) := by
  intro p t input r next kept rest met permitted
  have mine := kept.threads t
  have running : (p.thread t).Running := ⟨r, next, rest⟩
  have answered : Answered ext (p.thread t).log ⟨r, ((host ext).answer input p.world r).1⟩ :=
    met.2 _ (by simp only [Pool.nextEvent, rest])
  rw [mine.operation] at permitted
  by_cases calm : touches ⟨r, ((host ext).answer input p.world r).1⟩ = false
  · have documents : ((host ext).answer input p.world r).2.documents = p.world.documents :=
      documents_of_calm (w := { p.world with clock := p.world.clock + input.elapsed }) calm
    refine ⟨kept.world.calm documents calm, ?_, fun u other =>
      (kept.threads u).others_calm (Ne.symm other) documents calm⟩
    by_cases found : finds t (t, ⟨r, ((host ext).answer input p.world r).1⟩) = true
    · exact Kept.finds kept (same t) permitted answered documents found _
    · exact mine.calm kept.world running answered documents calm (Bool.eq_false_iff.mpr found)
  · cases permitted with
    | outside outside => exact absurd (calm_of_outside outside _) calm
    | reservation => exact absurd rfl calm
    | lookup => exact absurd rfl calm
    | allocate => exact absurd rfl calm
    | release => exact absurd rfl calm
    | @save target write resolved staged writes =>
      rcases answer_saveChanges ext input
        { p.world with clock := p.world.clock + input.elapsed } [write] with
        ⟨⟨what, failed⟩, -⟩ | ⟨ok, done⟩
      · refine absurd ?_ calm
        have failed : ((host ext).answer input p.world (.saveChanges [write])).1 =
          .error what := failed
        rw [failed]
        rfl
      · have ok : ((host ext).answer input p.world (.saveChanges [write])).1 = .ok () := ok
        rw [ok] at answered ⊢
        exact Kept.commits kept (same t) rest met.1 answered resolved writes done _
    | @transmit client route token xml d written state once payload =>
      have holds := mine.holds running written (.inr state)
      refine ⟨kept.world.post holds state once rfl,
        mine.posts running answered written state once rfl, fun u other => ?_⟩
      exact (kept.threads u).others_touched (Ne.symm other) rfl
        (fun active => (kept.threads u).idle holds other active)
        fun row member named => ⟨row, member, named, rfl⟩

theorem unposted_nil : ¬ Posted [] c route file := fun posted =>
  absurd posted.choose_spec.choose_spec.choose_spec List.not_mem_nil

/-- Nothing has been transmitted yet. -/
theorem ledger_nil (named : ∀ row ∈ w.documents.rows, row.tenantId = key.1 →
    row.sourceTxnId = key.2.1 → row.ambiente ≠ none) : Ledger ext key w [] where
  named := named
  stored posted := (unposted_nil posted).elim
  rows _ _ _ := ⟨fun unresolved => (unposted_nil unresolved.1).elim,
    fun posted => (unposted_nil posted).elim, fun _ _ _ _ posted => (unposted_nil posted).elim,
    fun _ _ _ _ posted => (unposted_nil posted).elim⟩
  one := ⟨fun unresolved => (unposted_nil unresolved.1).elim, along_nil _⟩

/-- Nor has any thread seen anything. -/
theorem sees_nil (rest : Program Api Unit) :
    Sees ext requests key t ⟨.submit (requests t), [], rest⟩ w [] where
  operation := rfl
  logged _ member := absurd member List.not_mem_nil
  answered := along_nil _
  written written := nomatch written
  holds _ _ written := nomatch written
  found found := nomatch found

/-- A thread that dies holds nothing. -/
theorem Sees.killed (h : Sees ext requests key t th w history) :
    Sees ext requests key t { th with rest := .throw "killed" } w history where
  operation := h.operation
  logged := h.logged
  answered := h.answered
  written := h.written
  holds running := nomatch running.choose_spec.choose_spec
  found := h.found

/-- **Single in-flight transmission.** In every schedule of any number of
submissions of one tenant, TxnId and ambiente, whatever fails or dies, whose moves
all meet the condition, at every point at most one transmission is unsettled, and
no number has gone out after another that DGII had not rejected by then. -/
theorem transmitted_one_at_a_time (ext : Externals) (services : Services)
    (requests : ℕ → SubmitRequest) (w : World) (moves : List (Move Input))
    (key : String × String × String)
    (same : ∀ t target, resolveTarget services (requests t) = .ok target → keyOf target = key)
    (named : ∀ row ∈ w.documents.rows, row.tenantId = key.1 → row.sourceTxnId = key.2.1 →
      row.ambiente ≠ none)
    (met : (submissions ext services requests w).Meets (host ext) (Orderly ext) moves) :
    OneAtATime ext
      (events ((submissions ext services requests w).play (host ext) moves).history) := by
  have start : Kept ext services requests key (submissions ext services requests w) :=
    Pool.Sound.start (program_follows ext services) (ledger_nil named) fun t => sees_nil _
  exact (Pool.Sound.play (kept_step same) (fun _ _ _ _ sees => sees.killed) start met).world.one

/-! ## Two submissions of one invoice -/

instance TakesOverAlone.decidable (p : EnginePool) : (m : Move Input) →
    Decidable (TakesOverAlone p m)
  | .kill _ => .isTrue trivial
  | .step t _ => inferInstanceAs (Decidable (takesOver (p.thread t) = true → _ ∧ _))

/-- The same invoice, submitted again and again. -/
def resubmitted (moves : List (Move Input)) : EnginePool :=
  (submissions sampleExternals sampleServices (fun _ => sampleRequest) sampleWorld).play
    (host sampleExternals) moves

/-- The answers of DGII, checked. -/
def answeredCheck (_ : Operation) (log : Log) (e : Event Api) : Bool :=
  (estados [e]).all (fun estado => trim estado ≠ "") &&
    lastVerdict sampleExternals (log ++ [e]) ≠ some .undecided

theorem answered_of_check (op : Operation) (log : Log) (e : Event Api)
    (checked : answeredCheck op log e = true) : Answered sampleExternals log e := by
  simp only [answeredCheck, Bool.and_eq_true, decide_eq_true_eq] at checked
  exact ⟨spoke_of_estados checked.1 e (List.mem_singleton_self e), checked.2⟩

/-- Every submission of the invoice has one key. -/
theorem resubmitted_key (target : SubmissionTarget)
    (resolved : resolveTarget sampleServices sampleRequest = .ok target) :
    keyOf target = ("default-tenant", "TXN-1", "PreCertificacion") := by
  have known : (resolveTarget sampleServices sampleRequest).toOption.map keyOf =
      some ("default-tenant", "TXN-1", "PreCertificacion") := by decide +kernel
  rw [resolved] at known
  exact Option.some.inj known

/-- A transmission without an answer; five minutes later DGII does not know the
number, and the document is sent again. -/
def lostAndSentAgain : List (Move Input) :=
  steps 0 20 "" ++ .step 1 { answering "No encontrado" with elapsed := 300 * second } ::
    steps 1 20 "No encontrado"

theorem resent_one_at_a_time :
    transmissions (events (resubmitted lostAndSentAgain).history) =
        [⟨"101672919", "E310000000001"⟩, ⟨"101672919", "E310000000001"⟩] ∧
      OneAtATime sampleExternals (events (resubmitted lostAndSentAgain).history) := by
  refine ⟨by decide +kernel, transmitted_one_at_a_time sampleExternals sampleServices
    (fun _ => sampleRequest) sampleWorld lostAndSentAgain
    ("default-tenant", "TXN-1", "PreCertificacion") (fun _ => resubmitted_key)
    (fun _ member => absurd member List.not_mem_nil) ?_⟩
  have alone : (submissions sampleExternals sampleServices (fun _ => sampleRequest)
      sampleWorld).Meets (host sampleExternals) TakesOverAlone lostAndSentAgain := by
    decide +kernel
  have heard : (submissions sampleExternals sampleServices (fun _ => sampleRequest)
      sampleWorld).Meets (host sampleExternals)
      (Each sampleExternals fun _ => Answered sampleExternals) lostAndSentAgain :=
    each_of_checked answered_of_check (by decide +kernel)
  exact (alone.and heard).mono fun _ _ met => met

/-- One submission has inserted the document; the other finds it, writes it and
sends it; and then the first sends it too. -/
def crossed : List (Move Input) := steps 0 6 "" ++ steps 1 9 "" ++ steps 0 5 ""

/-- The transmissions, by connection. -/
def connections (log : Log) : List (ℕ × Route × EcfFileName) := log.filterMap fun e =>
  match e with
  | ⟨.post _ route _ _ file, connection⟩ => some (connection, route, file)
  | _ => none

theorem posted_of_connections (member : (c, route, file) ∈ connections log) :
    Posted log c route file := by
  obtain ⟨e, among, here⟩ := List.mem_filterMap.mp member
  split at here
  · next client _ token xml _ _ =>
    cases here
    exact ⟨client, token, xml, among⟩
  · cases here

/-- Something of DGII's was read. -/
def hears : Event Api → Bool
  | ⟨.await _, _⟩ => true
  | ⟨.get .., _⟩ => true
  | _ => false

theorem hears_of_resolved (h : Resolved ext log c route file) : ∃ e ∈ log, hears e = true := by
  cases h with
  | reply replied settles => exact ⟨_, replied, rfl⟩
  | resultado replied receives queried read settles => exact ⟨_, replied, rfl⟩
  | estado posted asked valid settles =>
    exact ⟨_, asked.subset (List.mem_append_right _ (List.mem_singleton_self _)), rfl⟩

/-- Two transmissions are out, and neither is answered. -/
theorem both_sent : ¬ OneAtATime sampleExternals (events (resubmitted crossed).history) := by
  intro one
  have unheard : ∀ e ∈ events (resubmitted crossed).history, hears e = false := by decide +kernel
  have unsettled : ∀ {c route file}, (c, route, file) ∈ connections
      (events (resubmitted crossed).history) → Unresolved sampleExternals
        (events (resubmitted crossed).history) c route file := by
    intro c route file member
    refine ⟨posted_of_connections member, fun resolved => ?_⟩
    obtain ⟨e, among, heard⟩ := hears_of_resolved resolved
    exact absurd ((unheard e among).symm.trans heard) (by decide)
  have first := @unsettled 0 .recepcion ⟨"101672919", "E310000000001"⟩ (by decide +kernel)
  have second := @unsettled 1 .recepcion ⟨"101672919", "E310000000001"⟩ (by decide +kernel)
  exact absurd (one.single first second) (by decide)

end EcfDgii.SingleTransmissions
