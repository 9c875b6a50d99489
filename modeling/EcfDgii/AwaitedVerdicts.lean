import EcfDgii.DocumentInvariants

/-!
Documents that wait for a verdict.

The background pass selects the rows in Signed or SentToDgii by their
transmission time, so a row in one of these states without one is never looked
at again.  `submit` always dates what it sends and what it reconciles.  Polling
by eNCF and the status query enter these states without a date of their own:
they keep the law where the row they read is dated already.
-/

set_option autoImplicit false

namespace EcfDgii.AwaitedVerdicts

open EcfDgii.Documents EcfDgii.DgiiReplies EcfDgii.Tables EcfDgii.Programs EcfDgii.Execution
open EcfDgii.Engine EcfDgii.Transmission EcfDgii.Submission EcfDgii.StatusUpdates EcfDgii.Traces
open EcfDgii.SubmissionTrace EcfDgii.SubmissionFollows EcfDgii.StatusPolling EcfDgii.StatusTrace
open EcfDgii.DocumentInvariants

/-- Sent, and no final verdict yet. -/
def Awaited (state : String) : Prop := state = "Signed" ∨ state = "SentToDgii"

instance : DecidablePred Awaited := fun _ => inferInstanceAs (Decidable (_ ∨ _))

/-- A document that awaits its verdict is dated. -/
def Dated (d : EcfDocument) : Prop := Awaited d.state → d.sentToDgiiAt.isSome

variable {ext : Externals} {services : Services} {Other : String → Prop}

/-- An answer that makes an operation other than `submit` enter one of the two
states finds a row with a transmission time. -/
def FindsDated (ext : Externals) (Other : String → Prop) (op : Operation) (log : Log)
    (e : Event Api) : Prop :=
  ∀ client token consulta answer row, e = ⟨.get client token consulta, answer⟩ →
    validateDgiiResponse answer = .ok () → Read log row → ¬ Other row.id →
    match op with
    | .getBySourceTxnId _ => consulta = .estado row.rncEmisor row.eNcf none none →
        notFound (estadoOf ext answer) = false → Accepted (estadoOf ext answer) = false →
        Rejected (estadoOf ext answer) = false → row.sentToDgiiAt.isSome
    | .status _ _ => row.state ≠ "AcceptedByDgii" →
        Awaited (mappedState (estadoOf ext answer)) → row.sentToDgiiAt.isSome
    | _ => True

/-- What a submission writes is dated. -/
theorem dated_of_submitWrite {t : SubmissionTarget} {log : Log} {write : Write}
    (h : SubmitWrite ext t log write) : Dated write.doc := by
  cases h with
  | create => simp [Write.doc, Dated, Awaited]
  | refresh => simp [Write.doc, Dated, Awaited]
  | reissue => simp [Write.doc, Dated, Awaited]
  | reconcile _ _ _ _ sentAt =>
    intro _
    rw [Write.doc, reconciled_only]
    exact sentAt
  | signingFailed => simp [Write.doc, Dated, Awaited, signingFailed]
  | schemaInvalid => simp [Write.doc, Dated, Awaited]
  | unsigned => simp [Write.doc, Dated, Awaited, unsigned]
  | awaiting => simp [Write.doc, Dated, Awaited, signed]
  | outcome _ _ outcome =>
    cases outcome.state with
    | accepted state => simp [Write.doc, Dated, Awaited, state]
    | uncertain state => simp [Write.doc, Dated, Awaited, state]
    | signed state sentAt => exact fun _ => sentAt
    | rejected state => simp [Write.doc, Dated, Awaited, state]
    | undecided state => simp [Write.doc, Dated, Awaited, state]

/-- What polling writes is dated, given the condition on its answers. -/
theorem dated_of_pollWrite {req : ReadRequest} {row : EcfDocumentRow} {log : Log}
    {d : EcfDocument} (along : Along (FindsDated ext Other (.getBySourceTxnId req)) log)
    (ours : ¬ Other row.id) (h : PollWrite ext log row d) : Dated d := by
  cases h with
  | resultado queried read verdict =>
    rcases (afterResultado_some verdict).2 with state | state <;> simp [Dated, Awaited, state]
  | @estado trackId answer untracked queried known =>
    obtain ⟨start, read, ⟨before, client, token, since, cut⟩, valid⟩ := queried
    intro awaited
    rw [reconciled_only]
    rcases reconciled_state { row.toEcfDocument with trackId := trackId } (estadoOf ext answer)
      with state | state | ⟨-, notAccepted, notRejected⟩
    · exact absurd awaited (by simp [Awaited, state])
    · exact absurd awaited (by simp [Awaited, state])
    · exact along before _ cut client token _ answer row rfl valid
        (read.mono fun _ member => since.subset member) ours rfl known notAccepted notRejected

/-- Being dated is a law. -/
theorem dated_lawful : Lawful ext services (fun _ => True) (FindsDated ext Other)
    (fun _ d => Other d.id ∨ Dated d) where
  mono _ _ _ law := law
  writes op log history writes write obeys _ h := by
    cases h with
    | submit _ h => exact .inr (dated_of_submitWrite h)
    | @poll req _ row d time _ read state h =>
      by_cases ours : Other row.id
      · exact .inl (h.id ▸ ours)
      · exact .inr (dated_of_pollWrite obeys.along ours h)
    | @status _ _ _ row consulta answer d time _ read undecided queried only =>
      subst only
      by_cases ours : Other row.id
      · exact .inl ours
      · obtain ⟨start, read, ⟨before, client, token, since, cut⟩, valid⟩ := queried
        exact .inr (obeys.along before _ cut client token consulta answer row rfl valid
          (read.mono fun _ member => since.subset member) ours undecided)
    | @reconcile _ row d time _ due h =>
      rcases h.state with state | state | state | state
      · have law := obeys.read row due.read
        unfold Dated at law ⊢
        rwa [← h.id, ← state, ← h.sentAt] at law
      all_goals exact .inr (by simp [Write.doc, Dated, Awaited, state])

/-- A dated row that waits, is old enough and whose next check is due is
selected. -/
theorem due_of_dated {instant : String → ℤ} {minAge pollDue : String} {row : EcfDocumentRow}
    (dated : Dated row.toEcfDocument) (awaited : Awaited row.state)
    (present : row.isDeleted = false)
    (old : ∀ sent, row.sentToDgiiAt = some sent → instant sent ≤ instant minAge)
    (due : ∀ checked, row.lastStatusCheckAt = some checked → instant checked ≤ instant pollDue) :
    dueForStatusCheck instant minAge pollDue row = true := by
  obtain ⟨sent, sentAt⟩ := Option.isSome_iff_exists.mp (dated awaited)
  have state : (row.state = "Signed" || row.state = "SentToDgii") = true := by
    simpa [Awaited] using awaited
  cases checked : row.lastStatusCheckAt with
  | none => simp [dueForStatusCheck, state, sentAt, old sent sentAt, checked, present]
  | some last =>
    simp [dueForStatusCheck, state, sentAt, old sent sentAt, checked, due last checked, present]

/-- **No document drops out of reconciliation.** On every schedule of the
engine's operations whose answers enter the two states only from dated rows,
every document in one of them is dated, and selected once it is due. -/
theorem awaited_documents_are_selected (ext : Externals) (services : Services)
    (operations : ℕ → Operation) (w : World) (Other : String → Prop)
    (initial : ∀ row ∈ w.documents.rows,
      Other row.id ∨ Dated row.toEcfDocument ∧ row.isDeleted = false)
    (moves : List (Move Input))
    (met : (engine ext services operations w).Meets (host ext) (Each ext (FindsDated ext Other))
      moves) :
    ∀ row ∈ ((engine ext services operations w).play (host ext) moves).world.documents.rows,
      ¬ Other row.id → Awaited row.state →
        row.sentToDgiiAt.isSome ∧
        ∀ minAge pollDue,
          (∀ sent, row.sentToDgiiAt = some sent → ext.instant sent ≤ ext.instant minAge) →
          (∀ checked, row.lastStatusCheckAt = some checked →
            ext.instant checked ≤ ext.instant pollDue) →
          dueForStatusCheck ext.instant minAge pollDue row = true := by
  intro row member ours awaited
  have start : ∀ row ∈ w.documents.rows, Other row.id ∨ Dated row.toEcfDocument :=
    fun row member => (initial row member).imp_right And.left
  have dated : Dated row.toEcfDocument :=
    ((dated_lawful.play (fun _ => trivial) start met).world row member).resolve_left ours
  have present : row.isDeleted = false := by
    refine Bool.eq_false_iff.mpr fun deleted => ?_
    obtain ⟨old, member, same, deleted⟩ := isDeleted_play member deleted
    rcases initial old member with other | ⟨-, kept⟩
    · exact ours (same ▸ other)
    · exact absurd (deleted.symm.trans kept) Bool.noConfusion
  exact ⟨dated awaited, fun minAge pollDue old due => due_of_dated dated awaited present old due⟩

/-- A submission, the polling of its document, and a status query about it. -/
def submitThenAsk : ℕ → Operation
  | 0 => .submit sampleRequest
  | 1 => .getBySourceTxnId { txnId := "TXN-1" }
  | _ => .status "101672919" "E310000000001"

/-- The condition, where every row read is dated. -/
def findsDated (_ : Operation) (log : Log) : Event Api → Bool
  | ⟨.get .., _⟩ => (log.flatMap revealed).all fun row => row.sentToDgiiAt.isSome
  | _ => true

theorem findsDated_sound (op : Operation) (log : Log) (e : Event Api)
    (h : findsDated op log e = true) : FindsDated sampleExternals (fun _ => False) op log e := by
  rintro client token consulta answer row rfl - ⟨event, among, shown⟩ -
  have dated := List.all_eq_true.mp h row (List.mem_flatMap.mpr ⟨event, among, shown⟩)
  cases op with
  | getBySourceTxnId req => exact fun _ _ _ _ => dated
  | status rncEmisor eNcf => exact fun _ _ => dated
  | _ => trivial

/-- A document sent, polled without a verdict, and found in process. -/
theorem awaited_documents_are_selected_sample :
    let run := (engine sampleExternals sampleServices submitThenAsk sampleWorld).play
      (host sampleExternals) (steps 0 18 "trackId" ++ steps 1 8 "" ++ steps 2 6 "En Proceso")
    run.world.documents.rows.length = 1 ∧ ∀ row ∈ run.world.documents.rows,
      ¬ False → Awaited row.state →
        row.sentToDgiiAt.isSome ∧
        ∀ minAge pollDue,
          (∀ sent, row.sentToDgiiAt = some sent →
            sampleExternals.instant sent ≤ sampleExternals.instant minAge) →
          (∀ checked, row.lastStatusCheckAt = some checked →
            sampleExternals.instant checked ≤ sampleExternals.instant pollDue) →
          dueForStatusCheck sampleExternals.instant minAge pollDue row = true :=
  ⟨by decide +kernel,
    awaited_documents_are_selected sampleExternals sampleServices submitThenAsk sampleWorld
      (fun _ => False) (fun _ member => absurd member List.not_mem_nil) _
      (each_of_checked findsDated_sound (by decide +kernel))⟩

/-- A submission whose transmission has no answer, then polling that finds it
in process: the document is Signed, without a transmission time, and no cutoff
selects it. -/
theorem polling_strands_document :
    ((engine sampleExternals sampleServices submitThenAsk sampleWorld).play
      (host sampleExternals) (steps 0 18 "" ++ steps 1 18 "En Proceso")).world.documents.rows.map
        (fun row => (row.state, row.sentToDgiiAt)) = [("Signed", none)] := by
  decide +kernel

end EcfDgii.AwaitedVerdicts
