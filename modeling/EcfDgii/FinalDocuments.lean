import EcfDgii.DocumentInvariants

/-!
Operations one at a time: what they leave alone.

Run alone, an operation sees the table as it is, so the rows it may write are
those it finds in a state it acts on.  Each operation has such states
(`Leaves` names the others), and only a submission that finds a rejected row
gives it another eNCF.  Both facts are invariants of a single run, carried with
what the run has read and committed so far; sessions repeat them.
-/

set_option autoImplicit false

namespace EcfDgii.FinalDocuments

open EcfDgii.Documents EcfDgii.Tables EcfDgii.Programs EcfDgii.Execution EcfDgii.Engine
open EcfDgii.Transmission EcfDgii.Submission EcfDgii.StatusPolling EcfDgii.StatusUpdates
open EcfDgii.Traces EcfDgii.SubmissionTrace EcfDgii.StatusTrace EcfDgii.DocumentInvariants

variable {ext : Externals} {services : Services} {op : Operation} {log : Log} {w : World}
  {row : EcfDocumentRow} {r : Request} {input : Input}

/-! ## Rows an operation leaves alone -/

/-- An operation does not write a row it finds in this state. -/
def Leaves : Operation → String → Prop
  | .submit _, state => state ∉ openStates
  | .getBySourceTxnId _, state => state ∉ polledStates
  | .status _ _, state => state = "AcceptedByDgii"
  | .reconcile, state => state ≠ "Signed" ∧ state ≠ "SentToDgii"
  | _, _ => True

/-- No operation writes an accepted row. -/
theorem leaves_accepted (op : Operation) : Leaves op "AcceptedByDgii" := by
  cases op <;> simp [Leaves, openStates, polledStates, neverTransmittedStates]

/-- A row an operation leaves alone, and what the operation knows of it. -/
structure Untouched (op : Operation) (row : EcfDocumentRow) (log : Log) (w : World) : Prop where
  stays : row ∈ w.documents.rows
  read : ∀ seen, Read log seen → seen.id = row.id → seen = row
  due : op = .reconcile → ∀ seen, Due log seen → seen.id ≠ row.id
  written : ∀ d, (progress log).written = some d → d.id ≠ row.id

theorem Untouched.not_holds (h : Untouched op row log w) (leaves : Leaves op row.state) :
    ¬ Holds op log row.id := by
  intro holds
  cases op with
  | submit req =>
    rcases holds with ⟨d, written, same, -⟩ | ⟨-, seen, found, same, state⟩
    · exact h.written d written same
    · have eq := h.read seen (read_of_found found) same
      exact leaves (eq ▸ state)
  | getBySourceTxnId req =>
    obtain ⟨-, seen, read, same, state⟩ := holds
    exact leaves (h.read seen read same ▸ state)
  | status rncEmisor eNcf =>
    obtain ⟨-, seen, read, same, state⟩ := holds
    exact state (h.read seen read same ▸ leaves)
  | reconcile =>
    obtain ⟨seen, due, same⟩ := holds
    exact h.due rfl seen due same
  | _ => exact holds

/-- The rows the background pass finds due are in one of its two states. -/
theorem due_state {e : Event Api} {seen : EcfDocumentRow} {minAge pollDue : String} {limit : ℕ}
    {rows : List EcfDocumentRow}
    (answer : e = ⟨.documentsDue minAge pollDue limit,
      (.ok rows : Except String (List EcfDocumentRow))⟩)
    (same : e = ⟨r, (answerAt ext input w r).1⟩) (among : seen ∈ rows) :
    seen ∈ w.documents.rows ∧ (seen.state = "Signed" ∨ seen.state = "SentToDgii") := by
  subst same
  cases r with
  | documentsDue minAge' pollDue' limit' =>
    simp only [answerAt, Input.database] at answer
    cases failed : input.databaseError with
    | some e =>
      rw [failed] at answer
      cases answer
    | none =>
      rw [failed] at answer
      cases answer
      obtain ⟨member, due⟩ := getDueForStatusCheck_mem among
      refine ⟨member, ?_⟩
      simp only [dueForStatusCheck, Bool.and_eq_true, Bool.or_eq_true, decide_eq_true_eq] at due
      exact due.1.1.1
  | _ => cases congrArg Event.request answer

/-- One answer leaves the row alone. -/
theorem Untouched.step (h : Untouched op row log w) (leaves : Leaves op row.state)
    (permitted : Asks ext services op log r) :
    Untouched op row (log ++ [⟨r, (answerAt ext input w r).1⟩]) (answerAt ext input w r).2 := by
  have read : ∀ seen, Read (log ++ [⟨r, (answerAt ext input w r).1⟩]) seen →
      seen.id = row.id → seen = row := by
    intro seen shown same
    rcases read_append.mp shown with old | new
    · exact h.read seen old same
    · exact DocumentTable.eq_of_id (revealed_mem new) h.stays same
  have due : op = .reconcile → ∀ seen,
      Due (log ++ [⟨r, (answerAt ext input w r).1⟩]) seen → seen.id ≠ row.id := by
    rintro rfl seen ⟨minAge, pollDue, limit, rows, among, answer⟩ same
    rcases List.mem_append.mp answer with old | new
    · exact h.due rfl seen ⟨minAge, pollDue, limit, rows, among, old⟩ same
    · obtain ⟨member, state⟩ := due_state rfl (List.mem_singleton.mp new) among
      have eq := DocumentTable.eq_of_id member h.stays same
      rw [eq] at state
      exact state.elim leaves.1 leaves.2
  by_cases commits : ∃ writes, r = .saveChanges writes
  · obtain ⟨writes, rfl⟩ := commits
    rcases answer_saveChanges ext input w writes with ⟨⟨e, failed⟩, same⟩ | ⟨ok, done⟩
    · refine ⟨by rw [same]; exact h.stays, read, due, fun d written => h.written d ?_⟩
      rw [progress_append] at written
      exact (after_saveChanges written).resolve_right fun ok => nomatch failed.symm.trans ok.1
    · have others : ∀ write ∈ writes, write.doc.id ≠ row.id := by
        intro write member same
        have engine := engineWrite_of_asks permitted write member
        cases write with
        | insert d time =>
          cases engine with
          | submit target creates => exact commit_insert_new done h.stays same.symm
        | update d time => exact h.not_holds leaves (same ▸ holds_of_write engine rfl)
      obtain ⟨kept, member, -, eq⟩ := commit_keeps (P := (· = row)) done h.stays rfl
        fun old d time among same => absurd same (others _ among)
      refine ⟨eq ▸ member, read, due, fun d written => ?_⟩
      rw [progress_append] at written
      rcases after_saveChanges written with before | ⟨-, write, among, rfl⟩
      · exact h.written d before
      · exact others write among
  · have other : ∀ writes, r ≠ .saveChanges writes := fun writes eq => commits ⟨writes, eq⟩
    refine ⟨?_, read, due, fun d written => h.written d ?_⟩
    · rw [documents_of_other other]
      exact h.stays
    · rw [progress_append, after_written other] at written
      exact written

/-- **A run leaves alone** every row it would find in a state it does not act
on. -/
theorem run_leaves (op : Operation) (inputs : ℕ → Option Input)
    (member : row ∈ w.documents.rows) (leaves : Leaves op row.state) :
    row ∈ ((host ext).run inputs w [] (program ext services op)).world.documents.rows := by
  have start : Untouched op row [] w :=
    ⟨member, fun seen read => absurd read.choose_spec.1 List.not_mem_nil,
      fun _ seen due => absurd due.read.choose_spec.1 List.not_mem_nil, fun d none => nomatch none⟩
  refine (Host.run_keeps ?_ (program_follows ext services op) start).1.stays
  intro log w r input permitted h
  exact Untouched.step (w := { w with clock := w.clock + input.elapsed })
    ⟨h.stays, h.read, h.due, h.written⟩ leaves permitted

/-! ## The number of a row -/

/-- Where the eNCF of an updated row comes from: the row as it was read, or as
it was committed before, or a number issued to a rejected row. -/
inductive NumberFrom (op : Operation) (log : Log) (d : EcfDocument) : Prop
  | read {seen : EcfDocumentRow} (read : Read log seen) (id : d.id = seen.id)
      (number : d.eNcf = seen.eNcf)
  | written {d₀ : EcfDocument} (written : (progress log).written = some d₀) (id : d.id = d₀.id)
      (number : d.eNcf = d₀.eNcf)
  | reissued {req : SubmitRequest} {seen : EcfDocumentRow} (submits : op = .submit req)
      (fresh : (progress log).written = none) (read : Read log seen) (id : d.id = seen.id)
      (state : seen.state = "RejectedByDgii")

theorem NumberFrom.of_content {d d' : EcfDocument} (h : NumberFrom op log d)
    (same : SameContent d d') : NumberFrom op log d' := by
  cases h with
  | read read id number => exact .read read (same.id.trans id) (same.eNcf.trans number)
  | written written id number => exact .written written (same.id.trans id) (same.eNcf.trans number)
  | reissued submits fresh read id state =>
    exact .reissued submits fresh read (same.id.trans id) state

theorem numberFrom_of_write {writes : List Write} {write : Write}
    (h : EngineWrite ext services op log writes write) {d : EcfDocument} {time : ℕ}
    (update : write = .update d time) : NumberFrom op log write.doc := by
  cases h with
  | @submit req _ _ _ _ h =>
    cases h with
    | create => cases update
    | refresh found => exact .read (read_of_found found) rfl rfl
    | reissue found fresh state => exact .reissued rfl fresh (read_of_found found) rfl state
    | @reconcile row d answer _ found _ _ only =>
      have kept : NumberFrom (.submit req) log row.toEcfDocument :=
        .read (read_of_found found) rfl rfl
      dsimp only [Write.doc]
      exact kept.of_content (only.content.trans (reconciled_content d (estadoOf ext answer)))
    | signingFailed written => exact .written written rfl rfl
    | schemaInvalid written => exact .written written rfl rfl
    | unsigned written => exact .written written rfl rfl
    | awaiting written => exact .written written rfl rfl
    | outcome written _ outcome =>
      have kept : NumberFrom (.submit req) log _ := .written written rfl rfl
      exact kept.of_content outcome.only.content
  | poll _ read _ h => exact .read read h.id h.number
  | status _ read _ _ only =>
    dsimp only [Write.doc]
    exact .read read (by rw [only]) (by rw [only])
  | reconcile due h => exact .read due.read h.id h.number

/-- A row that keeps its number, and what the operation knows of it. -/
structure KeepsNumber (op : Operation) (row : EcfDocumentRow) (log : Log) (w : World) : Prop where
  stays : ∃ row' ∈ w.documents.rows, row'.id = row.id ∧ row'.eNcf = row.eNcf
  read : ∀ seen, Read log seen → seen.id = row.id → seen.eNcf = row.eNcf
  written : ∀ d, (progress log).written = some d → d.id = row.id → d.eNcf = row.eNcf
  fresh : (∃ req, op = .submit req) → (progress log).written = none →
    row ∈ w.documents.rows ∧ ∀ seen, Read log seen → seen.id = row.id → seen = row

/-- A submission that finds the row rejected. -/
def Reissues (op : Operation) (state : String) : Prop :=
  (∃ req, op = .submit req) ∧ state = "RejectedByDgii"

/-- Every update keeps the number, unless it reissues the row. -/
theorem KeepsNumber.update (h : KeepsNumber op row log w) (stays : ¬ Reissues op row.state)
    {d : EcfDocument} (number : NumberFrom op log d) (same : d.id = row.id) :
    d.eNcf = row.eNcf := by
  cases number with
  | read read id number => exact number.trans (h.read _ read (id.symm.trans same))
  | written written id number => exact number.trans (h.written _ written (id.symm.trans same))
  | reissued submits fresh read id state =>
    have eq := (h.fresh ⟨_, submits⟩ fresh).2 _ read (id.symm.trans same)
    exact absurd ⟨⟨_, submits⟩, eq ▸ state⟩ stays

/-- One answer keeps the number. -/
theorem KeepsNumber.step (h : KeepsNumber op row log w) (stays : ¬ Reissues op row.state)
    (permitted : Asks ext services op log r) :
    KeepsNumber op row (log ++ [⟨r, (answerAt ext input w r).1⟩]) (answerAt ext input w r).2 := by
  obtain ⟨now, present, id, number⟩ := h.stays
  have read : ∀ seen, Read (log ++ [⟨r, (answerAt ext input w r).1⟩]) seen →
      seen.id = row.id → seen.eNcf = row.eNcf := by
    intro seen shown same
    rcases read_append.mp shown with old | new
    · exact h.read seen old same
    · have eq := DocumentTable.eq_of_id (revealed_mem new) present (same.trans id.symm)
      exact eq ▸ number
  have current : (∃ req, op = .submit req) → (progress log).written = none → ∀ seen,
      Read (log ++ [⟨r, (answerAt ext input w r).1⟩]) seen → seen.id = row.id → seen = row := by
    intro submits fresh seen shown same
    obtain ⟨member, known⟩ := h.fresh submits fresh
    rcases read_append.mp shown with old | new
    · exact known seen old same
    · exact DocumentTable.eq_of_id (revealed_mem new) member same
  by_cases commits : ∃ writes, r = .saveChanges writes
  · obtain ⟨writes, rfl⟩ := commits
    rcases answer_saveChanges ext input w writes with ⟨⟨e, failed⟩, same⟩ | ⟨ok, done⟩
    · have before : ∀ d, (progress (log ++ [⟨.saveChanges writes,
          (answerAt ext input w (.saveChanges writes)).1⟩])).written = some d →
          (progress log).written = some d := by
        intro d written
        rw [progress_append] at written
        exact (after_saveChanges written).resolve_right fun ok => nomatch failed.symm.trans ok.1
      refine ⟨by rw [same]; exact h.stays, read, fun d written => h.written d (before d written),
        fun submits fresh => ?_⟩
      have fresh : (progress log).written = none := by
        rw [progress_append, failed] at fresh
        match writes, fresh with
        | [], fresh => exact fresh
        | [_], fresh => exact fresh
        | _ :: _ :: _, fresh => exact fresh
      exact ⟨by rw [same]; exact (h.fresh submits fresh).1, current submits fresh⟩
    · have updates : ∀ d time, .update d time ∈ writes → d.id = row.id → d.eNcf = row.eNcf :=
        fun d time member same => h.update stays
          (numberFrom_of_write (engineWrite_of_asks permitted _ member) rfl) same
      obtain ⟨kept, member, same, eq⟩ := commit_keeps (P := fun kept => kept.eNcf = row.eNcf)
        done present number fun old d time among target => updates d time among (target.trans id)
      refine ⟨⟨kept, member, same.trans id, eq⟩, read, fun d written target => ?_,
        fun submits fresh => ?_⟩
      · rw [progress_append] at written
        rcases after_saveChanges written with before | ⟨-, write, among, rfl⟩
        · exact h.written d before target
        · cases write with
          | insert d time =>
            cases engineWrite_of_asks permitted _ among with
            | submit => exact absurd (id.trans target.symm) (commit_insert_new done present)
          | update d time => exact updates d time among target
      · obtain ⟨req, rfl⟩ := submits
        cases permitted with
        | outside h => exact h.elim
        | save _ _ h =>
          rw [progress_append, ok] at fresh
          cases fresh
  · have other : ∀ writes, r ≠ .saveChanges writes := fun writes eq => commits ⟨writes, eq⟩
    have written : (progress (log ++ [⟨r, (answerAt ext input w r).1⟩])).written =
        (progress log).written := by rw [progress_append, after_written other]
    refine ⟨?_, read, fun d same => h.written d (written ▸ same), fun submits fresh => ?_⟩
    · rw [documents_of_other other]
      exact h.stays
    · rw [documents_of_other other]
      exact ⟨(h.fresh submits (written ▸ fresh)).1, current submits (written ▸ fresh)⟩

/-- **A run keeps the number** of every row, unless it is a submission that
finds the row rejected. -/
theorem run_numbers (op : Operation) (inputs : ℕ → Option Input)
    (member : row ∈ w.documents.rows) (stays : ¬ Reissues op row.state) :
    ∃ row' ∈ ((host ext).run inputs w [] (program ext services op)).world.documents.rows,
      row'.id = row.id ∧ row'.eNcf = row.eNcf := by
  have unread : ∀ seen, ¬ Read [] seen := fun seen read =>
    absurd read.choose_spec.1 List.not_mem_nil
  have start : KeepsNumber op row [] w :=
    ⟨⟨row, member, rfl, rfl⟩, fun seen read => absurd read (unread seen),
      (fun _ none => nomatch none), fun _ _ => ⟨member, fun seen read => absurd read (unread seen)⟩⟩
  refine (Host.run_keeps ?_ (program_follows ext services op) start).1.stays
  intro log w r input permitted h
  exact KeepsNumber.step (w := { w with clock := w.clock + input.elapsed })
    ⟨h.stays, h.read, h.written, h.fresh⟩ stays permitted

/-- No run deletes a row. -/
theorem run_persists (op : Operation) (inputs : ℕ → Option Input)
    (member : row ∈ w.documents.rows) :
    ∃ row' ∈ ((host ext).run inputs w [] (program ext services op)).world.documents.rows,
      row'.id = row.id := by
  refine (Host.run_keeps (J := fun _ (w : World) => ∃ row' ∈ w.documents.rows, row'.id = row.id)
    ?_
    (program_follows ext services op) ⟨row, member, rfl⟩).1
  rintro log w r input - ⟨now, present, same⟩
  by_cases commits : ∃ writes, r = .saveChanges writes
  · obtain ⟨writes, rfl⟩ := commits
    rcases answer_saveChanges ext input { w with clock := w.clock + input.elapsed } writes with
      ⟨-, refused⟩ | ⟨-, done⟩
    · exact ⟨now, by rw [host, refused]; exact present, same⟩
    · obtain ⟨kept, member, eq, -⟩ := commit_keeps (P := fun _ => True) done present trivial
        fun _ _ _ _ _ => trivial
      exact ⟨kept, member, eq.trans same⟩
  · have other : ∀ writes, r ≠ .saveChanges writes := fun writes eq => commits ⟨writes, eq⟩
    exact ⟨now, by rw [host, documents_of_other other]; exact present, same⟩

/-! ## Sessions -/

/-- **Accepted documents are final.** In every session of the engine's
operations, whatever DGII answers and wherever an operation dies: a row that is
accepted before one of them is still there, as it was, at the end (and at every
point between, each beginning of a session being one); a row's eNCF changes only
in a submission that starts with the row rejected; and a submission, whatever
its EditSequence, leaves a row that is Signed, SentToDgii or accepted as it is. -/
theorem accepted_documents_are_final (ext : Externals) (services : Services) {w₀ w : World}
    {past : List (Episode Operation Api Unit World)}
    (session : Session (host ext) (program ext services) w₀ past w) :
    (∀ e ∈ past, ∀ row ∈ e.before.documents.rows, row.state = "AcceptedByDgii" →
      row ∈ w.documents.rows) ∧
    (∀ e ∈ past, ∀ row ∈ e.before.documents.rows,
      ∃ row' ∈ e.run.world.documents.rows, row'.id = row.id ∧
        (row'.eNcf = row.eNcf ∨
          (∃ req, e.operation = .submit req) ∧ row.state = "RejectedByDgii")) ∧
    ∀ e ∈ past, ∀ req, e.operation = .submit req → ∀ row ∈ e.before.documents.rows,
      row.state ∈ ["Signed", "SentToDgii", "AcceptedByDgii"] →
      row ∈ e.run.world.documents.rows := by
  induction session with
  | start => simp
  | @operate past w op inputs before ih =>
    obtain ⟨final, numbers, kept⟩ := ih
    have run : ∀ row ∈ w.documents.rows, Leaves op row.state →
        row ∈ ((host ext).run inputs w [] (program ext services op)).world.documents.rows :=
      fun row => run_leaves op inputs
    refine ⟨?_, ?_, ?_⟩
    · intro e member row present accepted
      have now : row ∈ w.documents.rows := by
        rcases List.mem_append.mp member with old | last
        · exact final e old row present accepted
        · obtain rfl := List.mem_singleton.mp last
          exact present
      exact run row now (accepted ▸ leaves_accepted op)
    · intro e member row present
      rcases List.mem_append.mp member with old | last
      · exact numbers e old row present
      · obtain rfl := List.mem_singleton.mp last
        by_cases reissues : Reissues op row.state
        · obtain ⟨row', present', same⟩ := run_persists op inputs present
          exact ⟨row', present', same, .inr reissues⟩
        · obtain ⟨row', present', same, number⟩ := run_numbers op inputs present reissues
          exact ⟨row', present', same, .inl number⟩
    · rintro e member req submits row present state
      rcases List.mem_append.mp member with old | last
      · exact kept e old req submits row present state
      · obtain rfl := List.mem_singleton.mp last
        refine run row present ?_
        obtain rfl : op = .submit req := submits
        simp only [List.mem_cons, List.not_mem_nil, or_false] at state
        rcases state with state | state | state <;>
          simp [Leaves, openStates, neverTransmittedStates, state]

/-- A document sent and found accepted in a poll. -/
def acceptedWorld : World :=
  (alone (.getBySourceTxnId { txnId := "TXN-1" }) "Aceptado"
    (alone (.submit sampleRequest) "trackId" sampleWorld).world).world

/-- The same document submitted again, modified. -/
def editedRequest : SubmitRequest :=
  { body := .document { sampleDocument with
      sourceReference := { txnId := "TXN-1", editSequence := "2" } } }

/-- The accepted document is still there after the resubmission. -/
theorem accepted_documents_are_final_sample :
    acceptedWorld.documents.rows.map (·.state) = ["AcceptedByDgii"] ∧
    ∀ row ∈ acceptedWorld.documents.rows, row.state = "AcceptedByDgii" →
      row ∈ (alone (.submit editedRequest) "" acceptedWorld).world.documents.rows :=
  ⟨by decide +kernel, fun row member accepted =>
    (accepted_documents_are_final sampleExternals sampleServices
      (Session.operate (Operation.submit editedRequest) (fun _ => some (answering "")) .start)).1
      _ (List.mem_singleton_self _) row member accepted⟩

end EcfDgii.FinalDocuments
