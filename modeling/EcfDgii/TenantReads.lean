import EcfDgii.DocumentInvariants

/-!
Tenant isolation of the document reads.

A reader of a tenant is answered with a refusal or with a document it has
picked: by a TxnId of its own tenant, or by another identifier and then only
when the row is its tenant's.  Polling writes that document and no other.
`TenantAsks` states this as permissions, and every read endpoint keeps to them.

What is left is about the table: a row keeps its id and its tenant whatever the
other operations do meanwhile, so the row written is still of the reader's
tenant when it is written.
-/

set_option autoImplicit false

namespace EcfDgii.TenantReads

open EcfDgii.Documents EcfDgii.DgiiReplies EcfDgii.Tables EcfDgii.Programs EcfDgii.Execution
open EcfDgii.Engine EcfDgii.Transmission EcfDgii.Submission EcfDgii.StatusPolling EcfDgii.Traces
open EcfDgii.SubmissionTrace EcfDgii.TransportTrace EcfDgii.StatusTrace EcfDgii.DocumentInvariants

variable {ext : Externals} {services : Services} {op : Operation} {req : ReadRequest} {T : String}
  {log : Log} {w : World} {r : Request} {input : Input}

/-! ## Readers -/

/-- The request of a document read. -/
def readRequest : Operation → Option ReadRequest
  | .getBySourceTxnId req => some req
  | .reconcileBySourceTxnId req => some req
  | .getXmlBySourceTxnId req => some req
  | .getById req => some req
  | .getXmlById req => some req
  | _ => none

/-- A reader of one tenant: neither worker nor SuperAdmin, with the tenant its
filter has set.  The filters set `default-tenant` for an empty claim. -/
structure BelongsTo (req : ReadRequest) (T : String) : Prop where
  unprivileged : req.privileged = false
  claim : req.tenantId.getD "default-tenant" = T
  named : T ≠ ""

/-- The tenant a reader reads is its own. -/
theorem BelongsTo.tenant (h : BelongsTo req T) (blankIsDefault : Bool) :
    req.tenant blankIsDefault = T := by
  simp [ReadRequest.tenant, h.unprivileged, h.claim, h.named]

/-- What an answer shows of a document: its fields, or its signed XML. -/
inductive Shows : HttpResponse → EcfDocument → Prop
  | fields (d : EcfDocument) : Shows (json (documentFields d) 200) d
  | reconciled (d : EcfDocument) :
      Shows (json (documentFields d ++ [("reconciled", .bool true)]) 200) d
  | xml {d : EcfDocument} {signedXml : String} (stored : d.signedXmlContent = some signedXml) :
      Shows (xmlResponse d signedXml) d

/-- A row the operation was answered with as one of the tenant's. -/
inductive Own (T : String) (log : Log) (row : EcfDocumentRow) : Prop
  | bySource {txnId : String} {ambiente : Option String}
      (answer : (⟨.documentBySourceTxnId T txnId ambiente,
        (.ok (some row) : Except String (Option EcfDocumentRow))⟩ : Event Api) ∈ log) :
      Own T log row
  | named (read : Read log row) (tenant : row.tenantId = T) : Own T log row

theorem Own.read {row : EcfDocumentRow} (h : Own T log row) : Read log row := by
  cases h with
  | bySource answer => exact ⟨_, answer, List.mem_singleton_self row⟩
  | named read _ => exact read

theorem Own.mono {row : EcfDocumentRow} {b : Log} (h : Own T log row) (longer : log <+: b) :
    Own T b row := by
  cases h with
  | bySource answer => exact .bySource (longer.subset answer)
  | named read tenant => exact .named (read.mono fun _ member => longer.subset member) tenant

/-- A row a reader picks is one of its tenant's. -/
theorem BelongsTo.own (h : BelongsTo req T) {row : EcfDocumentRow} (picked : Picked req T log row) :
    Own T log row := by
  cases picked with
  | bySource answer => exact .bySource answer
  | visible read shown =>
    simp only [visible, h.unprivileged, Bool.false_or, Bool.and_eq_true, decide_eq_true_eq]
      at shown
    exact .named read shown.1

/-! ## Permissions of a reader -/

/-- What a reader of a tenant may ask. -/
inductive TenantAsks (T : String) (log : Log) : Request → Prop
  | outside {r : Request} (h : Outside r) (silent : ∀ response, r ≠ .respond response) :
      TenantAsks T log r
  | lookup {r : Request} (h : Lookup r) : TenantAsks T log r
  | refuse {message : String} {statusCode : ℕ} : TenantAsks T log (.respond (err message statusCode))
  | answer {row : EcfDocumentRow} {d : EcfDocument} {response : HttpResponse} (own : Own T log row)
      (only : OnlyStatus row.toEcfDocument d) (shows : Shows response d) :
      TenantAsks T log (.respond response)
  | save {row : EcfDocumentRow} {d : EcfDocument} {time : ℕ} (own : Own T log row)
      (only : OnlyStatus row.toEcfDocument d) : TenantAsks T log (.saveChanges [.update d time])

/-- A procedure of a reader. -/
def ReadsIn {α : Type} (T : String) (log : Log) (p : Procedure α) : Prop :=
  p.Follows (.logging (TenantAsks T)) (fun _ _ => True) (fun _ _ => True) log

theorem refuse_readsIn (message : String) (statusCode : ℕ) :
    ReadsIn T log (respond (err message statusCode)) :=
  ask_follows (.respond (err message statusCode)) .refuse fun _ => trivial

theorem answer_readsIn {row : EcfDocumentRow} {d : EcfDocument} {response : HttpResponse}
    (own : Own T log row) (only : OnlyStatus row.toEcfDocument d) (shows : Shows response d) :
    ReadsIn T log (respond response) :=
  ask_follows (.respond response) (.answer own only shows) fun _ => trivial

/-- What polling writes differs from the row in the status fields alone. -/
theorem PollWrite.only {row : EcfDocumentRow} {d : EcfDocument} (h : PollWrite ext log row d) :
    OnlyStatus row.toEcfDocument d := by
  cases h with
  | resultado _ _ verdict =>
    unfold OnlyStatus
    rw [(afterResultado_some verdict).1]
  | estado =>
    unfold OnlyStatus
    rw [reconciled_only]

theorem OnlyStatus.refl (d : EcfDocument) : OnlyStatus d d := rfl

theorem tenantAsks_outside : AllowsOutside (TenantAsks T) := fun _ _ h silent => .outside h silent

/-! ## The endpoints -/

theorem getBySourceTxnId_readsIn (belongs : BelongsTo req T) :
    ReadsIn T [] (StatusPolling.getBySourceTxnId ext services req) := by
  unfold StatusPolling.getBySourceTxnId
  rw [belongs.tenant]
  refine Program.Follows.tryCatch (M := fun _ _ => True) ?_ fun b what _ => refuse_readsIn _ _
  refine (findDocument_follows (fun _ _ h => TenantAsks.lookup h) req T).bind ?_
  rintro a (_ | row) ⟨-, picked⟩
  · exact refuse_readsIn _ _
  · have own := belongs.own (picked row rfl)
    refine .ite (fun _ => refuse_readsIn _ _) fun _ => ?_
    refine ((refreshed_follows tenantAsks_outside own.read fun b d time quiet _ write => ?_).mono
      (fun _ _ h => h) fun _ _ h => h.elim).bind ?_
    · exact .save (own.mono quiet.longer) (PollWrite.only write)
    · rintro b shown ⟨longer, same | write⟩
      · subst same
        exact answer_readsIn (own.mono longer) (OnlyStatus.refl _) (.fields row.toEcfDocument)
      · exact answer_readsIn (own.mono longer) (PollWrite.only write) (.fields shown)

theorem reconcileBySourceTxnId_readsIn (belongs : BelongsTo req T) :
    ReadsIn T [] (reconcileBySourceTxnId req) := by
  unfold reconcileBySourceTxnId
  rw [belongs.tenant]
  refine Program.Follows.tryCatch (M := fun _ _ => True) ?_ fun b what _ => refuse_readsIn _ _
  refine (findDocument_follows (fun _ _ h => TenantAsks.lookup h) req T).bind ?_
  rintro a (_ | row) ⟨-, picked⟩
  · exact refuse_readsIn _ _
  · exact answer_readsIn (belongs.own (picked row rfl)) (OnlyStatus.refl _) (.reconciled _)

theorem getXmlBySourceTxnId_readsIn (belongs : BelongsTo req T) :
    ReadsIn T [] (getXmlBySourceTxnId req) := by
  unfold getXmlBySourceTxnId
  rw [belongs.tenant]
  refine Program.Follows.tryCatch (M := fun _ _ => True) ?_ fun b what _ => refuse_readsIn _ _
  refine (findDocument_follows (fun _ _ h => TenantAsks.lookup h) req T).bind ?_
  rintro a (_ | row) ⟨-, picked⟩
  · exact refuse_readsIn _ _
  · dsimp only
    split
    · exact refuse_readsIn _ _
    · next xml stored =>
      refine .ite (fun _ => refuse_readsIn _ _) fun _ => ?_
      exact answer_readsIn (belongs.own (picked row rfl)) (OnlyStatus.refl _) (.xml stored)

/-- A read by id compares the row's tenant itself. -/
theorem own_of_id {id : String} {row : EcfDocumentRow} {blankIsDefault : Bool}
    (belongs : BelongsTo req T)
    (passed : ¬ (!req.privileged && decide (row.tenantId ≠ req.tenant blankIsDefault)) = true) :
    Own T (log ++ [⟨.documentById id,
      (.ok (some row) : Except String (Option EcfDocumentRow))⟩]) row := by
  refine .named (.last (List.mem_singleton_self row)) ?_
  simpa [belongs.unprivileged, belongs.tenant] using passed

theorem getById_readsIn (belongs : BelongsTo req T) : ReadsIn T [] (getById req) := by
  unfold getById
  refine .ite (fun _ => refuse_readsIn _ _) fun _ => ?_
  refine Program.Follows.tryCatch (M := fun _ _ => True) ?_ fun b what _ => refuse_readsIn _ _
  refine ask_bind_follows (.documentById _) (.lookup trivial)
    fun (x : Except String (Option EcfDocumentRow)) => ?_
  refine (Program.follows_raise_bind _ _).mpr ⟨?_, fun _ _ => trivial⟩
  rintro (_ | row) rfl
  · exact refuse_readsIn _ _
  · refine .ite (fun _ => refuse_readsIn _ _) fun passed => ?_
    exact answer_readsIn (own_of_id belongs passed) (OnlyStatus.refl _) (.fields _)

theorem getXmlById_readsIn (belongs : BelongsTo req T) : ReadsIn T [] (getXmlById req) := by
  unfold getXmlById
  refine .ite (fun _ => refuse_readsIn _ _) fun _ => ?_
  refine Program.Follows.tryCatch (M := fun _ _ => True) ?_ fun b what _ => refuse_readsIn _ _
  refine ask_bind_follows (.documentById _) (.lookup trivial)
    fun (x : Except String (Option EcfDocumentRow)) => ?_
  refine (Program.follows_raise_bind _ _).mpr ⟨?_, fun _ _ => trivial⟩
  rintro (_ | row) rfl
  · exact refuse_readsIn _ _
  · refine .ite (fun _ => refuse_readsIn _ _) fun passed => ?_
    split
    · exact refuse_readsIn _ _
    · next xml stored =>
      refine .ite (fun _ => refuse_readsIn _ _) fun _ => ?_
      exact answer_readsIn (own_of_id belongs passed) (OnlyStatus.refl _) (.xml stored)

/-- What every operation may ask, a reader within its tenant. -/
def AsksInTenant (ext : Externals) (services : Services) (op : Operation) (log : Log)
    (r : Request) : Prop :=
  Asks ext services op log r ∧
    ∀ req T, readRequest op = some req → BelongsTo req T → TenantAsks T log r

/-- **Readers stay in their tenant.** -/
theorem program_inTenant (ext : Externals) (services : Services) (op : Operation) :
    (program ext services op).Follows (.logging (AsksInTenant ext services op)) (fun _ _ => True)
      (fun _ _ => True) [] := by
  have keeps := program_follows ext services op
  by_cases reader : ∃ req T, readRequest op = some req ∧ BelongsTo req T
  · obtain ⟨req, T, reads, belongs⟩ := reader
    have inTenant : ReadsIn T [] (program ext services op) := by
      cases op with
      | getBySourceTxnId _ => cases reads; exact getBySourceTxnId_readsIn belongs
      | reconcileBySourceTxnId _ => cases reads; exact reconcileBySourceTxnId_readsIn belongs
      | getXmlBySourceTxnId _ => cases reads; exact getXmlBySourceTxnId_readsIn belongs
      | getById _ => cases reads; exact getById_readsIn belongs
      | getXmlById _ => cases reads; exact getXmlById_readsIn belongs
      | _ => cases reads
    refine keeps.and inTenant (fun b r asks tenant => ⟨asks, ?_⟩) fun _ _ _ _ h => ⟨h, h⟩
    intro req' T' reads' belongs'
    obtain rfl : req = req' := Option.some.inj (reads.symm.trans reads')
    rwa [← belongs'.claim, belongs.claim]
  · refine keeps.and keeps (fun b r asks _ => ⟨asks, ?_⟩) fun _ _ _ _ h => ⟨h, h⟩
    exact fun req T reads belongs => absurd ⟨req, T, reads, belongs⟩ reader

/-! ## Rows keep their tenant -/

/-- The table has a row with an id, of a tenant. -/
def Owned (table : DocumentTable) (id tenantId : String) : Prop :=
  ∃ row ∈ table.rows, row.id = id ∧ row.tenantId = tenantId

/-- An id has one owner. -/
theorem Owned.unique {table : DocumentTable} {id a b : String} (h : Owned table id a)
    (k : Owned table id b) : a = b := by
  obtain ⟨row, member, same, rfl⟩ := h
  obtain ⟨row', member', same', rfl⟩ := k
  rw [DocumentTable.eq_of_id member member' (same.trans same'.symm)]

/-- Updates of rows that leave the tenant keep the owners. -/
theorem Owned.commit {table next : DocumentTable} {writes : List Write} {id : String}
    (h : Owned table id T) (done : commit table writes = .ok next)
    (kept : ∀ d time, .update d time ∈ writes → Owned table d.id d.tenantId) :
    Owned next id T := by
  obtain ⟨row, member, rfl, tenant⟩ := h
  have owned : Owned table row.id T := ⟨row, member, rfl, tenant⟩
  refine commit_keeps (P := fun row => row.tenantId = T) done member tenant ?_
  intro old d time among same
  have updates := kept d time among
  rw [same] at updates
  exact updates.unique owned

/-- The status fields leave the id and the tenant. -/
theorem OnlyStatus.owner {d d' : EcfDocument} (h : OnlyStatus d d') :
    d.id = d'.id ∧ d.tenantId = d'.tenantId :=
  ⟨h.content.id.symm, ((congrArg EcfDocument.tenantId h).trans rfl).symm⟩

/-- An update is of a document the operation has read, or committed last. -/
theorem owner_of_write {writes : List Write} {write : Write}
    (h : EngineWrite ext services op log writes write) {d : EcfDocument} {time : ℕ}
    (update : write = .update d time) :
    (∃ row, Read log row ∧ row.id = write.doc.id ∧ row.tenantId = write.doc.tenantId) ∨
      ∃ d', (progress log).written = some d' ∧ d'.id = write.doc.id ∧
        d'.tenantId = write.doc.tenantId := by
  cases h with
  | submit _ h =>
    cases h with
    | create => cases update
    | refresh found => exact .inl ⟨_, read_of_found found, rfl, rfl⟩
    | reissue found => exact .inl ⟨_, read_of_found found, rfl, rfl⟩
    | @reconcile row d' answer _ found _ _ only =>
      obtain ⟨id, tenant⟩ := OnlyStatus.owner only
      dsimp only [Write.doc]
      rw [reconciled_only]
      exact .inl ⟨row, read_of_found found, id, tenant⟩
    | signingFailed written => exact .inr ⟨_, written, rfl, rfl⟩
    | schemaInvalid written => exact .inr ⟨_, written, rfl, rfl⟩
    | unsigned written => exact .inr ⟨_, written, rfl, rfl⟩
    | awaiting written => exact .inr ⟨_, written, rfl, rfl⟩
    | outcome written _ outcome => exact .inr ⟨_, written, OnlyStatus.owner outcome.only⟩
  | poll _ read _ h => exact .inl ⟨_, read, OnlyStatus.owner (PollWrite.only h)⟩
  | status _ read _ _ only =>
    dsimp only [Write.doc]
    exact .inl ⟨_, read, by rw [only], by rw [only]⟩
  | reconcile due h =>
    have tenant := (congrArg EcfDocument.tenantId h.only).trans rfl
    exact .inl ⟨_, due.read, h.id.symm, tenant.symm⟩

/-- What an operation knows of the table: the owners of what it has read and
committed, and that a lookup by tenant shows the tenant's. -/
structure Knows (log : Log) (table : DocumentTable) : Prop where
  read : ∀ row, Read log row → Owned table row.id row.tenantId
  written : ∀ d, (progress log).written = some d → Owned table d.id d.tenantId
  sourced : ∀ tenantId txnId ambiente row,
    (⟨.documentBySourceTxnId tenantId txnId ambiente,
      (.ok (some row) : Except String (Option EcfDocumentRow))⟩ : Event Api) ∈ log →
    row.tenantId = tenantId

theorem knows_nil (table : DocumentTable) : Knows [] table where
  read _ read := absurd read.choose_spec.1 List.not_mem_nil
  written _ written := nomatch written
  sourced _ _ _ _ member := absurd member List.not_mem_nil

/-- A row of the tenant's is in the table as the tenant's. -/
theorem Own.tenant {row : EcfDocumentRow} {table : DocumentTable} (own : Own T log row)
    (knows : Knows log table) : row.tenantId = T := by
  cases own with
  | bySource answer => exact knows.sourced _ _ _ _ answer
  | named _ tenant => exact tenant

/-- What a permitted commit updates is owned as the operation writes it. -/
theorem Knows.updates {table : DocumentTable} (knows : Knows log table) {writes : List Write}
    (permitted : Asks ext services op log (.saveChanges writes)) (d : EcfDocument) (time : ℕ)
    (member : .update d time ∈ writes) : Owned table d.id d.tenantId := by
  change Owned table (Write.update d time).doc.id (Write.update d time).doc.tenantId
  rcases owner_of_write (engineWrite_of_asks permitted _ member) rfl with
    ⟨row, read, id, tenant⟩ | ⟨d', written, id, tenant⟩
  · rw [← id, ← tenant]
    exact knows.read row read
  · rw [← id, ← tenant]
    exact knows.written d' written

/-- Owners last, whatever is asked. -/
theorem Owned.answer {id : String} (h : Owned w.documents id T)
    (permitted : Asks ext services op log r) (knows : Knows log w.documents) :
    Owned (answerAt ext input w r).2.documents id T := by
  by_cases commits : ∃ writes, r = .saveChanges writes
  · obtain ⟨writes, rfl⟩ := commits
    rcases answer_saveChanges ext input w writes with ⟨-, same⟩ | ⟨-, done⟩
    · rwa [same]
    · exact h.commit done (knows.updates permitted)
  · rwa [documents_of_other fun writes same => commits ⟨writes, same⟩]

/-- A document just committed is owned. -/
theorem owned_of_committed {writes : List Write} {next : DocumentTable} {write : Write}
    (done : commit w.documents writes = .ok next) (knows : Knows log w.documents)
    (permitted : Asks ext services op log (.saveChanges writes)) (member : write ∈ writes) :
    Owned next write.doc.id write.doc.tenantId := by
  cases write with
  | update d time => exact (knows.updates permitted d time member).commit done (knows.updates permitted)
  | insert d time =>
    have alone : writes = [.insert d time] := by
      cases engineWrite_of_asks permitted _ member with
      | submit => rfl
    subst alone
    have rows : next.rows = w.documents.rows ++ [inserted d time] := commit_rows done
    exact ⟨inserted d time, by simp [rows], rfl, rfl⟩

/-- The operation that asked knows the table after the answer. -/
theorem Knows.answer (knows : Knows log w.documents) (permitted : Asks ext services op log r) :
    Knows (log ++ [⟨r, (answerAt ext input w r).1⟩]) (answerAt ext input w r).2.documents where
  read row read := by
    rcases read_append.mp read with old | new
    · exact (knows.read row old).answer permitted knows
    · exact Owned.answer ⟨row, revealed_mem new, rfl, rfl⟩ permitted knows
  written d written := by
    rw [progress_append] at written
    by_cases commits : ∃ writes, r = .saveChanges writes
    · obtain ⟨writes, rfl⟩ := commits
      rcases after_saveChanges written with old | ⟨ok, write, member, rfl⟩
      · exact (knows.written d old).answer permitted knows
      · rcases answer_saveChanges ext input w writes with ⟨⟨e, failed⟩, -⟩ | ⟨-, done⟩
        · exact nomatch failed.symm.trans ok
        · exact owned_of_committed done knows permitted member
    · rw [after_written fun writes same => commits ⟨writes, same⟩] at written
      exact (knows.written d written).answer permitted knows
  sourced tenantId txnId ambiente row member := by
    rcases List.mem_append.mp member with old | new
    · exact knows.sourced _ _ _ _ old
    · have same := List.mem_singleton.mp new
      obtain rfl : Request.documentBySourceTxnId tenantId txnId ambiente = r :=
        congrArg Event.request same
      have shown : row ∈ answered (answerAt ext input w
          (.documentBySourceTxnId tenantId txnId ambiente)).1 := by
        rw [← eq_of_heq (Event.mk.inj same).2]
        exact List.mem_singleton_self row
      obtain ⟨-, matched⟩ := getBySourceTxnId_mem (answered_database shown)
      simp only [matchesSource, Bool.and_eq_true, decide_eq_true_eq] at matched
      exact matched.1.1

/-! ## Schedules -/

/-- What every thread knows of the table, and that it was allowed what it asked. -/
def ThreadKnows (ext : Externals) (services : Services) (_ : ℕ)
    (th : Thread Operation Api Unit) (w : World) (_ : History) : Prop :=
  Knows th.log w.documents ∧
    Along (fun before e => AsksInTenant ext services th.operation before e.request) th.log

theorem tenancy_step : Pool.StepKeeps (host ext) (AsksInTenant ext services) (fun _ _ => True)
    (ThreadKnows ext services) (fun _ _ => True) := by
  intro p t r' i next sound running _ permitted
  obtain ⟨knows, asked⟩ := sound.threads t
  refine ⟨trivial, ⟨Knows.answer knows permitted.1, asked.append permitted⟩, fun t' _ => ?_⟩
  obtain ⟨others, asked'⟩ := sound.threads t'
  refine ⟨⟨fun row read => ?_, fun d written => ?_, others.sourced⟩, asked'⟩
  · exact Owned.answer (others.read row read) permitted.1 knows
  · exact Owned.answer (others.written d written) permitted.1 knows

theorem tenancy_play (ext : Externals) (services : Services) (operations : ℕ → Operation)
    (w : World) (moves : List (Move Input)) :
    ((engine ext services operations w).play (host ext) moves).Sound (AsksInTenant ext services)
      (fun _ _ => True) (ThreadKnows ext services) :=
  Pool.Sound.play tenancy_step (fun _ _ _ _ kept => kept)
    (Pool.Sound.start (program_inTenant ext services) trivial
      fun _ => ⟨knows_nil _, along_nil _⟩) (Pool.meets_true _ moves)

/-- An answer to a reader: a refusal, or a document the reader has read, with
the state DGII reports, that is its tenant's in the table. -/
def AnswersIn (T : String) (log : Log) (table : DocumentTable) (response : HttpResponse) : Prop :=
  (∃ message statusCode, response = err message statusCode) ∨
    ∃ (row : EcfDocumentRow) (d : EcfDocument), Shows response d ∧ Read log row ∧
      row.tenantId = T ∧ OnlyStatus row.toEcfDocument d ∧ Owned table d.id T

/-- The rows that differ between two tables are the tenant's, before and after. -/
structure ChangesIn (T : String) (table next : DocumentTable) : Prop where
  others : ∀ row ∈ table.rows, row.tenantId ≠ T → row ∈ next.rows
  own : ∀ row ∈ next.rows, row ∈ table.rows ∨ row.tenantId = T

theorem ChangesIn.refl (table : DocumentTable) : ChangesIn T table table :=
  ⟨fun _ member _ => member, fun _ member => .inl member⟩

/-- An update of an owned document changes the owner's rows. -/
theorem changesIn_of_update {table next : DocumentTable} {d : EcfDocument} {time : ℕ}
    (done : commit table [.update d time] = .ok next) (owned : Owned table d.id T)
    (tenant : d.tenantId = T) : ChangesIn T table next := by
  refine ⟨fun row member foreign => ?_, fun row member => ?_⟩
  · have other : row.id ≠ d.id := fun same =>
      foreign (Owned.unique ⟨row, member, same, rfl⟩ owned)
    have rows : next.rows = Write.apply table.rows (.update d time) := commit_rows done
    rw [rows]
    exact List.mem_map.mpr ⟨row, member, if_neg other⟩
  · rcases mem_commit done member with old | ⟨write, among, wrote⟩
    · exact .inl old
    · obtain rfl := List.mem_singleton.mp among
      exact .inr ((congrArg EcfDocument.tenantId wrote.doc).trans tenant)

/-- One answer to a reader changes its tenant's rows. -/
theorem changesIn_of_asks (permitted : Asks ext services op log r)
    (inTenant : TenantAsks T log r) (knows : Knows log w.documents) :
    ChangesIn T w.documents (answerAt ext input w r).2.documents := by
  by_cases commits : ∃ writes, r = .saveChanges writes
  · obtain ⟨writes, rfl⟩ := commits
    rcases answer_saveChanges ext input w writes with ⟨-, same⟩ | ⟨-, done⟩
    · rw [same]
      exact .refl _
    · cases inTenant with
      | outside h => exact h.elim
      | lookup h => exact h.elim
      | @save row d time own only =>
        have tenant : d.tenantId = T := (OnlyStatus.owner only).2.symm.trans (own.tenant knows)
        refine changesIn_of_update done ?_ tenant
        exact tenant ▸ knows.updates permitted d time (List.mem_singleton_self _)
  · rw [documents_of_other fun writes same => commits ⟨writes, same⟩]
    exact .refl _

/-- **Document reads stay in the tenant.** On every schedule of the engine's
operations, from every store: every answer to a reader of a tenant is a refusal
or shows a document of the tenant, and no step of the reader touches a row of
another. -/
theorem reads_stay_in_tenant (ext : Externals) (services : Services) (operations : ℕ → Operation)
    (w : World) (moves : List (Move Input)) (t : ℕ) (req : ReadRequest) (T : String)
    (reads : readRequest (operations t) = some req) (belongs : BelongsTo req T) :
    let p := (engine ext services operations w).play (host ext) moves
    (∀ response, (⟨.respond response, ()⟩ : Event Api) ∈ (p.thread t).log →
      AnswersIn T (p.thread t).log p.world.documents response) ∧
    ∀ input, ChangesIn T p.world.documents
      (p.move (host ext) (.step t input)).world.documents := by
  intro p
  have sound := tenancy_play ext services operations w moves
  have operation : (p.thread t).operation = operations t := Pool.operation_play t moves
  rw [← operation] at reads
  obtain ⟨knows, asked⟩ := sound.threads t
  refine ⟨fun response member => ?_, fun input => ?_⟩
  · obtain ⟨before, cut, -, inTenant⟩ := asked.of_mem member
    have earlier : before <+: (p.thread t).log := (List.prefix_append before _).trans cut
    cases inTenant req T reads belongs with
    | outside h silent => exact absurd rfl (silent response)
    | lookup h => exact h.elim
    | refuse => exact .inl ⟨_, _, rfl⟩
    | @answer row d _ own only shows =>
      have own := own.mono earlier
      have owned := knows.read row own.read
      rw [own.tenant knows, (OnlyStatus.owner only).1] at owned
      exact .inr ⟨row, d, shows, own.read, own.tenant knows, only, owned⟩
  · by_cases running : (p.thread t).Running
    · obtain ⟨r, next, running⟩ := running
      have permitted := sound.follows t
      rw [running, follows_logging_ask] at permitted
      rw [Pool.move_step running]
      exact changesIn_of_asks (w := { p.world with clock := p.world.clock + input.elapsed })
        permitted.1.1 (permitted.1.2 req T reads belongs) knows
    · rw [Pool.move_idle running]
      exact .refl _

/-- A submission, then a reader of its tenant who names the document's eNCF. -/
def submitThenRead : ℕ → Operation
  | 0 => .submit sampleRequest
  | _ => .getXmlBySourceTxnId { tenantId := some "default-tenant", txnId := "E310000000001" }

/-- The reader downloads the document, and touches nothing. -/
theorem reads_stay_in_tenant_sample :
    let p := (engine sampleExternals sampleServices submitThenRead sampleWorld).play
      (host sampleExternals) (steps 0 18 "trackId" ++ steps 1 4 "")
    ((p.thread 1).log.filterMap fun e => match e with
      | ⟨.respond response, _⟩ => some response.statusCode
      | _ => none) = [200] ∧
    (∀ response, (⟨.respond response, ()⟩ : Event Api) ∈ (p.thread 1).log →
      AnswersIn "default-tenant" (p.thread 1).log p.world.documents response) ∧
    ∀ input, ChangesIn "default-tenant" p.world.documents
      (p.move (host sampleExternals) (.step 1 input)).world.documents := by
  refine ⟨by decide +kernel, reads_stay_in_tenant sampleExternals sampleServices submitThenRead
    sampleWorld _ 1 _ _ rfl ⟨by decide, rfl, by decide⟩⟩

end EcfDgii.TenantReads
