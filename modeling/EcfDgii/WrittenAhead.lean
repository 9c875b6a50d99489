import EcfDgii.DocumentInvariants

/-!
What the table keeps, and what is transmitted.

Every write of the engine is the whole row, computed from a version that may be
old by the time it is committed.  Two things survive this.  First, identities: a
thread only writes versions of rows that are in the table, so a row never
disappears and never changes its tenant, its source transaction or its ambiente
(`Lasting`).  Second, the order of transmission: whatever goes out to DGII is the
content of a row that the same operation has just committed as awaiting it, under
a number that was issued or was there before the first operation
(`CommittedFirst`).  So no operation that dies leaves DGII with a document the table
does not know.
-/

set_option autoImplicit false

namespace EcfDgii.WrittenAhead

open EcfDgii.Timestamps EcfDgii.Documents EcfDgii.Tables EcfDgii.Programs EcfDgii.Execution
open EcfDgii.Engine EcfDgii.Transport EcfDgii.CanonicalXml EcfDgii.Transmission
open EcfDgii.Submission EcfDgii.Traces EcfDgii.SubmissionTrace EcfDgii.StatusTrace
open EcfDgii.DocumentInvariants

variable {ext : Externals} {services : Services} {op : Operation} {log : Log} {w : World}
  {r : Request} {input : Input} {table next : DocumentTable} {writes : List Write} {write : Write}

/-! ## Identities -/

/-- What no operation changes of a document. -/
def identity (d : EcfDocument) : String × String × String × Option String :=
  (d.id, d.tenantId, d.sourceTxnId, d.ambiente)

theorem OnlyStatus.identity {d d' : EcfDocument} (h : OnlyStatus d d') :
    identity d' = identity d := by
  unfold OnlyStatus at h
  rw [h]
  rfl

theorem reconciled_identity (d : EcfDocument) (estado : String) :
    identity (reconciled d estado) = identity d := by
  have only := reconciled_only d estado
  have tenant : (reconciled d estado).tenantId = d.tenantId :=
    (congrArg EcfDocument.tenantId only).trans rfl
  have source : (reconciled d estado).sourceTxnId = d.sourceTxnId :=
    (congrArg EcfDocument.sourceTxnId only).trans rfl
  have ambiente : (reconciled d estado).ambiente = d.ambiente :=
    (congrArg EcfDocument.ambiente only).trans rfl
  rw [identity, identity, (reconciled_content d estado).id, tenant, source, ambiente]

/-- A row as a later version of another. -/
structure Continues (row later : EcfDocumentRow) : Prop where
  identity : identity later.toEcfDocument = identity row.toEcfDocument
  createdAt : later.createdAt = row.createdAt
  isDeleted : later.isDeleted = row.isDeleted

theorem Continues.refl (row : EcfDocumentRow) : Continues row row := ⟨rfl, rfl, rfl⟩

theorem Continues.trans {a b c : EcfDocumentRow} (h : Continues a b) (k : Continues b c) :
    Continues a c :=
  ⟨k.identity.trans h.identity, k.createdAt.trans h.createdAt, k.isDeleted.trans h.isDeleted⟩

/-- Every row of a table is still in another, perhaps in a later version. -/
def Lasting (table next : DocumentTable) : Prop :=
  ∀ row ∈ table.rows, ∃ later ∈ next.rows, Continues row later

theorem Lasting.refl (table : DocumentTable) : Lasting table table :=
  fun row member => ⟨row, member, .refl row⟩

theorem Lasting.trans {last : DocumentTable} (h : Lasting table next) (k : Lasting next last) :
    Lasting table last := by
  intro row member
  obtain ⟨middle, member, first⟩ := h row member
  obtain ⟨later, member, second⟩ := k middle member
  exact ⟨later, member, first.trans second⟩

/-- A table has a row of the identity of a document. -/
def Has (table : DocumentTable) (d : EcfDocument) : Prop :=
  ∃ row ∈ table.rows, identity row.toEcfDocument = identity d

theorem Has.later {d : EcfDocument} (h : Has table d) (lasting : Lasting table next) :
    Has next d := by
  obtain ⟨row, member, same⟩ := h
  obtain ⟨later, member, continues⟩ := lasting row member
  exact ⟨later, member, continues.identity.trans same⟩

/-- A statement adds a row, or updates one of the table. -/
def Known (table : DocumentTable) : Write → Prop
  | .insert _ _ => True
  | .update d _ => Has table d

theorem Known.later (h : Known table write) (lasting : Lasting table next) : Known next write := by
  cases write with
  | insert d time => trivial
  | update d time => exact Has.later h lasting

/-- **One statement** about a known row loses none, and leaves its document in
the table. -/
theorem lasting_apply (known : Known table write) (rows : next.rows = write.apply table.rows) :
    Lasting table next ∧ Has next write.doc := by
  cases write with
  | insert d time =>
    have there : ∀ row ∈ table.rows ++ [inserted d time], row ∈ next.rows := fun row member =>
      rows ▸ member
    exact ⟨fun row member => ⟨row, there row (List.mem_append_left _ member), .refl row⟩,
      inserted d time, there _ (List.mem_append_right _ (List.mem_singleton_self _)), rfl⟩
  | update d time =>
    obtain ⟨target, present, same⟩ := known
    have id : target.id = d.id := congrArg (·.1) same
    have replaced : ∀ row ∈ table.rows,
        (if row.id = d.id then updated row d time else row) ∈ next.rows := fun row member =>
      rows ▸ List.mem_map_of_mem member
    refine ⟨fun row member => ⟨_, replaced row member, ?_⟩, ?_⟩
    · by_cases here : row.id = d.id
      · rw [if_pos here]
        obtain rfl := DocumentTable.eq_of_id member present (here.trans id.symm)
        exact ⟨same.symm, rfl, rfl⟩
      · rw [if_neg here]
        exact .refl row
    · have updated := replaced target present
      rw [if_pos id] at updated
      exact ⟨_, updated, rfl⟩

/-- A transaction of such statements. -/
theorem lasting_commit (done : commit table writes = .ok next)
    (known : ∀ write ∈ writes, Known table write) :
    Lasting table next ∧ ∀ write ∈ writes, Has next write.doc := by
  induction writes generalizing table with
  | nil =>
    cases done
    exact ⟨.refl _, fun _ member => absurd member List.not_mem_nil⟩
  | cons write rest ih =>
    rw [commit] at done
    split at done
    · next middle built =>
      obtain ⟨first, wrote⟩ := lasting_apply (known write List.mem_cons_self)
        (DocumentTable.build_rows built)
      obtain ⟨second, others⟩ := ih done fun other among =>
        (known other (List.mem_cons_of_mem _ among)).later first
      refine ⟨first.trans second, fun other among => ?_⟩
      rcases List.mem_cons.mp among with rfl | later
      · exact wrote.later second
      · exact others other later
    · cases done

/-! ## What a thread knows -/

/-- A document an operation has read, or committed last. -/
inductive Knows (log : Log) : EcfDocument → Prop
  | read {row : EcfDocumentRow} (h : Read log row) : Knows log row.toEcfDocument
  | wrote {d : EcfDocument} (h : (progress log).written = some d) : Knows log d

/-- Everything an operation knows is in the table, in some version. -/
def Current (log : Log) (w : World) : Prop := ∀ d, Knows log d → Has w.documents d

theorem Current.known {d d' : EcfDocument} {time : ℕ} (current : Current log w)
    (knows : Knows log d) (same : identity d' = identity d) :
    Known w.documents (.update d' time) := by
  obtain ⟨row, member, version⟩ := current d knows
  exact ⟨row, member, version.trans same.symm⟩

/-- **What an operation writes is a new row, or a version of one it knows.** -/
theorem Current.knownWrite (current : Current log w)
    (h : EngineWrite ext services op log writes write) : Known w.documents write := by
  have found : ∀ {row d time}, (progress log).found = some row →
      identity d = identity row.toEcfDocument → Known w.documents (.update d time) :=
    fun found same => current.known (.read (read_of_found found)) same
  have last : ∀ {d d' time}, (progress log).written = some d → identity d' = identity d →
      Known w.documents (.update d' time) :=
    fun written same => current.known (.wrote written) same
  cases h with
  | submit target h =>
    cases h with
    | create => trivial
    | refresh row => exact found row rfl
    | reissue row => exact found row rfl
    | reconcile row fresh state only =>
      exact found row ((reconciled_identity _ _).trans (OnlyStatus.identity only))
    | signingFailed written => exact last written rfl
    | schemaInvalid written => exact last written rfl
    | unsigned written => exact last written rfl
    | awaiting written => exact last written rfl
    | outcome written state outcome => exact last written (OnlyStatus.identity outcome.only)
  | poll fresh read state h =>
    refine current.known (.read read) ?_
    cases h with
    | resultado queried answer verdict =>
      exact (congrArg identity (afterResultado_some verdict).1).trans rfl
    | estado untracked queried known => exact reconciled_identity _ _
  | status fresh read undecided queried only => exact current.known (.read read) (by rw [only]; rfl)
  | reconcile due h =>
    refine current.known (.read due.read) ?_
    rw [h.only]
    rfl

/-- **Step.** An answer loses no row, and what its operation knows stays in the
table. -/
theorem Current.step (ext : Externals) (input : Input) (current : Current log w)
    (permitted : Asks ext services op log r) :
    Lasting w.documents (answerAt ext input w r).2.documents ∧
      Current (log ++ [⟨r, (answerAt ext input w r).1⟩]) (answerAt ext input w r).2 := by
  have shown : ∀ {row}, row ∈ revealed ⟨r, (answerAt ext input w r).1⟩ →
      Has w.documents row.toEcfDocument := fun shown => ⟨_, revealed_mem shown, rfl⟩
  by_cases commits : ∃ writes, r = .saveChanges writes
  · obtain ⟨writes, rfl⟩ := commits
    rcases answer_saveChanges ext input w writes with ⟨⟨e, refused⟩, same⟩ | ⟨done, committed⟩
    · rw [same]
      refine ⟨.refl _, fun d knows => ?_⟩
      cases knows with
      | read h =>
        rcases read_append.mp h with old | new
        · exact current _ (.read old)
        · exact shown new
      | wrote h =>
        rw [progress_append, refused] at h
        rcases after_saveChanges h with old | ⟨impossible, -⟩
        · exact current _ (.wrote old)
        · cases impossible
    · obtain ⟨lasting, wrote⟩ := lasting_commit committed fun write among =>
        current.knownWrite (engineWrite_of_asks permitted write among)
      refine ⟨lasting, fun d knows => ?_⟩
      cases knows with
      | read h =>
        rcases read_append.mp h with old | new
        · exact (current _ (.read old)).later lasting
        · exact (shown new).later lasting
      | wrote h =>
        rw [progress_append, done] at h
        rcases after_saveChanges h with old | ⟨-, write, among, rfl⟩
        · exact (current _ (.wrote old)).later lasting
        · exact wrote write among
  · have other := fun writes same => commits ⟨writes, same⟩
    have same : (answerAt ext input w r).2.documents = w.documents := documents_of_other other
    rw [Current, same]
    refine ⟨.refl _, fun d knows => ?_⟩
    cases knows with
    | read h =>
      rcases read_append.mp h with old | new
      · exact current _ (.read old)
      · exact shown new
    | wrote h =>
      rw [progress_append, after_written other] at h
      exact current _ (.wrote h)

theorem Current.later {u : World} (current : Current log w)
    (lasting : Lasting w.documents u.documents) : Current log u :=
  fun d knows => (current d knows).later lasting

/-! ## Every schedule -/

variable {operations : ℕ → Operation} {p : EnginePool}

/-- Every thread's knowledge is in the table. -/
abbrev Informed (ext : Externals) (services : Services) (p : EnginePool) : Prop :=
  p.Sound (Asks ext services) (fun _ _ => True) fun _ th w _ => Current th.log w

theorem informed_step (ext : Externals) (services : Services) :
    Pool.StepKeeps (host ext) (Asks ext services) (fun _ _ => True)
      (fun _ (th : Thread Operation Api Unit) w _ => Current th.log w) fun _ _ => True := by
  intro p t input r next informed running _ permitted
  obtain ⟨lasting, own⟩ := Current.step
    (w := { p.world with clock := p.world.clock + input.elapsed }) ext input (informed.threads t) permitted
  exact ⟨trivial, own, fun t' _ => (informed.threads t').later lasting⟩

theorem informed_play (ext : Externals) (services : Services) (operations : ℕ → Operation)
    (w : World) (moves : List (Move Input)) :
    Informed ext services ((engine ext services operations w).play (host ext) moves) := by
  refine Pool.Sound.play (informed_step ext services) (fun _ _ _ _ current => current)
    (Pool.Sound.start (program_follows ext services) trivial fun t d knows => ?_)
    (Pool.meets_true _ moves)
  cases knows with
  | read h => exact absurd h.choose_spec.1 List.not_mem_nil
  | wrote h => cases h

/-- A move loses no row. -/
theorem lasting_move (informed : Informed ext services p) (m : Move Input) :
    Lasting p.world.documents (p.move (host ext) m).world.documents := by
  cases m with
  | kill t => exact .refl _
  | step t input =>
    by_cases running : (p.thread t).Running
    · obtain ⟨r, next, running⟩ := running
      have permitted := informed.follows t
      rw [running, follows_logging_ask] at permitted
      rw [Pool.move_step running]
      exact (Current.step (w := { p.world with clock := p.world.clock + input.elapsed }) ext input
        (informed.threads t) permitted.1).1
    · rw [Pool.move_idle running]
      exact .refl _

/-- **Rows last.** On every schedule of any operations, whatever fails or dies, a
row that is in the table at some time is there at every later one, with the same
tenant, source transaction and ambiente. -/
theorem rows_last (ext : Externals) (services : Services) (operations : ℕ → Operation) (w : World)
    (first rest : List (Move Input)) :
    Lasting ((engine ext services operations w).play (host ext) first).world.documents
      ((engine ext services operations w).play (host ext) (first ++ rest)).world.documents := by
  have informed := informed_play ext services operations w first
  rw [Pool.play_append]
  generalize (engine ext services operations w).play (host ext) first = p at informed ⊢
  induction rest generalizing p with
  | nil => exact .refl _
  | cons m rest ih =>
    have later : Informed ext services (p.move (host ext) m) := Pool.Sound.move
      (informed_step ext services) (fun _ _ _ _ current => current) m informed trivial
    exact (lasting_move informed m).trans (ih _ later)

/-! ## Numbers -/

/-- A number was issued, or was there before the first operation. -/
def Accounted (rows : List EcfDocumentRow) (history : History) (eNcf : String) : Prop :=
  (∃ row ∈ rows, row.eNcf = eNcf) ∨ ∃ t scope tipo,
    (t, ⟨.getNextEncf scope tipo, (.ok eNcf : Except String String)⟩) ∈ history

variable {rows : List EcfDocumentRow}

/-- Every document's number is accounted for. -/
theorem accounted_lawful : Lawful ext services (fun _ => True) (fun _ _ _ => True)
    fun history d => Accounted rows history d.eNcf where
  mono history e d h := h.imp id fun ⟨t, scope, tipo, issued⟩ =>
    ⟨t, scope, tipo, List.mem_append_left _ issued⟩
  writes op log history writes write obeys _ h := by
    have drawn : ∀ {t : SubmissionTarget} {eNcf}, Issued t log eNcf →
        Accounted rows history eNcf := fun issued =>
      .inr ((obeys.logged _ issued).imp fun _ member => ⟨_, _, member⟩)
    have found : ∀ {row}, (progress log).found = some row → Accounted rows history row.eNcf :=
      fun found => obeys.read _ (read_of_found found)
    have last : ∀ d, (progress log).written = some d → Accounted rows history d.eNcf :=
      fun d written => obeys.written List.prefix_rfl written
    cases h with
    | submit target h =>
      cases h with
      | create fresh uuid issued => exact drawn issued
      | refresh row => exact found row
      | reissue row fresh state issued => exact drawn issued
      | @reconcile row d answer time here fresh state only =>
        have same := only.content.trans (reconciled_content d (estadoOf ext answer))
        dsimp only [Write.doc]
        rw [same.eNcf]
        exact found here
      | @signingFailed d time written => exact last d written
      | @schemaInvalid d x c time written => exact last d written
      | @unsigned d x c time written => exact last d written
      | @awaiting d x c time written => exact last d written
      | @outcome d d' time written state outcome =>
        dsimp only [Write.doc]
        rw [outcome.only.content.eNcf]
        exact last d written
    | poll fresh read state h =>
      dsimp only [Write.doc]
      rw [h.number]
      exact obeys.read _ read
    | status fresh read undecided queried only =>
      dsimp only [Write.doc]
      rw [only]
      exact obeys.read _ read
    | reconcile due h =>
      dsimp only [Write.doc]
      rw [h.number]
      exact obeys.read _ due.read

/-! ## Transmissions -/

/-- **Written ahead.** A transmission of a thread, in the pool it is made in: the
last document the operation committed awaits it and is what goes out. -/
structure CommittedFirst (ext : Externals) (rows : List EcfDocumentRow) (p : EnginePool) (t : ℕ)
    (route : Route) (xml : String) (file : EcfFileName) (d : EcfDocument) : Prop where
  /-- It was committed, and nothing else since. -/
  committed : (progress (p.thread t).log).written = some d
  awaiting : d.state = "AwaitingTransmission"
  /-- No transmission since the commit got through. -/
  once : (progress (p.thread t).log).sent = false
  /-- What goes out is the row's signed XML, or its signed summary. -/
  payload : Payload ext (p.thread t).log d route xml
  names : file = ⟨d.rncEmisor, d.eNcf⟩
  /-- The row is in the table. -/
  stored : Has p.world.documents d
  number : Accounted rows p.history d.eNcf

/-- **Transmissions are written ahead.** On every schedule of any operations,
whatever fails or dies, no XML goes out to DGII but that of a row committed before
by the same operation, under a number that is accounted for. -/
theorem transmissions_are_written_ahead (ext : Externals) (services : Services)
    (operations : ℕ → Operation) (w : World) (moves : List (Move Input)) {t : ℕ} {input : Input}
    {client : EcfClient} {route : Route} {token xml : String} {file : EcfFileName}
    {connection : ℕ}
    (transmits : ((engine ext services operations w).play (host ext) moves).nextEvent (host ext) t
      input = some ⟨.post client route token xml file, connection⟩) :
    ∃ d, CommittedFirst ext w.documents.rows
      ((engine ext services operations w).play (host ext) moves) t route xml file d := by
  have informed := informed_play ext services operations w moves
  have lawful : Lawful ext services (fun _ => True) (fun _ _ _ => True) fun history d =>
      Accounted w.documents.rows history d.eNcf := accounted_lawful
  have accounted := lawful.play_always operations moves (fun _ => trivial)
    fun row member => .inl ⟨row, member, rfl⟩
  generalize (engine ext services operations w).play (host ext) moves = p at *
  obtain ⟨next, running, -⟩ := Pool.nextEvent_some transmits
  have permitted := informed.follows t
  rw [running, follows_logging_ask] at permitted
  have asks := permitted.1
  revert asks
  cases (p.thread t).operation with
  | submit req =>
    intro asks
    cases asks with
    | outside h => exact h.elim
    | @transmit _ _ _ _ d written state once payload =>
      exact ⟨d, written, state, once, payload, rfl, informed.threads t d (.wrote written),
        (accounted.threads t).written List.prefix_rfl written⟩
  | getBySourceTxnId req =>
    intro asks
    cases asks with
    | outside h => exact h.elim
    | lookup h => exact h.elim
  | status rncEmisor eNcf =>
    intro asks
    cases asks with
    | outside h => exact h.elim
    | lookup h => exact h.elim
  | reconcile =>
    intro asks
    cases asks with
    | outside h => exact h.elim
  | reconcileBySourceTxnId req => exact fun asks => (asks.elim id id).elim
  | getById req => exact fun asks => (asks.elim id id).elim
  | getXmlBySourceTxnId req =>
    intro asks
    cases asks with
    | lookup h => exact h.elim
  | getXmlById req =>
    intro asks
    cases asks with
    | lookup h => exact h.elim

/-- A submission about to transmit. -/
def aboutToTransmit : EnginePool :=
  (engine sampleExternals sampleServices (fun _ => .submit sampleRequest) sampleWorld).play
    (host sampleExternals) (steps 0 10 "trackId")

/-- Its next event. -/
theorem aboutToTransmit_transmits : aboutToTransmit.nextEvent (host sampleExternals) 0
    (answering "trackId") = some ⟨.post ⟨"101672919", .preCertificacion, false, sampleSigner⟩
      .recepcion "SIGNATURE" "SIGNATURE" ⟨"101672919", "E310000000001"⟩, (0 : ℕ)⟩ := rfl

theorem transmissions_are_written_ahead_sample :
    ∃ d, CommittedFirst sampleExternals sampleWorld.documents.rows aboutToTransmit 0 .recepcion
      "SIGNATURE" ⟨"101672919", "E310000000001"⟩ d :=
  transmissions_are_written_ahead sampleExternals sampleServices (fun _ => .submit sampleRequest)
    sampleWorld (steps 0 10 "trackId") aboutToTransmit_transmits

end EcfDgii.WrittenAhead
