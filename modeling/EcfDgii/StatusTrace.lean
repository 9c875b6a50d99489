import EcfDgii.SubmissionFollows
import EcfDgii.StatusUpdates

/-!
What the other operations may ask, and the engine's operations together.

Polling, the status query and the background pass all write back a row they
have read with a few fields changed: `PollWrite`, `StatusWrite` and
`ReconcileWrite` say which, on what answer.  The remaining endpoints only read.
`Operation` is every operation the engine has, `Asks` its permissions, and
`program_follows` says that every program keeps to its own.
-/

set_option autoImplicit false

namespace EcfDgii.StatusTrace

open EcfDgii.Text EcfDgii.Timestamps EcfDgii.Documents EcfDgii.DgiiReplies EcfDgii.Tables
open EcfDgii.Programs EcfDgii.Engine EcfDgii.Transport EcfDgii.Transmission EcfDgii.Submission
open EcfDgii.StatusPolling EcfDgii.StatusUpdates EcfDgii.Traces EcfDgii.SubmissionTrace
open EcfDgii.TransportTrace EcfDgii.TransmissionTrace EcfDgii.SubmissionFollows

/-! ## Permissions -/

/-- The reads of one document. -/
def Lookup : Request → Prop
  | .documentBySourceTxnId .. => True
  | .documentById _ => True
  | .documentByENcf _ => True
  | .documentByTrackId _ => True
  | _ => False

variable (ext : Externals)

/-- A query about a row already read was answered. -/
def QueriedAbout (log : Log) (row : EcfDocumentRow) (consulta : Consulta) (resp : HttpReply) :
    Prop :=
  ∃ start, Read start row ∧ QueriedSince start log consulta resp

/-- What polling writes of a row it has read. -/
inductive PollWrite (log : Log) (row : EcfDocumentRow) : EcfDocument → Prop
  | resultado {trackId : String} {answer : HttpReply} {r : ConsultaResultadoResponse}
      {d : EcfDocument} (queried : QueriedAbout log row (.resultado trackId) answer)
      (read : consultaResultado ext.toParsers trackId answer = .ok r)
      (verdict : afterResultado row.toEcfDocument r = some d) : PollWrite log row d
  | estado {trackId : Option String} {answer : HttpReply} (untracked : row.trackId.getD "" = "")
      (queried : QueriedAbout log row (.estado row.rncEmisor row.eNcf none none) answer)
      (known : notFound (estadoOf ext answer) = false) :
      PollWrite log row
        (reconciled { row.toEcfDocument with trackId := trackId } (estadoOf ext answer))

/-- What polling may ask. -/
inductive PollAsks (log : Log) : Request → Prop
  | outside {r : Request} (h : Outside r) : PollAsks log r
  | lookup {r : Request} (h : Lookup r) : PollAsks log r
  | save {row : EcfDocumentRow} {d : EcfDocument} {time : ℕ}
      (fresh : (progress log).written = none) (read : Read log row) (state : row.state ∈ polledStates) (write : PollWrite ext log row d) :
      PollAsks log (.saveChanges [.update d time])

/-- What the status query may ask. -/
inductive StatusAsks (log : Log) : Request → Prop
  | outside {r : Request} (h : Outside r) : StatusAsks log r
  | lookup {r : Request} (h : Lookup r) : StatusAsks log r
  | save {row : EcfDocumentRow} {consulta : Consulta} {answer : HttpReply} {time : ℕ}
      (fresh : (progress log).written = none) (read : Read log row) (open' : row.state ≠ "AcceptedByDgii")
      (queried : QueriedAbout log row consulta answer) :
      StatusAsks log (.saveChanges [.update { row.toEcfDocument with
        state := mappedState (estadoOf ext answer) } time])

/-- What the background pass writes of a row. -/
structure ReconcileWrite (doc d : EcfDocument) : Prop where
  only : d = { doc with
    state := d.state, lastStatusCheckAt := d.lastStatusCheckAt
    statusCheckAttempts := d.statusCheckAttempts, dgiiResponseXml := d.dgiiResponseXml }
  state : d.state = doc.state ∨ d.state = "AcceptedByDgii" ∨ d.state = "RejectedByDgii" ∨
    d.state = "RequiresManualReview"

/-- A row the background pass has read as due. -/
def Due (log : Log) (row : EcfDocumentRow) : Prop :=
  ∃ (minAge pollDue : String) (limit : ℕ) (rows : List EcfDocumentRow), row ∈ rows ∧
    (⟨.documentsDue minAge pollDue limit,
      (.ok rows : Except String (List EcfDocumentRow))⟩ : Event Api) ∈ log

/-- A write of the background pass: an update of a due row. -/
def Reconciles (log : Log) (write : Write) : Prop :=
  ∃ (row : EcfDocumentRow) (d : EcfDocument) (time : ℕ), write = .update d time ∧ Due log row ∧
    ReconcileWrite row.toEcfDocument d

/-- What the background pass may ask. -/
inductive ReconcileAsks (log : Log) : Request → Prop
  | outside {r : Request} (h : Outside r) : ReconcileAsks log r
  | due {minAge pollDue : String} {limit : ℕ} : ReconcileAsks log (.documentsDue minAge pollDue limit)
  | save {writes : List Write} (h : ∀ write ∈ writes, Reconciles log write) :
      ReconcileAsks log (.saveChanges writes)

/-- What an operation that only reads may ask. -/
def ReadAsks (_ : Log) (r : Request) : Prop := Outside r ∨ Lookup r

/-- What a download may ask: it answers with the signed XML of a row it has
read, or refuses. -/
inductive XmlAsks (log : Log) : Request → Prop
  | lookup {r : Request} (h : Lookup r) : XmlAsks log r
  | refuse {message : String} {statusCode : ℕ} : XmlAsks log (.respond (err message statusCode))
  | serve {row : EcfDocumentRow} {xml : String} (read : Read log row)
      (stored : row.signedXmlContent = some xml) :
      XmlAsks log (.respond (xmlResponse row.toEcfDocument xml))

/-! ## The operations -/

/-- Everything the engine does with a document. -/
inductive Operation
  | submit (req : SubmitRequest)
  | getBySourceTxnId (req : ReadRequest)
  | reconcileBySourceTxnId (req : ReadRequest)
  | getXmlBySourceTxnId (req : ReadRequest)
  | getById (req : ReadRequest)
  | getXmlById (req : ReadRequest)
  | status (rncEmisor eNcf : String)
  | reconcile

variable (services : Services)

/-- The program of each operation. -/
def program : Operation → Procedure Unit
  | .submit req => submit ext services req
  | .getBySourceTxnId req => getBySourceTxnId ext services req
  | .reconcileBySourceTxnId req => reconcileBySourceTxnId req
  | .getXmlBySourceTxnId req => getXmlBySourceTxnId req
  | .getById req => getById req
  | .getXmlById req => getXmlById req
  | .status rncEmisor eNcf => status ext services rncEmisor eNcf
  | .reconcile => reconcilePass ext services

/-- The permissions of each operation. -/
def Asks : Operation → Log → Request → Prop
  | .submit req => SubmitAsks ext services req
  | .getBySourceTxnId _ => PollAsks ext
  | .status _ _ => StatusAsks ext
  | .reconcile => ReconcileAsks
  | .getXmlBySourceTxnId _ => XmlAsks
  | .getXmlById _ => XmlAsks
  | _ => ReadAsks

/-- Every write of every operation, in its transaction, with its evidence. -/
inductive EngineWrite : Operation → Log → List Write → Write → Prop
  | submit {req : SubmitRequest} {t : SubmissionTarget} {log : Log} {write : Write}
      (target : resolveTarget services req = .ok t) (h : SubmitWrite ext t log write) :
      EngineWrite (.submit req) log [write] write
  | poll {req : ReadRequest} {log : Log} {row : EcfDocumentRow} {d : EcfDocument} {time : ℕ}
      (fresh : (progress log).written = none) (read : Read log row) (state : row.state ∈ polledStates) (h : PollWrite ext log row d) :
      EngineWrite (.getBySourceTxnId req) log [.update d time] (.update d time)
  | status {rncEmisor eNcf : String} {log : Log} {row : EcfDocumentRow} {consulta : Consulta}
      {answer : HttpReply} {d : EcfDocument} {time : ℕ}
      (fresh : (progress log).written = none) (read : Read log row) (undecided : row.state ≠ "AcceptedByDgii") (queried : QueriedAbout log row consulta answer)
      (only : d = { row.toEcfDocument with state := mappedState (estadoOf ext answer) }) :
      EngineWrite (.status rncEmisor eNcf) log [.update d time] (.update d time)
  | reconcile {log : Log} {row : EcfDocumentRow} {d : EcfDocument} {time : ℕ}
      {writes : List Write} (due : Due log row) (h : ReconcileWrite row.toEcfDocument d) :
      EngineWrite .reconcile log writes (.update d time)

variable {ext services} {log : Log} {permits : Log → Request → Prop}

theorem ReconcileWrite.id {doc d : EcfDocument} (h : ReconcileWrite doc d) : d.id = doc.id :=
  (congrArg EcfDocument.id h.only).trans rfl

theorem ReconcileWrite.number {doc d : EcfDocument} (h : ReconcileWrite doc d) :
    d.eNcf = doc.eNcf :=
  (congrArg EcfDocument.eNcf h.only).trans rfl

theorem ReconcileWrite.sentAt {doc d : EcfDocument} (h : ReconcileWrite doc d) :
    d.sentToDgiiAt = doc.sentToDgiiAt :=
  (congrArg EcfDocument.sentToDgiiAt h.only).trans rfl

theorem Due.read {row : EcfDocumentRow} (h : Due log row) : Read log row := by
  obtain ⟨minAge, pollDue, limit, rows, among, answer⟩ := h
  exact ⟨_, answer, among⟩

/-- Nothing else is ever written. -/
theorem engineWrite_of_asks {op : Operation} {writes : List Write}
    (asks : Asks ext services op log (.saveChanges writes)) :
    ∀ write ∈ writes, EngineWrite ext services op log writes write := by
  intro write member
  cases op with
  | submit req =>
    cases asks with
    | outside h => exact h.elim
    | save target _ h =>
      obtain rfl := List.mem_singleton.mp member
      exact .submit target h
  | getBySourceTxnId req =>
    cases asks with
    | outside h => exact h.elim
    | lookup h => exact h.elim
    | save fresh read state h =>
      obtain rfl := List.mem_singleton.mp member
      exact .poll fresh read state h
  | status rncEmisor eNcf =>
    cases asks with
    | outside h => exact h.elim
    | lookup h => exact h.elim
    | save fresh read undecided queried =>
      obtain rfl := List.mem_singleton.mp member
      exact .status fresh read undecided queried rfl
  | reconcile =>
    cases asks with
    | outside h => exact h.elim
    | save each =>
      obtain ⟨row, d, time, rfl, due, h⟩ := each write member
      exact .reconcile due h
  | reconcileBySourceTxnId req => exact (asks.elim id id).elim
  | getById req => exact (asks.elim id id).elim
  | getXmlBySourceTxnId req =>
    cases asks with
    | lookup h => exact h.elim
  | getXmlById req =>
    cases asks with
    | lookup h => exact h.elim

/-! ## Polling -/

/-- How a row was found: by its TxnId, or by another identifier and then visible. -/
inductive Picked (req : ReadRequest) (tenantId : String) (log : Log) (row : EcfDocumentRow) : Prop
  | bySource (answer : (⟨.documentBySourceTxnId tenantId req.txnId req.ambiente,
      (.ok (some row) : Except String (Option EcfDocumentRow))⟩ : Event Api) ∈ log) :
      Picked req tenantId log row
  | visible (read : Read log row) (h : visible req tenantId row = true) : Picked req tenantId log row

theorem Picked.read {req : ReadRequest} {tenantId : String} {row : EcfDocumentRow}
    (h : Picked req tenantId log row) : Read log row := by
  cases h with
  | bySource answer => exact ⟨_, answer, List.mem_singleton_self row⟩
  | visible read _ => exact read

/-- A lookup reads the row it returns, and commits nothing. -/
theorem findDocument_follows (lookups : ∀ log r, Lookup r → permits log r) (req : ReadRequest)
    (tenantId : String) :
    (findDocument req tenantId).Follows (.logging permits)
      (fun b found => (progress b).written = (progress log).written ∧
        ∀ row, found = some row → Picked req tenantId b row) (fun _ _ => True) log := by
  have unwritten : ∀ (a : Log) (r : Request) (x : r.Reply), Lookup r →
      (progress (a ++ [⟨r, x⟩])).written = (progress a).written := by
    intro a r x lookup
    rw [progress_append, after_written fun writes same => by rw [same] at lookup; exact lookup]
  unfold findDocument
  refine ask_bind_follows (.documentBySourceTxnId ..) (lookups _ _ trivial)
    fun (x : Except String (Option EcfDocumentRow)) => ?_
  have first := unwritten log (.documentBySourceTxnId tenantId req.txnId req.ambiente) x trivial
  refine (Program.follows_raise_bind _ _).mpr ⟨?_, fun _ _ => trivial⟩
  rintro (_ | row) rfl
  · refine ask_bind_follows (.documentByTrackId ..) (lookups _ _ trivial)
      fun (x : Except String (Option EcfDocumentRow)) => ?_
    have second := (unwritten _ (.documentByTrackId req.txnId) x trivial).trans first
    refine (Program.follows_raise_bind _ _).mpr ⟨?_, fun _ _ => trivial⟩
    rintro byTrack rfl
    split
    · next row taken =>
      obtain ⟨found, shown⟩ := Option.filter_eq_some_iff.mp taken
      subst found
      refine ⟨second, ?_⟩
      rintro _ ⟨⟩
      exact .visible (.last (List.mem_singleton_self row)) shown
    · refine ask_bind_follows (.documentByENcf ..) (lookups _ _ trivial)
        fun (x : Except String (Option EcfDocumentRow)) => ?_
      have third := (unwritten _ (.documentByENcf req.txnId) x trivial).trans second
      refine (Program.follows_raise_bind _ _).mpr ⟨?_, fun _ _ => trivial⟩
      rintro byNcf rfl
      refine ⟨third, fun row taken => ?_⟩
      obtain ⟨found, shown⟩ := Option.filter_eq_some_iff.mp taken
      subst found
      exact .visible (.last (List.mem_singleton_self row)) shown
  · refine ⟨first, ?_⟩
    rintro _ ⟨⟩
    exact .bySource (List.mem_append_right _ (List.mem_singleton_self _))

theorem QueriedAbout.mono {b : Log} {row : EcfDocumentRow} {consulta : Consulta}
    {resp : HttpReply} (h : QueriedAbout log row consulta resp) (longer : log <+: b) :
    QueriedAbout b row consulta resp :=
  h.imp fun _ k => ⟨k.1, k.2.mono longer⟩

theorem PollWrite.mono {b : Log} {row : EcfDocumentRow} {d : EcfDocument}
    (h : PollWrite ext log row d) (longer : log <+: b) : PollWrite ext b row d := by
  cases h with
  | resultado queried read verdict => exact .resultado (queried.mono longer) read verdict
  | estado untracked queried known => exact .estado untracked (queried.mono longer) known

/-- Polling writes the document it has read. -/
theorem PollWrite.id {row : EcfDocumentRow} {d : EcfDocument} (h : PollWrite ext log row d) :
    d.id = row.id := by
  cases h with
  | resultado _ _ verdict => exact (congrArg EcfDocument.id (afterResultado_some verdict).1).trans rfl
  | estado => rw [reconciled_only]

theorem PollWrite.number {row : EcfDocumentRow} {d : EcfDocument} (h : PollWrite ext log row d) :
    d.eNcf = row.eNcf := by
  cases h with
  | resultado _ _ verdict =>
    exact (congrArg EcfDocument.eNcf (afterResultado_some verdict).1).trans rfl
  | estado => rw [reconciled_only]

theorem pollAsks_outside : AllowsOutside (PollAsks ext) := fun _ _ h _ => .outside h

/-- A procedure of the poll of a row that has been read. -/
def Polls {α : Type} (ext : Externals) (log : Log) (p : Procedure α) : Prop :=
  p.Follows (.logging (PollAsks ext)) (fun _ _ => True) (fun _ _ => True) log

/-- Writing a verdict back shows it, written or not. -/
theorem savePolled_follows (outside : AllowsOutside permits) {d : EcfDocument}
    (save : ∀ b time, Quiet log b → permits b (.saveChanges [.update d time])) :
    (savePolled d).Follows (.logging permits) (fun b shown => shown = d ∧ log <+: b)
      (fun _ _ => False) log := by
  unfold savePolled
  refine Program.Follows.bind (M := fun b _ => log <+: b) ?_ fun _ _ longer => ⟨rfl, longer⟩
  refine Program.Follows.tryCatch (M := fun b _ => log <+: b) ?_ fun _ _ longer => longer
  exact (update_follows outside fun b time quiet _ => save b time quiet).mono
    (fun _ _ committed => committed.longer) fun _ _ quiet => quiet.longer

/-- The poll of a row writes and shows a verdict, or the state of its eNCF, or
shows the row. -/
theorem poll_follows (outside : AllowsOutside permits) {row : EcfDocumentRow}
    (read : Read log row) (save : ∀ b d time, Quiet log b → PollWrite ext b row d →
      permits b (.saveChanges [.update d time])) :
    (poll ext services row.toEcfDocument).Follows (.logging permits)
      (fun b shown => log <+: b ∧ (shown = row.toEcfDocument ∨ PollWrite ext b row shown))
      (fun b _ => log <+: b) log := by
  have written : ∀ b d, Quiet log b → PollWrite ext b row d →
      (savePolled d).Follows (.logging permits)
        (fun b shown => log <+: b ∧ (shown = row.toEcfDocument ∨ PollWrite ext b row shown))
        (fun b _ => log <+: b) b := by
    intro b d quiet write
    refine (savePolled_follows outside fun c time quiet' =>
      save c d time (quiet.trans quiet') (write.mono quiet'.longer)).mono ?_ fun _ _ h => h.elim
    rintro c _ ⟨rfl, longer⟩
    exact ⟨quiet.longer.trans longer, .inr (write.mono longer)⟩
  unfold poll
  refine ((resolveSigner_silent outside _ _ _ _ log).mono (fun _ _ h => h)
    fun _ _ h => h.elim).bind ?_
  intro a signer quiet
  have read := read.mono fun _ => quiet.mem
  refine (Program.follows_raise_bind _ _).mpr ⟨fun client _ => ?_, fun _ _ => quiet.longer⟩
  have byENcf : row.trackId.getD "" = "" →
      (pollByENcf ext client row.toEcfDocument).Follows (.logging permits)
        (fun b shown => log <+: b ∧ (shown = row.toEcfDocument ∨ PollWrite ext b row shown))
        (fun b _ => log <+: b) a := by
    intro untracked
    unfold pollByENcf
    refine ((consultarEstado_follows outside row.rncEmisor row.eNcf none none).mono
      (fun _ _ h => h) fun _ _ h => (quiet.trans h).longer).bind ?_
    intro b status seen
    split
    · exact ⟨(quiet.trans seen.1).longer, .inl rfl⟩
    · next known =>
      refine ((askTrackId_follows outside).mono (fun _ _ h => h)
        fun _ _ h => h.elim).bind ?_
      rintro c d ⟨quiet'', only⟩
      obtain ⟨quiet', answer, queried, rfl⟩ := seen
      rw [only]
      exact written c _ ((quiet.trans quiet').trans quiet'')
        (.estado untracked ⟨a, read, queried.mono quiet''.longer⟩ (Bool.eq_false_iff.mpr known))
  have byTrackId : ∀ trackId,
      (pollByTrackId ext client row.toEcfDocument trackId).Follows (.logging permits)
        (fun b shown => log <+: b ∧ (shown = row.toEcfDocument ∨ PollWrite ext b row shown))
        (fun b _ => log <+: b) a := by
    intro trackId
    unfold pollByTrackId
    refine ((consultarResultado_follows outside trackId).mono
      (fun _ _ h => h) fun _ _ h => (quiet.trans h).longer).bind ?_
    rintro b r ⟨quiet', answer, queried, answered⟩
    split
    · next d verdict =>
      exact written b d (quiet.trans quiet') (.resultado ⟨a, read, queried⟩ answered verdict)
    · exact ⟨(quiet.trans quiet').longer, .inl rfl⟩
  cases tracked : row.trackId with
  | none =>
    exact .ite (fun _ => byENcf (by rw [tracked]; rfl)) fun _ => ⟨quiet.longer, .inl rfl⟩
  | some trackId =>
    refine .ite (fun _ => byTrackId trackId) fun blank => .ite (fun _ => byENcf ?_)
      fun _ => ⟨quiet.longer, .inl rfl⟩
    rw [tracked]
    exact not_not.mp blank

/-- The document as its answer shows it. -/
theorem refreshed_follows (outside : AllowsOutside permits) {row : EcfDocumentRow}
    (read : Read log row) (save : ∀ b d time, Quiet log b → row.state ∈ polledStates →
      PollWrite ext b row d → permits b (.saveChanges [.update d time])) :
    (refreshed ext services row.toEcfDocument).Follows (.logging permits)
      (fun b shown => log <+: b ∧ (shown = row.toEcfDocument ∨ PollWrite ext b row shown))
      (fun _ _ => False) log := by
  refine .ite (fun state => ?_) fun _ => ⟨List.prefix_rfl, .inl rfl⟩
  refine Program.Follows.tryCatch (poll_follows outside read fun b d time quiet =>
    save b d time quiet state) fun b _ longer => ⟨longer, .inl rfl⟩

/-- **Polling keeps to its permissions.** -/
theorem getBySourceTxnId_follows (req : ReadRequest) :
    Polls ext [] (getBySourceTxnId ext services req) := by
  have answer : ∀ response log, Polls ext log (respond response) := fun response log =>
    ask_follows (.respond response) (.outside trivial) fun _ => trivial
  refine Program.Follows.tryCatch (M := fun _ _ => True) ?_ fun b what _ => answer _ b
  refine (findDocument_follows (fun _ _ h => PollAsks.lookup h) req _).bind ?_
  rintro a (_ | row) ⟨fresh, picked⟩
  · exact answer _ a
  · have read := (picked row rfl).read
    refine .ite (fun _ => answer _ a) fun _ => ?_
    refine ((refreshed_follows pollAsks_outside read fun b d time quiet state write => ?_).mono
      (fun _ _ h => h) fun _ _ h => h.elim).bind fun b shown _ => answer _ b
    exact .save (quiet.same ▸ fresh) (read.mono fun _ => quiet.mem) state write

/-! ## The status query -/

theorem statusAsks_outside : AllowsOutside (StatusAsks ext) := fun _ _ h _ => .outside h

/-- **The status query keeps to its permissions.** -/
theorem status_follows (rncEmisor eNcf : String) :
    (status ext services rncEmisor eNcf).Follows (.logging (StatusAsks ext)) (fun _ _ => True)
      (fun _ _ => True) [] := by
  have answer : ∀ response log, (respond response).Follows (.logging (StatusAsks ext))
      (fun _ _ => True) (fun _ _ => True) log := fun response log =>
    ask_follows (.respond response) (.outside trivial) fun _ => trivial
  unfold status
  refine .ite (fun _ => answer _ _) fun _ => ?_
  split
  · exact answer _ _
  refine Program.Follows.bind (M := fun _ _ => True) ?_ fun b x _ => ?_
  · unfold handleStatusQuery
    refine (attempt_follows (Q := fun _ _ => True) (E := fun _ _ => True)
      (R := fun _ _ => True) (F := fun _ _ => True) ?_ (fun _ _ _ => trivial)
      fun _ _ _ => trivial).bind fun b x _ => ?_
    · refine ask_bind_follows (.documentByENcf eNcf) (.lookup trivial)
        fun (x : Except String (Option EcfDocumentRow)) => ?_
      refine (Program.follows_raise_bind _ _).mpr ⟨?_, fun _ _ => trivial⟩
      rintro localDoc rfl
      refine .ite (fun _ => trivial) fun _ => ?_
      cases localDoc with
      | none =>
        refine (Program.follows_raise_bind _ _).mpr ⟨fun client _ => ?_, fun _ _ => trivial⟩
        exact ((consultarEstado_follows statusAsks_outside rncEmisor eNcf none none).mono
          (fun _ _ h => h) fun _ _ _ => trivial).bind fun _ _ _ => trivial
      | some row =>
        refine .ite (fun _ => trivial) fun final => ?_
        refine (Program.follows_raise_bind _ _).mpr ⟨fun client _ => ?_, fun _ _ => trivial⟩
        refine ((consultarEstado_follows statusAsks_outside rncEmisor eNcf row.rncComprador
          row.securityCode).mono (fun _ _ h => h) fun _ _ _ => trivial).bind ?_
        rintro b _ ⟨quiet, answer, queried, rfl⟩
        refine Program.Follows.bind (M := fun _ _ => True) ?_ fun _ _ _ => trivial
        refine .ite (fun _ => ?_) fun _ => trivial
        refine (update_follows statusAsks_outside fun c time last _ => ?_).mono
          (fun _ _ _ => trivial) fun _ _ _ => trivial
        have read : Read ([] ++ [⟨.documentByENcf eNcf,
          (.ok (some row) : Except String (Option EcfDocumentRow))⟩]) row :=
          Read.last (List.mem_singleton_self row)
        exact .save (last.same ▸ quiet.same ▸ rfl)
          (read.mono fun _ member => last.mem (quiet.mem member)) (fun same => final (.inl same)) ⟨_, read, queried.mono last.longer⟩
    · split <;> trivial
  · split <;> exact answer _ _

/-! ## The background pass -/

theorem reconcileAsks_outside : AllowsOutside ReconcileAsks := fun _ _ h _ => .outside h

theorem ReconcileWrite.checked {doc d : EcfDocument} {nowIso : String}
    (h : ReconcileWrite doc d) : ReconcileWrite doc (checked nowIso d) := by
  refine ⟨?_, h.state⟩
  rw [h.only]
  rfl

theorem ReconcileWrite.withVerdict {doc d : EcfDocument} {estado : String}
    (h : ReconcileWrite doc d) : ReconcileWrite doc (withVerdict estado d) := by
  unfold StatusUpdates.withVerdict
  split
  · exact ⟨by rw [h.only], .inr (.inl rfl)⟩
  · split
    · exact ⟨by rw [h.only], .inr (.inr (.inl rfl))⟩
    · exact h

theorem ReconcileWrite.fromResultado {doc : EcfDocument} (r : ConsultaResultadoResponse) :
    ReconcileWrite doc (fromResultado doc r).2 := by
  unfold StatusUpdates.fromResultado
  split <;> exact ⟨rfl, .inl rfl⟩

theorem ReconcileWrite.fromEstado {doc d : EcfDocument} {estado : String}
    (h : ReconcileWrite doc d) (r : ConsultaEstadoResponse) :
    ReconcileWrite doc (fromEstado estado d r).2 := by
  unfold StatusUpdates.fromEstado
  split
  · exact h
  · exact ⟨by rw [h.only], h.state⟩

/-- One due row is queried, and its check and verdict written. -/
theorem reconcileOne_follows (time : ℕ) (client : EcfClient) (doc : EcfDocument) :
    (reconcileOne ext time client doc).Follows (.logging ReconcileAsks)
      (fun b d => Quiet log b ∧ ReconcileWrite doc d) (fun _ _ => False) log := by
  unfold reconcileOne
  refine Program.Follows.bind (M := fun b x => Quiet log b ∧ ReconcileWrite doc x.2) ?_ ?_
  · refine .ite (fun _ => ?_) fun _ => ⟨.refl log, rfl, .inl rfl⟩
    refine (attempt_follows (R := fun b _ => Quiet log b) (F := fun _ _ => False)
      (consultarResultado_follows reconcileAsks_outside (doc.trackId.getD ""))
      (fun _ _ h => h.1) fun _ _ h => h).bind ?_
    rintro b (e | r) quiet
    · exact ⟨quiet, rfl, .inl rfl⟩
    · exact ⟨quiet, .fromResultado r⟩
  · rintro a ⟨estado, d⟩ ⟨quiet, write⟩
    refine .ite (fun _ => ?_) fun _ => ⟨quiet, write.checked.withVerdict⟩
    refine (attempt_follows (R := fun b _ => Quiet a b) (F := fun _ _ => False)
      (consultarEstado_follows reconcileAsks_outside d.rncEmisor d.eNcf d.rncComprador
        d.securityCode) (fun _ _ h => h.1) fun _ _ h => h).bind ?_
    rintro b (e | r) quiet'
    · exact ⟨quiet.trans quiet', write.checked⟩
    · exact ⟨quiet.trans quiet', (write.fromEstado r).checked.withVerdict⟩

theorem clientFor_silent (client : EcfClient) (cache : ClientCache) (doc : EcfDocument) :
    Silent ReconcileAsks (clientFor services client cache doc) := by
  unfold clientFor
  dsimp only
  split
  · exact .done _
  · refine .ite (fun log => ?_) (.done _)
    refine quiet_bind_follows reconcileAsks_outside (.tenantSigner ..) trivial trivial
      fun (resolved : Except String (Option Signer)) b quiet _ => ?_
    cases resolved with
    | ok signer => exact quiet
    | error e => exact quiet

theorem Reconciles.mono {b : Log} {write : Write} (h : Reconciles log write)
    (grows : ∀ e ∈ log, e ∈ b) : Reconciles b write := by
  obtain ⟨row, d, time, same, ⟨minAge, pollDue, limit, rows, member, answer⟩, write⟩ := h
  exact ⟨row, d, time, same, ⟨minAge, pollDue, limit, rows, member, grows _ answer⟩, write⟩

/-- Every due row read gives a write of its own. -/
theorem reconcileAll_follows (time : ℕ) (client : EcfClient) (cache : ClientCache)
    {due : List EcfDocumentRow} {minAge pollDue : String} {limit : ℕ}
    {rows : List EcfDocumentRow} (answer : (⟨.documentsDue minAge pollDue limit,
      (.ok rows : Except String (List EcfDocumentRow))⟩ : Event Api) ∈ log)
    (members : ∀ row ∈ due, row ∈ rows) :
    (reconcileAll ext services time client cache due).Follows (.logging ReconcileAsks)
      (fun b writes => Quiet log b ∧ ∀ write ∈ writes, Reconciles b write) (fun _ _ => False)
      log := by
  induction due generalizing log cache with
  | nil => exact ⟨.refl log, by simp⟩
  | cons row rest ih =>
    have head : ∀ b d staged, Quiet log b → ReconcileWrite row.toEcfDocument d →
        Reconciles b (.update d staged) := fun b d staged quiet write =>
      ⟨row, d, staged, rfl, ⟨minAge, pollDue, limit, rows, members row (by simp),
        quiet.mem answer⟩, write⟩
    have tail : ∀ a d staged cache, Quiet log a → ReconcileWrite row.toEcfDocument d →
        (reconcileAll ext services time client cache rest >>= fun writes =>
          pure (.update d staged :: writes)).Follows (.logging ReconcileAsks)
          (fun b writes => Quiet log b ∧ ∀ write ∈ writes, Reconciles b write)
          (fun _ _ => False) a := by
      intro a d staged cache quiet write
      refine (ih cache (quiet.mem answer) fun row member => members row
        (List.mem_cons_of_mem _ member)).bind ?_
      rintro b writes ⟨quiet', each⟩
      refine ⟨quiet.trans quiet', fun w member => ?_⟩
      rcases List.mem_cons.mp member with rfl | member
      · exact head b d staged (quiet.trans quiet') write
      · exact each w member
    rw [reconcileAll]
    dsimp only
    refine .ite (fun _ => ?_) fun _ => ?_
    · refine quiet_bind_follows reconcileAsks_outside .now trivial trivial
        fun (staged : ℕ) a quiet _ => ?_
      exact tail a _ staged cache quiet ⟨rfl, .inr (.inr (.inr rfl))⟩
    · refine (clientFor_silent client cache row.toEcfDocument log).bind ?_
      rintro a ⟨rowClient, cache⟩ quiet
      refine (reconcileOne_follows time rowClient row.toEcfDocument).bind ?_
      rintro b d ⟨quiet', write⟩
      refine quiet_bind_follows reconcileAsks_outside .now trivial trivial
        fun (staged : ℕ) c timed _ => ?_
      exact tail c d staged cache ((quiet.trans quiet').trans timed) write

/-- **The background pass keeps to its permissions.** -/
theorem reconcilePass_follows :
    (reconcilePass ext services).Follows (.logging ReconcileAsks) (fun _ _ => True)
      (fun _ _ => True) [] := by
  unfold reconcilePass
  split
  · trivial
  · next client _ =>
    refine quiet_bind_follows reconcileAsks_outside .now trivial trivial
      fun (time : ℕ) a timed _ => ?_
    refine ask_bind_follows (.documentsDue ..) .due
      fun (x : Except String (List EcfDocumentRow)) => ?_
    cases x with
    | error e => trivial
    | ok due =>
      refine ((reconcileAll_follows time client []
        (List.mem_append_right _ (List.mem_singleton_self _)) fun _ member => member).mono
          (fun _ _ h => h) fun _ _ h => h.elim).bind ?_
      rintro b writes ⟨-, each⟩
      refine .ite (fun _ => ?_) fun _ => trivial
      exact ask_bind_follows (.saveChanges writes) (.save each) fun _ => trivial

/-! ## The reads -/

/-- A procedure that only reads. -/
def Reads {α : Type} (log : Log) (p : Procedure α) : Prop :=
  p.Follows (.logging ReadAsks) (fun _ _ => True) (fun _ _ => True) log

theorem respond_reads (response : HttpResponse) : Reads log (respond response) :=
  ask_follows (.respond response) (.inl trivial) fun _ => trivial

theorem reconcileBySourceTxnId_follows (req : ReadRequest) :
    Reads [] (reconcileBySourceTxnId req) := by
  refine Program.Follows.tryCatch (M := fun _ _ => True) ?_ fun b what _ => respond_reads _
  refine (findDocument_follows (fun _ _ h => .inr h) req _).bind fun b found _ => ?_
  split <;> exact respond_reads _

theorem getById_follows (req : ReadRequest) : Reads [] (getById req) := by
  refine .ite (fun _ => respond_reads _) fun _ => ?_
  refine Program.Follows.tryCatch (M := fun _ _ => True) ?_ fun b what _ => respond_reads _
  refine ask_bind_follows (.documentById _) (.inr trivial)
    fun (x : Except String (Option EcfDocumentRow)) => ?_
  refine (Program.follows_raise_bind _ _).mpr ⟨fun found _ => ?_, fun _ _ => trivial⟩
  split
  · exact respond_reads _
  · exact .ite (fun _ => respond_reads _) fun _ => respond_reads _

/-- A procedure of a download. -/
def Serves {α : Type} (log : Log) (p : Procedure α) : Prop :=
  p.Follows (.logging XmlAsks) (fun _ _ => True) (fun _ _ => True) log

theorem refuse_serves (message : String) (statusCode : ℕ) :
    Serves log (respond (err message statusCode)) :=
  ask_follows (.respond (err message statusCode)) .refuse fun _ => trivial

theorem serve_serves {row : EcfDocumentRow} {xml : String} (read : Read log row)
    (stored : row.signedXmlContent = some xml) :
    Serves log (respond (xmlResponse row.toEcfDocument xml)) :=
  ask_follows (.respond (xmlResponse row.toEcfDocument xml)) (.serve read stored) fun _ => trivial

theorem getXmlBySourceTxnId_follows (req : ReadRequest) :
    Serves [] (getXmlBySourceTxnId req) := by
  refine Program.Follows.tryCatch (M := fun _ _ => True) ?_ fun b what _ => refuse_serves _ _
  refine (findDocument_follows (fun _ _ h => XmlAsks.lookup h) req _).bind ?_
  rintro b (_ | row) ⟨-, picked⟩
  · exact refuse_serves _ _
  · dsimp only
    split
    · exact refuse_serves _ _
    · next xml stored =>
      exact .ite (fun _ => refuse_serves _ _) fun _ => serve_serves (picked row rfl).read stored

theorem getXmlById_follows (req : ReadRequest) : Serves [] (getXmlById req) := by
  refine .ite (fun _ => refuse_serves _ _) fun _ => ?_
  refine Program.Follows.tryCatch (M := fun _ _ => True) ?_ fun b what _ => refuse_serves _ _
  refine ask_bind_follows (.documentById _) (.lookup trivial)
    fun (x : Except String (Option EcfDocumentRow)) => ?_
  refine (Program.follows_raise_bind _ _).mpr ⟨?_, fun _ _ => trivial⟩
  rintro (_ | row) rfl
  · exact refuse_serves _ _
  · refine .ite (fun _ => refuse_serves _ _) fun _ => ?_
    split
    · exact refuse_serves _ _
    · next xml stored =>
      refine .ite (fun _ => refuse_serves _ _) fun _ => serve_serves ?_ stored
      exact .last (List.mem_singleton_self row)

/-- **Every operation keeps to its permissions.** -/
theorem program_follows (ext : Externals) (services : Services) (op : Operation) :
    (program ext services op).Follows (.logging (Asks ext services op)) (fun _ _ => True)
      (fun _ _ => True) [] := by
  cases op with
  | submit req => exact submit_follows ext services req
  | getBySourceTxnId req => exact getBySourceTxnId_follows req
  | reconcileBySourceTxnId req => exact reconcileBySourceTxnId_follows req
  | getXmlBySourceTxnId req => exact getXmlBySourceTxnId_follows req
  | getById req => exact getById_follows req
  | getXmlById req => exact getXmlById_follows req
  | status rncEmisor eNcf => exact status_follows rncEmisor eNcf
  | reconcile => exact reconcilePass_follows

/-! ## Who may write -/

/-- The states in which a submission acts on the row it finds. -/
def openStates : List String :=
  neverTransmittedStates ++ ["Uncertain", "AwaitingTransmission", "RejectedByDgii"]

/-- The operation may still write the document, as far as its log shows. -/
def Holds : Operation → Log → String → Prop
  | .submit _, log, id =>
    (∃ d, (progress log).written = some d ∧ d.id = id ∧
      (d.state = "SequenceAllocated" ∨ d.state = "AwaitingTransmission")) ∨
    ((progress log).written = none ∧
      ∃ row, (progress log).found = some row ∧ row.id = id ∧ row.state ∈ openStates)
  | .getBySourceTxnId _, log, id =>
    (progress log).written = none ∧ ∃ row, Read log row ∧ row.id = id ∧ row.state ∈ polledStates
  | .status _ _, log, id =>
    (progress log).written = none ∧ ∃ row, Read log row ∧ row.id = id ∧
      row.state ≠ "AcceptedByDgii"
  | .reconcile, log, id => ∃ row, Due log row ∧ row.id = id
  | _, _, _ => False

theorem openStates_of_refreshable {row : EcfDocumentRow} (h : Refreshable ext log row) :
    row.state ∈ openStates := by
  cases h with
  | neverTransmitted state => exact List.mem_append_left _ state
  | notFound state => rcases state with state | state <;> simp [openStates, state]

/-- An update is made by an operation that holds its document. -/
theorem holds_of_write {op : Operation} {writes : List Write} {write : Write}
    (h : EngineWrite ext services op log writes write) {d : EcfDocument} {time : ℕ}
    (update : write = .update d time) : Holds op log write.doc.id := by
  cases h with
  | submit _ h =>
    cases h with
    | create => cases update
    | refresh found fresh allowed =>
      exact .inr ⟨fresh, _, found, rfl, openStates_of_refreshable allowed⟩
    | reissue found fresh state issued =>
      exact .inr ⟨fresh, _, found, rfl, by simp [openStates, state]⟩
    | @reconcile row d answer _ found fresh state only =>
      dsimp only [Write.doc]
      have same := (only.content.trans (reconciled_content d (estadoOf ext answer))).id
      refine .inr ⟨fresh, _, found, same.symm, ?_⟩
      rcases state with state | state <;> simp [openStates, state]
    | signingFailed written state => exact .inl ⟨_, written, rfl, .inl state⟩
    | schemaInvalid written state => exact .inl ⟨_, written, rfl, .inl state⟩
    | unsigned written state => exact .inl ⟨_, written, rfl, .inl state⟩
    | awaiting written state => exact .inl ⟨_, written, rfl, .inl state⟩
    | outcome written state outcome =>
      exact .inl ⟨_, written, outcome.only.content.id.symm, .inr state⟩
  | poll fresh read state h => exact ⟨fresh, _, read, h.id.symm, state⟩
  | status fresh read undecided queried only =>
    dsimp only [Write.doc]
    exact ⟨fresh, _, read, by rw [only], undecided⟩
  | reconcile due h => exact ⟨_, due, h.id.symm⟩

end EcfDgii.StatusTrace
