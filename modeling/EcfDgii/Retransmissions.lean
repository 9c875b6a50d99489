import EcfDgii.DirectSending
import EcfDgii.ReplayScopes

/-!
Retries of a document DGII has received (`/api/ecf/send`, `/api/ecf/send-rfce`).

After a successful reception the handler still has to insert the document and to
complete the record of its key.  A failure of either is answered like a failure
of the whole request, which frees the key, and the retry transmits again.
`NoRetransmission` is what a key is for; `Careful` is the condition on each step
under which it holds: nothing fails after a reception, no lease runs out under a
request that has its document received or is under way, and a renewal meets a
record that failed.

The invariant is `Orderly`: a request that holds its key has the record of it
under way, alone; one that has received and settled has left a record that
stands.
-/

set_option autoImplicit false

namespace EcfDgii.Retransmissions

open EcfDgii.Text EcfDgii.Timestamps EcfDgii.Documents EcfDgii.DgiiReplies EcfDgii.Tables
open EcfDgii.Programs EcfDgii.Execution EcfDgii.Engine EcfDgii.Transport EcfDgii.Transmission
open EcfDgii.Submission EcfDgii.Traces EcfDgii.DocumentInvariants EcfDgii.Reservations
open EcfDgii.WrappedOperations EcfDgii.ReplayedResponses EcfDgii.DirectSending
open EcfDgii.ReplayScopes EcfDgii.TransportTrace

/-! ## Requests -/

/-- The parties and functions of a deployment. -/
structure Setup (γ : Type) where
  ext : Externals
  lib : RfceFunctions γ
  services : Services
  autoRetry : Bool

/-- A request to send, as its controller reads it. -/
inductive DirectOperation (γ : Type)
  | send (body : Option Json)
  | sendRfce (body : RfceBody γ) (getNext : ℕ → String)

/-- Which operation of the handler it is. -/
def DirectOperation.api {γ : Type} : DirectOperation γ → ApiOperation
  | .send _ => .send
  | .sendRfce _ _ => .sendRfce

/-- The work of its controller. -/
def DirectOperation.work {γ : Type} (s : Setup γ) : DirectOperation γ → Procedure Ending
  | .send body => sendWork s.ext s.services body
  | .sendRfce body getNext => sendRfceWork s.ext s.lib s.services s.autoRetry getNext body

variable {γ : Type} {s : Setup γ} {op : DirectOperation γ} {log : Log}

theorem work_working (s : Setup γ) (op : DirectOperation γ) : (op.work s).Only Working := by
  cases op with
  | send body =>
    unfold DirectOperation.work sendWork
    dsimp only
    split
    · split
      · trivial
      · refine .ite (fun _ => concludeSend_working _ _ ?_) fun _ => trivial
        exact (Program.only_raise _).bind fun client => handleSendEcf_working _ _
    · trivial
  | sendRfce body getNext =>
    cases body with
    | invalid => trivial
    | notObject => trivial
    | unreadable what => trivial
    | model rfce =>
      refine .ite (fun _ => concludeSend_working _ _ ?_) fun _ => trivial
      exact (Program.only_raise _).bind fun client => handleSendRfce_working _ _ _ _

/-- A request to send with an idempotency key. -/
structure DirectCaller (γ : Type) where
  operation : DirectOperation γ
  tenantId : String
  idempotencyKey : String
  body : String
  workerKeyId : String
  keyed : idempotencyKey ≠ ""

/-- The request as any caller of the handler. -/
def DirectCaller.caller (c : DirectCaller γ) : Caller where
  operation := c.operation.api
  tenantId := c.tenantId
  idempotencyKey := c.idempotencyKey
  body := c.body
  workerKeyId := c.workerKeyId
  keyed := c.keyed

/-- The request under the handler. -/
def DirectCaller.request (s : Setup γ) (c : DirectCaller γ) : IdempotentRequest :=
  c.caller.request s.ext ⟨c.operation.work s, work_working s c.operation⟩

/-- The name of its record. -/
abbrev DirectCaller.scopedKey (c : DirectCaller γ) : String := c.caller.scopedKey

/-- Requests to send, interleaved question by question. -/
abbrev Senders (γ : Type) := Pool (DirectCaller γ) Api Reservation World

/-- The requests at their start. -/
def senders (s : Setup γ) (callers : ℕ → DirectCaller γ) (w : World) : Senders γ :=
  Pool.start (fun c => (c.request s).handle s.ext) callers w

/-! ## The property -/

/-- A reply that is a successful reception: a trackId without an error, or a
summary that is not rejected. -/
def receives (s : Setup γ) (op : DirectOperation γ) (resp : HttpReply) : Bool :=
  match validateDgiiResponse resp, op with
  | .error _, _ => false
  | .ok _, .send _ =>
    match ecfRecepcion s.ext.toParsers resp with
    | .ok r => !hasError r
    | .error _ => false
  | .ok _, .sendRfce _ _ =>
    match rfceRecepcion s.ext.toParsers resp with
    | .ok r => r.estado ≠ "Rechazado"
    | .error _ => false

/-- The event of a successful reception. -/
def isReception (s : Setup γ) (op : DirectOperation γ) : Event Api → Bool
  | ⟨.await _, resp⟩ => receives s op resp
  | _ => false

/-- There has been a successful reception. -/
def Received (s : Setup γ) (op : DirectOperation γ) (log : Log) : Prop :=
  ∃ e ∈ log, isReception s op e = true
  deriving Decidable

/-- A transmission to DGII. -/
def isPost : Request → Bool
  | .post .. => true
  | _ => false

/-- The other request is a retry: its tenant, key and body are the same. -/
def Retries (a b : DirectCaller γ) : Prop :=
  b.tenantId = a.tenantId ∧ b.idempotencyKey = a.idempotencyKey ∧ b.body = a.body
  deriving Decidable

/-- **No retransmission.** After a successful reception no other request with the
same tenant, key and body transmits. -/
def NoRetransmission (s : Setup γ) (callers : ℕ → DirectCaller γ)
    (history : List (ℕ × Event Api)) : Prop :=
  history.Pairwise fun a b =>
    isReception s (callers a.1).operation a.2 = true → b.1 ≠ a.1 →
      Retries (callers a.1) (callers b.1) → isPost b.2.request = false
  deriving Decidable

/-! ## The condition -/

/-- An event that ends the reservation of its request. -/
inductive Ends : Event Api → Prop
  | complete {key contentType body : String} {statusCode : ℕ} :
      Ends ⟨.idempotency (.complete key statusCode contentType body),
        (.ok () : Except String Unit)⟩
  | release {key : String} {x : Except String Unit} : Ends ⟨.idempotency (.release key), x⟩

/-- The request has ended its reservation. -/
def Ended (log : Log) : Prop := ∃ e ∈ log, Ends e

/-- The request holds its key. -/
def Holding (s : Setup γ) (c : DirectCaller γ) (log : Log) : Prop :=
  Acquired (c.request s) log ∧ ¬ Ended log

/-- The request holds its key, and is under way or has its document received. -/
def Live (s : Setup γ) (p : Senders γ) (t : ℕ) : Prop :=
  Holding s (p.thread t).operation (p.thread t).log ∧
    ((p.thread t).Running ∨ Received s (p.thread t).operation.operation (p.thread t).log)

/-- A transaction violates no index. -/
def commits (w : World) : Request → Bool
  | .saveChanges writes => (commit w.documents writes).toOption.isSome
  | _ => true

/-- The statement runs: the database executes it, and it violates no index. -/
def Runs (i : Input) (w : World) (r : Request) : Prop :=
  i.databaseError = none ∧ commits w r = true
  deriving Decidable

/-- A success that names no document. -/
def SuccessOf (ext : Externals) (statusCode : ℕ) (body : String) : Prop :=
  200 ≤ statusCode ∧ statusCode < 300 ∧ storedDocumentId ext body = none

/-- The record of a key has failed: it is completed, and no such success. -/
def FailedRecord (ext : Externals) (key : String) (w : World) : Prop :=
  ∃ row ∈ w.idempotency, row.key = key ∧ row.status ≠ "Processing" ∧
    ¬ SuccessOf ext row.statusCode row.responseBody

/-- The lease of a key has run out. -/
def LeaseOver (key : String) (time : ℕ) (w : World) : Prop :=
  ∃ row ∈ w.idempotency, row.key = key ∧ row.status = "Processing" ∧ row.createdAt + lease < time
  deriving Decidable

/-- The key a request reclaims. -/
def reclaimedKey : Request → Option String
  | .idempotency (.reclaim key _) => some key
  | _ => none

/-- **The condition.** A request whose document has been received has its
statements executed; a lease that runs out is reclaimed only from a request that
is over, with nothing received; a renewal meets a record that has failed. -/
structure CarefulStep (s : Setup γ) (p : Senders γ) (t : ℕ) (i : Input) (r : Request) : Prop where
  runs : Received s (p.thread t).operation.operation (p.thread t).log → Runs i p.world r
  leases : ∀ key, reclaimedKey r = some key → LeaseOver key (p.world.clock + i.elapsed) p.world →
    ∀ u, Live s p u → (p.thread u).operation.scopedKey ≠ key
  renewals : ∀ key, Renews key i r → FailedRecord s.ext key p.world

/-- The condition on a move. -/
def Careful (s : Setup γ) (p : Senders γ) : Move Input → Prop
  | .kill _ => True
  | .step t i => ∀ r ∈ (p.thread t).request, CarefulStep s p t i r

/-- A rendered object has no members but those it was rendered from. -/
def RendersMembers (ext : Externals) : Prop :=
  ∀ fields stored, ext.parseStored (ext.render (.object fields)) = some (.object stored) →
    ∀ member ∈ stored, ∃ field ∈ fields, field.1 = member.1

/-! ## What the work reports -/

variable {c : DirectCaller γ} {e : Event Api} {r : Request} {client : EcfClient}

/-- A local statement has failed: the insert of the document, or the completion. -/
inductive Fails : Event Api → Prop
  | insert {writes : List Write} {error : String} :
      Fails ⟨.saveChanges writes, (.error error : Except String Unit)⟩
  | complete {key contentType body error : String} {statusCode : ℕ} :
      Fails ⟨.idempotency (.complete key statusCode contentType body),
        (.error error : Except String Unit)⟩

/-- No local statement has failed after a reception. -/
def Unharmed (s : Setup γ) (op : DirectOperation γ) (log : Log) : Prop :=
  Along (fun before e => Received s op before → ¬ Fails e) log

/-- A response that says so: a 200 that names no document. -/
def Succeeds (response : HttpResponse) : Prop :=
  ∃ fields, response = json fields 200 ∧ ∀ field ∈ fields, field.1 ≠ "documentId"

/-- What a request to send may ask. -/
inductive DirectAsks (s : Setup γ) (c : DirectCaller γ) (log : Log) : Request → Prop
  | works {r : Request} (works : Working r) (holding : Holding s c log) : DirectAsks s c log r
  | answers (response : HttpResponse) : DirectAsks s c log (.respond response)
  | reserves {statement : IdempotencyStatement}
      (asks : ReserveAsks c.scopedKey (s.ext.sha256 c.body) c.workerKeyId log statement) :
      DirectAsks s c log (.idempotency statement)
  | completes {statusCode : ℕ} {contentType body : String} (holding : Holding s c log)
      (stands : Received s c.operation log → Unharmed s c.operation log →
        SuccessOf s.ext statusCode body) :
      DirectAsks s c log (.idempotency (.complete c.scopedKey statusCode contentType body))
  | releases (holding : Holding s c log)
      (failed : Received s c.operation log → ¬ Unharmed s c.operation log) :
      DirectAsks s c log (.idempotency (.release c.scopedKey))

/-- A request whose document was received has failed locally. -/
def Harmed (s : Setup γ) (c : DirectCaller γ) (log : Log) : Prop :=
  Holding s c log ∧ (Received s c.operation log → ¬ Unharmed s c.operation log)

theorem received_append (log log' : Log) :
    Received s op (log ++ log') ↔ Received s op log ∨ Received s op log' := by
  simp only [Received, List.mem_append, or_and_right, exists_or]

theorem received_concat :
    Received s op (log ++ [e]) ↔ Received s op log ∨ isReception s op e = true := by
  rw [received_append]
  simp [Received]

/-- Only a reply can be a reception. -/
theorem received_other {x : r.Reply} (other : ∀ connection, r ≠ .await connection) :
    Received s op (log ++ [⟨r, x⟩]) ↔ Received s op log := by
  rw [received_concat]
  refine or_iff_left fun reception => ?_
  cases r with
  | await connection => exact other connection rfl
  | _ => exact absurd reception Bool.false_ne_true

theorem Received.earlier {x : r.Reply} (received : Received s op (log ++ [⟨r, x⟩]))
    (other : ∀ connection, r ≠ .await connection) : Received s op log :=
  (received_other other).mp received

theorem silent_after (silent : ¬ Received s op log) (r : Request) (x : r.Reply)
    (other : ∀ connection, r ≠ .await connection) : ¬ Received s op (log ++ [⟨r, x⟩]) :=
  fun received => silent (received.earlier other)

theorem ended_concat : Ended (log ++ [e]) ↔ Ended log ∨ Ends e := by
  simp only [Ended, List.mem_append, List.mem_singleton, or_and_right, exists_or, exists_eq_left]

/-- An event that does not end the reservation leaves it held. -/
theorem Holding.append (holding : Holding s c log) (open' : ¬ Ends e) :
    Holding s c (log ++ [e]) :=
  ⟨holding.1.append e, fun ended => (ended_concat.mp ended).elim holding.2 open'⟩

theorem not_ends_of_working {x : r.Reply} (working : Working r) : ¬ Ends ⟨r, x⟩ := by
  intro ends
  cases ends <;> exact working

/-- The rule of a question of the work. -/
theorem work_bind {α : Type} {post : Log → α → Prop} {exn : Log → String → Prop} (r : Request)
    (working : Working r) {k : r.Reply → Procedure α} (holding : Holding s c log)
    (rest : ∀ x : r.Reply, Holding s c (log ++ [⟨r, x⟩]) →
      (k x).Follows (.logging (DirectAsks s c)) post exn (log ++ [⟨r, x⟩])) :
    (ask r >>= k).Follows (.logging (DirectAsks s c)) post exn log :=
  ask_bind_follows r (.works working holding) fun x =>
    rest x (holding.append (not_ends_of_working working))

/-- A failure after a reception is a harm. -/
theorem harmed_of_fails (received : Received s op log) (fails : Fails e) :
    ¬ Unharmed s op (log ++ [e]) :=
  fun unharmed => unharmed log e List.prefix_rfl received fails

theorem valid_of_receives {resp : HttpReply} (received : receives s op resp = true) :
    validateDgiiResponse resp = .ok () := by
  unfold receives at received
  split at received
  · exact absurd received Bool.false_ne_true
  · next valid => exact valid
  · next valid => exact valid

/-- After an exchange nothing has been received but what its reply is. -/
theorem exchange_follows (holding : Holding s c log) (silent : ¬ Received s c.operation log)
    (client : EcfClient) (route : Route) (xml : String) (file : EcfFileName) :
    (sendWithReactiveAuth client (transmit client route xml file)).Follows
      (.logging (DirectAsks s c))
      (fun b resp => Holding s c b ∧ validateDgiiResponse resp = .ok () ∧
        (Received s c.operation b → receives s c.operation resp = true))
      (fun b _ => Holding s c b ∧ ¬ Received s c.operation b) log := by
  -- the reply of one transmission, kept only when it is valid
  have answer : ∀ {b : Log} {resp : HttpReply}, Holding s c b →
      (Received s c.operation b → receives s c.operation resp = true) →
      (do
        Program.raise (validateDgiiResponse resp)
        return resp : Procedure HttpReply).Follows (.logging (DirectAsks s c))
        (fun b resp => Holding s c b ∧ validateDgiiResponse resp = .ok () ∧
          (Received s c.operation b → receives s c.operation resp = true))
        (fun b _ => Holding s c b ∧ ¬ Received s c.operation b) b := by
    intro b resp holding only
    refine (Program.follows_raise_bind _ _).mpr ⟨fun _ valid => ⟨holding, valid, only⟩, ?_⟩
    intro error invalid
    exact ⟨holding, fun received => nomatch invalid.symm.trans (valid_of_receives (only received))⟩
  have sends : ∀ {a : Log} (token : String), Holding s c a → ¬ Received s c.operation a →
      (transmit client route xml file token).Follows (.logging (DirectAsks s c))
        (fun b resp => Holding s c b ∧
          (Received s c.operation b → receives s c.operation resp = true))
        (fun b _ => Holding s c b ∧ ¬ Received s c.operation b) a := by
    intro a token holding silent
    unfold transmit
    refine work_bind (.post client route token xml file) trivial holding fun connection holding => ?_
    refine ask_follows (.await connection) (.works trivial holding) fun resp => ?_
    refine ⟨holding.append (not_ends_of_working trivial), fun received => ?_⟩
    exact (received_concat.mp received).resolve_left (silent_after silent _ connection nofun)
  unfold sendWithReactiveAuth
  refine work_bind (.getToken client) trivial holding fun token holding => ?_
  have silent := silent_after silent (.getToken client) token nofun
  refine (Program.follows_raise_bind _ _).mpr ⟨fun token _ => ?_, fun _ _ => ⟨holding, silent⟩⟩
  refine (sends token holding silent).bind fun b resp ⟨holding, only⟩ => ?_
  refine .ite (fun refused => ?_) fun _ => answer holding only
  have silent : ¬ Received s c.operation b := fun received =>
    statusCode_of_valid (valid_of_receives (only received)) refused
  refine work_bind (.invalidateToken client) trivial holding fun done holding => ?_
  have silent := silent_after silent (.invalidateToken client) done nofun
  refine work_bind (.getToken client) trivial holding fun fresh holding => ?_
  have silent := silent_after silent (.getToken client) fresh nofun
  refine (Program.follows_raise_bind _ _).mpr ⟨fun fresh _ => ?_, fun _ _ => ⟨holding, silent⟩⟩
  exact (sends fresh holding silent).bind fun b resp ⟨holding, only⟩ => answer holding only

/-- A reception of `/send` is what the handler is told of it. -/
theorem sendEcf_follows {body : Option Json} (sends : c.operation = .send body)
    (holding : Holding s c log) (silent : ¬ Received s c.operation log) (client : EcfClient)
    (xml : String) (file : EcfFileName) :
    (sendEcf s.ext client xml file).Follows (.logging (DirectAsks s c))
      (fun b r => Holding s c b ∧ (Received s c.operation b → hasError r = false))
      (fun b _ => Holding s c b ∧ ¬ Received s c.operation b) log := by
  unfold sendEcf
  refine (Program.follows_raise_bind _ _).mpr ⟨fun _ _ => ?_, fun _ _ => ⟨holding, silent⟩⟩
  refine (exchange_follows holding silent client .recepcion xml file).bind ?_
  intro b resp ⟨holding, valid, only⟩
  simp only [receives, valid, sends] at only
  refine (Program.follows_raise _).mpr ⟨fun r read => ⟨holding, fun received => ?_⟩,
    fun error read => ⟨holding, fun received => ?_⟩⟩
  · have got := only (sends ▸ received)
    rw [read] at got
    simpa using got
  · have got := only (sends ▸ received)
    rw [read] at got
    exact absurd got Bool.false_ne_true

/-- And of `/send-rfce`. -/
theorem sendRfce_follows {body : RfceBody γ} {getNext : ℕ → String}
    (sends : c.operation = .sendRfce body getNext) (holding : Holding s c log)
    (silent : ¬ Received s c.operation log) (client : EcfClient) (xml : String)
    (file : EcfFileName) :
    (sendRfce s.ext client xml file).Follows (.logging (DirectAsks s c))
      (fun b r => Holding s c b ∧ (Received s c.operation b → r.estado ≠ "Rechazado"))
      (fun b _ => Holding s c b ∧ ¬ Received s c.operation b) log := by
  unfold sendRfce
  refine (Program.follows_raise_bind _ _).mpr ⟨fun _ _ => ?_, fun _ _ => ⟨holding, silent⟩⟩
  refine (exchange_follows holding silent client .recepcionFc xml file).bind ?_
  intro b resp ⟨holding, valid, only⟩
  simp only [receives, valid, sends] at only
  refine (Program.follows_raise _).mpr ⟨fun r read => ⟨holding, fun received => ?_⟩,
    fun error read => ⟨holding, fun received => ?_⟩⟩
  · have got := only (sends ▸ received)
    rw [read] at got
    simpa using got
  · have got := only (sends ▸ received)
    rw [read] at got
    exact absurd got Bool.false_ne_true

/-- The insert: what has been received before it stays so, and its failure is a
harm. -/
theorem addNew_follows (holding : Holding s c log) (doc : EcfDocument) :
    (addNew doc).Follows (.logging (DirectAsks s c))
      (fun b _ => Holding s c b ∧ (Received s c.operation b → Received s c.operation log))
      (fun b _ => Harmed s c b) log := by
  unfold addNew add
  refine work_bind .newUuid trivial holding fun id holding => ?_
  refine work_bind .now trivial holding fun time holding => ?_
  refine work_bind (.saveChanges _) trivial holding fun (saved : Except String Unit) holding => ?_
  refine (Program.follows_raise _).mpr ⟨fun _ _ => ⟨holding, fun received => ?_⟩, ?_⟩
  · exact ((received.earlier nofun).earlier nofun).earlier nofun
  · rintro error rfl
    exact ⟨holding, fun received => harmed_of_fails (received.earlier nofun) .insert⟩

/-- The attempts of a summary: only the last can be a reception. -/
theorem sendRfceModel_follows {body : RfceBody γ} {next : ℕ → String}
    (sends : c.operation = .sendRfce body next) (client : EcfClient) (autoRetry : Bool)
    (getNext : ℕ → String) (retries : ℕ) (rfce : Rfce γ) (holding : Holding s c log)
    (silent : ¬ Received s c.operation log) :
    (sendRfceModel s.ext s.lib client autoRetry getNext retries rfce).Follows
      (.logging (DirectAsks s c))
      (fun b sent => Holding s c b ∧ (Received s c.operation b → sent.1.estado ≠ "Rechazado") ∧
        ∃ xml, s.lib.serialize sent.2 = .ok xml)
      (fun b _ => Holding s c b ∧ ¬ Received s c.operation b) log := by
  induction retries generalizing rfce log with
  | zero =>
    unfold sendRfceModel
    refine (Program.follows_raise_bind _ _).mpr ⟨fun _ _ => ?_, fun _ _ => ⟨holding, silent⟩⟩
    refine (Program.follows_raise_bind _ _).mpr ⟨fun xml wrote => ?_, fun _ _ => ⟨holding, silent⟩⟩
    refine work_bind (.signXml client.signer xml rfce.rncEmisor) trivial holding
      fun signed holding => ?_
    have silent := silent_after silent _ signed nofun
    refine (Program.follows_raise_bind _ _).mpr ⟨fun text _ => ?_, fun _ _ => ⟨holding, silent⟩⟩
    refine (sendRfce_follows sends holding silent client text _).bind ?_
    exact fun b r ⟨holding, only⟩ => ⟨holding, only, xml, wrote⟩
  | succ left ih =>
    unfold sendRfceModel
    refine (Program.follows_raise_bind _ _).mpr ⟨fun _ _ => ?_, fun _ _ => ⟨holding, silent⟩⟩
    refine (Program.follows_raise_bind _ _).mpr ⟨fun xml wrote => ?_, fun _ _ => ⟨holding, silent⟩⟩
    refine work_bind (.signXml client.signer xml rfce.rncEmisor) trivial holding
      fun signed holding => ?_
    have silent := silent_after silent _ signed nofun
    refine (Program.follows_raise_bind _ _).mpr ⟨fun text _ => ?_, fun _ _ => ⟨holding, silent⟩⟩
    refine (sendRfce_follows sends holding silent client text _).bind ?_
    intro b r ⟨holding, only⟩
    refine .ite (fun again => ?_) fun _ => ⟨holding, only, xml, wrote⟩
    -- a summary is sent again only when it was rejected
    simp only [Bool.and_eq_true, decide_eq_true_eq] at again
    exact ih _ holding fun received => only received again.1.2

/-- After a reception without a harm the handlers return a success. -/
theorem handleSendEcf_follows {body : Option Json} (sends : c.operation = .send body)
    (holding : Holding s c log) (silent : ¬ Received s c.operation log) (client : EcfClient)
    (cmd : SendEcfCommand) :
    (handleSendEcf s.ext client cmd).Follows (.logging (DirectAsks s c))
      (fun b result => Holding s c b ∧ (Received s c.operation b → Unharmed s c.operation b →
        ∃ r, result = .ok r)) (fun b _ => Harmed s c b) log := by
  unfold handleSendEcf
  refine Program.Follows.tryCatch (M := fun b _ => Harmed s c b) ?_ fun b error harmed =>
    ⟨harmed.1, fun received unharmed => absurd unharmed (harmed.2 received)⟩
  refine ((sendEcf_follows sends holding silent client _ _).mono (fun _ _ h => h)
    fun b _ unreceived => ⟨unreceived.1, fun received => absurd received unreceived.2⟩).bind ?_
  intro b response ⟨holding, only⟩
  refine work_bind .now trivial holding fun time holding => ?_
  refine (addNew_follows holding _).bind fun b' _ ⟨holding, earlier⟩ => ?_
  refine .ite (fun refused => ⟨holding, fun received _ => ?_⟩) fun _ => ⟨holding, fun _ _ => ⟨_, rfl⟩⟩
  rw [only ((earlier received).earlier nofun)] at refused
  cases refused

theorem handleSendRfce_follows {body : RfceBody γ} {next : ℕ → String}
    (sends : c.operation = .sendRfce body next) (holding : Holding s c log)
    (silent : ¬ Received s c.operation log) (client : EcfClient) (autoRetry : Bool)
    (getNext : ℕ → String) (rfce : Rfce γ) :
    (handleSendRfce s.ext s.lib client autoRetry getNext rfce).Follows (.logging (DirectAsks s c))
      (fun b result => Holding s c b ∧ (Received s c.operation b → Unharmed s c.operation b →
        ∃ r, result = .ok r)) (fun b _ => Harmed s c b) log := by
  unfold handleSendRfce
  refine Program.Follows.tryCatch (M := fun b _ => Harmed s c b) ?_ fun b error harmed =>
    ⟨harmed.1, fun received unharmed => absurd unharmed (harmed.2 received)⟩
  refine ((sendRfceModel_follows sends client autoRetry getNext 2 rfce holding silent).mono
    (fun _ _ h => h)
    fun b _ unreceived => ⟨unreceived.1, fun received => absurd received unreceived.2⟩).bind ?_
  intro b (response, rfce) ⟨holding, only, xml, wrote⟩
  refine (Program.follows_raise_bind _ _).mpr ⟨fun xml _ => ?_,
    fun error unwritten => nomatch wrote.symm.trans unwritten⟩
  refine work_bind .now trivial holding fun time holding => ?_
  refine (addNew_follows holding _).bind fun b' _ ⟨holding, earlier⟩ => ?_
  refine .ite (fun refused => ⟨holding, fun received _ => ?_⟩) fun _ => ⟨holding, fun _ _ => ⟨_, rfl⟩⟩
  exact absurd refused (only ((earlier received).earlier nofun))

/-- The response an ending delivers first. -/
def response : Ending → HttpResponse
  | .answer response => response
  | .answerInTry response _ => response

/-- After a reception without a harm the controllers answer a success. -/
theorem concludeSend_follows {ρ : Type} {fields : ρ → List (String × Json)} {label : String}
    {run : Procedure (Except String ρ)}
    (unnamed : ∀ r, ∀ field ∈ fields r, field.1 ≠ "documentId")
    (follows : run.Follows (.logging (DirectAsks s c))
      (fun b result => Holding s c b ∧ (Received s c.operation b → Unharmed s c.operation b →
        ∃ r, result = .ok r)) (fun b _ => Harmed s c b) log) :
    (concludeSend fields label run).Follows (.logging (DirectAsks s c))
      (fun b ending => Holding s c b ∧ (Received s c.operation b → Unharmed s c.operation b →
        Succeeds (response ending))) (fun b _ => Harmed s c b) log := by
  unfold concludeSend
  refine Program.Follows.bind (M := fun b (result : Except String (Except String ρ)) =>
    Holding s c b ∧ (Received s c.operation b → Unharmed s c.operation b →
      ∃ r, result = .ok (.ok r)))
    (attempt_follows follows ?_ ?_) fun b result ⟨holding, only⟩ => ?_
  · intro b result ⟨holding, only⟩
    refine ⟨holding, fun received unharmed => ?_⟩
    obtain ⟨r, rfl⟩ := only received unharmed
    exact ⟨r, rfl⟩
  · exact fun b what ⟨holding, harmed⟩ =>
      ⟨holding, fun received unharmed => absurd unharmed (harmed received)⟩
  · cases result with
    | error what =>
      exact ⟨holding, fun received unharmed => nomatch only received unharmed⟩
    | ok result =>
      refine ⟨holding, fun received unharmed => ?_⟩
      obtain ⟨r, same⟩ := only received unharmed
      obtain rfl := Except.ok.inj same
      exact ⟨fields r, rfl, unnamed r⟩

/-- **What the work reports.** -/
theorem work_follows (c : DirectCaller γ) (holding : Holding s c log)
    (silent : ¬ Received s c.operation log) :
    (c.operation.work s).Follows (.logging (DirectAsks s c))
      (fun b ending => Holding s c b ∧ (Received s c.operation b → Unharmed s c.operation b →
        Succeeds (response ending))) (fun b _ => Harmed s c b) log := by
  have early : ∀ ending : Ending, Holding s c log ∧ (Received s c.operation log →
      Unharmed s c.operation log → Succeeds (response ending)) := fun ending =>
    ⟨holding, fun received => absurd received silent⟩
  have harmless : Harmed s c log := ⟨holding, fun received => absurd received silent⟩
  have kinds : (∃ body, c.operation = .send body) ∨
      ∃ body getNext, c.operation = .sendRfce body getNext := by
    cases c.operation <;> simp
  rcases kinds with ⟨body, operation⟩ | ⟨body, getNext, operation⟩
  · have unnamed : ∀ r, ∀ field ∈ receptionJson r, field.1 ≠ "documentId" := by
      simp [receptionJson]
    have work : c.operation.work s = sendWork s.ext s.services body := by
      rw [operation]
      rfl
    rw [work]
    unfold sendWork
    dsimp only
    split
    · split
      · exact early _
      · refine .ite (fun _ => ?_) fun _ => harmless
        refine concludeSend_follows unnamed ?_
        refine (Program.follows_raise_bind _ _).mpr ⟨fun client _ => ?_, fun _ _ => harmless⟩
        exact handleSendEcf_follows operation holding silent client _
    · exact early _
  · have unnamed : ∀ r, ∀ field ∈ summaryJson r, field.1 ≠ "documentId" := by
      simp [summaryJson]
    have work : c.operation.work s =
        sendRfceWork s.ext s.lib s.services s.autoRetry getNext body := by
      rw [operation]
      rfl
    rw [work]
    cases body with
    | invalid => exact early _
    | notObject => exact early _
    | unreadable what => exact early _
    | model rfce =>
      refine .ite (fun _ => ?_) fun _ => harmless
      refine concludeSend_follows unnamed ?_
      refine (Program.follows_raise_bind _ _).mpr ⟨fun client _ => ?_, fun _ _ => harmless⟩
      exact handleSendRfce_follows operation holding silent client _ _ _

/-! ## What a request asks -/

/-- The reservation: it ends with the key held, when it is given, and nothing
received. -/
theorem reserve_follows (s : Setup γ) (c : DirectCaller γ) :
    (reserveOrGet s.ext c.scopedKey (s.ext.sha256 c.body) c.workerKeyId).Follows
      (.logging (DirectAsks s c))
      (fun b reservation => (reservation = .reserved → Holding s c b) ∧
        ¬ Received s c.operation b) (fun _ _ => True) [] := by
  let permits (log : Log) (r : Request) : Prop := ∃ statement, r = .idempotency statement ∧
    ReserveAsks c.scopedKey (s.ext.sha256 c.body) c.workerKeyId log statement
  have follows : (reserveOrGet s.ext c.scopedKey (s.ext.sha256 c.body) c.workerKeyId).Follows
      (.logging permits) (Shows c.scopedKey (s.ext.sha256 c.body)) (fun _ _ => True) [] :=
    reserveOrGet_follows fun log statement asks => ⟨statement, rfl, asks⟩
  have idle : ∀ (a : Log) (e : Event Api), permits a e.request →
      ¬ Ends e ∧ isReception s c.operation e = false := by
    rintro a ⟨r, x⟩ ⟨statement, same, asks⟩
    dsimp only at same
    subst same
    refine ⟨fun ends => ?_, rfl⟩
    cases ends <;> cases asks
  have reached : (reserveOrGet s.ext c.scopedKey (s.ext.sha256 c.body) c.workerKeyId).Follows
      (.logging permits) (fun b reservation => (reservation = .reserved → Holding s c b) ∧
        ¬ Received s c.operation b) (fun _ _ => True) [] := by
    refine (follows.remembers idle fun e member => absurd member List.not_mem_nil).mono
      (fun b reservation ⟨shows, quiet⟩ => ?_) fun _ _ _ => trivial
    refine ⟨?_, fun ⟨e, member, received⟩ => ?_⟩
    · rintro rfl
      obtain ⟨a, e, rfl, acquires⟩ := shows
      exact ⟨⟨e, by simp, acquires⟩, fun ⟨e, member, ends⟩ => (quiet e member).1 ends⟩
    · rw [(quiet e member).2] at received
      cases received
  refine reached.and reached (fun b r ⟨statement, same, asks⟩ _ => ?_)
    fun _ _ _ _ same => ⟨same, same⟩
  subst same
  exact .reserves asks

/-- A stored success names no document. -/
theorem storedDocumentId_none (renders : RendersMembers s.ext) {fields : List (String × Json)}
    (unnamed : ∀ field ∈ fields, field.1 ≠ "documentId") :
    storedDocumentId s.ext (s.ext.render (.object fields)) = none := by
  unfold storedDocumentId
  split
  · split
    · next stored parsed =>
      have absent : stored.find? (fun member => decide (member.1 = "documentId")) = none := by
        rw [List.find?_eq_none]
        intro member here same
        obtain ⟨field, among, named⟩ := renders fields stored parsed member here
        exact unnamed field among (named.trans (of_decide_eq_true same))
      rw [absent]
      rfl
    · rfl
  · rfl

/-- The callback of a request that holds its key: only a success completes the
record after a reception without a harm. -/
theorem directCallback_follows (renders : RendersMembers s.ext) {response : HttpResponse}
    (holding : Holding s c log) (only : Received s c.operation log →
      Unharmed s c.operation log → Succeeds response) :
    (idempotentCallback s.ext c.scopedKey response).Follows (.logging (DirectAsks s c))
      (fun _ _ => True) (fun b _ => Harmed s c b) log := by
  unfold idempotentCallback
  split
  · refine ask_bind_follows (.idempotency (.complete _ _ _ _)) (.completes holding ?_)
      fun (done : Except String Unit) => ?_
    · intro received unharmed
      obtain ⟨fields, rfl, unnamed⟩ := only received unharmed
      exact ⟨le_refl 200, (by decide : 200 < 300), storedDocumentId_none renders unnamed⟩
    · refine (Program.follows_raise_bind _ _).mpr ⟨fun _ _ => ?_, ?_⟩
      · exact ask_follows (.respond response) (.answers response) fun _ => trivial
      · rintro error rfl
        refine ⟨holding.append nofun, fun received => harmed_of_fails ?_ .complete⟩
        exact received.earlier nofun
  · next uncached =>
    refine ask_bind_follows (.idempotency (.release _)) (.releases holding ?_) fun _ => ?_
    · intro received unharmed
      obtain ⟨fields, rfl, -⟩ := only received unharmed
      exact uncached rfl
    · exact ask_follows (.respond response) (.answers response) fun _ => trivial

/-- **What a request to send asks.** -/
theorem request_follows (renders : RendersMembers s.ext) (c : DirectCaller γ) :
    ((c.request s).handle s.ext).Follows (.logging (DirectAsks s c)) (fun _ _ => True)
      (fun _ _ => True) [] := by
  have answering : ∀ {response : HttpResponse} {reservation : Reservation} {b : Log},
      (respond response >>= fun _ => pure reservation : Procedure Reservation).Follows
        (.logging (DirectAsks s c)) (fun _ _ => True) (fun _ _ => True) b := fun {response} _ _ =>
    ask_bind_follows (.respond response) (.answers response) fun _ => trivial
  unfold IdempotentRequest.handle
  refine (reserve_follows s c).bind fun b reservation ⟨holds, silent⟩ => ?_
  cases reservation with
  | alreadyCompleted statusCode contentType body => exact answering
  | alreadyProcessing => exact answering
  | payloadMismatch => exact answering
  | reserved =>
    refine Program.Follows.bind (M := fun _ _ => True) ?_ fun _ _ _ => trivial
    refine Program.Follows.tryCatch (M := fun b _ => Harmed s c b) ?_ fun b error harmed => ?_
    · refine (work_follows c (holds rfl) silent).bind fun b ending ⟨holding, only⟩ => ?_
      cases ending with
      | answer response => exact directCallback_follows renders holding only
      | answerInTry response label =>
        refine (directCallback_follows renders holding only).tryCatch fun b what harmed => ?_
        exact directCallback_follows renders harmed.1 fun received unharmed =>
          absurd unharmed (harmed.2 received)
    · exact ask_bind_follows (.idempotency (.release _)) (.releases harmed.1 harmed.2)
        fun _ => trivial

/-! ## What the statements do -/

variable {ext : Externals} {key : String} {i : Input} {w : World}

/-- The record of a key is a success of this API. -/
def Recorded (ext : Externals) (key : String) (w : World) : Prop :=
  ∃ row ∈ w.idempotency, row.key = key ∧ row.status ≠ "Processing" ∧
    SuccessOf ext row.statusCode row.responseBody

/-- A key under way stays so until its reservation is ended. -/
theorem held_answer (held : HeldSince key 0 w.idempotency) (unsettled : ¬ Settles key i r) :
    HeldSince key 0 ((host ext).answer i w r).2.idempotency := by
  by_cases store : ∃ statement, r = .idempotency statement
  · obtain ⟨statement, rfl⟩ := store
    simp only [host, answerAt]
    cases failed : i.databaseError with
    | some e => cases statement <;> simpa only [idempotencyAnswer, failed] using held
    | none =>
      cases statement with
      | fetch k => exact held
      | documentState id => exact held
      | renewWithHash k hash worker =>
        simp only [idempotencyAnswer, failed]
        refine held.map fun row named processing _ => ?_
        split
        · exact ⟨named, rfl, Nat.zero_le _⟩
        · exact ⟨named, processing, Nat.zero_le _⟩
      | renew k worker =>
        simp only [idempotencyAnswer, failed]
        refine held.map fun row named processing _ => ?_
        split
        · exact ⟨named, rfl, Nat.zero_le _⟩
        · exact ⟨named, processing, Nat.zero_le _⟩
      | reclaim k worker =>
        simp only [idempotencyAnswer, failed]
        refine held.map fun row named processing _ => ?_
        split
        · exact ⟨named, processing, Nat.zero_le _⟩
        · exact ⟨named, processing, Nat.zero_le _⟩
      | insert k hash worker =>
        simp only [idempotencyAnswer, failed]
        split
        · exact held
        · obtain ⟨row, here, rest⟩ := held
          exact ⟨row, List.mem_append_left _ here, rest⟩
      | complete k code contentType body =>
        simp only [idempotencyAnswer, failed]
        exact held.onRecord (fun same => unsettled ⟨congrArg some same, failed⟩) _
      | release k =>
        simp only [idempotencyAnswer, failed]
        obtain ⟨row, here, named, rest⟩ := held
        refine ⟨row, List.mem_filter.mpr ⟨here, ?_⟩, named, rest⟩
        have other : row.key ≠ k := fun same =>
          unsettled ⟨congrArg some (same.symm.trans named), failed⟩
        simp [other]
  · rwa [answer_idempotency (not_exists.mp store)]

/-- A recorded success stays until it is renewed, which it never is. -/
theorem recorded_answer (recorded : Recorded ext key w) (unique : PrimaryKey w.idempotency)
    (renewals : Renews key i r → FailedRecord ext key w) :
    Recorded ext key ((host ext).answer i w r).2 := by
  obtain ⟨row, here, named, isOver, success⟩ := id recorded
  have unrenewed : ¬ Renews key i r := by
    intro renews
    obtain ⟨row', here', named', -, failed⟩ := renewals renews
    obtain rfl := unique.same here here' (named.trans named'.symm)
    exact failed success
  have kept : ∀ change : IdempotencyRecord → IdempotencyRecord, change row = row →
      row ∈ w.idempotency.map change := fun change same => List.mem_map.mpr ⟨row, here, same⟩
  by_cases store : ∃ statement, r = .idempotency statement
  · obtain ⟨statement, rfl⟩ := store
    refine ⟨row, ?_, named, isOver, success⟩
    simp only [host, answerAt]
    cases failed : i.databaseError with
    | some e => cases statement <;> simpa only [idempotencyAnswer, failed] using here
    | none =>
      cases statement with
      | fetch k => exact here
      | documentState id => exact here
      | renewWithHash k hash worker =>
        simp only [idempotencyAnswer, failed]
        refine kept _ (if_neg fun same => ?_)
        exact unrenewed ⟨congrArg some (same.symm.trans named), failed⟩
      | renew k worker =>
        simp only [idempotencyAnswer, failed]
        refine kept _ (if_neg fun same => ?_)
        exact unrenewed ⟨congrArg some (same.symm.trans named), failed⟩
      | reclaim k worker =>
        simp only [idempotencyAnswer, failed]
        exact kept _ (if_neg (by simp [isOver]))
      | insert k hash worker =>
        simp only [idempotencyAnswer, failed]
        split
        · exact here
        · exact List.mem_append_left _ here
      | complete k code contentType body =>
        simp only [idempotencyAnswer, failed]
        refine kept _ ?_
        simp [isOver]
      | release k =>
        simp only [idempotencyAnswer, failed]
        exact List.mem_filter.mpr ⟨here, by simp [isOver]⟩
  · rw [Recorded, answer_idempotency (not_exists.mp store)]
    exact recorded

/-- Completing a key under way records its response. -/
theorem complete_records (held : HeldSince key 0 w.idempotency) (runs : i.databaseError = none)
    {code : ℕ} {body : String} (success : SuccessOf ext code body) (contentType : String) :
    Recorded ext key
      ((host ext).answer i w (.idempotency (.complete key code contentType body))).2 := by
  obtain ⟨row, here, named, processing, -⟩ := held
  simp only [host, answerAt, idempotencyAnswer, runs]
  refine ⟨_, List.mem_map_of_mem here, ?_⟩
  rw [if_pos named]
  dsimp only
  rw [if_pos processing]
  exact ⟨named, (by decide : "Completed" ≠ "Processing"), success⟩

/-- A key is not under way and recorded. -/
theorem not_held_of_recorded (recorded : Recorded ext key w) (unique : PrimaryKey w.idempotency) :
    ¬ HeldSince key 0 w.idempotency := by
  rintro ⟨row, here, named, processing, -⟩
  obtain ⟨row', here', named', isOver, -⟩ := recorded
  obtain rfl := unique.same here here' (named.trans named'.symm)
  exact isOver processing

/-! ## One move -/

variable {p : Senders γ} {t u : ℕ} {callers : ℕ → DirectCaller γ}

/-- Who has received, in a pool. -/
abbrev HasReceived (s : Setup γ) (p : Senders γ) (t : ℕ) : Prop :=
  Received s (p.thread t).operation.operation (p.thread t).log

/-- The name of the record of a request under way. -/
abbrev keyOf (p : Senders γ) (t : ℕ) : String := (p.thread t).operation.scopedKey

/-- **The invariant.** A live request has the record of its key under way, alone;
one that has received and ended its reservation has left a success. -/
structure Orderly (s : Setup γ) (p : Senders γ) : Prop where
  unique : PrimaryKey p.world.idempotency
  held : ∀ t, Live s p t → HeldSince (keyOf p t) 0 p.world.idempotency
  alone : ∀ t u, Live s p t → Live s p u → keyOf p t = keyOf p u → t = u
  recorded : ∀ t, HasReceived s p t → Ended (p.thread t).log →
    Recorded s.ext (keyOf p t) p.world
  acquired : ∀ t, HasReceived s p t →
    Acquired ((p.thread t).operation.request s) (p.thread t).log
  unharmed : ∀ t, Unharmed s (p.thread t).operation.operation (p.thread t).log

theorem acquired_concat {q : IdempotentRequest} :
    Acquired q (log ++ [e]) ↔ Acquired q log ∨ Acquires q.scopedKey e := by
  simp only [Acquired, List.mem_append, List.mem_singleton, or_and_right, exists_or,
    exists_eq_left]

/-- Who settles a key settles its own, under which it is held. -/
theorem DirectAsks.settles (asks : DirectAsks s c log r) (settles : Settles key i r) :
    Holding s c log ∧ c.scopedKey = key := by
  obtain ⟨named, -⟩ := settles
  cases asks with
  | works works holding =>
    cases r with
    | idempotency statement => exact works.elim
    | _ => cases named
  | answers response => cases named
  | reserves asks => cases asks <;> cases named
  | completes holding stands =>
    cases named
    exact ⟨holding, rfl⟩
  | releases holding failed =>
    cases named
    exact ⟨holding, rfl⟩

/-- And ends its reservation. -/
theorem ends_of_settles (settles : Settles key i r) : Ends ⟨r, ((host ext).answer i w r).1⟩ := by
  obtain ⟨named, runs⟩ := settles
  cases r with
  | idempotency statement =>
    cases statement with
    | complete k code contentType body =>
      simp only [host, answerAt, idempotencyAnswer, runs]
      exact .complete
    | release k => exact .release
    | _ => cases named
  | _ => cases named

/-- Who receives holds its key. -/
theorem DirectAsks.receives (asks : DirectAsks s c log r) {x : r.Reply}
    (reception : isReception s op ⟨r, x⟩ = true) : Holding s c log ∧ ¬ Ends ⟨r, x⟩ := by
  cases asks with
  | works works holding => exact ⟨holding, not_ends_of_working works⟩
  | answers response => exact absurd reception Bool.false_ne_true
  | reserves asks => exact absurd reception Bool.false_ne_true
  | completes holding stands => exact absurd reception Bool.false_ne_true
  | releases holding failed => exact absurd reception Bool.false_ne_true

/-- A statement that runs does not fail. -/
theorem not_fails_of_runs (runs : Runs i w r) : ¬ Fails ⟨r, ((host ext).answer i w r).1⟩ := by
  obtain ⟨executes, commits⟩ := runs
  generalize answered : ((host ext).answer i w r).1 = x
  intro fails
  cases fails with
  | insert =>
    simp only [host, answerAt, executes, Input.database] at answered
    have done : (commit w.documents _).toOption.isSome = true := commits
    cases saved : commit w.documents _ with
    | ok documents =>
      rw [saved] at answered
      cases answered
    | error error =>
      rw [saved] at done
      cases done
  | complete =>
    simp only [host, answerAt, idempotencyAnswer, executes] at answered
    cases answered

/-- Another request that is live rules out that a key is given away. -/
theorem Orderly.not_acquires (orderly : Orderly s p) (careful : CarefulStep s p t i r)
    (live : Live s p u) : ¬ Acquires (keyOf p u) ⟨r, ((host s.ext).answer i p.world r).1⟩ := by
  intro acquires
  obtain ⟨row, here, named, processing, -⟩ := orderly.held u live
  cases acquires.grant with
  | renewal renews =>
    obtain ⟨row', here', named', isOver, -⟩ := careful.renewals _ renews
    obtain rfl := orderly.unique.same here here' (named.trans named'.symm)
    exact isOver processing
  | reclaim here' named' processing' expired runs =>
    exact careful.leases _ rfl ⟨_, here', named', processing', expired⟩ u live rfl
  | insert absent runs => exact absent row here named

/-- Who is live after a step was live before, unless the step has given it its
key. -/
theorem Live.before (rest : ∃ next, (p.thread t).rest = .ask r next)
    (live : Live s (p.move (host s.ext) (.step t i)) u) :
    Live s p u ∨ u = t ∧
      Acquires (keyOf p u) ⟨r, ((host s.ext).answer i p.world r).1⟩ := by
  obtain ⟨next, rest⟩ := rest
  by_cases same : u = t
  · subst same
    obtain ⟨⟨acquired, open'⟩, -⟩ := live
    rw [Pool.operation_move, Pool.log_step rest, if_pos rfl] at acquired
    rw [Pool.log_step rest, if_pos rfl] at open'
    rcases acquired_concat.mp acquired with old | new
    · have holding : Holding s (p.thread u).operation (p.thread u).log :=
        ⟨old, fun ended => open' (ended_concat.mpr (.inl ended))⟩
      exact .inl ⟨holding, .inl ⟨r, next, rest⟩⟩
    · exact .inr ⟨rfl, new⟩
  · have still : (p.move (host s.ext) (.step t i)).thread u = p.thread u :=
      Pool.thread_step same i
    rw [Live, still] at live
    exact .inl live

/-- A request that has received ends its reservation with a success. -/
theorem Orderly.ending (orderly : Orderly s p) (careful : CarefulStep s p t i r)
    (asks : DirectAsks s (p.thread t).operation (p.thread t).log r)
    (received : HasReceived s p t) (ends : Ends ⟨r, ((host s.ext).answer i p.world r).1⟩) :
    Recorded s.ext (keyOf p t) ((host s.ext).answer i p.world r).2 := by
  have unharmed := orderly.unharmed t
  cases asks with
  | works works holding => exact absurd ends (not_ends_of_working works)
  | answers response => exact nomatch ends
  | reserves asks =>
    generalize ((host s.ext).answer i p.world _).1 = x at ends
    cases ends <;> cases asks
  | completes holding stands =>
    have live : Live s p t := ⟨holding, .inr received⟩
    exact complete_records (orderly.held t live) (careful.runs received).1
      (stands received unharmed) _
  | releases holding failed => exact absurd unharmed (failed received)

/-- **Step.** A careful step keeps the invariant. -/
theorem Orderly.step (orderly : Orderly s p) (careful : CarefulStep s p t i r)
    (rest : ∃ next, (p.thread t).rest = .ask r next)
    (asks : DirectAsks s (p.thread t).operation (p.thread t).log r) :
    Orderly s (p.move (host s.ext) (.step t i)) := by
  obtain ⟨next, running⟩ := id rest
  have world : (p.move (host s.ext) (.step t i)).world = ((host s.ext).answer i p.world r).2 := by
    rw [Pool.move_step running]
  have own : ((p.move (host s.ext) (.step t i)).thread t).log =
      (p.thread t).log ++ [⟨r, ((host s.ext).answer i p.world r).1⟩] := by
    rw [Pool.log_step running, if_pos rfl]
  have underWay : ∀ {u}, Holding s (p.thread t).operation (p.thread t).log → u = t → Live s p u :=
    fun holding same => same ▸ ⟨holding, .inl ⟨r, next, running⟩⟩
  refine ⟨orderly.unique.move s.ext _, fun u live => ?_, fun u v live live' same => ?_,
    fun u received ended => ?_, fun u received => ?_, fun u => ?_⟩
  · -- a live request keeps its record under way, or gets it with this step
    rw [keyOf, Pool.operation_move, world]
    rcases live.before rest with before | ⟨rfl, acquires⟩
    · refine held_answer (orderly.held u before) fun settles => ?_
      obtain ⟨holding, same⟩ := asks.settles settles
      obtain rfl := orderly.alone u t before (underWay holding rfl) same.symm
      rw [Live, Holding, own] at live
      exact live.1.2 (ended_concat.mpr (.inr (ends_of_settles settles)))
    · obtain ⟨row, here, named, processing, -⟩ := acquires.held fun renews => by
        obtain ⟨row, here, named, -⟩ := careful.renewals _ renews
        exact ⟨row, here, named⟩
      exact ⟨row, here, named, processing, Nat.zero_le _⟩
  · -- two live requests of one key were live before
    have sameKey : keyOf p u = keyOf p v := by
      rwa [keyOf, keyOf, Pool.operation_move, Pool.operation_move] at same
    rcases live.before rest with before | ⟨rfl, acquires⟩
    · rcases live'.before rest with before' | ⟨rfl, acquires⟩
      · exact orderly.alone u v before before' sameKey
      · rw [← sameKey] at acquires
        exact absurd acquires (orderly.not_acquires careful before)
    · rcases live'.before rest with before' | ⟨rfl, -⟩
      · rw [sameKey] at acquires
        exact absurd acquires (orderly.not_acquires careful before')
      · rfl
  · -- a success that was recorded stays, and a completion records one
    rw [keyOf, Pool.operation_move, world]
    by_cases same : u = t
    · subst same
      rw [HasReceived, Pool.operation_move, own] at received
      rw [own] at ended
      rcases received_concat.mp received with received | reception
      · rcases ended_concat.mp ended with ended | ends
        · exact recorded_answer (orderly.recorded u received ended) orderly.unique
            (careful.renewals _)
        · exact orderly.ending careful asks received ends
      · obtain ⟨holding, open'⟩ := asks.receives reception
        exact absurd (ended_concat.mp ended) (not_or.mpr ⟨holding.2, open'⟩)
    · have still : (p.move (host s.ext) (.step t i)).thread u = p.thread u :=
        Pool.thread_step same i
      rw [HasReceived, still] at received
      rw [still] at ended
      exact recorded_answer (orderly.recorded u received ended) orderly.unique
        (careful.renewals _)
  · by_cases same : u = t
    · subst same
      rw [HasReceived, Pool.operation_move, own] at received
      rw [Pool.operation_move, own]
      rcases received_concat.mp received with received | reception
      · exact (orderly.acquired u received).append _
      · exact (asks.receives reception).1.1.append _
    · have still : (p.move (host s.ext) (.step t i)).thread u = p.thread u :=
        Pool.thread_step same i
      rw [HasReceived, still] at received
      rw [still]
      exact orderly.acquired u received
  · by_cases same : u = t
    · subst same
      rw [Pool.operation_move, own]
      exact Along.append (orderly.unharmed u) fun received =>
        not_fails_of_runs (careful.runs received)
    · have still : (p.move (host s.ext) (.step t i)).thread u = p.thread u :=
        Pool.thread_step same i
      rw [still]
      exact orderly.unharmed u

/-- A death keeps it. -/
theorem Orderly.kill (orderly : Orderly s p) (t : ℕ) : Orderly s (p.move (host s.ext) (.kill t)) := by
  have log : ∀ u, ((p.move (host s.ext) (.kill t)).thread u).log = (p.thread u).log :=
    Pool.log_kill _ p t
  have before : ∀ u, Live s (p.move (host s.ext) (.kill t)) u → Live s p u := by
    rintro u ⟨holding, underWay⟩
    rw [Pool.operation_move, log] at holding underWay
    refine ⟨holding, underWay.imp_left fun running => ?_⟩
    simp only [Pool.move, Function.update_apply] at running
    split at running
    · obtain ⟨r, next, rest⟩ := running
      cases rest
    · exact running
  refine ⟨orderly.unique, fun u live => ?_, fun u v live live' same => ?_,
    fun u received ended => ?_, fun u received => ?_, fun u => ?_⟩
  · rw [keyOf, Pool.operation_move]
    exact orderly.held u (before u live)
  · rw [keyOf, keyOf, Pool.operation_move, Pool.operation_move] at same
    exact orderly.alone u v (before u live) (before v live') same
  · rw [HasReceived, Pool.operation_move, log] at received
    rw [log] at ended
    rw [keyOf, Pool.operation_move]
    exact orderly.recorded u received ended
  · rw [HasReceived, Pool.operation_move, log] at received
    rw [Pool.operation_move, log]
    exact orderly.acquired u received
  · rw [Pool.operation_move, log]
    exact orderly.unharmed u

/-! ## Every run -/

/-- A request that transmits is the only one of its key that has received. -/
theorem Orderly.transmits (orderly : Orderly s p)
    (asks : DirectAsks s (p.thread u).operation (p.thread u).log r) (posts : isPost r = true)
    (running : (p.thread u).Running) (received : HasReceived s p t)
    (same : keyOf p u = keyOf p t) : u = t := by
  have holding : Holding s (p.thread u).operation (p.thread u).log := by
    cases asks with
    | works works holding => exact holding
    | answers response => cases posts
    | reserves asks => cases posts
    | completes holding stands => exact holding
    | releases holding failed => exact holding
  have live : Live s p u := ⟨holding, .inl running⟩
  by_cases ended : Ended (p.thread t).log
  · refine absurd (orderly.held u live) (same ▸ ?_)
    exact not_held_of_recorded (orderly.recorded t received ended) orderly.unique
  · exact orderly.alone u t live ⟨⟨orderly.acquired t received, ended⟩, .inr received⟩ same

/-- The invariant of a run. -/
structure Unrepeated (s : Setup γ) (callers : ℕ → DirectCaller γ) (p : Senders γ) : Prop where
  orderly : Orderly s p
  verified : p.Verified (DirectAsks s) fun _ _ _ => True
  told : p.Told
  operations : ∀ t, (p.thread t).operation = callers t
  quiet : NoRetransmission s callers p.history

/-- A step adds its event to the history. -/
theorem Unrepeated.quiet_step (kept : Unrepeated s callers p) {next}
    (rest : (p.thread u).rest = .ask (I := Api) r next) (x : r.Reply) :
    NoRetransmission s callers (p.history ++ [(u, ⟨r, x⟩)]) := by
  refine List.pairwise_append.mpr ⟨kept.quiet, List.pairwise_singleton _ _, ?_⟩
  rintro ⟨t, e⟩ happened last new reception other ⟨tenant, key, -⟩
  obtain rfl := List.mem_singleton.mp new
  have received : HasReceived s p t := by
    refine ⟨e, (kept.told t e).mp happened, ?_⟩
    rwa [kept.operations t]
  have sameKey : keyOf p u = keyOf p t := by
    rw [keyOf, keyOf, kept.operations, kept.operations, DirectCaller.scopedKey,
      DirectCaller.scopedKey, Caller.scopedKey, Caller.scopedKey]
    exact congrArg₂ (fun a b => a ++ ":" ++ b) tenant key
  refine Bool.eq_false_iff.mpr fun posts => other ?_
  exact kept.orderly.transmits (kept.verified.permitted rest) posts ⟨r, next, rest⟩ received
    sameKey

/-- **Step.** -/
theorem Unrepeated.move (kept : Unrepeated s callers p) {m : Move Input}
    (careful : Careful s p m) : Unrepeated s callers (p.move (host s.ext) m) := by
  refine ⟨?_, kept.verified.move m, kept.told.move m, fun t => ?_, ?_⟩
  · cases m with
    | kill t => exact kept.orderly.kill t
    | step t i =>
      by_cases running : (p.thread t).Running
      · obtain ⟨r, next, rest⟩ := running
        exact kept.orderly.step (careful r (by simp [Thread.request, rest])) ⟨next, rest⟩
          (kept.verified.permitted rest)
      · rw [Pool.move_idle running]
        exact kept.orderly
  · rw [Pool.operation_move]
    exact kept.operations t
  · cases m with
    | kill t => exact kept.quiet
    | step t i =>
      by_cases running : (p.thread t).Running
      · obtain ⟨r, next, rest⟩ := running
        rw [Pool.move_step rest]
        exact kept.quiet_step rest _
      · rw [Pool.move_idle running]
        exact kept.quiet

/-- **No retransmission.** In every schedule of any number of requests to send,
from any records, whose steps are all careful, no request transmits after
another with its tenant, key and body has had its document received. -/
theorem received_never_retransmitted (s : Setup γ) (callers : ℕ → DirectCaller γ) (w : World)
    (moves : List (Move Input)) (renders : RendersMembers s.ext)
    (unique : PrimaryKey w.idempotency)
    (met : (senders s callers w).Meets (host s.ext) (Careful s) moves) :
    NoRetransmission s callers ((senders s callers w).play (host s.ext) moves).history := by
  have start : Unrepeated s callers (senders s callers w) := by
    refine ⟨⟨unique, fun t live => ?_, fun t u live => ?_, fun t received => ?_,
      fun t received => ?_, fun t => along_nil _⟩, fun t => request_follows renders _,
      Pool.told_start _ _ _, fun t => rfl, List.Pairwise.nil⟩
    · obtain ⟨e, member, -⟩ := live.1.1
      cases member
    · obtain ⟨e, member, -⟩ := live.1.1
      cases member
    · obtain ⟨e, member, -⟩ := received
      cases member
    · obtain ⟨e, member, -⟩ := received
      cases member
  exact (Pool.play_invariant (fun _ _ kept careful => kept.move careful) start met).quiet

/-! ## A failure after the reception -/

/-- A library whose functions the sample does not reach. -/
def sampleLibrary : RfceFunctions Unit where
  validateRfce _ := []
  serialize _ := .ok ""

/-- What `/send` answers a reception in the sample, rendered. -/
def sampleReception : String := "\x7b\"error\":null,\"mensaje\":null,\"trackId\":\"T1\"\x7d"

/-- A deployment, with what its JSON library does to that answer. -/
def sampleSetup : Setup Unit where
  ext :=
    { sampleExternals with
      render := fun value =>
        match value with
        | .object fields =>
          if fields.map Prod.fst = ["trackId", "error", "mensaje"] then sampleReception else ""
        | _ => ""
      parseStored := fun text =>
        if text = sampleReception then
          some (.object [("error", .null), ("mensaje", .null), ("trackId", .string "T1")])
        else none }
  lib := sampleLibrary
  services := sampleServices
  autoRetry := false

theorem sample_renders : RendersMembers sampleSetup.ext := by
  intro fields stored parsed member here
  by_cases names : fields.map Prod.fst = ["trackId", "error", "mensaje"]
  · have among : member.1 ∈ fields.map Prod.fst := by
      simp only [sampleSetup, names, if_true] at parsed
      obtain rfl := Json.object.inj (Option.some.inj parsed)
      rw [names]
      simp only [List.mem_cons, List.not_mem_nil, or_false] at here
      rcases here with rfl | rfl | rfl <;> simp
    obtain ⟨field, here, same⟩ := List.mem_map.mp among
    exact ⟨field, here, same⟩
  · have unread : ¬ "" = sampleReception := by decide
    simp only [sampleSetup, if_neg names, if_neg unread] at parsed
    cases parsed

/-- A document, sent again under its key. -/
def resent : ℕ → DirectCaller Unit := fun _ =>
  { operation := .send (some (.object
      [("xmlContent", .string "<ECF/>"), ("fileName", .string "101672919E310000000001.xml"),
        ("rncEmisor", .string "101672919"), ("eNcf", .string "E310000000001")]))
    tenantId := "tenant"
    idempotencyKey := "key"
    body := "body"
    workerKeyId := "worker"
    keyed := by decide }

/-- The first request is received, and its insert runs as the surroundings
decide; then its answer, and the retry. -/
def receivedThen (saving : Input) : List (Move Input) :=
  [.step 0 {}, .step 0 {}, .step 0 {}, .step 0 {}, .step 0 { http := { text := "trackId" } },
    .step 0 {}, .step 0 { text := "document" }, .step 0 {}, .step 0 saving, .step 0 {}, .step 0 {},
    .step 1 {}, .step 1 {}, .step 1 {}, .step 1 {}]

/-- A careful step that reclaims and renews nothing. -/
def Prompt (s : Setup γ) (p : Senders γ) : Move Input → Prop
  | .kill _ => True
  | .step t i => ∀ r ∈ (p.thread t).request,
      (HasReceived s p t → Runs i p.world r) ∧ reclaimedKey r = none ∧ renewedKey r = none

instance (s : Setup γ) (p : Senders γ) : DecidablePred (Prompt s p)
  | .kill _ => .isTrue trivial
  | .step t i => inferInstanceAs (Decidable (∀ r ∈ (p.thread t).request,
      (HasReceived s p t → Runs i p.world r) ∧ reclaimedKey r = none ∧ renewedKey r = none))

theorem Prompt.careful {m : Move Input} (prompt : Prompt s p m) : Careful s p m := by
  cases m with
  | kill t => trivial
  | step t i =>
    intro r asks
    obtain ⟨runs, unreclaimed, unrenewed⟩ := prompt r asks
    refine ⟨runs, fun key reclaims => ?_, fun key renews => ?_⟩
    · cases unreclaimed.symm.trans reclaims
    · cases unrenewed.symm.trans renews.1

theorem received_never_retransmitted_resent : NoRetransmission sampleSetup resent
    ((senders sampleSetup resent sampleWorld).play (host sampleSetup.ext)
      (receivedThen {})).history :=
  received_never_retransmitted sampleSetup resent sampleWorld (receivedThen {}) sample_renders
    (by decide) (Pool.Meets.mono (C := Prompt sampleSetup) (fun _ _ prompt => prompt.careful)
      (by decide +kernel))

/-- The insert fails after the reception: the request is answered 400, its
record is renewed, and the document transmitted again. -/
theorem retry_retransmits : ¬ NoRetransmission sampleSetup resent
    ((senders sampleSetup resent sampleWorld).play (host sampleSetup.ext)
      (receivedThen { databaseError := some "connection lost" })).history := by
  decide +kernel

end EcfDgii.Retransmissions
