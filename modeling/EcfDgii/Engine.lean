import EcfDgii.DgiiReplies
import EcfDgii.Execution
import EcfDgii.Tables

/-!
The engine's surroundings: what its operations ask for, and who answers.

`Request` lists every effect of the modelled code: a SQL statement or
transaction, a signature, the clock, a request to DGII.  A transmission is two
requests, `post` when the bytes leave and `await` when the reply (or the
failure) comes back, so that another operation may run, or this one may die,
while a transmission is in flight.

`Engine.host` answers them over a `World`: the three tables, the clock and the
number of transmissions so far.  What the surroundings decide in a step is its
`Input`: how much time passes, whether the database fails, what DGII replies,
which of several matching rows comes first.  Nothing is assumed of it.
-/

set_option autoImplicit false

namespace EcfDgii.Engine

open EcfDgii.Text EcfDgii.Timestamps EcfDgii.Documents EcfDgii.DgiiReplies EcfDgii.Tables
open EcfDgii.Programs EcfDgii.Execution

/-! ## Parties -/

/-- `IEcfXmlSigner`: which certificate it signs with. -/
structure Signer where
  certificate : String
  usesFallbackCertificate : Bool := false
  deriving DecidableEq

/-- `EcfClient`: the options it was built with. -/
structure EcfClient where
  rncEmisor : String
  ambiente : AmbienteEnum
  validateSchemasLocal : Bool := false
  signer : Signer
  deriving DecidableEq

/-- The name of a transmitted file, `rncEmisor + eNcf + ".xml"`. -/
structure EcfFileName where
  rncEmisor : String
  eNcf : String
  deriving DecidableEq

/-- The two reception routes. -/
inductive Route
  | recepcion
  | recepcionFc
  deriving DecidableEq

/-- The queries of a submission or a poll. -/
inductive Consulta
  | resultado (trackId : String)
  | estado (rncEmisor eNcf : String) (rncComprador codigoSeguridad : Option String)
  | trackIds (rncEmisor eNcf : String)
  deriving DecidableEq

/-! ## Code outside the model -/

/-- Functions of other libraries, and the parts of the XML builders that the
operations do not look at: the text of a document after its eNCF, with the
totals it prints. -/
structure Externals extends Parsers where
  /-- `EcfSchemaValidator::validate`: the errors of an invalid document. -/
  validate : String → Option (List String)
  /-- `extractSignatureValue`. -/
  signatureValue : String → String
  /-- `buildXmlFromCanonical` after the eNCF: text, total and ITBIS in pesos. -/
  cuerpoEcf : CanonicalDocumentDto → String → String → String → ℕ → String × ℚ × ℚ
  /-- `buildRfceXml` after the eNCF. -/
  cuerpoRfce : EcfDocument → CanonicalDocumentDto → String → ℕ → String
  /-- `CanonicalRequestHelper::computeSha256Hex`. -/
  sha256 : String → String
  /-- `Json::writeString`. -/
  render : Json → String
  /-- `Json::parseFromStream`. -/
  parseStored : String → Option Json
  /-- How the database reads a text written to a `timestamptz` column. -/
  instant : String → ℤ

/-! ## Responses -/

/-- The body of a response: JSON, or a text with its content type. -/
inductive Body
  | json (value : Json)
  | text (contentType content : String)

/-- `drogon::HttpResponse`. -/
structure HttpResponse where
  statusCode : ℕ
  headers : List (String × String) := []
  body : Body

/-- `json(body, code)`. -/
def json (fields : List (String × Json)) (statusCode : ℕ) : HttpResponse :=
  { statusCode := statusCode, body := .json (.object fields) }

/-- `json(err(message), code)`. -/
def err (message : String) (statusCode : ℕ) : HttpResponse :=
  json [("error", .string message)] statusCode

/-! ## Requests -/

/-- The statements of `DbIdempotencyStore`. -/
inductive IdempotencyStatement
  | fetch (key : String)
  | documentState (id : String)
  | renewWithHash (key payloadHash workerKeyId : String)
  | renew (key workerKeyId : String)
  | reclaim (key workerKeyId : String)
  | insert (key payloadHash workerKeyId : String)
  | complete (key : String) (statusCode : ℕ) (contentType body : String)
  | release (key : String)
  deriving DecidableEq

/-- What an idempotency statement returns. -/
def IdempotencyStatement.Reply : IdempotencyStatement → Type
  | .fetch _ => Except String (Option (IdempotencyRecord × Bool))
  | .documentState _ => Except String (Option String)
  | .reclaim _ _ => Except String Bool
  | .insert _ _ _ => Except String Bool
  | _ => Except String Unit

/-- Everything the modelled operations ask for. -/
inductive Request
  | now
  | newUuid
  | documentBySourceTxnId (tenantId sourceTxnId : String) (ambiente : Option String)
  | documentById (id : String)
  | documentByENcf (eNcf : String)
  | documentByTrackId (trackId : String)
  | documentsDue (minAgeCutoff pollDueCutoff : String) (limit : ℕ)
  | saveChanges (writes : List Write)
  | getNextEncf (tenantId tipoComprobante : String)
  | releaseUnusedEncf (tenantId tipoComprobante encf : String)
  | idempotency (statement : IdempotencyStatement)
  | certificateSigner (certificateBase64 password rncEmisor : String)
  | tenantSigner (rncEmisor tenantId : String)
  | fileSigner (path password : String)
  | signXml (signer : Signer) (xml rncEmisor : String)
  | getToken (client : EcfClient)
  | invalidateToken (client : EcfClient)
  | post (client : EcfClient) (route : Route) (token xml : String) (file : EcfFileName)
  | await (connection : ℕ)
  | get (client : EcfClient) (token : String) (consulta : Consulta)
  | respond (response : HttpResponse)

/-- The type of each answer. -/
def Request.Reply : Request → Type
  | .now => ℕ
  | .newUuid => String
  | .documentBySourceTxnId .. => Except String (Option EcfDocumentRow)
  | .documentById _ => Except String (Option EcfDocumentRow)
  | .documentByENcf _ => Except String (Option EcfDocumentRow)
  | .documentByTrackId _ => Except String (Option EcfDocumentRow)
  | .documentsDue .. => Except String (List EcfDocumentRow)
  | .saveChanges _ => Except String Unit
  | .getNextEncf .. => Except String String
  | .releaseUnusedEncf .. => Unit
  | .idempotency statement => statement.Reply
  | .certificateSigner .. => Option Signer
  | .tenantSigner .. => Except String (Option Signer)
  | .fileSigner .. => Option Signer
  | .signXml .. => Except String String
  | .getToken _ => Except String String
  | .invalidateToken _ => Unit
  | .post .. => ℕ
  | .await _ => HttpReply
  | .get .. => HttpReply
  | .respond _ => Unit

/-- The interface of the engine. -/
abbrev Api : Interface := ⟨Request, Request.Reply⟩

/-- A procedure of the engine. -/
abbrev Procedure (α : Type) := Program Api α

/-! Each request as a procedure, with the type of its answer spelled out. -/

/-- One request. -/
abbrev ask (r : Request) : Procedure r.Reply := Program.perform (I := Api) r

abbrev now : Procedure ℕ := ask .now

abbrev saveChanges (writes : List Write) : Procedure (Except String Unit) :=
  ask (.saveChanges writes)

abbrev signXml (signer : Signer) (xml rncEmisor : String) : Procedure (Except String String) :=
  ask (.signXml signer xml rncEmisor)

abbrev getToken (client : EcfClient) : Procedure (Except String String) :=
  ask (.getToken client)

abbrev invalidateToken (client : EcfClient) : Procedure Unit := ask (.invalidateToken client)

abbrev post (client : EcfClient) (route : Route) (token xml : String) (file : EcfFileName) :
    Procedure ℕ :=
  ask (.post client route token xml file)

abbrev await (connection : ℕ) : Procedure HttpReply := ask (.await connection)

abbrev get (client : EcfClient) (token : String) (consulta : Consulta) : Procedure HttpReply :=
  ask (.get client token consulta)

abbrev respond (response : HttpResponse) : Procedure Unit := ask (.respond response)

/-- Run a procedure and keep its exception as a value. -/
def attempt {α : Type} (p : Procedure α) : Procedure (Except String α) :=
  .tryCatch (do return .ok (← p)) fun e => return .error e

/-! ## The host -/

/-- The state the operations share. -/
structure World where
  clock : ℕ
  documents : DocumentTable
  sequences : List EcfSequence
  idempotency : List IdempotencyRecord
  connections : ℕ := 0

/-- What the surroundings decide in one step. -/
structure Input where
  elapsed : ℕ := 0
  databaseError : Option String := none
  pick : ℕ := 0
  text : String := ""
  failure : Option String := none
  signer : Option Signer := none
  http : HttpReply := {}

/-- A database answer, unless the database fails. -/
def Input.database {α : Type} (input : Input) (result : Except String α) : Except String α :=
  match input.databaseError with
  | some e => .error e
  | none => result

/-- An answer of a service that may fail. -/
def Input.service (input : Input) : Except String String :=
  match input.failure with
  | some e => .error e
  | none => .ok input.text

/-- The idempotency statements, each on its own. -/
def idempotencyAnswer (input : Input) (w : World) :
    (statement : IdempotencyStatement) → statement.Reply × World
  | .fetch key =>
    (input.database (.ok ((fetchRecord key w.idempotency).map fun r =>
      (r, IdempotencyRecord.leaseExpired w.clock r))), w)
  | .documentState id =>
    (input.database (.ok ((w.documents.rows.find? (·.id = id)).map (·.state))), w)
  | .renewWithHash key hash worker =>
    match input.databaseError with
    | some e => (.error e, w)
    | none => (.ok (), { w with idempotency := onRecord key (fun r =>
        { IdempotencyRecord.renewed w.clock worker r with payloadHash := hash }) w.idempotency })
  | .renew key worker =>
    match input.databaseError with
    | some e => (.error e, w)
    | none => (.ok (), { w with
        idempotency := onRecord key (IdempotencyRecord.renewed w.clock worker) w.idempotency })
  | .reclaim key worker =>
    match input.databaseError with
    | some e => (.error e, w)
    | none =>
      let reclaimable (r : IdempotencyRecord) : Bool :=
        r.key = key && r.status = "Processing" && r.createdAt + lease < w.clock
      (.ok (w.idempotency.any reclaimable),
        { w with idempotency := w.idempotency.map fun r =>
            if reclaimable r then { r with createdAt := w.clock, createdByWorkerKeyId := worker }
            else r })
  | .insert key hash worker =>
    match input.databaseError with
    | some e => (.error e, w)
    | none =>
      if w.idempotency.any (·.key = key) then (.ok false, w)
      else
        (.ok true, { w with
          idempotency := w.idempotency ++ [⟨key, worker, hash, "Processing", 0, "application/json",
            "", w.clock, w.clock + retention⟩] })
  | .complete key code contentType body =>
    match input.databaseError with
    | some e => (.error e, w)
    | none => (.ok (), { w with
        idempotency := onRecord key (fun r =>
          if r.status = "Processing" then
            { r with
              status := "Completed", statusCode := code, contentType := contentType,
              responseBody := body }
          else r) w.idempotency })
  | .release key =>
    match input.databaseError with
    | some e => (.error e, w)
    | none => (.ok (), { w with
        idempotency := w.idempotency.filter fun r => !(r.key = key && r.status = "Processing") })

/-- One answer; the clock has already moved. -/
def answerAt (ext : Externals) (input : Input) (w : World) : (r : Request) → r.Reply × World
  | .now => (w.clock, w)
  | .newUuid => (input.text, w)
  | .documentBySourceTxnId tenantId sourceTxnId ambiente =>
    (input.database (.ok (getBySourceTxnId ext.instant input.pick tenantId sourceTxnId ambiente
      w.documents)), w)
  | .documentById id => (input.database (.ok (queryOne input.pick (·.id = id) w.documents)), w)
  | .documentByENcf eNcf =>
    (input.database (.ok (queryOne input.pick (·.eNcf = eNcf) w.documents)), w)
  | .documentByTrackId trackId =>
    (input.database (.ok (queryOne input.pick (·.trackId = some trackId) w.documents)), w)
  | .documentsDue minAge pollDue limit =>
    (input.database (.ok (getDueForStatusCheck ext.instant minAge pollDue limit w.documents)), w)
  | .saveChanges writes =>
    match input.database (commit w.documents writes) with
    | .error e => (.error e, w)
    | .ok documents => (.ok (), { w with documents := documents })
  | .getNextEncf scope tipo =>
    match input.database (getNextEncf w.clock scope tipo w.sequences) with
    | .error e => (.error e, w)
    | .ok (encf, sequences) => (.ok encf, { w with sequences := sequences })
  | .releaseUnusedEncf scope tipo encf =>
    match input.databaseError with
    | some _ => ((), w)
    | none => ((), { w with sequences := releaseUnusedEncf scope tipo encf w.sequences })
  | .idempotency statement => idempotencyAnswer input w statement
  | .certificateSigner .. => (input.signer, w)
  | .tenantSigner .. =>
    (match input.failure with
      | some e => .error e
      | none => .ok input.signer, w)
  | .fileSigner .. => (input.signer, w)
  | .signXml .. => (input.service, w)
  | .getToken _ => (input.service, w)
  | .invalidateToken _ => ((), w)
  | .post .. => (w.connections, { w with connections := w.connections + 1 })
  | .await _ => (input.http, w)
  | .get .. => (input.http, w)
  | .respond _ => ((), w)

/-- The engine's host: time passes, then the request is answered. -/
def host (ext : Externals) : Host Api World Input where
  answer input w r := answerAt ext input { w with clock := w.clock + input.elapsed } r

end EcfDgii.Engine
