import EcfDgii.Submission

/-!
The read endpoints of a document (`DocumentsController::getBySourceTxnId`,
`reconcileBySourceTxnId`, `getXmlBySourceTxnId`, `getById`, `getXmlById`).

The first three look a document up by its TxnId, then by trackId, then by eNCF.
Only `getBySourceTxnId` asks DGII about a document without a verdict and writes
the answer back; the on-demand reconcile, for all its name, returns the row.
-/

set_option autoImplicit false

namespace EcfDgii.StatusPolling

open EcfDgii.Text EcfDgii.Documents EcfDgii.DgiiReplies EcfDgii.Programs EcfDgii.Engine
open EcfDgii.Transport EcfDgii.Transmission EcfDgii.Submission

/-- What the read endpoints take from a request. -/
structure ReadRequest where
  tenantId : Option String := none
  role : String := ""
  clientType : String := ""
  xTenantId : String := ""
  xEnvironment : String := ""
  /-- The path parameter: a TxnId, trackId, eNCF or id. -/
  txnId : String

namespace ReadRequest

/-- Workers and SuperAdmins read every tenant. -/
def privileged (req : ReadRequest) : Bool := isWorkerOrSuperAdmin req.role req.clientType

/-- The tenant a request reads: its claim, and the header only for the
privileged.  `blankIsDefault` tells the handlers that take an empty claim for
none. -/
def tenant (blankIsDefault : Bool) (req : ReadRequest) : String :=
  let claim := req.tenantId.getD "default-tenant"
  let claimed := if blankIsDefault ∧ claim = "" then "default-tenant" else claim
  if req.privileged ∧ req.xTenantId ≠ "" then req.xTenantId else claimed

/-- The ambiente asked for. -/
def ambiente (req : ReadRequest) : Option String :=
  if req.xEnvironment = "" then none else some req.xEnvironment

end ReadRequest

/-- A row found by trackId or eNCF is taken only from the tenant's own, in the
ambiente asked for. -/
def visible (req : ReadRequest) (tenantId : String) (row : EcfDocumentRow) : Bool :=
  (req.privileged || row.tenantId = tenantId) &&
    (req.ambiente = none || row.ambiente = none || row.ambiente = req.ambiente)

/-- The three lookups. -/
def findDocument (req : ReadRequest) (tenantId : String) : Procedure (Option EcfDocumentRow) := do
  match ← .raise (← ask (.documentBySourceTxnId tenantId req.txnId req.ambiente)) with
  | some row => return some row
  | none =>
    let byTrack ← .raise (← ask (.documentByTrackId req.txnId))
    match byTrack.filter (visible req tenantId) with
    | some row => return some row
    | none =>
      let byNcf ← .raise (← ask (.documentByENcf req.txnId))
      return byNcf.filter (visible req tenantId)

/-- The fields of a document's answer. -/
def documentFields (doc : EcfDocument) : List (String × Json) :=
  [("documentId", .string doc.id)] ++ (doc.ncf.map fun ncf => ("ncf", Json.string ncf)).toList ++
  [("eNcf", .string doc.eNcf), ("state", .string doc.state),
    ("totalAmount", .number doc.totalAmount), ("itbisAmount", .number doc.itbisAmount),
    ("trackId", .string (doc.trackId.getD "")),
    ("securityCode", .string (doc.securityCode.getD "")),
    ("receiptDate", .string (doc.receiptDate.getD "")),
    ("signedXml", .string (doc.signedXmlContent.getD "")),
    ("dgiiResponse", .string (doc.dgiiResponseXml.getD "")),
    ("dgiiResponseXml", .string (doc.dgiiResponseXml.getD ""))]

def notFoundResponse (txnId : String) : HttpResponse :=
  err ("Document with source TxnId '" ++ txnId ++ "' not found.") 404

/-- The states the poll asks DGII about. -/
def polledStates : List String :=
  ["Signed", "SentToDgii", "Processing", "Uncertain", "AwaitingTransmission"]

variable (ext : Externals) (services : Services)

/-- Write a polled verdict back.  A failed write leaves it in the answer only. -/
def savePolled (doc : EcfDocument) : Procedure EcfDocument := do
  .tryCatch (update doc) fun _ => return ()
  return doc

/-- The query of a document with a trackId. -/
def pollByTrackId (client : EcfClient) (doc : EcfDocument) (trackId : String) :
    Procedure EcfDocument := do
  match afterResultado doc (← consultarResultado ext client trackId) with
  | some verdict => savePolled verdict
  | none => return doc

/-- The query of a document without one. -/
def pollByENcf (client : EcfClient) (doc : EcfDocument) : Procedure EcfDocument := do
  let status ← consultarEstado ext client doc.rncEmisor doc.eNcf none none
  if notFound status.estado then return doc
  else
    let doc ← askTrackId ext client doc
    savePolled (reconciled doc status.estado)

/-- The dynamic check of `getBySourceTxnId`: the document the answer shows. -/
def poll (doc : EcfDocument) : Procedure EcfDocument := do
  let signer ← resolveSigner services doc.tenantId doc.rncEmisor none false
  let amb := resolveAmbienteEnum (doc.ambiente.getD "") services.environment
  let client ← .raise (resolveEcfClient services doc.rncEmisor signer amb false)
  match doc.trackId with
  | some trackId =>
    if trackId ≠ "" then pollByTrackId ext client doc trackId
    else if doc.eNcf ≠ "" then pollByENcf ext client doc
    else return doc
  | none => if doc.eNcf ≠ "" then pollByENcf ext client doc else return doc

/-- The document as its answer shows it: asked about while it has no verdict. -/
def refreshed (doc : EcfDocument) : Procedure EcfDocument :=
  if doc.state ∈ polledStates then .tryCatch (poll ext services doc) fun _ => return doc
  else return doc

/-- `GET /api/documents/by-source/{txnId}`. -/
def getBySourceTxnId (req : ReadRequest) : Procedure Unit :=
  let tenantId := req.tenant true
  .tryCatch
    (do
      match ← findDocument req tenantId with
      | none => respond (notFoundResponse req.txnId)
      | some row =>
        if !req.privileged && row.tenantId ≠ tenantId then respond (notFoundResponse req.txnId)
        else
          let shown ← refreshed ext services row.toEcfDocument
          respond (json (documentFields shown) 200))
    fun what => respond (err what 500)

/-- `POST /api/documents/by-source/{txnId}/reconcile`. -/
def reconcileBySourceTxnId (req : ReadRequest) : Procedure Unit :=
  .tryCatch
    (do
      match ← findDocument req (req.tenant true) with
      | none => respond (notFoundResponse req.txnId)
      | some row =>
        respond (json (documentFields row.toEcfDocument ++ [("reconciled", .bool true)]) 200))
    fun what => respond (err ("Error reconciling document: " ++ what) 500)

/-- The XML of a document as a download. -/
def xmlResponse (doc : EcfDocument) (signedXml : String) : HttpResponse :=
  { statusCode := 200
    headers := [("Content-Disposition",
      "attachment; filename=\"" ++ doc.rncEmisor ++ "-" ++ doc.eNcf ++ ".xml\"")]
    body := .text "application/xml" signedXml }

/-- `GET /api/documents/by-source/{txnId}/xml`. -/
def getXmlBySourceTxnId (req : ReadRequest) : Procedure Unit :=
  let missing := err ("Document with source TxnId '" ++ req.txnId ++ "' not found or has no XML.") 404
  .tryCatch
    (do
      match ← findDocument req (req.tenant false) with
      | none => respond missing
      | some row =>
        match row.signedXmlContent with
        | none => respond missing
        | some xml =>
          if xml = "" then respond missing
          else respond (xmlResponse row.toEcfDocument xml))
    fun what => respond (err what 500)

/-- `isValidUuid`. -/
def isValidUuid (s : String) : Bool :=
  let hex (c : Char) : Bool := c.isDigit || ('a' ≤ c && c ≤ 'f') || ('A' ≤ c && c ≤ 'F')
  s.toList.length = 36 &&
    s.toList.zipIdx.all fun (c, i) => if i ∈ [8, 13, 18, 23] then c = '-' else hex c

def invalidUuid : HttpResponse := err "El identificador proporcionado no es un UUID válido." 400

/-- `GET /api/documents/{id}/xml`. -/
def getXmlById (req : ReadRequest) : Procedure Unit :=
  let missing := err ("Document '" ++ req.txnId ++ "' not found or has no XML.") 404
  if !isValidUuid req.txnId then respond invalidUuid
  else
    .tryCatch
      (do
        match ← .raise (← ask (.documentById req.txnId)) with
        | none => respond missing
        | some row =>
          if !req.privileged && row.tenantId ≠ req.tenant false then respond missing
          else
            match row.signedXmlContent with
            | none => respond missing
            | some xml =>
              if xml = "" then respond missing
              else respond (xmlResponse row.toEcfDocument xml))
      fun what => respond (err what 500)

/-- `GET /api/documents/{id}`. -/
def getById (req : ReadRequest) : Procedure Unit :=
  let missing := err ("Document '" ++ req.txnId ++ "' not found.") 404
  if !isValidUuid req.txnId then respond invalidUuid
  else
    .tryCatch
      (do
        match ← .raise (← ask (.documentById req.txnId)) with
        | none => respond missing
        | some row =>
          if !req.privileged && row.tenantId ≠ req.tenant true then respond missing
          else respond (json (documentFields row.toEcfDocument) 200))
      fun _ => respond (err "Ha ocurrido un error al obtener el documento." 500)

end EcfDgii.StatusPolling
