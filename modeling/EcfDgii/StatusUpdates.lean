import EcfDgii.StatusPolling

/-!
The two writers of a document's state outside the documents endpoint: the
status query (`GetEcfStatusQueryHandler`) and the background pass
(`EcfStatusReconciler::reconcile`).

The status query works on the first row with the eNCF and stores what DGII
says, translated where the word is known.  The background pass reads all due
rows once, asks DGII about each, and commits every update together at the end.
-/

set_option autoImplicit false

namespace EcfDgii.StatusUpdates

open EcfDgii.Text EcfDgii.Timestamps EcfDgii.Documents EcfDgii.DgiiReplies EcfDgii.Tables
open EcfDgii.Programs EcfDgii.Engine EcfDgii.Transport EcfDgii.Transmission EcfDgii.Submission

variable (ext : Externals) (services : Services)

/-! ## The status query -/

/-- `mappedState`: DGII's vocabulary in the engine's, as far as it is known. -/
def mappedState (estado : String) : String :=
  if estado = "Aceptado" ∨ estado = "Accepted" then "AcceptedByDgii"
  else if estado = "Rechazado" ∨ estado = "Rejected" then "RejectedByDgii"
  else if estado = "En Proceso" ∨ estado = "EnProceso" ∨ estado = "Processing" then "SentToDgii"
  else estado

/-- An RNC without hyphens and blanks. -/
def cleanRnc (rnc : String) : String :=
  String.ofList (rnc.toList.filter fun c => c ≠ '-' && c ≠ ' ')

/-- The local answer about an accepted document. -/
def localAnswer (row : EcfDocumentRow) : ConsultaEstadoResponse :=
  { codigo := 0, estado := "Aceptado", rncEmisor := row.rncEmisor, ncfElectronico := row.eNcf
    montoTotal := row.totalAmount, totalITBIS := row.itbisAmount
    rncComprador := row.rncComprador.getD "", codigoSeguridad := row.securityCode.getD ""
    fechaEmision := row.createdAt }

/-- The document with another state, when it is another one. -/
def storeState (doc : EcfDocument) (state : String) : Procedure Unit :=
  if doc.state ≠ state then update { doc with state := state } else return ()

/-- `GetEcfStatusQueryHandler::handle`. -/
def handleStatusQuery (rncEmisor eNcf : String) : Procedure (Except String ConsultaEstadoResponse) := do
  let answer ← attempt do
    let localDoc ← .raise (← ask (.documentByENcf eNcf))
    let issuer := (localDoc.map fun row => cleanRnc row.rncEmisor).getD ""
    if localDoc.isSome && rncEmisor ≠ "" && cleanRnc rncEmisor ≠ "" && issuer ≠ "" &&
        cleanRnc rncEmisor ≠ issuer then
      return .error "Acceso denegado: El RNC emisor no coincide con el emisor del comprobante fiscal."
    else
      match localDoc with
      | some row =>
        if row.state = "AcceptedByDgii" ∨ row.state = "Aceptado" then return .ok (localAnswer row)
        else
          let client ← .raise services.ecfClient
          let live ← consultarEstado ext client rncEmisor eNcf row.rncComprador row.securityCode
          storeState row.toEcfDocument (mappedState live.estado)
          return .ok live
      | none =>
        let client ← .raise services.ecfClient
        return .ok (← consultarEstado ext client rncEmisor eNcf none none)
  match answer with
  | .ok result => return result
  | .error what => return .error ("Failed to retrieve status: " ++ what)

/-- The JSON of a status answer. -/
def statusFields (r : ConsultaEstadoResponse) : List (String × Json) :=
  [("codigo", .number r.codigo), ("estado", .string r.estado), ("rncEmisor", .string r.rncEmisor),
    ("ncfElectronico", .string r.ncfElectronico), ("montoTotal", .number r.montoTotal),
    ("totalITBIS", .number r.totalITBIS), ("fechaEmision", .string r.fechaEmision),
    ("fechaFirma", .string r.fechaFirma), ("rncComprador", .string r.rncComprador),
    ("codigoSeguridad", .string r.codigoSeguridad), ("idExtranjero", .string r.idExtranjero)]

/-- `GET /api/ecf/status`. -/
def status (rncEmisor eNcf : String) : Procedure Unit := do
  if rncEmisor = "" ∨ eNcf = "" then
    respond (err "Los parámetros 'rncEmisor' y 'eNcf' son obligatorios." 400)
  else
    match services.ecfClient with
    | .error what => respond (err ("Status service error: " ++ what) 500)
    | .ok _ =>
      match ← handleStatusQuery ext services rncEmisor eNcf with
      | .ok live => respond (json (statusFields live) 200)
      | .error message => respond (err message 400)

/-! ## The background pass -/

/-- The environment a row's DGII client is built for. -/
def reconcilerEnvironment (ambiente : Option String) : AmbienteEnum :=
  match ambiente with
  | none => .certificacion
  | some amb =>
    let lower := tolower amb
    if lower = "produccion" ∨ lower = "ecf" ∨ lower = "prod" ∨ lower = "3" then .produccion
    else if lower = "precertificacion" ∨ lower = "testecf" ∨ lower = "test" ∨ lower = "1" then
      .preCertificacion
    else .certificacion

/-- The clients built so far in a pass, by RNC and environment. -/
abbrev ClientCache := List ((String × AmbienteEnum) × EcfClient)

/-- The client of a row: cached, or built with the tenant's signer or the
default one, or the configured client when the signer cannot be resolved. -/
def clientFor (client : EcfClient) (cache : ClientCache) (doc : EcfDocument) :
    Procedure (EcfClient × ClientCache) := do
  let key := (doc.rncEmisor, reconcilerEnvironment doc.ambiente)
  match cache.lookup key with
  | some cached => return (cached, cache)
  | none =>
    if services.hasTenantSignerResolver ∧ doc.rncEmisor ≠ "" then
      let resolved : Except String (Option Signer) ← ask (.tenantSigner doc.rncEmisor "")
      match resolved with
      | .ok signer =>
        let built : EcfClient :=
          { rncEmisor := doc.rncEmisor, ambiente := key.2
            signer := signer.getD services.signer }
        return (built, (key, built) :: cache)
      | .error _ => return (client, cache)
    else return (client, cache)

/-- The row is past its polling window. -/
def windowExhausted (time : ℕ) (doc : EcfDocument) : Bool :=
  match doc.sentToDgiiAt with
  | none => false
  | some sent =>
    parseIsoSeconds sent ≠ 0 && decide (services.maxPollingWindowHours * 3600 * second ≤
      (time : ℤ) - parseIsoSeconds sent * second)

/-- What the trackId query adds: its estado and the text kept of it. -/
def fromResultado (doc : EcfDocument) (r : ConsultaResultadoResponse) : String × EcfDocument :=
  if r.estado = "" then ("", doc)
  else
    (trim r.estado, { doc with
      dgiiResponseXml := some (if r.mensajes ≠ [] then
        "[" ++ r.estado ++ "] " ++ mensajesText r.mensajes else "Estado DGII: " ++ trim r.estado) })

/-- What the estado query adds. -/
def fromEstado (estado : String) (doc : EcfDocument) (r : ConsultaEstadoResponse) :
    String × EcfDocument :=
  if r.estado = "" then (estado, doc)
  else (trim r.estado, { doc with dgiiResponseXml := some ("Estado DGII: " ++ trim r.estado) })

/-- The row as a check leaves it, before its verdict. -/
def checked (nowIso : String) (doc : EcfDocument) : EcfDocument :=
  { doc with
    lastStatusCheckAt := some nowIso, statusCheckAttempts := doc.statusCheckAttempts + 1 }

/-- The verdict of an estado. -/
def withVerdict (estado : String) (doc : EcfDocument) : EcfDocument :=
  if Accepted estado then { doc with state := "AcceptedByDgii" }
  else if Rejected estado then { doc with state := "RejectedByDgii" }
  else doc

/-- The trackId query of a due row, when it has a trackId. -/
def askResultado (client : EcfClient) (doc : EcfDocument) : Procedure (String × EcfDocument) :=
  if doc.trackId.getD "" ≠ "" then do
    match ← attempt (consultarResultado ext client (doc.trackId.getD "")) with
    | .ok r => return fromResultado doc r
    | .error _ => return ("", doc)
  else return ("", doc)

/-- One due row: the document to write. -/
def reconcileOne (time : ℕ) (client : EcfClient) (doc : EcfDocument) : Procedure EcfDocument := do
  let (estado, doc) ← askResultado ext client doc
  if estado = "" ∨ estado = "No encontrado" ∨ estado = "no encontrado" then
    match ← attempt (consultarEstado ext client doc.rncEmisor doc.eNcf doc.rncComprador
        doc.securityCode) with
    | .error _ => return checked (toIsoUtc time) doc
    | .ok r =>
      let (estado, doc) := fromEstado estado doc r
      return withVerdict estado (checked (toIsoUtc time) doc)
  else return withVerdict estado (checked (toIsoUtc time) doc)

/-- The updates of all due rows, in order; each is staged at its own time. -/
def reconcileAll (time : ℕ) (client : EcfClient) :
    ClientCache → List EcfDocumentRow → Procedure (List Write)
  | _, [] => return []
  | cache, row :: rest => do
    let doc := row.toEcfDocument
    if windowExhausted services time doc then
      let staged ← now
      let writes ← reconcileAll time client cache rest
      return .update { doc with
        state := "RequiresManualReview", lastStatusCheckAt := some (toIsoUtc time) } staged :: writes
    else
      let (rowClient, cache) ← clientFor services client cache doc
      let checked ← reconcileOne ext time rowClient doc
      let staged ← now
      let writes ← reconcileAll time client cache rest
      return .update checked staged :: writes

/-- `EcfStatusReconciler::reconcile`. -/
def reconcile (client : EcfClient) : Procedure Unit := do
  let time ← now
  let cutoff (minutes : ℤ) : String := toIsoUtc (time - minutes * 60 * second).toNat
  match ← ask (.documentsDue (cutoff services.minDocumentAgeMinutes)
      (cutoff services.pollingIntervalMinutes) 100) with
  | .error _ => return ()
  | .ok due =>
    let writes ← reconcileAll ext services time client [] due
    if writes ≠ [] then
      let _ ← saveChanges writes

/-- One pass of the background thread: it starts only with a client. -/
def reconcilePass : Procedure Unit :=
  match services.ecfClient with
  | .error _ => .done ()
  | .ok client => reconcile ext services client

end EcfDgii.StatusUpdates
