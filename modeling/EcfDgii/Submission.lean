import EcfDgii.Transmission

/-!
`POST /api/documents` (`DocumentsController::submit`, `IdempotencyHandler`,
`DbIdempotencyStore`).

From the outside in: the idempotency handler reserves the request's key and
wraps the callback; `submitBody` checks the document, resolves tenant, ambiente,
signer and client, and looks the document up; a document found is handled by
its state, one not found is given an eNCF and inserted, and the insert that
loses a race is resolved by a second lookup.

The callback is a parameter, as in the source, because it is called inside the
`try` block of the lookup: an exception of the idempotency store raised there is
caught as a database error and answered a second time.
-/

set_option autoImplicit false

namespace EcfDgii.Submission

open EcfDgii.Text EcfDgii.Timestamps EcfDgii.Documents EcfDgii.DgiiReplies EcfDgii.Tables
open EcfDgii.Programs EcfDgii.Engine EcfDgii.CanonicalXml EcfDgii.Transport
open EcfDgii.Transmission

/-! ## The request -/

/-- The JSON body of a submission, read. -/
inductive SubmittedBody
  | invalid
  | unreadable (what : String)
  | document (dto : CanonicalDocumentDto)

/-- What `submit` reads of a request: the attributes the authentication filters
set, three headers, and the body. -/
structure SubmitRequest where
  method : String := "POST"
  tenantId : Option String := none
  workerKeyId : Option String := none
  role : String := ""
  clientType : String := ""
  xTenantId : String := ""
  xEnvironment : String := ""
  idempotencyKey : String := ""
  bodyText : String := ""
  body : SubmittedBody

/-! ## Checks -/

/-- `cleanRnc.length() == 9 || 11`. -/
def rncLength (s : String) : Bool :=
  (cleanDigits s).toList.length = 9 || (cleanDigits s).toList.length = 11

/-- The checks of lines and totals, in order. -/
def checkAmounts (dto : CanonicalDocumentDto) : Except String Unit := do
  if dto.lines = [] then
    .error "El documento debe contener al menos una línea de detalle."
  if 1000 < dto.lines.length then
    .error "El documento no puede contener más de 1,000 líneas de detalle."
  if dto.lines.head?.any fun line => decide (line.amount < 0) || decide (line.unitPrice < 0) then
    .error "Una línea de descuento no puede preceder al ítem que descuenta."
  match dto.lines.find? fun line => decide (line.quantity < 0) || decide (line.discountAmount < 0) with
  | some line =>
    if line.quantity < 0 then
      .error ("La cantidad de cada línea no puede ser negativa (Ítem: '" ++ line.itemName ++ "').")
    else
      .error ("El monto de descuento por línea no puede ser negativo (Ítem: '" ++ line.itemName ++
        "').")
  | none => .ok ()
  let hasBillableLine := dto.lines.any fun line => !(line.amount = 0 && line.unitPrice = 0)
  if !hasBillableLine && decide (0 < dto.totals.montoTotal) then
    .error "El comprobante no posee líneas facturables con importe mayor a cero."
  if dto.totals.montoSubtotal < 0 ∨ dto.totals.montoItbis < 0 ∨ dto.totals.montoTotal < 0 then
    .error "Subtotal, ITBIS y MontoTotal no pueden ser negativos."

/-- `ValidTipoEcfSet`. -/
def validTipoEcfSet : List String :=
  ["E31", "E32", "E33", "E34", "E41", "E43", "E44", "E45", "E46", "E47"]

/-- The type as `submit` normalises it: capitals, no surrounding blanks, an E
before a bare number. -/
def normalizedTipo (tipoComprobante : String) : String :=
  let upper := trim (toupper tipoComprobante)
  match upper.toList with
  | c :: _ => if c ≠ 'E' ∧ c.isDigit then "E" ++ upper else upper
  | [] => upper

/-- The checks of the references, which depend on the type. -/
def checkReferences (dto : CanonicalDocumentDto) : Except String Unit :=
  if dto.tipoComprobante = "E34" ∨ dto.tipoComprobante = "E33" then
    if dto.references.correctsENcf = "" then
      .error ("References.CorrectsENcf (NCFModificado) is required for TipoComprobante " ++
        dto.tipoComprobante ++ ".")
    else if dto.references.codigoModificacion = none then
      .error ("References.CodigoModificacion is required for TipoComprobante " ++
        dto.tipoComprobante ++ ".")
    else .ok ()
  else if dto.references.correctsENcf ≠ "" ∧ dto.references.codigoModificacion.getD 0 ≠ 4 then
    .error ("References.CodigoModificacion (" ++
      (match dto.references.codigoModificacion with
        | some n => decimalInt n
        | none => "null") ++
      ") no es válido para TipoComprobante " ++ dto.tipoComprobante ++
      " (Regla DGII 613). Fuera de Notas de Débito (E33) y Notas de Crédito (E34), InformacionReferencia solo admite CodigoModificacion = 4 (Reemplazo de comprobante emitido en contingencia).")
  else .ok ()

/-- The checks of the buyer, which depend on the type. -/
def checkBuyer (exchangeRate : ℚ) (dto : CanonicalDocumentDto) : Except String Unit :=
  let tipo := dto.tipoComprobante
  let rnc := dto.header.rncComprador
  if tipo = "E31" ∨ tipo = "E45" then
    if rnc = "" then
      .error ("Header.RncComprador es obligatorio para TipoComprobante " ++ tipo ++
        ". El cliente no tiene RNC/cédula registrado — corrígelo en el ERP, o emítelo como Factura de Consumo (E32), que no lo exige.")
    else if !rncLength rnc then
      .error ("Header.RncComprador '" ++ rnc ++ "' es inválido para " ++ tipo ++
        ". Debe tener exactamente 9 dígitos (RNC) u 11 dígitos (Cédula).")
    else .ok ()
  else if tipo = "E32" then
    if 250000 ≤ roundHalfAway 100 (dto.totals.montoTotal * exchangeRate) then
      if rnc = "" ∧ dto.header.identificadorExtranjero.getD "" = "" then
        .error "Header.RncComprador (o pasaporte/identificación extranjera) es obligatorio para Factura de Consumo (E32) con MontoTotal ≥ RD$250,000.00 (DGII Regla de Validación tipo 32)."
      else if rnc ≠ "" ∧ !hasAlpha rnc ∧ !rncLength rnc then
        .error ("Header.RncComprador '" ++ rnc ++
          "' es inválido para E32 ≥ RD$250,000.00. Debe tener 9 dígitos (RNC), 11 dígitos (Cédula), o ser Identificador Extranjero.")
      else .ok ()
    else .ok ()
  else if tipo = "E41" then
    if rnc = "" then
      .error "Header.RncComprador is required for TipoComprobante E41 (the informal vendor's RNC/Cédula)."
    else if !rncLength rnc then
      .error ("Header.RncComprador '" ++ rnc ++
        "' es inválido para E41. Debe tener 9 dígitos (RNC) u 11 dígitos (Cédula).")
    else if dto.retention.isNone then .error "Retention is required for TipoComprobante E41."
    else .ok ()
  else if tipo = "E47" then
    if dto.retention.isNone then .error "Retention is required for TipoComprobante E47."
    else .ok ()
  else .ok ()

/-- `DgiiItbisSlots`. -/
def dgiiItbisSlots : List ℤ := [18, 16, 0]

/-- The check of the ITBIS buckets. -/
def checkBuckets (dto : CanonicalDocumentDto) : Except String Unit :=
  match dto.totals.taxBuckets.find? fun bucket => bucket.rate ∉ dgiiItbisSlots with
  | some bucket =>
    .error ("Tasa(s) de ITBIS sin bucket DGII: " ++ decimalInt bucket.rate ++
      ". Solo se admiten 18, 16, 0 (I1/I2/I3).")
  | none => .ok ()

/-- Every check before the tenant is resolved; the document comes back with its
type normalised. -/
def checkDocument (dto : CanonicalDocumentDto) : Except String CanonicalDocumentDto := do
  if dto.sourceReference.txnId = "" then .error "SourceReference.TxnId is required."
  let currency := resolveCanonicalCurrency dto.currency
  if currency.validationError ≠ "" then .error currency.validationError
  checkAmounts dto
  if dto.header.rncEmisor ≠ "" ∧ !rncLength dto.header.rncEmisor then
    .error ("Header.RncEmisor '" ++ dto.header.rncEmisor ++
      "' es inválido. Debe tener exactamente 9 dígitos (RNC) u 11 dígitos (Cédula).")
  if normalizedTipo dto.tipoComprobante ∉ validTipoEcfSet then
    .error ("TipoComprobante '" ++ dto.tipoComprobante ++
      "' es inválido o no está soportado. Valores válidos: E31, E32, E33, E34, E41, E43, E44, E45, E46, E47.")
  let dto := { dto with tipoComprobante := normalizedTipo dto.tipoComprobante }
  checkReferences dto
  checkBuyer currency.exchangeRate dto
  checkBuckets dto
  return dto

/-! ## Tenant, ambiente, signer, client -/

variable (ext : Externals) (services : Services)

/-- The tenant before authorisation: the claim, overridden by the header. -/
def requestedTenant (req : SubmitRequest) : String :=
  if req.xTenantId ≠ "" then req.xTenantId else req.tenantId.getD "default-tenant"

/-- `isWorkerOrSuperAdmin`. -/
def isWorkerOrSuperAdmin (role clientType : String) : Bool :=
  clientType = "worker" || role = "Worker" || role = "SuperAdmin"

/-- `effectiveTenantId`, or the refusal. -/
def effectiveTenant (req : SubmitRequest) (dto : CanonicalDocumentDto) :
    Except HttpResponse String :=
  let bodyTenant := dto.tenantId.getD ""
  if isWorkerOrSuperAdmin req.role req.clientType then
    if req.xTenantId ≠ "" then .ok req.xTenantId
    else if bodyTenant ≠ "" then .ok bodyTenant
    else .ok (requestedTenant req)
  else if bodyTenant ≠ "" ∧ bodyTenant ≠ requestedTenant req then
    .error (err "Forbidden: Cannot submit document for another tenant." 403)
  else .ok (requestedTenant req)

/-- `rawEnv`: the header, or the body's environment. -/
def rawEnvironment (req : SubmitRequest) (dto : CanonicalDocumentDto) : String :=
  if req.xEnvironment ≠ "" then req.xEnvironment else dto.environment.getD ""

/-- The ambiente of the document, or the refusal. -/
def resolveAmbiente (req : SubmitRequest) (dto : CanonicalDocumentDto) :
    Except HttpResponse AmbienteEnum :=
  let rawEnv := rawEnvironment req dto
  if rawEnv = "" then .ok services.environment
  else match tryResolveAmbienteEnum rawEnv with
    | some ambiente => .ok ambiente
    | none => .error (err ("Ambiente fiscal '" ++ rawEnv ++
        "' desconocido o inválido. Valores válidos: PreCertificacion (o Test/TestEcf), Certificacion (o Cert/CertEcf), Produccion (o Prod).") 400)

/-- `sequenceScope`. -/
def sequenceScope (isDefaultFallback : Bool) (tenantId : String) (ambiente : AmbienteEnum) :
    String :=
  if isDefaultFallback then "default-tenant" else tenantId ++ ":" ++ ambienteToString ambiente

/-- `^[a-zA-Z0-9_-]{1,100}$`. -/
def safeTenant (tenantId : String) : Bool :=
  let cs := tenantId.toList
  1 ≤ cs.length && cs.length ≤ 100 &&
    cs.all fun c => c.isAlpha || c.isDigit || c = '_' || c = '-'

/-- `^\d{9,11}$`. -/
def safeRnc (rnc : String) : Bool :=
  let cs := rnc.toList
  9 ≤ cs.length && cs.length ≤ 11 && cs.all Char.isDigit

/-- A certificate file of the default directory, when the name is safe. -/
def fileSigner (safe : Bool) (name password : String) : Procedure (Option Signer) :=
  if safe then ask (.fileSigner ("/app/certificates/" ++ name ++ ".pfx") password) else return none

/-- The certificate files of the default directory, then the configured one. -/
def directorySigner (tenantId rncEmisor password : String) : Procedure Signer := do
  match ← fileSigner (safeTenant tenantId) tenantId password with
  | some signer => return signer
  | none =>
    match ← fileSigner (safeRnc rncEmisor) rncEmisor password with
    | some signer => return signer
    | none => return services.signer

/-- The certificate of the body, up to 3 MB. -/
def inlineSigner (rncEmisor : String) (certificate : Option CanonicalCertificateDto) :
    Procedure (Option Signer) :=
  let inline := (certificate.bind (·.certificateBase64)).getD ""
  if inline ≠ "" ∧ inline.toList.length ≤ 3 * 1024 * 1024 then
    ask (.certificateSigner inline ((certificate.bind (·.password)).getD "") rncEmisor)
  else return none

/-- The certificate of the tenant. -/
def tenantSigner (tenantId rncEmisor : String) : Procedure (Except String (Option Signer)) :=
  if services.hasTenantSignerResolver ∧ rncEmisor ≠ "" then
    ask (.tenantSigner rncEmisor tenantId)
  else return .ok none

/-- `resolveSigner`: the certificate of the body, of the tenant, of a file, or
the configured one. -/
def resolveSigner (tenantId rncEmisor : String) (certificate : Option CanonicalCertificateDto)
    (isDefaultFallback : Bool) : Procedure Signer := do
  if isDefaultFallback then return services.signer
  else
    let password := (certificate.bind (·.password)).getD services.certificatePassword
    match ← inlineSigner rncEmisor certificate with
    | some signer => return signer
    | none =>
      match ← tenantSigner services tenantId rncEmisor with
      | .ok (some signer) =>
        if signer ≠ services.signer then return signer
        else directorySigner services tenantId rncEmisor password
      | _ => directorySigner services tenantId rncEmisor password

/-- `resolveEcfClient`. -/
def resolveEcfClient (rncEmisor : String) (signer : Signer) (ambiente : AmbienteEnum)
    (isDefaultFallback : Bool) : Except String EcfClient :=
  if isDefaultFallback ∨ (signer = services.signer ∧ rncEmisor = services.emisorRnc ∧
      ambiente = services.environment) then services.ecfClient
  else if rncEmisor = "" then .error "RncEmisor is required for Direct mode."
  else .ok ⟨rncEmisor, ambiente, services.validateSchemasLocal, signer⟩

/-! ## A document that exists -/

/-- `NeverTransmittedStates`. -/
def neverTransmittedStates : List String :=
  ["SequenceAllocated", "SigningFailed", "SchemaInvalid", "Unsigned"]

/-- The fields every answer about an uncertain document has. -/
def uncertainFields (doc : EcfDocument) : List (String × Json) :=
  [("documentId", .string doc.id), ("eNcf", .string doc.eNcf), ("state", .string doc.state),
    ("trackId", orNull doc.trackId), ("securityCode", orNull doc.securityCode),
    ("signedXml", orNull doc.signedXmlContent), ("dgiiResponse", orNull doc.dgiiResponseXml)]

/-- `MinimumUncertainAgeBeforeReconciliation`, in nanoseconds. -/
def minimumUncertainAge : ℤ := 120 * second

/-- The estado is one of the two spellings of "not found", or blank. -/
def notFound (estado : String) : Bool :=
  let estadoTrim := trim estado
  estadoTrim = "No encontrado" || estadoTrim = "no encontrado" || estadoTrim = ""

/-- The document with the trackId DGII lists for its eNCF, if it lists one. -/
def askTrackId (client : EcfClient) (doc : EcfDocument) : Procedure EcfDocument := do
  match ← attempt (consultarTrackIds ext client doc.rncEmisor doc.eNcf) with
  | .ok (detail :: _) =>
    if detail.trackId ≠ "" then return { doc with trackId := some detail.trackId }
    else return doc
  | _ => return doc

/-- The document with a trackId asked from DGII when it has none. -/
def recoverTrackId (client : EcfClient) (doc : EcfDocument) : Procedure EcfDocument :=
  if doc.trackId.getD "" = "" then askTrackId ext client doc else return doc

/-- The transmission time, when the document has none: DGII's date, or now. -/
def recoverSentAt (fechaEmision : String) (doc : EcfDocument) : Procedure EcfDocument := do
  if doc.sentToDgiiAt.getD "" = "" then
    if fechaEmision ≠ "" then return { doc with sentToDgiiAt := some fechaEmision }
    else return { doc with sentToDgiiAt := some (toIsoUtc (← now)) }
  else return doc

/-- The document with the state DGII reports for it. -/
def reconciled (doc : EcfDocument) (estado : String) : EcfDocument :=
  if Accepted estado then
    { doc with
      state := "AcceptedByDgii"
      dgiiResponseXml := some ("Aceptado por DGII (Reconciliado): " ++ trim estado) }
  else if Rejected estado then
    { doc with
      state := "RejectedByDgii"
      dgiiResponseXml := some ("Rechazado por DGII (Reconciliado): " ++ trim estado) }
  else
    { doc with
      state := "Signed", dgiiResponseXml := some ("En proceso en DGII: " ++ trim estado) }

/-- A reconciliation sets the state and the text kept of it. -/
theorem reconciled_only (doc : EcfDocument) (estado : String) :
    reconciled doc estado = { doc with
      state := (reconciled doc estado).state
      dgiiResponseXml := (reconciled doc estado).dgiiResponseXml } := by
  unfold reconciled
  repeat' split
  all_goals rfl

/-- The state of a reconciled document: a verdict, or Signed without one. -/
theorem reconciled_state (doc : EcfDocument) (estado : String) :
    (reconciled doc estado).state = "AcceptedByDgii" ∨
      (reconciled doc estado).state = "RejectedByDgii" ∨
      (reconciled doc estado).state = "Signed" ∧ Accepted estado = false ∧
        Rejected estado = false := by
  unfold reconciled
  split
  · exact .inl rfl
  · next notAccepted =>
    split
    · exact .inr (.inl rfl)
    · next notRejected =>
      exact .inr (.inr ⟨rfl, Bool.eq_false_iff.mpr notAccepted, Bool.eq_false_iff.mpr notRejected⟩)

/-- The answer after a reconciliation. -/
def reconciledResponse (doc : EcfDocument) : HttpResponse :=
  if doc.state = "AcceptedByDgii" then json (uncertainFields doc) 200
  else if doc.state = "RejectedByDgii" then
    json (uncertainFields doc ++ [("error",
      .string (doc.dgiiResponseXml.getD "Rechazado por DGII (Reconciliado)"))]) 422
  else json (uncertainFields doc) 202

/-- The row with the submitted content. -/
def withContent (target : SubmissionTarget) (time : ℕ) (doc : EcfDocument) : EcfDocument :=
  applyCanonicalContent ext time doc target.dto target.editSequence target.emisorRnc
    target.emisorRazonSocial

/-- `applyCanonicalContent` at the time of the call. -/
def refresh (s : Submission) (doc : EcfDocument) : Procedure EcfDocument := do
  let time ← now
  return withContent ext s.toSubmissionTarget time doc

/-- Whether the last attempt on a document is under two minutes old, as far as
its timestamp can be read. -/
def tooYoung (row : EcfDocumentRow) : Procedure Bool := do
  let docTime := parseIsoSeconds (row.updatedAt.getD row.createdAt)
  if row.updatedAt.getD row.createdAt ≠ "" ∧ docTime ≠ 0 then
    let time ← now
    return decide ((time : ℤ) - docTime * second < minimumUncertainAge)
  else return false

/-- `reconcileUncertain`. -/
def reconcileUncertain (s : Submission) (row : EcfDocumentRow) : Procedure HttpResponse := do
  let doc := row.toEcfDocument
  if ← tooYoung row then
    return json (uncertainFields doc) (if doc.state = "Signed" then 202 else 409)
  else
    match ← attempt (consultarEstado ext s.client doc.rncEmisor doc.eNcf none none) with
    | .error _ =>
      return json (uncertainFields doc ++ [("error", .string
        "Fallo de comunicación al consultar estado en DGII. Documento permanece en estado incierto.")]) 503
    | .ok status =>
      if notFound status.estado then
        -- "DGII confirms it never received it: treat as never transmitted"
        let doc ← refresh ext s doc
        update doc
        signAndSend ext services s doc
      else
        let doc ← recoverTrackId ext s.client doc
        let doc ← recoverSentAt status.fechaEmision doc
        update (reconciled doc status.estado)
        return reconciledResponse (reconciled doc status.estado)

/-- The type asked of the sequence manager. -/
def tipoOf (target : SubmissionTarget) : String :=
  if target.dto.tipoComprobante = "" then "E31" else target.dto.tipoComprobante

/-- The scope asked of the sequence manager. -/
def scopeOf (target : SubmissionTarget) : String :=
  sequenceScope target.isDefaultFallback target.tenantId target.ambiente

/-- A rejected document before its content is replaced: a new eNCF, nothing of
the old transmission. -/
def reissued (doc : EcfDocument) (eNcf : String) : EcfDocument :=
  { doc with
    eNcf := eNcf, trackId := none, securityCode := none, dgiiResponseXml := none
    sentToDgiiAt := none, state := "AwaitingTransmission" }

/-- The RejectedByDgii branch of `handleExistingDocument`. -/
def reissue (s : Submission) (doc : EcfDocument) : Procedure HttpResponse := do
  let target := s.toSubmissionTarget
  let newEncf ← .raise (← ask (.getNextEncf (scopeOf target) (tipoOf target)))
  let doc ← refresh ext s (reissued doc newEncf)
  match ← attempt (update doc) with
  | .ok () => signAndSend ext services s doc
  | .error what =>
    ask (.releaseUnusedEncf (scopeOf target) (tipoOf target) newEncf)
    .throw what

/-- The 409 answer to a document modified after it was issued. -/
def editConflict (doc : EcfDocument) (editSequence : String) : HttpResponse :=
  json
    [("error", .string "SourceReference.EditSequence differs from the version already processed for this TxnId. The invoice was modified after its e-CF was issued; issue a correction document instead of resubmitting."),
      ("documentId", .string doc.id), ("eNcf", .string doc.eNcf), ("state", .string doc.state),
      ("previousEditSequence", .string doc.editSequence),
      ("incomingEditSequence", .string editSequence)] 409

/-- The answer about a document that needs nothing done. -/
def existingResponse (doc : EcfDocument) : HttpResponse :=
  json
    [("documentId", .string doc.id), ("eNcf", .string doc.eNcf), ("state", .string doc.state),
      ("totalAmount", .number doc.totalAmount), ("itbisAmount", .number doc.itbisAmount),
      ("trackId", .string (doc.trackId.getD "")),
      ("securityCode", .string (doc.securityCode.getD "")),
      ("signedXml", .string (doc.signedXmlContent.getD "")),
      ("dgiiResponse", .string (doc.dgiiResponseXml.getD "")),
      ("dgiiResponseXml", .string (doc.dgiiResponseXml.getD ""))]
    (if doc.state = "AcceptedByDgii" then 200
      else if doc.state = "RejectedByDgii" then 422
      else if doc.state = "AwaitingTransmission" then 409
      else if doc.state = "Uncertain" then 503
      else 202)

/-- `handleExistingDocument`. -/
def handleExistingDocument (s : Submission) (row : EcfDocumentRow) : Procedure HttpResponse := do
  if row.state ∈ neverTransmittedStates then
    let doc ← refresh ext s row.toEcfDocument
    update doc
    signAndSend ext services s doc
  else if row.state = "Uncertain" ∨ row.state = "AwaitingTransmission" then
    reconcileUncertain ext services s row
  else if row.state = "RejectedByDgii" then reissue ext services s row.toEcfDocument
  else if row.editSequence ≠ s.editSequence then
    return editConflict row.toEcfDocument s.editSequence
  else return existingResponse row.toEcfDocument

/-! ## A document that does not exist -/

/-- The lookup of the submitted document. -/
def lookup (s : Submission) : Procedure (Except String (Option EcfDocumentRow)) :=
  ask (.documentBySourceTxnId s.tenantId s.dto.sourceReference.txnId
    (some (ambienteToString s.ambiente)))

/-- The document `submit` inserts, before its content. -/
def newDocument (target : SubmissionTarget) (id eNcf : String) : EcfDocument :=
  { id := id, eNcf := eNcf, rncEmisor := "", tenantId := target.tenantId
    sourceTxnId := target.dto.sourceReference.txnId, editSequence := ""
    ambiente := some (ambienteToString target.ambiente) }

/-- `scope.docs->add(doc); scope.uow->saveChanges();` -/
def add (doc : EcfDocument) : Procedure Unit := do
  let time ← now
  .raise (← saveChanges [.insert doc time])

/-- An error names the unique index on the source, or its SQLSTATE. -/
def isSourceConflict (what : String) : Bool :=
  contains what "uq_ecf_documents_tenant_source_txn" || contains what "23505"

def internalError : HttpResponse :=
  err "Error interno al procesar el documento en base de datos." 500

/-- What follows a failed insert: the number goes back, and the winner of the
race is handled in a scope of its own. -/
def recoverInsert (s : Submission) (eNcf what : String) : Procedure HttpResponse := do
  ask (.releaseUnusedEncf (scopeOf s.toSubmissionTarget) s.dto.tipoComprobante eNcf)
  if isSourceConflict what then
    match ← .raise (← lookup s) with
    | some winner => handleExistingDocument ext services s winner
    | none => return internalError
  else return internalError

/-- A document not found: allocate, insert, send. -/
def submitNew (s : Submission) : Procedure HttpResponse := do
  match ← ask (.getNextEncf (scopeOf s.toSubmissionTarget) s.dto.tipoComprobante) with
  | .error what => return err what 503
  | .ok eNcf =>
    let id ← ask .newUuid
    let doc ← refresh ext s (newDocument s.toSubmissionTarget id eNcf)
    match ← attempt (add doc) with
    | .ok () => signAndSend ext services s doc
    | .error what => recoverInsert ext services s eNcf what

/-- `submit` once everything is resolved.  The callback runs inside the `try`
block of the lookup. -/
def submitResolved (s : Submission) (cb : HttpResponse → Procedure Unit) : Procedure Unit := do
  let handled ← attempt do
    match ← .raise (← lookup s) with
    | some existing =>
      let res ← handleExistingDocument ext services s existing
      cb res
      return true
    | none => return false
  match handled with
  | .error what => cb (err ("Database query error: " ++ what) 500)
  | .ok true => return ()
  | .ok false => cb (← submitNew ext services s)

/-- `submit` up to the signer: the body read, checked and authorised, or the
refusal. -/
def resolveTarget (req : SubmitRequest) : Except HttpResponse SubmissionTarget := do
  let submitted ← match req.body with
    | .invalid => .error (err "Invalid JSON body." 400)
    | .unreadable what => .error (err ("JSON parsing error: " ++ what) 400)
    | .document submitted => .ok submitted
  let dto ← match checkDocument submitted with
    | .error message => .error (err message 400)
    | .ok dto => .ok dto
  let tenantId ← effectiveTenant req dto
  let ambiente ← resolveAmbiente services req dto
  let isDefaultFallback := tenantId = "default-tenant" && rawEnvironment req dto = "" &&
    req.xTenantId = "" && dto.tenantId.getD "" = ""
  let configuredRnc := if services.emisorRnc ≠ "" then services.emisorRnc
    else services.rncEmisorOption.getD "101672919"
  let configuredRazon := if services.emisorRazonSocial ≠ "" then services.emisorRazonSocial
    else "EMPRESA EMISORA"
  .ok
    { dto := dto
      editSequence := dto.sourceReference.editSequence
      tenantId := tenantId
      ambiente := ambiente
      emisorRnc := if !isDefaultFallback && dto.header.rncEmisor ≠ "" then dto.header.rncEmisor
        else configuredRnc
      emisorRazonSocial := if !isDefaultFallback && dto.header.razonSocialEmisor ≠ "" then
        dto.header.razonSocialEmisor else configuredRazon
      isDefaultFallback := isDefaultFallback }

/-- The body of `submit` under the idempotency handler. -/
def submitBody (req : SubmitRequest) (cb : HttpResponse → Procedure Unit) : Procedure Unit := do
  match resolveTarget services req with
  | .error response => cb response
  | .ok target =>
    let signer ← resolveSigner services target.tenantId target.emisorRnc target.dto.certificate
      target.isDefaultFallback
    let client ← .raise (resolveEcfClient services target.emisorRnc signer target.ambiente
      target.isDefaultFallback)
    submitResolved ext services { target with signer := signer, client := client } cb

/-! ## Idempotency -/

/-- `IdempotencyReservationResult`. -/
inductive Reservation
  | reserved
  | alreadyProcessing
  | payloadMismatch
  | alreadyCompleted (statusCode : ℕ) (contentType body : String)
  deriving DecidableEq

/-- The `documentId` a stored response names. -/
def storedDocumentId (responseBody : String) : Option String :=
  if contains responseBody "\"documentId\"" then
    match ext.parseStored responseBody with
    | some (.object fields) =>
      match (fields.find? (·.1 = "documentId")).map Prod.snd with
      | some (.string id) => if id = "" then none else some id
      | _ => none
    | _ => none
  else none

/-- `isUnderlyingDocumentRejected`. -/
def isUnderlyingDocumentRejected (responseBody : String) : Procedure Bool := do
  match storedDocumentId ext responseBody with
  | none => return false
  | some id =>
    match ← ask (.idempotency (.documentState id)) with
    | .ok (some state) =>
      return state = "RejectedByDgii" || state = "SchemaInvalid" || state = "SigningFailed"
    | _ => return false

/-- The stored attempt failed: by its status code, or else by its document. -/
def failedBefore (record : IdempotencyRecord) : Procedure Bool :=
  if 400 ≤ record.statusCode then return true
  else isUnderlyingDocumentRejected ext record.responseBody

/-- The stored result stands: a success whose document is not rejected. -/
def standsCompleted (record : IdempotencyRecord) : Procedure Bool :=
  if 200 ≤ record.statusCode ∧ record.statusCode < 300 then do
    return !(← isUnderlyingDocumentRejected ext record.responseBody)
  else return false

/-- `reserveOrGet` on the record of the key. -/
def reserveExisting (key payloadHash workerKeyId : String) (record : IdempotencyRecord)
    (isLeaseExpired : Bool) : Procedure Reservation := do
  if record.payloadHash ≠ payloadHash then
    if ← failedBefore ext record then
      .raise (← ask (.idempotency (.renewWithHash key payloadHash workerKeyId)))
      return .reserved
    else return .payloadMismatch
  else if record.status = "Completed" then
    if ← standsCompleted ext record then
      return .alreadyCompleted record.statusCode record.contentType record.responseBody
    else
      .raise (← ask (.idempotency (.renew key workerKeyId)))
      return .reserved
  else if record.status = "Processing" ∧ isLeaseExpired then
    if ← .raise (← ask (.idempotency (.reclaim key workerKeyId))) then return .reserved
    else return .alreadyProcessing
  else return .alreadyProcessing

/-- `DbIdempotencyStore::reserveOrGet`, statement by statement. -/
def reserveOrGet (key payloadHash workerKeyId : String) : Procedure Reservation := do
  match ← .raise (← ask (.idempotency (.fetch key))) with
  | some (record, isLeaseExpired) =>
    reserveExisting ext key payloadHash workerKeyId record isLeaseExpired
  | none =>
    if ← .raise (← ask (.idempotency (.insert key payloadHash workerKeyId))) then
      return .reserved
    else return .alreadyProcessing

/-- The responses that are kept for a replay. -/
def shouldCache (statusCode : ℕ) : Bool :=
  decide (200 ≤ statusCode ∧ statusCode < 500) &&
    statusCode ∉ [401, 403, 408, 409, 429]

/-- The content type and text of a response. -/
def HttpResponse.content (response : HttpResponse) : String × String :=
  match response.body with
  | .json value => ("application/json; charset=utf-8", ext.render value)
  | .text contentType content => (contentType, content)

/-- The callback the handler passes on: store the result or release the key,
then answer. -/
def idempotentCallback (scopedKey : String) (response : HttpResponse) : Procedure Unit := do
  if shouldCache response.statusCode then
    let (contentType, body) := HttpResponse.content ext response
    .raise (← ask (.idempotency (.complete scopedKey response.statusCode contentType body)))
  else
    let _ ← ask (.idempotency (.release scopedKey))
  respond response

/-- What `handle` does with a reservation.  The lambda given to `next` has taken
the callback with it, so the one the `catch` block calls is empty: the key is
released, and `std::bad_function_call` leaves `handle` in place of an answer. -/
def executeReserved (scopedKey : String)
    (next : (HttpResponse → Procedure Unit) → Procedure Unit) : Procedure Unit :=
  .tryCatch (next (idempotentCallback ext scopedKey)) fun _ => do
    let _ ← ask (.idempotency (.release scopedKey))
    .throw "bad_function_call"

/-- The answer to a reservation. -/
def answerReservation (scopedKey : String)
    (next : (HttpResponse → Procedure Unit) → Procedure Unit) : Reservation → Procedure Unit
  | .alreadyCompleted statusCode contentType body =>
    respond
      { statusCode := statusCode, headers := [("X-Cache-Lookup", "Hit-Idempotent")]
        body := .text contentType body }
  | .alreadyProcessing =>
    respond (err "Request with this Idempotency-Key is currently being processed." 409)
  | .payloadMismatch =>
    respond (err "Idempotency key payload mismatch. The same key was used with a different request body." 422)
  | .reserved => executeReserved ext scopedKey next

/-- `IdempotencyHandler::handle`. -/
def idempotencyHandle (method key tenantId workerKeyId bodyText : String)
    (next : (HttpResponse → Procedure Unit) → Procedure Unit) : Procedure Unit := do
  if key = "" ∨ method ∉ ["POST", "PUT", "PATCH"] then next respond
  else
    let scopedKey := tenantId ++ ":" ++ key
    answerReservation ext scopedKey next
      (← reserveOrGet ext scopedKey (ext.sha256 bodyText) workerKeyId)

/-- `DocumentsController::submit`. -/
def submit (req : SubmitRequest) : Procedure Unit :=
  idempotencyHandle ext req.method req.idempotencyKey (requestedTenant req)
    (req.workerKeyId.getD "default-worker") req.bodyText (submitBody ext services req)

end EcfDgii.Submission
