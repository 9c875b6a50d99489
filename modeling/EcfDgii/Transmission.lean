import EcfDgii.CanonicalXml
import EcfDgii.Transport

/-!
Signing and sending one document (`signAndSend` of `DocumentsController.cpp`).

The row is committed once before the transmission, in AwaitingTransmission, and
once after it with the outcome.  Small consumer invoices go out as a summary
(RFCE) whose reply is the verdict; every other document goes to reception,
whose reply is a trackId that is queried once on the spot.  An exception
anywhere in the transmission leaves the document Uncertain.
-/

set_option autoImplicit false

namespace EcfDgii.Transmission

open EcfDgii.Text EcfDgii.Timestamps EcfDgii.Documents EcfDgii.DgiiReplies EcfDgii.Tables
open EcfDgii.Programs EcfDgii.Engine EcfDgii.CanonicalXml EcfDgii.Transport

/-- What a request asks for, once it is checked and authorised. -/
structure SubmissionTarget where
  dto : CanonicalDocumentDto
  editSequence : String
  tenantId : String
  ambiente : AmbienteEnum
  emisorRnc : String
  emisorRazonSocial : String
  isDefaultFallback : Bool

/-- What `submit` passes to every function below it: the target, and the
effective signer and client. -/
structure Submission extends SubmissionTarget where
  signer : Signer
  client : EcfClient

/-- The configured parties and options (`AppServices`). -/
structure Services where
  signer : Signer
  ecfClient : Except String EcfClient
  emisorRnc : String := ""
  emisorRazonSocial : String := ""
  rncEmisorOption : Option String := none
  environment : AmbienteEnum := .preCertificacion
  validateSchemasLocal : Bool := false
  hasTenantSignerResolver : Bool := false
  certificatePassword : String := ""
  pollingIntervalMinutes : ℤ := 15
  minDocumentAgeMinutes : ℤ := 2
  maxPollingWindowHours : ℤ := 72

variable (ext : Externals) (services : Services)

/-- `scope.docs->update(doc); scope.uow->saveChanges();` -/
def update (doc : EcfDocument) : Procedure Unit := do
  let time ← now
  .raise (← saveChanges [.update doc time])

/-- `EcfSecurityUtils::calcularCodigoSeguridad`. -/
def calcularCodigoSeguridad (signedXml : String) : Except String String :=
  let signatureValue := ext.signatureValue signedXml
  if signatureValue.toList.length < 6 then
    .error "El SignatureValue es inválido o tiene menos de 6 caracteres."
  else .ok (takeFirst 6 signatureValue)

/-- A field that is null when absent. -/
def orNull : Option String → Json
  | some s => .string s
  | none => .null

/-- `doc.eNcf` begins with E32 and the total is under RD$250,000. -/
def isRfce (doc : EcfDocument) : Bool :=
  (startsWith doc.eNcf "E32" || startsWith doc.eNcf "e32") && decide (doc.totalAmount < 250000)

/-- The messages of a reply, one after another. -/
def mensajesText (mensajes : List MensajeCodigo) : String :=
  joined "; " (mensajes.map fun m => "[" ++ m.codigo ++ "] " ++ m.valor)

/-- The verdict of `consultarResultado`, where it is one. -/
def afterResultado (doc : EcfDocument) (resultado : ConsultaResultadoResponse) :
    Option EcfDocument :=
  if resultado.estado = "" then none
  else if Accepted resultado.estado then
    some { doc with
      state := "AcceptedByDgii"
      dgiiResponseXml := some ("Aceptado por DGII: " ++ trim resultado.estado) }
  else if Rejected resultado.estado then
    some { doc with
      state := "RejectedByDgii"
      dgiiResponseXml := some (if resultado.mensajes = [] then "Rechazado por DGII"
        else mensajesText resultado.mensajes) }
  else none

/-- A verdict of `consultarResultado` is an acceptance or a rejection, and
touches nothing else but the text kept of it. -/
theorem afterResultado_some {doc d : EcfDocument} {resultado : ConsultaResultadoResponse}
    (h : afterResultado doc resultado = some d) :
    d = { doc with state := d.state, dgiiResponseXml := d.dgiiResponseXml } ∧
      (d.state = "AcceptedByDgii" ∨ d.state = "RejectedByDgii") := by
  unfold afterResultado at h
  split at h
  · cases h
  · split at h
    · cases h
      exact ⟨rfl, .inl rfl⟩
    · split at h <;> cases h
      exact ⟨rfl, .inr rfl⟩

/-- The document after an RFCE reply. -/
def afterRfce (sentAt : ℕ) (doc : EcfDocument) (resp : RfceRecepcionResponse) : EcfDocument :=
  if resp.codigo = 1 ∨ Accepted resp.estado then
    { doc with
      trackId := doc.securityCode
      state := "AcceptedByDgii"
      sentToDgiiAt := some (toIsoUtc sentAt)
      dgiiResponseXml := some ("Aceptado por DGII (RecepcionFC): " ++
        if resp.estado = "" then "Aceptado" else resp.estado) }
  else
    { doc with
      state := "RejectedByDgii"
      dgiiResponseXml := some (if resp.mensajes ≠ [] then mensajesText resp.mensajes
        else if resp.estado ≠ "" then resp.estado else "Rechazado por RecepcionFC") }

/-- The document after a reception that gave a trackId. -/
def received (sentAt : ℕ) (doc : EcfDocument) (trackId : String) : EcfDocument :=
  { doc with trackId := some trackId, state := "Signed", sentToDgiiAt := some (toIsoUtc sentAt) }

/-- The document after a reception without one. -/
def notReceived (doc : EcfDocument) (response : EcfRecepcionResponse) : EcfDocument :=
  let err := response.error.getD (response.mensaje.getD "")
  if err ≠ "" then { doc with state := "RejectedByDgii", dgiiResponseXml := some err }
  else { doc with
    state := "Uncertain"
    dgiiResponseXml :=
      some "Transmisión incierta: DGII no devolvió trackId ni mensaje de rechazo." }

/-- The RFCE branch of the transmission. -/
def sendAsRfce (s : Submission) (doc : EcfDocument) : Procedure EcfDocument := do
  let fallback := if s.emisorRazonSocial ≠ "" then s.emisorRazonSocial
    else if services.emisorRazonSocial ≠ "" then services.emisorRazonSocial else "EMPRESA EMISORA"
  let emisorRazon := if !s.isDefaultFallback && s.dto.header.razonSocialEmisor ≠ "" then
    s.dto.header.razonSocialEmisor else fallback
  let time ← now
  let signedRfce ← .raise (← signXml s.signer (buildRfceXml ext time doc s.dto emisorRazon)
    doc.rncEmisor)
  let resp ← sendRfce ext s.client signedRfce ⟨doc.rncEmisor, doc.eNcf⟩
  let sentAt ← now
  return afterRfce sentAt doc resp

/-- The reception branch of the transmission. -/
def sendAsEcf (s : Submission) (doc : EcfDocument) : Procedure EcfDocument := do
  let response ← sendEcf ext s.client (doc.signedXmlContent.getD "") ⟨doc.rncEmisor, doc.eNcf⟩
  if response.trackId ≠ "" then
    let sentAt ← now
    let doc := received sentAt doc response.trackId
    match ← attempt (consultarResultado ext s.client response.trackId) with
    | .ok resultado => return (afterResultado doc resultado).getD doc
    | .error _ => return doc
  else return notReceived doc response

/-- The transmission: whatever is thrown on the way, the document is Uncertain. -/
def transmission (s : Submission) (doc : EcfDocument) : Procedure EcfDocument :=
  .tryCatch (if isRfce doc then sendAsRfce ext services s doc else sendAsEcf ext s doc)
    fun _ => return { doc with state := "Uncertain" }

/-- The response of a finished transmission. -/
def outcomeResponse (doc : EcfDocument) : HttpResponse :=
  let out : List (String × Json) :=
    [("documentId", .string doc.id), ("eNcf", .string doc.eNcf), ("state", .string doc.state),
      ("totalAmount", .number doc.totalAmount), ("itbisAmount", .number doc.itbisAmount),
      ("trackId", orNull doc.trackId), ("securityCode", orNull doc.securityCode),
      ("signedXml", orNull doc.signedXmlContent), ("dgiiResponse", orNull doc.dgiiResponseXml),
      ("dgiiResponseXml", orNull doc.dgiiResponseXml)]
  if doc.state = "AcceptedByDgii" then json out 200
  else if doc.state = "Signed" then json out 202
  else if doc.state = "RejectedByDgii" then
    json (out ++ [("error", .string (doc.dgiiResponseXml.getD "Rechazado por DGII"))]) 422
  else if doc.state = "AwaitingTransmission" then json out 409
  else if doc.state = "Uncertain" then
    json (out ++ [("error", .string (doc.dgiiResponseXml.getD "Transmisión incierta a DGII."))]) 503
  else json out 202

/-- The row after a signature failure: the unsigned XML stands in for the
signed one. -/
def signingFailed (doc : EcfDocument) : EcfDocument :=
  { doc with state := "SigningFailed", signedXmlContent := some doc.xmlContent }

/-- The row once signed. -/
def signed (doc : EcfDocument) (signedXml codigo : String) : EcfDocument :=
  { doc with
    signedXmlContent := some signedXml, securityCode := some codigo
    state := "AwaitingTransmission" }

/-- The row when the only certificate is the fallback one. -/
def unsigned (doc : EcfDocument) : EcfDocument :=
  { doc with state := "Unsigned", signedXmlContent := none, securityCode := none }

def unsignedMessage : String :=
  "Certificado digital de producción no configurado para el tenant. Comprobante no firmado."

/-- The 422 answer of an unsigned document. -/
def unsignedResponse (doc : EcfDocument) : HttpResponse :=
  json
    [("documentId", .string doc.id), ("eNcf", .string doc.eNcf), ("state", .string doc.state),
      ("trackId", .null), ("securityCode", .null), ("signedXml", .null),
      ("dgiiResponse", .string (doc.dgiiResponseXml.getD unsignedMessage)),
      ("error", .string unsignedMessage)] 422

/-- The content signature: the signed XML and its security code. -/
def signContent (s : Submission) (doc : EcfDocument) : Procedure (String × String) := do
  let signedXml ← .raise (← signXml s.signer doc.xmlContent doc.rncEmisor)
  let codigo ← .raise (calcularCodigoSeguridad ext signedXml)
  return (signedXml, codigo)

/-- The last update: a second scope is tried once, then the outcome is only
returned. -/
def saveOutcome (doc : EcfDocument) : Procedure Unit :=
  .tryCatch (update doc) fun _ => .tryCatch (update doc) fun _ => return ()

/-- `signAndSend` once the document is signed. -/
def sendSigned (s : Submission) (doc : EcfDocument) : Procedure HttpResponse := do
  if s.signer.usesFallbackCertificate then
    update (unsigned doc)
    return unsignedResponse (unsigned doc)
  else
    update doc
    let doc ← transmission ext services s doc
    saveOutcome doc
    return outcomeResponse doc

/-- `signAndSend`. -/
def signAndSend (s : Submission) (doc : EcfDocument) : Procedure HttpResponse := do
  match ← attempt (signContent ext s doc) with
  | .error what =>
    update (signingFailed doc)
    return err ("Error al firmar digitalmente el XML de e-CF: " ++ what) 500
  | .ok (signedXml, codigo) =>
    let doc := signed doc signedXml codigo
    match if services.validateSchemasLocal then ext.validate signedXml else none with
    | some errors =>
      update { doc with state := "SchemaInvalid" }
      return json
        [("error", .string "El XML firmado no es válido contra el esquema DGII (validación local, antes de enviar a DGII)."),
          ("details", .array (errors.map Json.string))] 400
    | none => sendSigned ext services s doc

end EcfDgii.Transmission
