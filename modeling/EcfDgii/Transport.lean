import EcfDgii.Engine

/-!
Talking to DGII (`DgiiDirectTransport.cpp`, `EcfClient.cpp`).

Every request carries a bearer token.  `sendWithReactiveAuth` repeats a request
once, with a fresh token, when the first answer is a 401; the answer kept is
then validated and parsed.  A transmission repeated this way is two `post`s.
-/

set_option autoImplicit false

namespace EcfDgii.Transport

open EcfDgii.Text EcfDgii.Documents EcfDgii.DgiiReplies EcfDgii.Programs EcfDgii.Engine

/-- `sendWithReactiveAuth` around one way of sending. -/
def sendWithReactiveAuth (client : EcfClient) (send : String → Procedure HttpReply) :
    Procedure HttpReply := do
  let token ← .raise (← getToken client)
  let resp ← send token
  if resp.statusCode = 401 then
    invalidateToken client
    let freshToken ← .raise (← getToken client)
    let resp ← send freshToken
    .raise (validateDgiiResponse resp)
    return resp
  else
    .raise (validateDgiiResponse resp)
    return resp

/-- `cpr::Post`: the transmission, then its reply. -/
def transmit (client : EcfClient) (route : Route) (xml : String) (file : EcfFileName)
    (token : String) : Procedure HttpReply := do
  let connection ← post client route token xml file
  await connection

variable (ext : Externals)

/-- `EcfValidationException::buildMessage`. -/
def validationMessage (errors : List String) : String :=
  "Errores de validación: " ++ joined ", " errors

/-- The schema check `EcfClient` makes before it sends. -/
def validateBeforeSending (client : EcfClient) (xml : String) : Except String Unit :=
  if client.validateSchemasLocal then
    match ext.validate xml with
    | some errors => .error (validationMessage errors)
    | none => .ok ()
  else .ok ()

/-- `EcfClient::sendEcf`. -/
def sendEcf (client : EcfClient) (xml : String) (file : EcfFileName) :
    Procedure EcfRecepcionResponse := do
  .raise (validateBeforeSending ext client xml)
  let resp ← sendWithReactiveAuth client (transmit client .recepcion xml file)
  .raise (ecfRecepcion ext.toParsers resp)

/-- `EcfClient::sendRfce`. -/
def sendRfce (client : EcfClient) (xml : String) (file : EcfFileName) :
    Procedure RfceRecepcionResponse := do
  .raise (validateBeforeSending ext client xml)
  let resp ← sendWithReactiveAuth client (transmit client .recepcionFc xml file)
  .raise (rfceRecepcion ext.toParsers resp)

/-- A query, authenticated. -/
def consultar (client : EcfClient) (consulta : Consulta) : Procedure HttpReply :=
  sendWithReactiveAuth client fun token => get client token consulta

/-- `consultarResultado`. -/
def consultarResultado (client : EcfClient) (trackId : String) :
    Procedure ConsultaResultadoResponse := do
  .raise (consultaResultado ext.toParsers trackId (← consultar client (.resultado trackId)))

/-- `consultarEstado`. -/
def consultarEstado (client : EcfClient) (rncEmisor eNcf : String)
    (rncComprador codigoSeguridad : Option String) : Procedure ConsultaEstadoResponse := do
  return consultaEstado ext.toParsers
    (← consultar client (.estado rncEmisor eNcf rncComprador codigoSeguridad))

/-- `consultarTrackIds`. -/
def consultarTrackIds (client : EcfClient) (rncEmisor eNcf : String) :
    Procedure (List TrackIdDetalle) := do
  return consultaTrackIds ext.toParsers (← consultar client (.trackIds rncEmisor eNcf))

/-! ## What sending asks -/

section Asks

variable {client : EcfClient} {S : Request → Prop}

/-- Sending asks for tokens, and what the way of sending asks. -/
theorem sendWithReactiveAuth_only {send : String → Procedure HttpReply}
    (token : S (.getToken client)) (invalidate : S (.invalidateToken client))
    (sends : ∀ token, (send token).Only S) : (sendWithReactiveAuth client send).Only S := by
  have answer : ∀ resp, (do
      Program.raise (validateDgiiResponse resp)
      return resp : Procedure HttpReply).Only S :=
    fun resp => (Program.only_raise _).bind fun _ => trivial
  have fresh : ∀ k : String → Procedure HttpReply, (∀ token, (k token).Only S) →
      (do k (← .raise (← getToken client)) : Procedure HttpReply).Only S := fun k rest =>
    ⟨token, fun answer => (Program.only_raise answer).bind rest⟩
  unfold sendWithReactiveAuth
  refine fresh _ fun token => (sends token).bind fun resp => .ite (fun _ => ?_) fun _ => answer resp
  exact ⟨invalidate, fun _ => fresh _ fun token => (sends token).bind answer⟩

/-- A query asks for tokens and for itself. -/
theorem consultar_only {consulta : Consulta} (token : S (.getToken client))
    (invalidate : S (.invalidateToken client)) (query : ∀ token, S (.get client token consulta)) :
    (consultar client consulta).Only S :=
  sendWithReactiveAuth_only token invalidate fun token => ⟨query token, fun _ => trivial⟩

/-- An attempt asks what it attempts. -/
theorem attempt_only {α : Type} {p : Procedure α} (h : p.Only S) : (attempt p).Only S := by
  have kept : (do return Except.ok (← p) : Procedure (Except String α)).Only S :=
    h.bind fun _ => Program.only_done _
  exact kept.tryCatch fun _ => Program.only_done _

end Asks

end EcfDgii.Transport
