import EcfDgii.WrappedOperations

/-!
Sending a document the caller has built (`EcfController.cpp`, `EcfHandlers.cpp`).

`/api/ecf/send` and `/api/ecf/send-rfce` transmit first and insert the document
afterwards; whatever fails on the way is a failure of the request.  Both run
under the idempotency handler.  The serializer and the validator of summaries,
and the fields of a summary that the handler does not look at, are parameters;
so is what the in-memory sequence provider gives to a retry.
-/

set_option autoImplicit false

namespace EcfDgii.DirectSending

open EcfDgii.Text EcfDgii.Timestamps EcfDgii.Documents EcfDgii.DgiiReplies EcfDgii.Tables
open EcfDgii.Programs EcfDgii.Engine EcfDgii.Transport EcfDgii.Transmission EcfDgii.Submission
open EcfDgii.WrappedOperations

/-! ## Commands -/

/-- `SendEcfCommand`. -/
structure SendEcfCommand where
  xmlContent : String := ""
  fileName : String := ""
  rncEmisor : String := ""
  eNcf : String := ""
  rncComprador : Option String := none
  totalAmount : ℚ := 0
  itbisAmount : ℚ := 0

/-- `domain::Rfce`, the fields the handler looks at and the others. -/
structure Rfce (γ : Type) where
  eNcf : String
  rncEmisor : String
  rncComprador : Option String := none
  montoTotal : ℚ := 0
  totalITBIS : Option ℚ := none
  codigoSeguridadeCF : Option String := none
  codigoSeguridadTotales : Option String := none
  content : γ

/-- `EcfValidator::validateRfce` and `EcfXmlSerializer::serialize`. -/
structure RfceFunctions (γ : Type) where
  validateRfce : Rfce γ → List String
  serialize : Rfce γ → Except String String

/-- The fields of a JSON object. -/
abbrev JsonFields := List (String × Json)

/-- `isMember` and `operator[]`. -/
def member (fields : JsonFields) (name : String) : Option Json :=
  (fields.find? (·.1 = name)).map Prod.snd

def notString : Option Json → Bool
  | none | some (.string _) => false
  | some _ => true

def notNumeric : Option Json → Bool
  | none | some (.number _) => false
  | some _ => true

/-- The first field of the wrong type, in the order of the controller. -/
def fieldError (fields : JsonFields) : Option String :=
  match ["xmlContent", "fileName", "rncEmisor", "eNcf", "rncComprador"].find?
      fun name => notString (member fields name) with
  | some name => some ("Field '" ++ name ++ "' must be a string.")
  | none =>
    (["totalAmount", "itbisAmount"].find? fun name => notNumeric (member fields name)).map
      fun name => "Field '" ++ name ++ "' must be a numeric value."

def asString : Option Json → String
  | some (.string s) => s
  | _ => ""

def asDouble : Option Json → ℚ
  | some (.number q) => q
  | _ => 0

/-- The command of a body whose fields have their types. -/
def sendEcfCommand (fields : JsonFields) : SendEcfCommand where
  xmlContent := asString (member fields "xmlContent")
  fileName := asString (member fields "fileName")
  rncEmisor := asString (member fields "rncEmisor")
  eNcf := asString (member fields "eNcf")
  rncComprador := (member fields "rncComprador").map fun value => asString (some value)
  totalAmount := asDouble (member fields "totalAmount")
  itbisAmount := asDouble (member fields "itbisAmount")

/-- `kRncRegex`. -/
def isRnc (s : String) : Bool :=
  (s.length = 9 || s.length = 11) && s.toList.all Char.isDigit

/-- The failures both validators report about the issuer and the number. -/
def issuerFailures (rncEmisor eNcf : String) (required : String) : List (String × String) :=
  (if rncEmisor = "" then [("RncEmisor", required)] else []) ++
    (if rncEmisor ≠ "" ∧ !isRnc rncEmisor then
      [("RncEmisor", "RNC Emisor must be exactly 9 or 11 numeric digits.")] else []) ++
    (if eNcf = "" then [("ENcf", "e-NCF is required.")] else []) ++
    (if 20 < eNcf.utf8ByteSize then [("ENcf", "e-NCF must not exceed 20 characters.")] else [])

/-- What a `ValidationException` says. -/
def validationFailure : String := "One or more validation failures have occurred."

/-- `validate(const SendEcfCommand&)`. -/
def SendEcfCommand.validate (c : SendEcfCommand) : List (String × String) :=
  (if c.xmlContent = "" then [("XmlContent", "XML Content is required.")] else []) ++
    (if c.fileName = "" then [("FileName", "File name is required.")] else []) ++
    (if 150 < c.fileName.utf8ByteSize then
      [("FileName", "File name must not exceed 150 characters.")] else []) ++
    issuerFailures c.rncEmisor c.eNcf "RNC Emisor is required." ++
    (if c.totalAmount < 0 then
      [("TotalAmount", "Total amount must be greater than or equal to 0.")] else []) ++
    (if c.itbisAmount < 0 then
      [("ItbisAmount", "ITBIS amount must be greater than or equal to 0.")] else [])

/-- `validate(const SendRfceCommand&)`. -/
def Rfce.validate {γ : Type} (rfce : Rfce γ) : List (String × String) :=
  issuerFailures rfce.rncEmisor rfce.eNcf "RncEmisor is required."

/-! ## Handlers -/

variable (ext : Externals)

/-- `docRepo_->add(doc); uow_->saveChanges();`, which draws the id. -/
def addNew (doc : EcfDocument) : Procedure Unit := do
  let id ← ask .newUuid
  add { doc with id := id }

/-- A reply without a trackId, or with an error. -/
def hasError (response : EcfRecepcionResponse) : Bool :=
  response.error.getD "" ≠ "" || response.trackId = ""

/-- The document `SendEcfCommandHandler` inserts. -/
def sentDocument (cmd : SendEcfCommand) (response : EcfRecepcionResponse) (time : ℕ) :
    EcfDocument where
  id := ""
  eNcf := cmd.eNcf
  rncEmisor := cmd.rncEmisor
  rncComprador := cmd.rncComprador
  sourceTxnId := ""
  editSequence := ""
  trackId := some response.trackId
  state := if hasError response then "Rechazado" else "Recibido"
  totalAmount := cmd.totalAmount
  itbisAmount := cmd.itbisAmount
  xmlContent := cmd.xmlContent
  receiptDate := some (toIsoUtc time)

/-- What `SendEcfCommandHandler` reports of a reply with an error. -/
def receptionError (response : EcfRecepcionResponse) : String :=
  response.mensaje.getD (response.error.getD
    (if response.trackId = "" then "La DGII no devolvió un trackId de recepción válido." else "Error"))

/-- `SendEcfCommandHandler::handle`.  The name of the file stands whole in the
place of its parts. -/
def handleSendEcf (client : EcfClient) (cmd : SendEcfCommand) :
    Procedure (Except String EcfRecepcionResponse) :=
  .tryCatch
    (do
      let response ← sendEcf ext client cmd.xmlContent ⟨cmd.fileName, ""⟩
      let time ← now
      addNew (sentDocument cmd response time)
      if hasError response then return .error (receptionError response)
      else return .ok response)
    fun what => return .error ("Failed to send e-CF: " ++ what)

variable {γ : Type} (lib : RfceFunctions γ)

/-- `EcfClient::sendRfce` of a model: while DGII rejects it without using its
number, two more attempts with the next one. -/
def sendRfceModel (client : EcfClient) (autoRetry : Bool) (getNext : ℕ → String) :
    ℕ → Rfce γ → Procedure (RfceRecepcionResponse × Rfce γ)
  | retries, rfce => do
    let errors := lib.validateRfce rfce
    .raise (if errors = [] then .ok () else .error (validationMessage errors))
    let xml ← .raise (lib.serialize rfce)
    let signedXml ← .raise (← signXml client.signer xml rfce.rncEmisor)
    let response ← sendRfce ext client signedXml ⟨rfce.rncEmisor, rfce.eNcf⟩
    match retries with
    | 0 => return (response, rfce)
    | left + 1 =>
      if autoRetry && response.estado = "Rechazado" && !response.secuenciaUtilizada then
        sendRfceModel client autoRetry getNext left { rfce with eNcf := getNext left }
      else return (response, rfce)

/-- The document `SendRfceCommandHandler` inserts. -/
def sentSummary (rfce : Rfce γ) (response : RfceRecepcionResponse) (xmlContent : String)
    (time : ℕ) : EcfDocument where
  id := ""
  eNcf := rfce.eNcf
  rncEmisor := rfce.rncEmisor
  rncComprador := rfce.rncComprador
  sourceTxnId := ""
  editSequence := ""
  state := response.estado
  totalAmount := rfce.montoTotal
  itbisAmount := rfce.totalITBIS.getD 0
  securityCode := rfce.codigoSeguridadeCF.orElse fun _ => rfce.codigoSeguridadTotales
  xmlContent := xmlContent
  receiptDate := some (toIsoUtc time)

/-- What `SendRfceCommandHandler` reports of a rejection. -/
def rejection (response : RfceRecepcionResponse) : String :=
  match response.mensajes with
  | first :: _ => first.valor
  | [] => "Rechazado por DGII"

/-- `SendRfceCommandHandler::handle`. -/
def handleSendRfce (client : EcfClient) (autoRetry : Bool) (getNext : ℕ → String)
    (rfce : Rfce γ) : Procedure (Except String RfceRecepcionResponse) :=
  .tryCatch
    (do
      let (response, rfce) ← sendRfceModel ext lib client autoRetry getNext 2 rfce
      let xmlContent ← .raise (lib.serialize rfce)
      let time ← now
      addNew (sentSummary rfce response xmlContent time)
      if response.estado = "Rechazado" then return .error (rejection response)
      else return .ok response)
    fun what => return .error ("Failed to send RFCE: " ++ what)

/-! ## Controllers -/

/-- `toJson(const EcfRecepcionResponse&)`. -/
def receptionJson (response : EcfRecepcionResponse) : List (String × Json) :=
  [("trackId", .string response.trackId), ("error", orNull response.error),
    ("mensaje", orNull response.mensaje)]

/-- `toJson(const RfceRecepcionResponse&)`. -/
def summaryJson (response : RfceRecepcionResponse) : List (String × Json) :=
  [("codigo", .number response.codigo), ("estado", .string response.estado),
    ("mensajes", .array (response.mensajes.map fun m =>
      .object [("codigo", .string m.codigo), ("valor", .string m.valor)])),
    ("encf", .string response.eNcf), ("secuenciaUtilizada", .bool response.secuenciaUtilizada)]

/-- What both controllers answer for what their handler returned. -/
def resultResponse {ρ : Type} (fields : ρ → List (String × Json)) : Except String ρ → HttpResponse
  | .error message => err message 400
  | .ok response => json (fields response) 200

/-- The `try` block of both controllers. -/
def concludeSend {ρ : Type} (fields : ρ → List (String × Json)) (label : String)
    (run : Procedure (Except String ρ)) : Procedure Ending := do
  match ← attempt run with
  | .ok result => return .answerInTry (resultResponse fields result) label
  | .error what => return .answer (err (label ++ what) 500)

/-- What `/api/ecf/send` does under the handler. -/
def sendWork (services : Services) (body : Option Json) : Procedure Ending :=
  match body with
  | some (.object fields) =>
    match fieldError fields with
    | some message => return .answer (err message 400)
    | none =>
      let cmd := sendEcfCommand fields
      if cmd.validate = [] then
        concludeSend receptionJson "e-CF service unavailable: " do
          let client ← .raise services.ecfClient
          handleSendEcf ext client cmd
      else .throw validationFailure
  | _ => return .answer (err "Invalid JSON body." 400)

/-- The body of `/api/ecf/send-rfce`: what `rfceFromJson` makes of it. -/
inductive RfceBody (γ : Type)
  | invalid
  | notObject
  | unreadable (what : String)
  | model (rfce : Rfce γ)

/-- What `/api/ecf/send-rfce` does under the handler. -/
def sendRfceWork (services : Services) (autoRetry : Bool) (getNext : ℕ → String) :
    RfceBody γ → Procedure Ending
  | .invalid => return .answer (err "Invalid JSON body." 400)
  | .notObject => return .answer (err "Field 'rfceModel' must be a valid JSON object." 400)
  | .unreadable what => return .answer (err ("RFCE JSON parsing error: " ++ what) 400)
  | .model rfce =>
    if rfce.validate = [] then
      concludeSend summaryJson "RFCE service error: " do
        let client ← .raise services.ecfClient
        handleSendRfce ext lib client autoRetry getNext rfce
    else .throw validationFailure

/-! ## Nothing but work -/

variable {ext} {lib}

theorem addNew_working (doc : EcfDocument) : (addNew doc).Only Working :=
  working_bind trivial fun _ => working_bind trivial fun _ =>
    working_bind trivial fun _ => Program.only_raise _

theorem sendEcf_working (client : EcfClient) (xml : String) (file : EcfFileName) :
    (sendEcf ext client xml file).Only Working :=
  (Program.only_raise _).bind fun _ => (sendWithReactiveAuth_working
    fun token => transmit_working _ _ _ token).bind fun _ => Program.only_raise _

theorem sendRfce_working (client : EcfClient) (xml : String) (file : EcfFileName) :
    (sendRfce ext client xml file).Only Working :=
  (Program.only_raise _).bind fun _ => (sendWithReactiveAuth_working
    fun token => transmit_working _ _ _ token).bind fun _ => Program.only_raise _

theorem handleSendEcf_working (client : EcfClient) (cmd : SendEcfCommand) :
    (handleSendEcf ext client cmd).Only Working := by
  refine Program.Only.tryCatch ?_ fun _ => trivial
  refine (sendEcf_working _ _ _).bind fun response => working_bind trivial fun time => ?_
  exact (addNew_working _).bind fun _ => .ite (fun _ => trivial) fun _ => trivial

theorem sendRfceModel_working (client : EcfClient) (autoRetry : Bool) (getNext : ℕ → String)
    (retries : ℕ) (rfce : Rfce γ) :
    (sendRfceModel ext lib client autoRetry getNext retries rfce).Only Working := by
  induction retries generalizing rfce with
  | zero =>
    refine (Program.only_raise _).bind fun _ => (Program.only_raise _).bind fun xml => ?_
    refine working_bind trivial fun _ => (Program.only_raise _).bind fun _ => ?_
    exact (sendRfce_working _ _ _).bind fun _ => trivial
  | succ left ih =>
    refine (Program.only_raise _).bind fun _ => (Program.only_raise _).bind fun xml => ?_
    refine working_bind trivial fun _ => (Program.only_raise _).bind fun _ => ?_
    exact (sendRfce_working _ _ _).bind fun _ => .ite (fun _ => ih _) fun _ => trivial

theorem handleSendRfce_working (client : EcfClient) (autoRetry : Bool) (getNext : ℕ → String)
    (rfce : Rfce γ) :
    (handleSendRfce ext lib client autoRetry getNext rfce).Only Working := by
  refine Program.Only.tryCatch ?_ fun _ => trivial
  refine (sendRfceModel_working _ _ _ _ _).bind fun sent => (Program.only_raise _).bind fun xml => ?_
  refine working_bind trivial fun time => (addNew_working _).bind fun _ => ?_
  exact .ite (fun _ => trivial) fun _ => trivial

theorem concludeSend_working {ρ : Type} (fields : ρ → List (String × Json)) (label : String)
    {run : Procedure (Except String ρ)} (working : run.Only Working) :
    (concludeSend fields label run).Only Working := by
  refine (working_attempt working).bind fun result => ?_
  cases result <;> trivial

end EcfDgii.DirectSending
