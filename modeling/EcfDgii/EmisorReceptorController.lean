import EcfDgii.CanonicalRequestHelper
import EcfDgii.Engine

/-!
The exchange between taxpayers (`EmisorReceptorController.cpp`).

A peer fetches a seed, signs it, posts it, and gets a token for an hour; with
the token it posts invoices and approvals.  Seeds and tokens live in two tables,
each under a mutex of its own: the sections under them are the requests
`issueSeed`, `consumeSeed`, `issueToken` and `authorize`, and `exchangeHost`
answers them over a `World` of the two tables and the clock.  `libxml2`,
OpenSSL's certificates and the resolver of signers are outside.
-/

set_option autoImplicit false

namespace EcfDgii.EmisorReceptorController

open EcfDgii.Text EcfDgii.Calendar EcfDgii.Timestamps EcfDgii.DgiiReplies EcfDgii.Engine
open EcfDgii.CanonicalRequestHelper EcfDgii.Programs EcfDgii.Execution

/-! ## Requests of a peer -/

/-- The parts of a multipart request: files and parameters by name. -/
structure Multipart where
  files : List (String × String) := []
  parameters : List (String × String) := []

/-- What the controller reads of a request; `multipart` is there when
`MultiPartParser` can read it. -/
structure PeerRequest where
  authorization : String := ""
  token : String := ""
  accept : String := ""
  multipart : Option Multipart := none
  body : String := ""

/-- A certificate: the components of its subject, as `X509_NAME_oneline` prints
them, and the seconds it is valid between, where OpenSSL can read them. -/
structure Certificate where
  subject : List String
  notBefore : Option ℤ
  notAfter : Option ℤ

/-- A signer, and what the controller asks about it. -/
structure SignerInfo where
  isDefault : Bool
  usesFallbackCertificate : Bool

/-- `libxml2` and OpenSSL.  A document gives the content of the first node of an
XPath expression. -/
structure Libraries where
  xmlReadMemory : String → Option (String → Option String)
  decodeCertificate : String → Option Certificate

/-- The second in which a token expires, and the subject it was given to. -/
structure ActiveToken where
  expiresAt : ℕ
  certSubject : String
  deriving DecidableEq

/-- What the controller asks for. -/
inductive PeerQuestion
  | newUuid
  | now
  | issueSeed (valor : String) (expiresAt : ℕ)
  | consumeSeed (valor : String)
  | cmpCurrentTime (time : Option ℤ)
  | issueToken (token : String) (expiresAt : ℕ) (subject : String)
  | authorize (token : String)
  | resolveTenantSignerOnly (rnc : String)
  | signXml (xml rnc : String)
  | respond (response : HttpResponse)

/-- The questions of the controller, and their answers. -/
abbrev Exchange : Interface where
  Request := PeerQuestion
  Reply
    | .newUuid => String
    | .now => ℕ
    | .issueSeed _ _ => Unit
    | .consumeSeed _ => Bool
    | .cmpCurrentTime _ => ℤ
    | .issueToken _ _ _ => Unit
    | .authorize _ => Option String
    | .resolveTenantSignerOnly _ => Option SignerInfo
    | .signXml _ _ => Except String String
    | .respond _ => Unit

/-- A handler of the controller. -/
abbrev Handler := Program Exchange

/-- One question of the controller. -/
def ask (r : PeerQuestion) : Handler (Exchange.Reply r) := Program.perform (I := Exchange) r

/-! ## Helpers of the controller -/

/-- `newHttpResponse` with a status and a body. -/
def plain (statusCode : ℕ) (body : String) : HttpResponse :=
  { statusCode := statusCode, body := .text "text/html; charset=utf-8" body }

/-- The same with `CT_APPLICATION_XML`. -/
def xml (statusCode : ℕ) (body : String) : HttpResponse :=
  { statusCode := statusCode, body := .text "application/xml; charset=utf-8" body }

/-- `extractXmlContent`. -/
@[irreducible] def extractXmlContent (req : PeerRequest) : String :=
  match req.multipart with
  | none => req.body
  | some m =>
    match m.files.find? fun f => f.1 = "xml" || m.files.length = 1 with
    | some f => f.2
    | none =>
      match m.parameters.find? (·.1 = "xml") with
      | some p => if p.2 = "" then req.body else p.2
      | none => req.body

/-- `xpathValue`. -/
@[irreducible] def xpathValue (doc : String → Option String) (expr : String) : String :=
  trim ((doc expr).getD "")

/-- `stripHyphens`. -/
@[irreducible] def stripHyphens (s : String) : String := String.ofList (s.toList.filter (· ≠ '-'))

/-- `escapeXml`. -/
def escapeXml (input : String) : String :=
  String.ofList (input.toList.flatMap fun
    | '&' => "&amp;".toList
    | '<' => "&lt;".toList
    | '>' => "&gt;".toList
    | '"' => "&quot;".toList
    | '\'' => "&apos;".toList
    | c => [c])

/-- `isValidRncOrCedula`. -/
@[irreducible] def isValidRncOrCedula (s : String) : Bool :=
  (s.length = 9 || s.length = 11) && s.toList.all Char.isDigit

/-- `isValidEncf`. -/
@[irreducible] def isValidEncf (s : String) : Bool :=
  s.length = 13 && s.toList.head? = some 'E' &&
    ["31", "32", "33", "34", "41", "43", "44", "45", "46", "47"].contains
      (takeFirst 2 (dropFirst 1 s)) &&
    (s.toList.drop 3).all Char.isDigit

/-- `X509_NAME_oneline` into a buffer: the components that fit. -/
def oneline : ℕ → List String → String
  | _, [] => ""
  | room, entry :: rest => if entry.length ≤ room then entry ++ oneline (room - entry.length) rest else ""

/-- `validateX509Certificate`: the subject, or what is wrong. -/
def validateX509Certificate (lib : Libraries) (certBase64 : String) :
    Handler (Except String String) :=
  let cleanB64 := String.ofList (certBase64.toList.filter fun c => !isspace c)
  if cleanB64 = "" then return .error "El certificado X.509 está vacío."
  else
    match lib.decodeCertificate cleanB64 with
    | none =>
      return .error "El certificado X.509 no pudo ser decodificado o tiene formato inválido."
    | some cert => do
      let subjectOut := oneline 511 cert.subject
      let notBeforeCmp ← ask (.cmpCurrentTime cert.notBefore)
      let notAfterCmp ← ask (.cmpCurrentTime cert.notAfter)
      if notBeforeCmp > 0 then
        return .error "El certificado digital provisto aún no ha entrado en vigencia."
      else if notAfterCmp < 0 then
        return .error "El certificado digital provisto ha expirado."
      else return .ok subjectOut

/-- The token of a request. -/
@[irreducible] def bearerToken (req : PeerRequest) : String :=
  trim (if startsWith req.authorization "Bearer " || startsWith req.authorization "bearer " then
    dropFirst 7 req.authorization else req.token)

/-- `isAuthorizedB2B`: the subject of the token, if it is active. -/
def isAuthorizedB2B (req : PeerRequest) : Handler (Option String) :=
  if bearerToken req = "" then return none else ask (.authorize (bearerToken req))

/-! ## Handlers -/

/-- `getSemilla`. -/
def getSemilla : Handler Unit := do
  let seedVal ← ask .newUuid
  let now ← ask .now
  ask (.issueSeed seedVal (now + 10 * 60 * second))
  ask (.respond (xml 200 ("<?xml version=\"1.0\" encoding=\"utf-8\"?>\n<SemillaModel " ++
    "xmlns:xsi=\"http://www.w3.org/2001/XMLSchema-instance\" " ++
    "xmlns:xsd=\"http://www.w3.org/2001/XMLSchema\">\n  <valor>" ++ seedVal ++ "</valor>\n" ++
    "  <fecha>" ++ toIsoUtc now ++ "</fecha>\n</SemillaModel>")))

/-- The answer of `validarSemilla` with a token. -/
def tokenResponse (req : PeerRequest) (token : String) (now expTime : ℕ) : HttpResponse :=
  if contains req.accept "application/json" then
    json [("token", .string token), ("expira", .string (toIsoUtc expTime)),
      ("expedido", .string (toIsoUtc now))] 200
  else
    xml 200 ("<?xml version=\"1.0\" encoding=\"UTF-8\"?>\n<RespuestaAutenticacion>\n  <token>" ++
      token ++ "</token>\n  <expira>" ++ toIsoUtc expTime ++ "</expira>\n  <expedido>" ++
      toIsoUtc now ++ "</expedido>\n</RespuestaAutenticacion>")

/-- `validarSemilla`. -/
def validarSemilla (lib : Libraries) (req : PeerRequest) : Handler Unit :=
  let xmlContent := extractXmlContent req
  if xmlContent = "" then
    ask (.respond (plain 400 "Archivo XML de semilla firmada no provisto."))
  else
    match lib.xmlReadMemory xmlContent with
    | none => ask (.respond (plain 400 "Error al validar semilla: XML malformado."))
    | some doc =>
      let sigValue := xpathValue doc "//ds:SignatureValue"
      let certValue := xpathValue doc "//ds:X509Certificate"
      let valor := xpathValue doc "//*[local-name()='valor']"
      if sigValue = "" ∨ certValue = "" ∨ valor = "" then
        ask (.respond (plain 400 ("La semilla provista no contiene una firma digital válida " ++
          "(ds:SignatureValue), certificado X.509 o valor de semilla.")))
      else do
        if ← ask (.consumeSeed valor) then
          match ← validateX509Certificate lib certValue with
          | .error certErr =>
            ask (.respond (plain 400
              ("Error de validación de certificado digital X.509: " ++ certErr)))
          | .ok subject => do
            let uuid ← ask .newUuid
            let token := stripHyphens uuid
            let now ← ask .now
            let expTime := now + 60 * 60 * second
            ask (.issueToken token expTime subject)
            ask (.respond (tokenResponse req token now expTime))
        else
          ask (.respond (plain 400
            "La semilla provista no fue emitida por este servidor o ya ha expirado."))

/-- The signer of a registered recipient with a certificate of its own. -/
def registered (signer : Option SignerInfo) : Bool :=
  match signer with
  | some s => !s.isDefault && !s.usesFallbackCertificate
  | none => false

/-- The unsigned `ARECF`. -/
def unsignedArecf (rncEmisor rncComprador encf : String) (now : ℕ) : String :=
  let local' := now - 4 * 3600 * second
  let date := civilFromDays (local' / second / 86400)
  let inDay := local' / second % 86400
  let fechaHora := String.ofList (padded 2 date.day ++ '-' :: (padded 2 date.month ++ '-' ::
    (Nat.toDigits 10 date.year ++ ' ' :: (padded 2 (inDay / 3600) ++ ':' ::
      (padded 2 (inDay % 3600 / 60) ++ ':' :: padded 2 (inDay % 60))))))
  "<?xml version=\"1.0\" encoding=\"utf-8\"?>\n<ARECF>\n  <DetalleAcusedeRecibo>\n" ++
    "    <Version>1.0</Version>\n    <RNCEmisor>" ++ escapeXml rncEmisor ++ "</RNCEmisor>\n" ++
    "    <RNCComprador>" ++ escapeXml rncComprador ++ "</RNCComprador>\n    <eNCF>" ++
    escapeXml encf ++ "</eNCF>\n    <Estado>0</Estado>\n    <FechaHoraAcuseRecibo>" ++ fechaHora ++
    "</FechaHoraAcuseRecibo>\n  </DetalleAcusedeRecibo>\n</ARECF>\n"

/-- What both handlers answer to a request without an active token. -/
def unauthorized : HttpResponse :=
  plain 401 "Acceso no autorizado: Token de autenticación B2B ausente, inválido o expirado."

/-- What both answer when the buyer is no recipient of this platform. -/
def unknownRecipient : HttpResponse :=
  plain 404 ("El RNCComprador especificado no corresponde a ninguna empresa receptora registrada " ++
    "o con certificado activo en esta plataforma.")

/-- `recepcioneCF`. -/
def recepcioneCF (lib : Libraries) (req : PeerRequest) : Handler Unit := do
  match ← isAuthorizedB2B req with
  | none => ask (.respond unauthorized)
  | some _ =>
    let xmlContent := extractXmlContent req
    if xmlContent = "" then ask (.respond (plain 400 "Archivo XML no provisto o vacío."))
    else
      match lib.xmlReadMemory xmlContent with
      | none => ask (.respond (plain 400 "El archivo enviado no es un XML válido."))
      | some doc =>
        let rncEmisor := xpathValue doc "//*[local-name()='RNCEmisor']"
        let rncComprador := xpathValue doc "//*[local-name()='RNCComprador']"
        let encf := xpathValue doc "//*[local-name()='eNCF']"
        if rncEmisor = "" ∨ encf = "" ∨ rncComprador = "" then
          ask (.respond (plain 400 ("El XML de e-CF provisto no contiene las etiquetas " ++
            "obligatorias RNCEmisor, RNCComprador o eNCF.")))
        else if !isValidRncOrCedula rncEmisor || !isValidRncOrCedula rncComprador ||
            !isValidEncf encf then
          ask (.respond (plain 400 ("Valores fiscales con formato inválido en XML (RNCEmisor, " ++
            "RNCComprador o eNCF).")))
        else do
          if registered (← ask (.resolveTenantSignerOnly rncComprador)) then
            let now ← ask .now
            match ← ask (.signXml (unsignedArecf rncEmisor rncComprador encf now) rncComprador) with
            | .ok signedArecf => ask (.respond (xml 200 signedArecf))
            | .error what =>
              ask (.respond (plain 400 ("Error al procesar la recepción de e-CF: " ++ what)))
          else ask (.respond unknownRecipient)

/-- The answer of `aprobacionComercial` to an approval it takes. -/
def approvalResponse (req : PeerRequest) : HttpResponse :=
  if contains req.accept "application/json" then
    json [("codigo", .string "1"), ("estado", .string "Aceptado"),
      ("mensaje", .string "Aprobación comercial procesada correctamente.")] 200
  else
    xml 200 ("<?xml version=\"1.0\" encoding=\"utf-8\"?>\n<RespuestaAprobacionComercial>\n" ++
      "  <codigo>1</codigo>\n  <estado>Aceptado</estado>\n" ++
      "  <mensaje>Aprobación comercial procesada correctamente.</mensaje>\n" ++
      "</RespuestaAprobacionComercial>")

/-- `aprobacionComercial`. -/
def aprobacionComercial (lib : Libraries) (req : PeerRequest) : Handler Unit := do
  match ← isAuthorizedB2B req with
  | none => ask (.respond unauthorized)
  | some _ =>
    let xmlContent := extractXmlContent req
    if xmlContent = "" then
      ask (.respond (plain 400 "Archivo XML de aprobación comercial no provisto o vacío."))
    else
      match lib.xmlReadMemory xmlContent with
      | none =>
        ask (.respond (plain 400 "Error al procesar la aprobación comercial: XML inválido."))
      | some doc =>
        let rncEmisor := xpathValue doc "//*[local-name()='RNCEmisor']"
        let rncComprador := xpathValue doc "//*[local-name()='RNCComprador']"
        let encf := xpathValue doc "//*[local-name()='eNCF']"
        let estado := xpathValue doc "//*[local-name()='Estado']"
        let estado := if estado = "" then xpathValue doc "//*[local-name()='EstadoAprobacion']"
          else estado
        let sigValue := xpathValue doc "//ds:SignatureValue"
        if rncEmisor = "" ∨ rncComprador = "" ∨ encf = "" ∨ estado = "" then
          ask (.respond (plain 400 ("El XML de aprobación comercial no contiene las etiquetas " ++
            "obligatorias (RNCEmisor, RNCComprador, eNCF, Estado).")))
        else if sigValue = "" then
          ask (.respond (plain 400 ("El XML de aprobación comercial no contiene una firma digital " ++
            "válida (ds:SignatureValue).")))
        else if !isValidRncOrCedula rncEmisor || !isValidRncOrCedula rncComprador ||
            !isValidEncf encf then
          ask (.respond (plain 400 ("Valores fiscales con formato inválido en XML de aprobación " ++
            "comercial (RNCEmisor, RNCComprador o eNCF).")))
        else do
          if registered (← ask (.resolveTenantSignerOnly rncComprador)) then
            ask (.respond (approvalResponse req))
          else ask (.respond unknownRecipient)

/-- The endpoints. -/
inductive Endpoint
  | getSemilla
  | validarSemilla (req : PeerRequest)
  | recepcioneCF (req : PeerRequest)
  | aprobacionComercial (req : PeerRequest)

/-- The handler of an endpoint. -/
def handler (lib : Libraries) : Endpoint → Handler Unit
  | .getSemilla => getSemilla
  | .validarSemilla req => validarSemilla lib req
  | .recepcioneCF req => recepcioneCF lib req
  | .aprobacionComercial req => aprobacionComercial lib req

/-! ## The two tables -/

/-- The clock in nanoseconds, `g_issuedSeeds` and `g_activeTokens`. -/
structure World where
  clock : ℕ
  seeds : String → Option ℕ := fun _ => none
  tokens : String → Option ActiveToken := fun _ => none

/-- The bytes of a UUID with version and variant set. -/
def marked (bytes : Fin 16 → UInt8) : List UInt8 :=
  List.ofFn fun i =>
    if i = 6 then (bytes 6 &&& 0x0F) ||| 0x40 else if i = 8 then (bytes 8 &&& 0x3F) ||| 0x80
    else bytes i

/-- `sys::newUuid` from sixteen random bytes. -/
def newUuid (bytes : Fin 16 → UInt8) : String :=
  let hex from' count := ((marked bytes).drop from' |>.take count).flatMap hexByte
  String.ofList (hex 0 4 ++ '-' :: (hex 4 2 ++ '-' :: (hex 6 2 ++ '-' :: (hex 8 2 ++
    '-' :: hex 10 6))))

/-- What a question meets: the time before it, random bytes, the resolver's
answer and the signer's. -/
structure Input where
  elapsed : ℕ := 0
  bytes : Fin 16 → UInt8 := fun _ => 0
  signer : Option SignerInfo := none
  signed : Except String String := .error ""

/-- `X509_cmp_current_time`, which is 0 for a time it cannot read. -/
def cmpCurrentTime (clock : ℕ) : Option ℤ → ℤ
  | none => 0
  | some time => if time ≤ ((clock / second : ℕ) : ℤ) then -1 else 1

/-- `pruneExpiredSeeds`. -/
def pruneExpiredSeeds (now : ℕ) (seeds : String → Option ℕ) : String → Option ℕ :=
  fun valor => (seeds valor).filter (now ≤ ·)

/-- `pruneExpiredTokens`. -/
def pruneExpiredTokens (now : ℕ) (tokens : String → Option ActiveToken) :
    String → Option ActiveToken :=
  fun token => (tokens token).filter (now ≤ ·.expiresAt)

/-- The answers, at a moment. -/
def answerAt (i : Input) (w : World) : (r : PeerQuestion) → Exchange.Reply r × World
  | .newUuid => (newUuid i.bytes, w)
  | .now => (w.clock, w)
  | .issueSeed valor expiresAt =>
    ((), { w with
      seeds := Function.update (pruneExpiredSeeds w.clock w.seeds) valor (some expiresAt) })
  | .consumeSeed valor =>
    let seeds := pruneExpiredSeeds w.clock w.seeds
    ((seeds valor).isSome, { w with seeds := Function.update seeds valor none })
  | .cmpCurrentTime time => (cmpCurrentTime w.clock time, w)
  | .issueToken token expiresAt subject =>
    ((), { w with
      tokens := Function.update (pruneExpiredTokens w.clock w.tokens) token
        (some ⟨expiresAt, subject⟩) })
  | .authorize token =>
    match w.tokens token with
    | none => (none, w)
    | some active =>
      if active.expiresAt < w.clock then
        (none, { w with tokens := Function.update w.tokens token none })
      else (some active.certSubject, w)
  | .resolveTenantSignerOnly _ => (i.signer, w)
  | .signXml _ _ => (i.signed, w)
  | .respond _ => ((), w)

/-- The answers, after some time has passed. -/
def exchangeHost : Host Exchange World Input where
  answer i w := answerAt i { w with clock := w.clock + i.elapsed }

end EcfDgii.EmisorReceptorController
