import EcfDgii.Documents
import EcfDgii.Timestamps

/-!
What a DGII reply means (`DgiiDirectTransport.cpp`, `EcfXmlSerializer.cpp`).

A reply is what `cpr` hands back: a transport error, or a status, a content
type and a body of any bytes.  Everything after the request itself is pure and
is embedded here: `validateDgiiResponse`, the tolerant field lookups, the two
formats of a reception reply, and the estado of each query.  The JSON and XML
parsers are not part of the repository and come in through `Parsers`; a body
that is no JSON gives `Json.discarded`, on which every lookup finds nothing.
-/

set_option autoImplicit false

namespace EcfDgii.DgiiReplies

open EcfDgii.Text EcfDgii.Timestamps

/-- A parsed JSON value; `discarded` is what a failed parse without exceptions
gives. -/
inductive Json
  | null
  | bool (value : Bool)
  | number (value : ℚ)
  | string (value : String)
  | array (items : List Json)
  | object (fields : List (String × Json))
  | discarded

/-- A parsed XML element: its name, its text content, its child elements. -/
inductive XmlNode
  | element (name content : String) (children : List XmlNode)

/-- The third-party parsers: `nlohmann::json`, libxml2, and `std::stod`. -/
structure Parsers where
  parseJson : String → Json
  dump : Json → String
  parseXml : String → Option XmlNode
  stod : String → Option ℚ

/-- `cpr::Response`. -/
structure HttpReply where
  error : Option String := none
  statusCode : ℕ := 200
  contentType : String := ""
  text : String := ""
  deriving DecidableEq

/-- `validateDgiiResponse`: the replies that say nothing about the document. -/
def validateDgiiResponse (resp : HttpReply) : Except String Unit :=
  match resp.error with
  | some message => .error ("Fallo de red/transporte con DGII: " ++ message)
  | none =>
    if resp.statusCode = 0 then .error "No se pudo conectar con DGII (HTTP 0)"
    else if 500 ≤ resp.statusCode then
      .error ("Fallo en servidor DGII (HTTP " ++ decimal resp.statusCode ++ "): " ++ resp.text)
    else if resp.statusCode = 401 ∨ resp.statusCode = 429 then
      .error ("Petición rechazada por DGII (HTTP " ++ decimal resp.statusCode ++ "): " ++
        resp.text)
    else .ok ()

/-- A valid reply is no 401. -/
theorem statusCode_of_valid {resp : HttpReply} (h : validateDgiiResponse resp = .ok ()) :
    resp.statusCode ≠ 401 := by
  intro refused
  simp only [validateDgiiResponse, refused] at h
  split at h <;> simp at h

/-! ## Tolerant JSON lookups -/

/-- `find`: the first field whose name agrees up to letter case. -/
def find (key : String) : Json → Option Json
  | .object fields => (fields.find? fun f => tolower f.1 = tolower key).map Prod.snd
  | _ => none

variable (ext : Parsers)

/-- `jstr`. -/
def jstr (j : Json) (key : String) : String :=
  match find key j with
  | none => ""
  | some .null => ""
  | some (.string s) => s
  | some v => ext.dump v

/-- `std::stoi`: a number at the start of the text that an `int` can hold. -/
def stoi (s : String) : Option ℤ :=
  match scanInt s.toList with
  | some (n, _) => if -2147483648 ≤ n ∧ n ≤ 2147483647 then some n else none
  | none => none

/-- `get<int>()`: truncation, in 32 bits. -/
def getInt (q : ℚ) : ℤ := Int.bmod (if 0 ≤ q then ⌊q⌋ else ⌈q⌉) 4294967296

/-- `jint`. -/
def jint (j : Json) (key : String) : ℤ :=
  match find key j with
  | some (.number q) => getInt q
  | some (.string s) => (stoi s).getD 0
  | _ => 0

/-- `jbool`. -/
def jbool (j : Json) (key : String) : Bool :=
  match find key j with
  | some (.bool b) => b
  | some (.string s) => s = "true" || s = "1"
  | _ => false

/-- `MensajeCodigo`. -/
structure MensajeCodigo where
  codigo : String
  valor : String
  deriving DecidableEq

/-- `jmensajes`. -/
def jmensajes (j : Json) : List MensajeCodigo :=
  match find "mensajes" j with
  | some (.array items) => items.map fun m => ⟨jstr ext m "codigo", jstr ext m "valor"⟩
  | _ => []

/-! ## XML lookups -/

/-- `nodeText`: the content of a node without surrounding blanks. -/
def nodeText : Option XmlNode → String
  | none => ""
  | some (.element _ content _) =>
    let blank (c : Char) : Bool := c = ' ' || c = '\t' || c = '\r' || c = '\n'
    String.ofList (((content.toList.dropWhile blank).reverse.dropWhile blank).reverse)

/-- `firstChildNamed`. -/
def firstChildNamed (name : String) : XmlNode → Option XmlNode
  | .element _ _ children =>
    children.find? fun | .element n _ _ => tolower n = tolower name

/-- `childText`. -/
def childText (parent : XmlNode) (name : String) : String :=
  nodeText (firstChildNamed name parent)

/-- `childInt`. -/
def childInt (parent : XmlNode) (name : String) : ℤ := (stoi (childText parent name)).getD 0

/-- `childBool`. -/
def childBool (parent : XmlNode) (name : String) : Bool :=
  let s := childText parent name
  s = "true" || s = "True" || s = "1"

/-- `parseMensajes`. -/
def parseMensajes (parent : XmlNode) : List MensajeCodigo :=
  match firstChildNamed "mensajes" parent with
  | some (.element _ _ children) =>
    children.map fun m => ⟨childText m "Codigo", childText m "Valor"⟩
  | none => []

/-- `looksLikeXml`. -/
def looksLikeXml (resp : HttpReply) : Bool :=
  let blank (c : Char) : Bool := c = ' ' || c = '\t' || c = '\r' || c = '\n'
  contains resp.contentType "application/xml" ||
    (resp.text.toList.dropWhile blank).head? = some '<'

/-! ## Reception -/

/-- `EcfRecepcionResponse`. -/
structure EcfRecepcionResponse where
  trackId : String := ""
  error : Option String := none
  mensaje : Option String := none

/-- `RfceRecepcionResponse`. -/
structure RfceRecepcionResponse where
  codigo : ℤ := 0
  estado : String := ""
  mensajes : List MensajeCodigo := []
  eNcf : String := ""
  secuenciaUtilizada : Bool := false

/-- An optional text field: absent when empty. -/
def nonEmpty (s : String) : Option String := if s = "" then none else some s

/-- `deserializeEcfRecepcion`. -/
def deserializeEcfRecepcion (xml : String) : Except String EcfRecepcionResponse :=
  match ext.parseXml xml with
  | none => .error "XML de respuesta inválido (RespuestaRecepcion)."
  | some root =>
    let r : EcfRecepcionResponse :=
      ⟨childText root "trackId", nonEmpty (childText root "error"),
        nonEmpty (childText root "mensaje")⟩
    if r.trackId = "" ∧ r.error = none then
      .error "Respuesta XML DGII inválida: no contiene trackId ni error."
    else .ok r

/-- `deserializeRfceRecepcion`. -/
def deserializeRfceRecepcion (xml : String) : Except String RfceRecepcionResponse :=
  match ext.parseXml xml with
  | none => .error "XML de respuesta inválido (Respuesta)."
  | some root =>
    let r : RfceRecepcionResponse :=
      { codigo := childInt root "codigo"
        estado := childText root "estado"
        mensajes := parseMensajes root
        eNcf := childText root "encf"
        secuenciaUtilizada := childBool root "secuenciaUtilizada" }
    if r.estado = "" ∧ r.codigo = 0 ∧ r.mensajes = [] then
      .error "Respuesta XML DGII RFCE inválida: no contiene campos obligatorios (estado/codigo)."
    else .ok r

/-- The JSON form of a reception reply. -/
def jsonEcfRecepcion (text : String) : EcfRecepcionResponse :=
  let j := ext.parseJson text
  ⟨jstr ext j "trackId", nonEmpty (jstr ext j "error"), nonEmpty (jstr ext j "mensaje")⟩

/-- The JSON form of an RFCE reply. -/
def jsonRfceRecepcion (text : String) : RfceRecepcionResponse :=
  let j := ext.parseJson text
  { codigo := jint j "codigo"
    estado := jstr ext j "estado"
    mensajes := jmensajes ext j
    eNcf := jstr ext j "encf"
    secuenciaUtilizada := jbool j "secuenciaUtilizada" }

/-- `sendEcf` from the validated reply on. -/
def ecfRecepcion (resp : HttpReply) : Except String EcfRecepcionResponse :=
  let json := jsonEcfRecepcion ext resp.text
  if 400 ≤ resp.statusCode then
    let fromJson : Except String EcfRecepcionResponse :=
      if json.error.isSome ∨ json.trackId ≠ "" then .ok json
      else .error ("Error HTTP " ++ decimal resp.statusCode ++ " en recepción DGII: " ++ resp.text)
    if looksLikeXml resp then
      match deserializeEcfRecepcion ext resp.text with
      | .ok r => if r.error.isSome ∨ r.trackId ≠ "" then .ok r else fromJson
      | .error _ => fromJson
    else fromJson
  else if looksLikeXml resp then deserializeEcfRecepcion ext resp.text
  else if json.trackId = "" ∧ json.error = none then
    .error "Respuesta JSON DGII sin trackId ni mensaje de error."
  else .ok json

/-- `sendRfce` from the validated reply on. -/
def rfceRecepcion (resp : HttpReply) : Except String RfceRecepcionResponse :=
  let json := jsonRfceRecepcion ext resp.text
  if 400 ≤ resp.statusCode then
    let fromJson : Except String RfceRecepcionResponse :=
      if json.estado ≠ "" ∨ json.mensajes ≠ [] ∨ json.codigo ≠ 0 then .ok json
      else .error ("Error HTTP " ++ decimal resp.statusCode ++ " en recepción RFCE DGII: " ++
        resp.text)
    if looksLikeXml resp then
      match deserializeRfceRecepcion ext resp.text with
      | .ok r => .ok r
      | .error _ => fromJson
    else fromJson
  else if looksLikeXml resp then deserializeRfceRecepcion ext resp.text
  else .ok json

/-! ## Queries -/

/-- `ConsultaResultadoResponse`. -/
structure ConsultaResultadoResponse where
  trackId : String := ""
  codigo : ℤ := 0
  estado : String := ""
  rnc : String := ""
  eNcf : String := ""
  secuenciaUtilizada : Bool := false
  fechaRecepcion : String := ""
  mensajes : List MensajeCodigo := []

/-- `ConsultaEstadoResponse`. -/
structure ConsultaEstadoResponse where
  codigo : ℤ := 0
  estado : String := ""
  rncEmisor : String := ""
  ncfElectronico : String := ""
  montoTotal : ℚ := 0
  totalITBIS : ℚ := 0
  fechaEmision : String := ""
  fechaFirma : String := ""
  rncComprador : String := ""
  codigoSeguridad : String := ""
  idExtranjero : String := ""

/-- `TrackIdDetalle`. -/
structure TrackIdDetalle where
  trackId : String := ""
  estado : String := ""
  fechaRecepcion : String := ""

/-- `jdbl`. -/
def jdbl (j : Json) (key : String) : ℚ :=
  match find key j with
  | some (.number q) => q
  | some (.string s) => (ext.stod s).getD 0
  | _ => 0

/-- `consultarResultado` from the validated reply on. -/
def consultaResultado (trackId : String) (resp : HttpReply) :
    Except String ConsultaResultadoResponse :=
  if 400 ≤ resp.statusCode then
    .error ("Error HTTP " ++ decimal resp.statusCode ++ " en consulta DGII trackId " ++ trackId ++
      ": " ++ resp.text)
  else
    let j := ext.parseJson resp.text
    .ok
      { trackId := jstr ext j "trackId"
        codigo := jint j "codigo"
        estado := jstr ext j "estado"
        rnc := jstr ext j "rnc"
        eNcf := jstr ext j "encf"
        secuenciaUtilizada := jbool j "secuenciaUtilizada"
        fechaRecepcion := jstr ext j "fechaRecepcion"
        mensajes := jmensajes ext j }

/-- `consultarEstado` from the validated reply on: no status below 500 other
than 401 and 429 is looked at again, so a 404 page is parsed like an answer. -/
def consultaEstado (resp : HttpReply) : ConsultaEstadoResponse :=
  let j := ext.parseJson resp.text
  { codigo := jint j "codigo"
    estado := jstr ext j "estado"
    rncEmisor := jstr ext j "rncEmisor"
    ncfElectronico := jstr ext j "ncfElectronico"
    montoTotal := jdbl ext j "montoTotal"
    totalITBIS := jdbl ext j "totalITBIS"
    fechaEmision := jstr ext j "fechaEmision"
    fechaFirma := jstr ext j "fechaFirma"
    rncComprador := jstr ext j "rncComprador"
    codigoSeguridad := jstr ext j "codigoSeguridad"
    idExtranjero := jstr ext j "idExtranjero" }

/-- `consultarTrackIds` from the validated reply on. -/
def consultaTrackIds (resp : HttpReply) : List TrackIdDetalle :=
  match ext.parseJson resp.text with
  | .array items => items.map fun it =>
      ⟨jstr ext it "trackId", jstr ext it "estado", jstr ext it "fechaRecepcion"⟩
  | _ => []

/-! ## The estado of a reply -/

/-- The two estados taken for an acceptance. -/
def Accepted (estado : String) : Bool :=
  let lower := tolower (trim estado)
  lower = "aceptado" || lower = "aceptado condicional"

/-- The estado taken for a rejection. -/
def Rejected (estado : String) : Bool := tolower (trim estado) = "rechazado"

private theorem nonEmpty_some {s e : String} (h : nonEmpty s = some e) : e ≠ "" := by
  unfold nonEmpty at h
  split at h
  · exact absurd h (by simp)
  · next empty => exact Option.some.inj h ▸ empty

/-- A reception reply that is taken as an answer names a trackId or an error. -/
theorem ecfRecepcion_answers {resp : HttpReply} {r : EcfRecepcionResponse}
    (h : ecfRecepcion ext resp = .ok r) : r.trackId ≠ "" ∨ ∃ e, r.error = some e ∧ e ≠ "" := by
  have named : ∀ t s m, ¬ (t = "" ∧ nonEmpty s = none) → ∀ r, r = (⟨t, nonEmpty s, m⟩ :
      EcfRecepcionResponse) → r.trackId ≠ "" ∨ ∃ e, r.error = some e ∧ e ≠ "" := by
    rintro t s m known r rfl
    by_cases track : t = ""
    · obtain ⟨e, eq⟩ := Option.ne_none_iff_exists'.mp fun none => known ⟨track, none⟩
      exact .inr ⟨e, eq, nonEmpty_some eq⟩
    · exact .inl track
  have xml : ∀ r, deserializeEcfRecepcion ext resp.text = .ok r →
      r.trackId ≠ "" ∨ ∃ e, r.error = some e ∧ e ≠ "" := by
    intro r ok
    unfold deserializeEcfRecepcion at ok
    split at ok
    · cases ok
    · simp only at ok
      split at ok
      · cases ok
      · next known => exact named _ _ _ known r (Except.ok.inj ok).symm
  have json : ∀ r, (∀ r', r' = jsonEcfRecepcion ext resp.text → ¬ (r'.trackId = "" ∧
      r'.error = none)) → r = jsonEcfRecepcion ext resp.text →
      r.trackId ≠ "" ∨ ∃ e, r.error = some e ∧ e ≠ "" :=
    fun r known eq => named _ _ _ (known _ rfl) r eq
  simp only [ecfRecepcion] at h
  split at h
  · have fallback : ∀ x : String, (if (jsonEcfRecepcion ext resp.text).error.isSome = true ∨
        (jsonEcfRecepcion ext resp.text).trackId ≠ "" then
          Except.ok (jsonEcfRecepcion ext resp.text) else Except.error x) = .ok r →
        r.trackId ≠ "" ∨ ∃ e, r.error = some e ∧ e ≠ "" := by
      intro x ok
      split at ok
      · next known =>
        refine json r ?_ (Except.ok.inj ok).symm
        rintro r' rfl ⟨track, error⟩
        simp [track, error] at known
      · cases ok
    split at h
    · split at h
      · next ok =>
        split at h
        · exact xml r (Except.ok.inj h ▸ ok)
        · exact fallback _ h
      · exact fallback _ h
    · exact fallback _ h
  · split at h
    · exact xml r h
    · split at h
      · cases h
      · next known =>
        refine json r ?_ (Except.ok.inj h).symm
        rintro r' rfl
        exact known

end EcfDgii.DgiiReplies
