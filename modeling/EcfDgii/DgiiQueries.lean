import EcfDgii.QueryStrings
import EcfDgii.PrintedAmounts

/-!
The queries that are sent to DGII.

Two of them verify a stamp and are built by `EcfSecurityUtils`, which encodes
every value, but has room for 63 characters of an amount; two ask for the state
of a document and are built by the direct transport, which encodes the security
code of `consultarEstado` and nothing else.  `queries_intact_iff` says which
arguments arrive as they were given.
-/

set_option autoImplicit false

namespace EcfDgii.DgiiQueries

open EcfDgii.XmlFormats EcfDgii.PrintedAmounts EcfDgii.QueryStrings

/-! ## The builders -/

/-- The bytes that `urlEncode` keeps. -/
def isUnreserved (b : UInt8) : Bool :=
  ('A'.toUInt8 ≤ b && b ≤ 'Z'.toUInt8) || ('a'.toUInt8 ≤ b && b ≤ 'z'.toUInt8) ||
    ('0'.toUInt8 ≤ b && b ≤ '9'.toUInt8) || b = '-'.toUInt8 || b = '_'.toUInt8 ||
    b = '.'.toUInt8 || b = '~'.toUInt8

/-- `urlEncode`. -/
def urlEncode (value : Bytes) : Bytes := percentEncode isUnreserved value

/-- An amount at two decimals. -/
def twoDecimals (v : ℚ) : Bytes := ascii (formatMoney2 v)

/-- `money` of `EcfSecurityUtils`: `snprintf` leaves 63 characters in `buf[64]`. -/
def money (v : ℚ) : Bytes := (twoDecimals v).take 63

/-- `TimbreEcfRequest`. -/
structure TimbreEcfRequest where
  rncEmisor : Bytes := []
  rncComprador : Bytes := []
  eNcf : Bytes := []
  fechaEmision : Bytes := []
  montoTotal : ℚ := 0
  fechaFirma : Bytes := []
  codigoSeguridad : Bytes := []

/-- `TimbreFcRequest`. -/
structure TimbreFcRequest where
  rncEmisor : Bytes := []
  eNcf : Bytes := []
  montoTotal : ℚ := 0
  codigoSeguridad : Bytes := []

/-- `ConsultaEstadoRequest`. -/
structure ConsultaEstadoRequest where
  rncEmisor : Bytes := []
  eNcf : Bytes := []
  rncComprador : Option Bytes := none
  codigoSeguridad : Option Bytes := none

/-- `rfind(start, 0) == 0`. -/
def opens (s : Bytes) (start : String) : Bool := (ascii start).isPrefixOf s

/-- `isE43`. -/
def isE43 (req : TimbreEcfRequest) : Bool := opens req.eNcf "E43" || opens req.eNcf "e43"

/-- `omitEmptyBuyer`. -/
def omitEmptyBuyer (req : TimbreEcfRequest) : Bool :=
  isE43 req || (req.rncComprador.isEmpty &&
    (opens req.eNcf "E33" || opens req.eNcf "e33" || opens req.eNcf "E34" ||
      opens req.eNcf "e34" || opens req.eNcf "E47" || opens req.eNcf "e47"))

/-- `buildTimbreUrl`. -/
def buildTimbreUrl (baseUrl : Bytes) (req : TimbreEcfRequest) : Bytes :=
  baseUrl ++ ascii "?rncemisor=" ++ urlEncode req.rncEmisor ++
    (if !omitEmptyBuyer req then ascii "&rnccomprador=" ++ urlEncode req.rncComprador else []) ++
    ascii "&encf=" ++ urlEncode req.eNcf ++
    ascii "&fechaemision=" ++ urlEncode req.fechaEmision ++
    ascii "&montototal=" ++ urlEncode (money req.montoTotal) ++
    ascii "&fechafirma=" ++ urlEncode req.fechaFirma ++
    ascii "&codigoseguridad=" ++ urlEncode req.codigoSeguridad

/-- `buildTimbreFcUrl`. -/
def buildTimbreFcUrl (baseUrl : Bytes) (req : TimbreFcRequest) : Bytes :=
  baseUrl ++ ascii "?rncemisor=" ++ urlEncode req.rncEmisor ++
    ascii "&encf=" ++ urlEncode req.eNcf ++
    ascii "&montototal=" ++ urlEncode (money req.montoTotal) ++
    ascii "&codigoseguridad=" ++ urlEncode req.codigoSeguridad

/-- The address of `consultarEstado`. -/
def consultarEstadoUrl (consultaEstadoUrl : Bytes) (req : ConsultaEstadoRequest) : Bytes :=
  consultaEstadoUrl ++ ascii "/api/consultas/estado?rncemisor=" ++ req.rncEmisor ++
    ascii "&ncfelectronico=" ++ req.eNcf ++
    (match req.rncComprador with
      | some rncComprador =>
        if !rncComprador.isEmpty then ascii "&rnccomprador=" ++ rncComprador else []
      | none => []) ++
    (match req.codigoSeguridad with
      | some codigoSeguridad =>
        if !codigoSeguridad.isEmpty then ascii "&codigoseguridad=" ++ urlEncode codigoSeguridad
        else []
      | none => [])

/-- The address of `consultarRfce`. -/
def consultarRfceUrl (consultaRfceUrl rncEmisor eNcf codigoSeguridad : Bytes) : Bytes :=
  consultaRfceUrl ++ ascii "/api/Consultas/Consulta?RNC_Emisor=" ++ rncEmisor ++
    ascii "&ENCF=" ++ eNcf ++ ascii "&Cod_Seguridad_eCF=" ++ codigoSeguridad

/-! ## What they mean -/

/-- An address asks for some parameters at a path. -/
def Asks (path url : Bytes) (parameters : List (Bytes × Bytes)) : Prop :=
  ∃ query, url = path ++ ascii "?" ++ query ∧ read query = parameters

/-- A parameter that is given when its value is not empty. -/
def unlessEmpty (name : String) (value : Option Bytes) : List (Bytes × Bytes) :=
  if value.getD [] ≠ [] then [(ascii name, value.getD [])] else []

/-- What a stamp asks for, with an amount. -/
def timbreParameters (req : TimbreEcfRequest) (amount : Bytes) : List (Bytes × Bytes) :=
  [(ascii "rncemisor", req.rncEmisor)] ++
    (if omitEmptyBuyer req then [] else [(ascii "rnccomprador", req.rncComprador)]) ++
    [(ascii "encf", req.eNcf), (ascii "fechaemision", req.fechaEmision),
      (ascii "montototal", amount), (ascii "fechafirma", req.fechaFirma),
      (ascii "codigoseguridad", req.codigoSeguridad)]

def timbreFcParameters (req : TimbreFcRequest) (amount : Bytes) : List (Bytes × Bytes) :=
  [(ascii "rncemisor", req.rncEmisor), (ascii "encf", req.eNcf),
    (ascii "montototal", amount), (ascii "codigoseguridad", req.codigoSeguridad)]

def estadoParameters (req : ConsultaEstadoRequest) : List (Bytes × Bytes) :=
  [(ascii "rncemisor", req.rncEmisor), (ascii "ncfelectronico", req.eNcf)] ++
    unlessEmpty "rnccomprador" req.rncComprador ++
    unlessEmpty "codigoseguridad" req.codigoSeguridad

def rfceParameters (rncEmisor eNcf codigoSeguridad : Bytes) : List (Bytes × Bytes) :=
  [(ascii "RNC_Emisor", rncEmisor), (ascii "ENCF", eNcf),
    (ascii "Cod_Seguridad_eCF", codigoSeguridad)]

/-- **Arguments that arrive.** Each query asks for what it was built from, amounts
at two decimals. -/
structure QueriesIntact (timbreUrl timbreFcUrl consultaEstadoUrl consultaRfceUrl : Bytes)
    (ecf : TimbreEcfRequest) (fc : TimbreFcRequest) (estado : ConsultaEstadoRequest)
    (rncEmisor eNcf codigoSeguridad : Bytes) : Prop where
  timbre : Asks timbreUrl (buildTimbreUrl timbreUrl ecf)
    (timbreParameters ecf (twoDecimals ecf.montoTotal))
  timbreFc : Asks timbreFcUrl (buildTimbreFcUrl timbreFcUrl fc)
    (timbreFcParameters fc (twoDecimals fc.montoTotal))
  estado : Asks (consultaEstadoUrl ++ ascii "/api/consultas/estado")
    (consultarEstadoUrl consultaEstadoUrl estado) (estadoParameters estado)
  rfce : Asks (consultaRfceUrl ++ ascii "/api/Consultas/Consulta")
    (consultarRfceUrl consultaRfceUrl rncEmisor eNcf codigoSeguridad)
    (rfceParameters rncEmisor eNcf codigoSeguridad)

/-- Bytes that a reader of queries takes for themselves: no `&`, `#` or `+`, and
no `%` with two hexadecimal digits. -/
structure Harmless (value : Bytes) : Prop where
  ampersand : ampersand ∉ value
  hash : hash ∉ value
  unread : Unread value

/-- An amount with no more digits than the buffer has room for, beside its
decimals and its sign. -/
def HasRoom (v : ℚ) : Prop := |cents .even v| < 10 ^ (if v < 0 then 59 else 60)

theorem money_whole_iff (v : ℚ) : money v = twoDecimals v ↔ HasRoom v := by
  rw [money, List.take_eq_self_iff, twoDecimals, ascii, List.length_map, HasRoom]
  by_cases negative : v < 0
  · have length := length_formatMoney2_le_iff v (by decide : 0 < 59)
    rwa [if_pos negative] at length ⊢
  · have length := length_formatMoney2_le_iff v (by decide : 0 < 60)
    rwa [if_neg negative] at length ⊢

/-! ## Parameters -/

/-- The names of the parameters. -/
def parameterNames : List String :=
  ["rncemisor", "rnccomprador", "encf", "fechaemision", "montototal", "fechafirma",
    "codigoseguridad", "ncfelectronico", "RNC_Emisor", "ENCF", "Cod_Seguridad_eCF"]

theorem plain_name : ∀ name ∈ parameterNames, PlainName (ascii name) := by
  have separators : ∀ name ∈ parameterNames, ∀ b ∈ [QueryStrings.ampersand, QueryStrings.hash,
      equals], b ∉ ascii name := by decide +kernel
  have unread : ∀ name ∈ parameterNames, percentDecode (ascii name) = ascii name := by decide +kernel
  exact fun name known => ⟨separators name known, unread name known⟩

/-- A parameter whose value is encoded. -/
def encoded (name : String) (value : Bytes) : Parameter := ⟨ascii name, urlEncode value, value⟩

/-- A parameter whose value is not. -/
def raw (name : String) (value : Bytes) : Parameter := ⟨ascii name, value, value⟩

theorem carried_encoded (name : String) (value : Bytes) : (encoded name value).Carried where
  ampersand := separator_notMem (.inl rfl) (by decide) value
  hash := separator_notMem (.inr rfl) (by decide) value
  value := percentDecode_percentEncode (by decide) (by decide) value

theorem carried_raw_iff (name : String) (value : Bytes) :
    (raw name value).Carried ↔ Harmless value := by
  constructor
  · intro carried
    exact ⟨carried.ampersand, carried.hash, (percentDecode_eq_self_iff value).mp carried.value⟩
  · intro harmless
    exact ⟨harmless.ampersand, harmless.hash, (percentDecode_eq_self_iff value).mpr harmless.unread⟩

/-- What the parameters of the four queries have in common. -/
structure Known (p : Parameter) : Prop where
  name : ∃ name ∈ parameterNames, p.name = ascii name
  raw : p.Carried ∨ p.written = p.value

theorem known_encoded {name : String} (listed : name ∈ parameterNames) (value : Bytes) :
    Known (encoded name value) := ⟨⟨name, listed, rfl⟩, .inl (carried_encoded name value)⟩

theorem known_raw {name : String} (listed : name ∈ parameterNames) (value : Bytes) :
    Known (raw name value) := ⟨⟨name, listed, rfl⟩, .inr rfl⟩

section

variable {ps : List Parameter}
  (each : ∀ p ∈ ps, ∃ name ∈ parameterNames, ∃ value, p = encoded name value)

include each

theorem known_of_encoded : ∀ p ∈ ps, Known p := by
  intro p member
  obtain ⟨name, listed, value, rfl⟩ := each p member
  exact known_encoded listed value

theorem carried_of_encoded : ∀ p ∈ ps, p.Carried := by
  intro p member
  obtain ⟨name, -, value, rfl⟩ := each p member
  exact carried_encoded name value

end

/-- An address made of known parameters. -/
theorem asks_iff {path url : Bytes} {ps : List Parameter} (nonempty : ps ≠ [])
    (known : ∀ p ∈ ps, Known p) (text : url = path ++ ascii "?" ++ join (ps.map Parameter.part)) :
    Asks path url (ps.map fun p => (p.name, p.value)) ↔ ∀ p ∈ ps, p.Carried := by
  have names : ∀ p ∈ ps, PlainName p.name := by
    intro p member
    obtain ⟨name, listed, same⟩ := (known p member).name
    rw [same]
    exact plain_name name listed
  rw [← read_iff nonempty names fun p member => (known p member).raw]
  constructor
  · rintro ⟨query, same, parameters⟩
    obtain rfl := List.append_cancel_left (same.symm.trans text)
    exact parameters
  · exact fun parameters => ⟨_, text, parameters⟩

/-! ## The four queries -/

/-- How the builders write a name. -/
theorem ascii_named (name : String) :
    ascii ("&" ++ name ++ "=") = ampersand :: (ascii name ++ [equals]) := by
  simp only [ascii_append]
  rfl

theorem ascii_first (path name : String) :
    ascii (path ++ "?" ++ name ++ "=") =
      ascii path ++ (ascii "?" ++ (ascii name ++ [equals])) := by
  simp only [ascii_append, List.append_assoc]
  rfl

/-- The parameters of `buildTimbreUrl`. -/
def timbre (req : TimbreEcfRequest) : List Parameter :=
  [encoded "rncemisor" req.rncEmisor] ++
    (if omitEmptyBuyer req then [] else [encoded "rnccomprador" req.rncComprador]) ++
    [encoded "encf" req.eNcf, encoded "fechaemision" req.fechaEmision,
      encoded "montototal" (money req.montoTotal), encoded "fechafirma" req.fechaFirma,
      encoded "codigoseguridad" req.codigoSeguridad]

/-- The parameters of `buildTimbreFcUrl`. -/
def timbreFc (req : TimbreFcRequest) : List Parameter :=
  [encoded "rncemisor" req.rncEmisor, encoded "encf" req.eNcf,
    encoded "montototal" (money req.montoTotal), encoded "codigoseguridad" req.codigoSeguridad]

/-- The parameters of `consultarEstado`. -/
def estado (req : ConsultaEstadoRequest) : List Parameter :=
  [raw "rncemisor" req.rncEmisor, raw "ncfelectronico" req.eNcf] ++
    (if req.rncComprador.getD [] ≠ [] then [raw "rnccomprador" (req.rncComprador.getD [])]
    else []) ++
    if req.codigoSeguridad.getD [] ≠ [] then
      [encoded "codigoseguridad" (req.codigoSeguridad.getD [])]
    else []

/-- The parameters of `consultarRfce`. -/
def rfce (rncEmisor eNcf codigoSeguridad : Bytes) : List Parameter :=
  [raw "RNC_Emisor" rncEmisor, raw "ENCF" eNcf, raw "Cod_Seguridad_eCF" codigoSeguridad]

theorem timbre_text (baseUrl : Bytes) (req : TimbreEcfRequest) :
    buildTimbreUrl baseUrl req = baseUrl ++ ascii "?" ++ join ((timbre req).map Parameter.part) := by
  have rncEmisor := ascii_first "" "rncemisor"
  have rncComprador := ascii_named "rnccomprador"
  have eNcf := ascii_named "encf"
  have fechaEmision := ascii_named "fechaemision"
  have montoTotal := ascii_named "montototal"
  have fechaFirma := ascii_named "fechafirma"
  have codigoSeguridad := ascii_named "codigoseguridad"
  simp only [String.reduceAppend] at *
  unfold buildTimbreUrl timbre
  rw [rncEmisor, rncComprador, eNcf, fechaEmision, montoTotal, fechaFirma, codigoSeguridad]
  cases omitEmptyBuyer req <;> simp [join, Parameter.part, encoded]

theorem timbreFc_text (baseUrl : Bytes) (req : TimbreFcRequest) :
    buildTimbreFcUrl baseUrl req =
      baseUrl ++ ascii "?" ++ join ((timbreFc req).map Parameter.part) := by
  have rncEmisor := ascii_first "" "rncemisor"
  have eNcf := ascii_named "encf"
  have montoTotal := ascii_named "montototal"
  have codigoSeguridad := ascii_named "codigoseguridad"
  simp only [String.reduceAppend] at *
  unfold buildTimbreFcUrl timbreFc
  rw [rncEmisor, eNcf, montoTotal, codigoSeguridad]
  simp [join, Parameter.part, encoded]

theorem estado_text (url : Bytes) (req : ConsultaEstadoRequest) :
    consultarEstadoUrl url req =
      url ++ ascii "/api/consultas/estado" ++ ascii "?" ++
        join ((estado req).map Parameter.part) := by
  have rncEmisor := ascii_first "/api/consultas/estado" "rncemisor"
  have eNcf := ascii_named "ncfelectronico"
  have rncComprador := ascii_named "rnccomprador"
  have codigoSeguridad := ascii_named "codigoseguridad"
  simp only [String.reduceAppend] at *
  unfold consultarEstadoUrl estado
  rw [rncEmisor, eNcf, rncComprador, codigoSeguridad]
  rcases req with ⟨_, _, _ | _ | _, _ | _ | _⟩ <;> simp [join, Parameter.part, encoded, raw]

theorem rfce_text (url rncEmisor eNcf codigoSeguridad : Bytes) :
    consultarRfceUrl url rncEmisor eNcf codigoSeguridad =
      url ++ ascii "/api/Consultas/Consulta" ++ ascii "?" ++
        join ((rfce rncEmisor eNcf codigoSeguridad).map Parameter.part) := by
  have emisor := ascii_first "/api/Consultas/Consulta" "RNC_Emisor"
  have encf := ascii_named "ENCF"
  have codigo := ascii_named "Cod_Seguridad_eCF"
  simp only [String.reduceAppend] at *
  unfold consultarRfceUrl rfce
  rw [emisor, encf, codigo]
  simp [join, Parameter.part, raw]

/-- An address asks for one thing. -/
theorem Asks.unique {path url : Bytes} {first second : List (Bytes × Bytes)}
    (one : Asks path url first) (other : Asks path url second) : first = second := by
  obtain ⟨query, text, parameters⟩ := one
  obtain ⟨query', text', parameters'⟩ := other
  obtain rfl := List.append_cancel_left (text.symm.trans text')
  exact parameters.symm.trans parameters'

/-- The stamp of an e-CF is asked for as it is, with the amount that the buffer
holds. -/
theorem timbre_asks (baseUrl : Bytes) (req : TimbreEcfRequest) :
    Asks baseUrl (buildTimbreUrl baseUrl req) (timbreParameters req (money req.montoTotal)) := by
  have listed : timbreParameters req (money req.montoTotal) =
      (timbre req).map fun p => (p.name, p.value) := by
    unfold timbreParameters timbre
    cases omitEmptyBuyer req <;> rfl
  have each : ∀ p ∈ timbre req, ∃ name ∈ parameterNames, ∃ value, p = encoded name value := by
    intro p member
    simp only [timbre, List.mem_append, List.mem_cons, List.not_mem_nil, or_false] at member
    rcases member with (rfl | buyer) | rfl | rfl | rfl | rfl | rfl
    · exact ⟨_, by decide, _, rfl⟩
    · split at buyer
      · cases buyer
      · rw [List.mem_singleton.mp buyer]
        exact ⟨_, by decide, _, rfl⟩
    all_goals exact ⟨_, by decide, _, rfl⟩
  rw [listed]
  exact (asks_iff (by simp [timbre]) (known_of_encoded each) (timbre_text baseUrl req)).mpr
    (carried_of_encoded each)

theorem timbre_intact_iff (baseUrl : Bytes) (req : TimbreEcfRequest) :
    Asks baseUrl (buildTimbreUrl baseUrl req)
        (timbreParameters req (twoDecimals req.montoTotal)) ↔ HasRoom req.montoTotal := by
  rw [← money_whole_iff]
  constructor
  · intro intended
    have same := (timbre_asks baseUrl req).unique intended
    simpa [timbreParameters] using same
  · intro whole
    rw [← whole]
    exact timbre_asks baseUrl req

/-- The stamp of a consumer invoice, in the same way. -/
theorem timbreFc_asks (baseUrl : Bytes) (req : TimbreFcRequest) :
    Asks baseUrl (buildTimbreFcUrl baseUrl req)
      (timbreFcParameters req (money req.montoTotal)) := by
  have each : ∀ p ∈ timbreFc req, ∃ name ∈ parameterNames, ∃ value, p = encoded name value := by
    intro p member
    simp only [timbreFc, List.mem_cons, List.not_mem_nil, or_false] at member
    rcases member with rfl | rfl | rfl | rfl <;> exact ⟨_, by decide, _, rfl⟩
  exact (asks_iff (by simp [timbreFc]) (known_of_encoded each) (timbreFc_text baseUrl req)).mpr
    (carried_of_encoded each)

theorem timbreFc_intact_iff (baseUrl : Bytes) (req : TimbreFcRequest) :
    Asks baseUrl (buildTimbreFcUrl baseUrl req)
        (timbreFcParameters req (twoDecimals req.montoTotal)) ↔ HasRoom req.montoTotal := by
  rw [← money_whole_iff]
  constructor
  · intro intended
    have same := (timbreFc_asks baseUrl req).unique intended
    simpa [timbreFcParameters] using same
  · intro whole
    rw [← whole]
    exact timbreFc_asks baseUrl req

/-- The state of a document, by the numbers of its parties. -/
theorem estado_intact_iff (url : Bytes) (req : ConsultaEstadoRequest) :
    Asks (url ++ ascii "/api/consultas/estado") (consultarEstadoUrl url req)
        (estadoParameters req) ↔
      Harmless req.rncEmisor ∧ Harmless req.eNcf ∧
        ∀ rncComprador, req.rncComprador = some rncComprador → Harmless rncComprador := by
  have listed : estadoParameters req = (estado req).map fun p => (p.name, p.value) := by
    unfold estadoParameters estado unlessEmpty
    rcases req with ⟨_, _, _ | _ | _, _ | _ | _⟩ <;> rfl
  have known : ∀ p ∈ estado req, Known p := by
    intro p member
    simp only [estado, List.mem_append, List.mem_cons, List.not_mem_nil, or_false] at member
    rcases member with ((rfl | rfl) | buyer) | code
    · exact known_raw (by decide) _
    · exact known_raw (by decide) _
    · split at buyer
      · rw [List.mem_singleton.mp buyer]
        exact known_raw (by decide) _
      · cases buyer
    · split at code
      · rw [List.mem_singleton.mp code]
        exact known_encoded (by decide) _
      · cases code
  have empty : Harmless [] := ⟨by simp, by simp, (percentDecode_eq_self_iff []).mp rfl⟩
  rw [listed, asks_iff (by simp [estado]) known (estado_text url req)]
  unfold estado
  rcases req with ⟨_, _, _ | _ | _, _ | _ | _⟩ <;>
    simp [carried_raw_iff, carried_encoded, empty]

/-- The state of a summary. -/
theorem rfce_intact_iff (url rncEmisor eNcf codigoSeguridad : Bytes) :
    Asks (url ++ ascii "/api/Consultas/Consulta")
        (consultarRfceUrl url rncEmisor eNcf codigoSeguridad)
        (rfceParameters rncEmisor eNcf codigoSeguridad) ↔
      Harmless rncEmisor ∧ Harmless eNcf ∧ Harmless codigoSeguridad := by
  have known : ∀ p ∈ rfce rncEmisor eNcf codigoSeguridad, Known p := by
    intro p member
    simp only [rfce, List.mem_cons, List.not_mem_nil, or_false] at member
    rcases member with rfl | rfl | rfl <;> exact known_raw (by decide) _
  refine (asks_iff (by simp [rfce]) known
    (rfce_text url rncEmisor eNcf codigoSeguridad)).trans ?_
  simp [rfce, carried_raw_iff]

/-- **Arguments that arrive.** The stamps are asked for as they are when the buffer
has room for their amounts; the two states, exactly when the values that are not
encoded hold nothing that a reader of queries takes for something else. -/
theorem queries_intact_iff (timbreUrl timbreFcUrl consultaEstadoUrl consultaRfceUrl : Bytes)
    (ecf : TimbreEcfRequest) (fc : TimbreFcRequest) (estado : ConsultaEstadoRequest)
    (rncEmisor eNcf codigoSeguridad : Bytes) :
    QueriesIntact timbreUrl timbreFcUrl consultaEstadoUrl consultaRfceUrl ecf fc estado rncEmisor
        eNcf codigoSeguridad ↔
      (HasRoom ecf.montoTotal ∧ HasRoom fc.montoTotal) ∧
      (Harmless estado.rncEmisor ∧ Harmless estado.eNcf ∧
        ∀ rncComprador, estado.rncComprador = some rncComprador → Harmless rncComprador) ∧
      Harmless rncEmisor ∧ Harmless eNcf ∧ Harmless codigoSeguridad := by
  rw [← timbre_intact_iff timbreUrl ecf, ← timbreFc_intact_iff timbreFcUrl fc,
    ← estado_intact_iff consultaEstadoUrl, ← rfce_intact_iff consultaRfceUrl]
  constructor
  · exact fun intact => ⟨⟨intact.timbre, intact.timbreFc⟩, intact.estado, intact.rfce⟩
  · rintro ⟨⟨timbre, timbreFc⟩, estado, rfce⟩
    exact ⟨timbre, timbreFc, estado, rfce⟩

/-! ## Security codes -/

/-- The alphabet of base64. -/
def base64Alphabet : Bytes :=
  ascii "ABCDEFGHIJKLMNOPQRSTUVWXYZabcdefghijklmnopqrstuvwxyz0123456789+/="

/-- Of a signature in base64, only `+` is taken for something else. -/
theorem harmless_base64_iff {codigo : Bytes} (base64 : ∀ b ∈ codigo, b ∈ base64Alphabet) :
    Harmless codigo ↔ plus ∉ codigo := by
  have others : ampersand ∉ base64Alphabet ∧ hash ∉ base64Alphabet ∧ percent ∉ base64Alphabet := by
    decide +kernel
  constructor
  · exact fun harmless => harmless.unread.plus
  · intro none
    refine ⟨fun h => others.1 (base64 _ h), fun h => others.2.1 (base64 _ h), none, ?_⟩
    rintro b high low ⟨rfl, -⟩ inside
    exact others.2.2 (base64 _ (inside.subset List.mem_cons_self))

/-- A code with `+` asks for another document. -/
theorem base64_code_altered :
    ¬ ∀ (timbreUrl timbreFcUrl consultaEstadoUrl consultaRfceUrl : Bytes)
      (ecf : TimbreEcfRequest) (fc : TimbreFcRequest) (estado : ConsultaEstadoRequest)
      (rncEmisor eNcf codigoSeguridad : Bytes),
      QueriesIntact timbreUrl timbreFcUrl consultaEstadoUrl consultaRfceUrl ecf fc estado
        rncEmisor eNcf codigoSeguridad := by
  intro all
  have intact := all (ascii "https://ecf.dgii.gov.do/ecf/consultatimbre")
    (ascii "https://fc.dgii.gov.do/ecf/consultatimbrefc")
    (ascii "https://ecf.dgii.gov.do/ecf/consultaestado")
    (ascii "https://fc.dgii.gov.do/ecf/consultarfce") {} {} {} (ascii "101672919")
    (ascii "E320000000001") (ascii "a+B/c=")
  have harmless := ((rfce_intact_iff _ _ _ _).mp intact.rfce).2.2
  exact harmless.unread.plus (by decide)

end EcfDgii.DgiiQueries
