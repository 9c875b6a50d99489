import Mathlib.Algebra.Order.Ring.Rat
import Mathlib.Data.Rat.Floor
import EcfDgii.Text

/-!
The engine's data: what a caller submits, what a row of `ecf_documents` holds,
what the other two tables hold.

The records follow the C++ structs field by field; amounts, `double` there, are
exact rationals here.  `EcfDocument` has the columns the engine writes, and
`EcfDocumentRow` adds what the table adds (`AuditableEntity`): the time of the
insert and of the last update, and the soft-delete flag.  The audit columns
that only name the user are left out, since no function reads them.
-/

set_option autoImplicit false

namespace EcfDgii.Documents

open EcfDgii.Text

/-- `domain::AmbienteEnum`. -/
inductive AmbienteEnum
  | preCertificacion
  | certificacion
  | produccion
  deriving DecidableEq, Repr

/-- `ambienteToString`. -/
def ambienteToString : AmbienteEnum → String
  | .preCertificacion => "PreCertificacion"
  | .certificacion => "Certificacion"
  | .produccion => "Produccion"

/-- `tryResolveAmbienteEnum`. -/
def tryResolveAmbienteEnum (rawEnv : String) : Option AmbienteEnum :=
  let lower := trim (tolower rawEnv)
  if rawEnv = "" then none
  else if lower = "test" || lower = "testecf" || contains lower "precert" || lower = "1" then
    some .preCertificacion
  else if lower = "cert" || lower = "certecf" || contains lower "certific" ||
      contains lower "homolog" || lower = "3" then
    some .certificacion
  else if lower = "prod" || lower = "prd" || lower = "production" || lower = "ecf" ||
      contains lower "producc" || lower = "2" then
    some .produccion
  else none

/-- `resolveAmbienteEnum`. -/
def resolveAmbienteEnum (rawEnv : String) (default : AmbienteEnum) : AmbienteEnum :=
  (tryResolveAmbienteEnum rawEnv).getD default

/-! ## Rows -/

/-- `domain::EcfDocument`, the columns `add` and `update` write. -/
structure EcfDocument where
  id : String
  eNcf : String
  rncEmisor : String
  rncComprador : Option String := none
  tenantId : String := "default-tenant"
  sourceTxnId : String
  editSequence : String
  documentKind : String := "Invoice"
  ncf : Option String := none
  trackId : Option String := none
  state : String := "Received"
  totalAmount : ℚ := 0
  itbisAmount : ℚ := 0
  securityCode : Option String := none
  xmlContent : String := ""
  signedXmlContent : Option String := none
  dgiiResponseXml : Option String := none
  receiptDate : Option String := none
  sentToDgiiAt : Option String := none
  lastStatusCheckAt : Option String := none
  statusCheckAttempts : ℤ := 0
  ambiente : Option String := none
  deriving DecidableEq

/-- A stored row: the document, and what the table keeps beside it. -/
structure EcfDocumentRow extends EcfDocument where
  createdAt : String
  updatedAt : Option String := none
  isDeleted : Bool := false
  deriving DecidableEq

/-- `domain::EcfSequence`. -/
structure EcfSequence where
  id : ℕ
  tenantId : String := "default-tenant"
  tipoComprobante : String
  prefijo : String
  rangoDesde : ℤ := 1
  rangoHasta : ℤ := 9999999999
  secuenciaActual : ℤ := 0
  fechaVencimiento : Option String := none
  isActive : Bool := true
  deriving DecidableEq

/-- `getCurrentEncfFormatted`: the prefix and ten digits (a number of more
digits is printed whole, and a sign goes before the fill). -/
def EcfSequence.getCurrentEncfFormatted (s : EcfSequence) : String :=
  s.prefijo ++ match s.secuenciaActual with
    | .ofNat n => String.ofList (padded 10 n)
    | .negSucc n =>
      let digits := '-' :: Nat.toDigits 10 (n + 1)
      String.ofList (List.replicate (10 - digits.length) '0' ++ digits)

/-- A row of `ecf_idempotency_records`; times are instants of the clock. -/
structure IdempotencyRecord where
  key : String
  createdByWorkerKeyId : String
  payloadHash : String
  status : String
  statusCode : ℕ
  contentType : String
  responseBody : String
  createdAt : ℕ
  expiresAt : ℕ
  deriving DecidableEq

/-! ## Submitted documents -/

structure SourceReferenceDto where
  provider : String := "QuickBooksDesktop"
  txnId : String := ""
  editSequence : String := ""

structure CanonicalHeaderDto where
  rncEmisor : String := ""
  razonSocialEmisor : String := ""
  rncComprador : String := ""
  identificadorExtranjero : Option String := none
  razonSocialComprador : String := ""
  correoComprador : Option String := none
  fechaEmision : String := ""
  fechaVencimientoSecuencia : Option String := none
  direccionEmisor : Option String := none
  tipoPago : Option ℤ := none
  fechaLimitePago : Option String := none
  tipoIngresos : Option String := none

structure CanonicalCurrencyDto where
  code : String := "DOP"
  exchangeRate : ℚ := 1

structure CanonicalLineDto where
  lineNumber : ℤ := 0
  itemName : String := ""
  quantity : ℚ := 0
  unitPrice : ℚ := 0
  amount : ℚ := 0
  discountAmount : ℚ := 0
  indicadorFacturacion : Option ℤ := none
  taxRate : Option ℚ := none
  taxAmount : Option ℚ := none
  montoItbisRetenido : Option ℚ := none
  montoIsrRetenido : Option ℚ := none

structure CanonicalTaxBucketDto where
  rate : ℤ := 18
  base : ℚ := 0
  tax : ℚ := 0

structure CanonicalTotalsDto where
  montoSubtotal : ℚ := 0
  montoGravadoTotal : Option ℚ := none
  montoExento : Option ℚ := none
  taxBuckets : List CanonicalTaxBucketDto := []
  montoItbis : ℚ := 0
  montoTotal : ℚ := 0

structure CanonicalReferencesDto where
  correctsTxnId : String := ""
  correctsENcf : String := ""
  codigoModificacion : Option ℤ := none
  razonModificacion : Option String := none
  fechaNcfModificado : Option String := none
  rncOtroContribuyente : Option String := none
  indicadorNotaCredito : Option ℤ := none

structure CanonicalRetentionDto where
  indicadorAgenteRetencionoPercepcion : ℤ := 1
  montoItbisRetenido : ℚ := 0
  montoIsrRetenido : Option ℚ := none

structure CanonicalCertificateDto where
  certificateBase64 : Option String := none
  password : Option String := none
  certificatePath : Option String := none

structure CanonicalDocumentDto where
  tenantId : Option String := none
  environment : Option String := none
  certificate : Option CanonicalCertificateDto := none
  ncf : Option String := none
  sourceReference : SourceReferenceDto := {}
  documentKind : String := "Invoice"
  tipoComprobante : String := "E31"
  header : CanonicalHeaderDto := {}
  currency : Option CanonicalCurrencyDto := none
  lines : List CanonicalLineDto := []
  totals : CanonicalTotalsDto := {}
  references : CanonicalReferencesDto := {}
  retention : Option CanonicalRetentionDto := none
  fechaVencimientoSecuencia : Option String := none

/-! ## Currency -/

/-- `std::round(value * scale) / scale`: halves go away from zero. -/
def roundHalfAway (scale : ℕ) (value : ℚ) : ℚ :=
  let scaled := value * scale
  (if 0 ≤ scaled then ⌊scaled + 1 / 2⌋ else ⌈scaled - 1 / 2⌉) / scale

/-- `ValidDgiiForeignCurrencyCodes`. -/
def validDgiiForeignCurrencyCodes : List String :=
  ["BRL", "CAD", "CHF", "CHY", "XDR", "DKK", "EUR", "GBP", "JPY", "NOK", "SCP", "SEK", "USD",
    "VEF", "HTG", "MXN", "COP"]

/-- `CanonicalCurrencyResolution`. -/
structure CanonicalCurrencyResolution where
  isForeign : Bool := false
  code : String := "DOP"
  exchangeRate : ℚ := 1
  validationError : String := ""

/-- `resolveCanonicalCurrency`. -/
def resolveCanonicalCurrency : Option CanonicalCurrencyDto → CanonicalCurrencyResolution
  | none => {}
  | some currency =>
    let upper := toupper (trim currency.code)
    if upper = "" || upper = "DOP" || upper = "RD$" || upper = "RDS" then {}
    else
      let code := if upper = "CNY" then "CHY" else if upper = "US$" then "USD" else upper
      let foreign : CanonicalCurrencyResolution :=
        { isForeign := true, code := code, exchangeRate := currency.exchangeRate }
      if code ∉ validDgiiForeignCurrencyCodes then
        { foreign with
          validationError := "Currency.Code '" ++ currency.code ++
            "' no es una moneda extranjera válida según el esquema TipoMonedaType de la DGII." }
      else if currency.exchangeRate ≤ 0 ∨ 1000 ≤ currency.exchangeRate then
        { foreign with
          validationError := "Currency.ExchangeRate debe ser mayor a 0 y menor a 1000 para comprobantes en Otra Moneda." }
      else { foreign with exchangeRate := roundHalfAway 10000 currency.exchangeRate }

end EcfDgii.Documents
