import EcfDgii.DirectSending
import EcfDgii.XmlFormats

/-!
The summary of a consumer invoice (`Rfce.h`): what `EcfValidator::validateRfce`
asks of one, and the XML `EcfXmlSerializer::serialize` makes of it.

The validator looks at the length of the number and at nothing else of it
(`validateRfce_renumbered`), and the number stands in one element of the XML
(`serialize_renumbered`).
-/

set_option autoImplicit false

namespace EcfDgii.Summaries

open EcfDgii.Text EcfDgii.Timestamps EcfDgii.Documents EcfDgii.DirectSending EcfDgii.XmlFormats

/-! ## The model -/

/-- `FormaDePagoItem`. -/
structure FormaDePagoItem where
  formaPago : ℤ := 0
  montoPago : ℚ := 0

/-- `ImpuestoAdicionalItem`. -/
structure ImpuestoAdicionalItem where
  tipoImpuesto : String
  montoImpuestoSelectivoConsumoEspecifico : Option ℚ := none
  montoImpuestoSelectivoConsumoAdvalorem : Option ℚ := none
  otrosImpuestosAdicionales : Option ℚ := none

/-- The fields of `domain::Rfce` that the handler does not look at.  A buyer
without any field is written like none. -/
structure RfceContent where
  version : String := "1.0"
  tipoeCF : String := "32"
  tipoIngresos : ℤ := 0
  tipoPago : ℤ := 0
  tablaFormasPago : List FormaDePagoItem := []
  razonSocialEmisor : String := ""
  fechaEmision : String := ""
  identificadorExtranjero : Option String := none
  razonSocialComprador : Option String := none
  montoGravadoTotal : Option ℚ := none
  montoGravadoI1 : Option ℚ := none
  montoGravadoI2 : Option ℚ := none
  montoGravadoI3 : Option ℚ := none
  montoExento : Option ℚ := none
  totalITBIS1 : Option ℚ := none
  totalITBIS2 : Option ℚ := none
  totalITBIS3 : Option ℚ := none
  montoImpuestoAdicional : Option ℚ := none
  impuestosAdicionales : List ImpuestoAdicionalItem := []
  montoNoFacturable : Option ℚ := none
  montoPeriodo : Option ℚ := none

/-- `domain::Rfce`. -/
abbrev Summary := Rfce RfceContent

/-- The summary under another number. -/
def renumbered (rfce : Summary) (eNcf : String) : Summary := { rfce with eNcf := eNcf }

/-! ## Validation -/

/-- `tryParseDate`: `dd-MM-yyyy`. -/
def tryParseDate (s : String) : Bool :=
  match s.toList with
  | [a, b, c, d, e, f, g, h, i, j] =>
    let day := Nat.ofDigitChars 10 [a, b] 0
    let month := Nat.ofDigitChars 10 [d, e] 0
    let year := Nat.ofDigitChars 10 [g, h, i, j] 0
    c = '-' && f = '-' && [a, b, d, e, g, h, i, j].all Char.isDigit &&
      (1900 ≤ year && year ≤ 2100) && (1 ≤ month && month ≤ 12) &&
      (1 ≤ day && day ≤ Calendar.daysInMonth month year)
  | _ => false

/-- `kRfceThreshold`. -/
def kRfceThreshold : ℚ := 250000

/-- One check: its message when it fails. -/
def failure (fails : Prop) [Decidable fails] (message : String) : List String :=
  if fails then [message] else []

/-- Two amounts are more than a cent apart. -/
def Apart (x y : ℚ) : Prop := 1 / 100 < |x - y|
  deriving Decidable

/-- `MontoTotal` against the amounts it is made of. -/
def totalFailures (rfce : Summary) : List String :=
  match rfce.content.montoGravadoTotal, rfce.content.montoExento, rfce.totalITBIS with
  | some gravado, exento, itbis =>
    failure (Apart rfce.montoTotal (gravado + itbis.getD 0 + exento.getD 0 +
      rfce.content.montoImpuestoAdicional.getD 0))
      "MontoTotal no coincide con la suma de MontoGravadoTotal + TotalITBIS + MontoExento."
  | none, some exento, none =>
    failure (Apart rfce.montoTotal (exento + rfce.content.montoImpuestoAdicional.getD 0))
      "MontoTotal no coincide con MontoExento."
  | _, _, _ => []

/-- An amount against the parts that are given, if any are. -/
def partFailures (total : Option ℚ) (parts : List (Option ℚ)) (message : String) : List String :=
  match total with
  | some total =>
    failure (parts.any Option.isSome ∧ Apart total ((parts.map fun part => part.getD 0).sum)) message
  | none => []

/-- `validateTotalesConsistency`. -/
def validateTotalesConsistency (rfce : Summary) : List String :=
  let t := rfce.content
  totalFailures rfce ++
  partFailures t.montoGravadoTotal [t.montoGravadoI1, t.montoGravadoI2, t.montoGravadoI3]
    "MontoGravadoTotal no coincide con la suma de MontoGravadoI1+I2+I3." ++
  partFailures rfce.totalITBIS [t.totalITBIS1, t.totalITBIS2, t.totalITBIS3]
    "TotalITBIS no coincide con la suma de TotalITBIS1+2+3." ++
  match t.montoPeriodo, t.montoNoFacturable with
  | some periodo, some noFacturable =>
    failure (Apart periodo (rfce.montoTotal + noFacturable))
      "MontoPeriodo debe ser igual a MontoTotal + MontoNoFacturable."
  | _, _ => []

/-- `EcfValidator::validateRfce`. -/
def validateRfce (rfce : Summary) : List String :=
  failure (isRnc rfce.rncEmisor = false)
    "RNCEmisor inválido: debe tener 9 u 11 dígitos numéricos." ++
  failure (rfce.eNcf.utf8ByteSize ≠ 13) "eNCF inválido: debe tener exactamente 13 caracteres." ++
  failure (rfce.content.tipoeCF ≠ "32") "TipoeCF debe ser 32 para RFCE." ++
  failure (tryParseDate rfce.content.fechaEmision = false)
    "FechaEmision inválida: formato requerido dd-MM-AAAA." ++
  failure (rfce.montoTotal < 0) "MontoTotal no puede ser negativo." ++
  failure (kRfceThreshold ≤ rfce.montoTotal) ("MontoTotal >= " ++ formatMoney2 kRfceThreshold ++
    ": usar recepcion (e-CF completo), no recepcionfc.") ++
  failure (rfce.rncComprador.getD "" ≠ "" ∧ rfce.content.identificadorExtranjero.getD "" ≠ "")
    "RNCComprador e IdentificadorExtranjero son mutuamente excluyentes." ++
  validateTotalesConsistency rfce ++
  failure (7 < rfce.content.tablaFormasPago.length)
    "TablaFormasPago no puede tener más de 7 items." ++
  failure (20 < rfce.content.impuestosAdicionales.length)
    "ImpuestosAdicionales no puede tener más de 20 items."

theorem failure_eq_nil {fails : Prop} [Decidable fails] {message : String} :
    failure fails message = [] ↔ ¬ fails := by
  unfold failure
  split <;> simp_all

/-- A summary that passes is of type 32. -/
theorem tipoeCF_of_valid {rfce : Summary} (valid : validateRfce rfce = []) :
    rfce.content.tipoeCF = "32" := by
  simp only [validateRfce, List.append_eq_nil_iff, failure_eq_nil] at valid
  exact not_not.mp valid.1.1.1.1.1.1.1.2

/-- Of the number the validator sees the length. -/
theorem validateRfce_renumbered {rfce : Summary} (valid : validateRfce rfce = []) (eNcf : String) :
    validateRfce (renumbered rfce eNcf) = [] ↔ eNcf.utf8ByteSize = 13 := by
  simp only [validateRfce, List.append_eq_nil_iff, failure_eq_nil] at valid ⊢
  constructor
  · intro again
    exact not_not.mp again.1.1.1.1.1.1.1.1.2
  · intro length
    obtain ⟨⟨⟨⟨⟨⟨⟨⟨⟨rnc, -⟩, tipo⟩, fecha⟩, negative⟩, limit⟩, buyer⟩, totals⟩, formas⟩, taxes⟩ :=
      valid
    exact ⟨⟨⟨⟨⟨⟨⟨⟨⟨rnc, not_not.mpr length⟩, tipo⟩, fecha⟩, negative⟩, limit⟩, buyer⟩, totals⟩,
      formas⟩, taxes⟩

/-! ## Serialization -/

/-- `xmlEscape`, one character. -/
def xmlEscapeChar (c : Char) : String :=
  if (c.toNat < 0x20 ∧ c ≠ '\t' ∧ c ≠ '\n' ∧ c ≠ '\r') ∨ c.toNat = 0x7F then ""
  else if c = '&' then "&amp;"
  else if c = '<' then "&lt;"
  else if c = '>' then "&gt;"
  else if c = '"' then "&quot;"
  else if c = '\'' then "&apos;"
  else String.singleton c

/-- `xmlEscape`. -/
def xmlEscape (value : String) : String := String.join (value.toList.map xmlEscapeChar)

/-- `money`, in a buffer of 64 bytes. -/
def money (v : ℚ) : String := takeFirst 63 (formatMoney2 (if v < 0 then 0 else v))

/-- `el`. -/
def el (tag value : String) : String :=
  "<" ++ tag ++ ">" ++ xmlEscape value ++ "</" ++ tag ++ ">"

/-- `elOpt`. -/
def elOpt (tag : String) (value : Option String) : String := (value.map (el tag)).getD ""

/-- `elMoneyOpt`. -/
def elMoneyOpt (tag : String) (value : Option ℚ) : String :=
  (value.map fun amount => el tag (money amount)).getD ""

/-- The items of a table, in its element when there are any. -/
def table {α : Type} (tag itemTag : String) (item : α → String) (items : List α) : String :=
  if items = [] then ""
  else "<" ++ tag ++ ">" ++ String.join (items.map fun x =>
    "<" ++ itemTag ++ ">" ++ item x ++ "</" ++ itemTag ++ ">") ++ "</" ++ tag ++ ">"

/-- What comes before the number. -/
def serializeHead (rfce : Summary) : String :=
  "<?xml version=\"1.0\" encoding=\"utf-8\"?><RFCE><Encabezado>" ++
  el "Version" rfce.content.version ++ "<IdDoc>" ++ el "TipoeCF" rfce.content.tipoeCF

/-- `<Totales>`. -/
def serializeTotales (rfce : Summary) : String :=
  let t := rfce.content
  "<Totales>" ++ elMoneyOpt "MontoGravadoTotal" t.montoGravadoTotal ++
  elMoneyOpt "MontoGravadoI1" t.montoGravadoI1 ++
  elMoneyOpt "MontoGravadoI2" t.montoGravadoI2 ++
  elMoneyOpt "MontoGravadoI3" t.montoGravadoI3 ++
  elMoneyOpt "MontoExento" t.montoExento ++ elMoneyOpt "TotalITBIS" rfce.totalITBIS ++
  elMoneyOpt "TotalITBIS1" t.totalITBIS1 ++ elMoneyOpt "TotalITBIS2" t.totalITBIS2 ++
  elMoneyOpt "TotalITBIS3" t.totalITBIS3 ++
  elMoneyOpt "MontoImpuestoAdicional" t.montoImpuestoAdicional ++
  table "ImpuestosAdicionales" "ImpuestoAdicional" (fun ia =>
    el "TipoImpuesto" ia.tipoImpuesto ++
    elMoneyOpt "MontoImpuestoSelectivoConsumoEspecifico"
      ia.montoImpuestoSelectivoConsumoEspecifico ++
    elMoneyOpt "MontoImpuestoSelectivoConsumoAdvalorem" ia.montoImpuestoSelectivoConsumoAdvalorem ++
    elMoneyOpt "OtrosImpuestosAdicionales" ia.otrosImpuestosAdicionales) t.impuestosAdicionales ++
  el "MontoTotal" (money rfce.montoTotal) ++ elMoneyOpt "MontoNoFacturable" t.montoNoFacturable ++
  elMoneyOpt "MontoPeriodo" t.montoPeriodo ++ "</Totales>"

/-- What comes after the number. -/
def serializeTail (rfce : Summary) : String :=
  let e := rfce.content
  let tipoIngresos := if 0 < e.tipoIngresos then e.tipoIngresos else 1
  el "TipoIngresos" ((if tipoIngresos < 10 then "0" else "") ++ toString tipoIngresos) ++
  el "TipoPago" (toString e.tipoPago) ++
  table "TablaFormasPago" "FormaDePago" (fun fp => el "FormaPago" (toString fp.formaPago) ++
    el "MontoPago" (money fp.montoPago)) e.tablaFormasPago ++ "</IdDoc>" ++
  "<Emisor>" ++ el "RNCEmisor" rfce.rncEmisor ++ el "RazonSocialEmisor" e.razonSocialEmisor ++
  el "FechaEmision" e.fechaEmision ++ "</Emisor>" ++
  "<Comprador>" ++ elOpt "RNCComprador" rfce.rncComprador ++
  elOpt "IdentificadorExtranjero" e.identificadorExtranjero ++
  elOpt "RazonSocialComprador" e.razonSocialComprador ++ "</Comprador>" ++
  serializeTotales rfce ++
  elOpt "CodigoSeguridadeCF" (rfce.codigoSeguridadeCF.orElse fun _ => rfce.codigoSeguridadTotales) ++
  "</Encabezado></RFCE>"

/-- `EcfXmlSerializer::serialize`. -/
def serialize (rfce : Summary) : String :=
  serializeHead rfce ++ el "eNCF" rfce.eNcf ++ serializeTail rfce

/-- The number stands in its element and nowhere else. -/
theorem serialize_renumbered (rfce : Summary) (eNcf : String) :
    serialize (renumbered rfce eNcf) = serializeHead rfce ++ el "eNCF" eNcf ++ serializeTail rfce :=
  rfl

end EcfDgii.Summaries
