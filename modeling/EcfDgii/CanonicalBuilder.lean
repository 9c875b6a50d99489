import EcfDgii.CanonicalTotals

/-!
The text of an e-CF (`buildXmlFromCanonical`), line by line.

Every `ss <<` of the source that writes an element is a line here, with its
indentation; a string of the caller's that goes through `escapeXml` is an
escaped content, everything else is written verbatim.  `build_instance` says
that the operations, which take what follows the opening of a document as a
parameter, run with this builder in its place.
-/

set_option autoImplicit false

namespace EcfDgii.CanonicalBuilder

open EcfDgii.Text EcfDgii.Calendar EcfDgii.Documents EcfDgii.Engine EcfDgii.Markup
open EcfDgii.XmlFormats EcfDgii.CanonicalXml EcfDgii.CanonicalLines EcfDgii.CanonicalTotals

variable (zone : ℤ) (now : ℕ) (dto : CanonicalDocumentDto)

/-! ## IdDoc -/

/-- `inc`: a credit note that comes more than thirty days after its document. -/
def indicadorNotaCredito : ℤ :=
  match dto.references.indicadorNotaCredito with
  | some indicador => indicador
  | none =>
    let fecha := dto.references.fechaNcfModificado.getD ""
    let issueDays := parseDateToDays zone now dto.header.fechaEmision
    let modDays := parseDateToDays zone now fecha
    if fecha ≠ "" ∧ 0 < issueDays ∧ 0 < modDays ∧ 30 < issueDays - modDays then 1 else 0

/-- The year in which a sequence expires when the document does not say. -/
def yearVencimiento : ℕ :=
  if tolower (dto.environment.getD "") ∈ ["precertificacion", "certificacion", "test", "cert"] then
    2028
  else max 2027 ((dominicanDate now).year + 1)

/-- `fechaVenc`. -/
def fechaVenc : String :=
  let own := dto.fechaVencimientoSecuencia.getD ""
  let header := dto.header.fechaVencimientoSecuencia.getD ""
  if own ≠ "" then normalizeFechaDgii now own
  else if header ≠ "" then normalizeFechaDgii now header
  else "31-12-" ++ decimal (yearVencimiento now dto)

/-- `tipoIngresoVal`. -/
def tipoIngresoVal : String :=
  let given := dto.header.tipoIngresos.getD ""
  if given ≠ "" then if given.toList.length = 1 then "0" ++ given else given
  else if tipo dto = "46" then "02" else "01"

/-- `tipoPagoVal`. -/
def tipoPagoVal : ℤ :=
  match dto.header.tipoPago with
  | some tipoPago => if 1 ≤ tipoPago ∧ tipoPago ≤ 3 then tipoPago else 1
  | none => 1

/-- Whether `<TipoIngresos>` is written. -/
def printsTipoIngresos : Bool :=
  tipo dto ≠ "41" && tipo dto ≠ "43" && tipo dto ≠ "47" && !modifiesExpenseEcf dto

/-- Whether `<FechaLimitePago>` is written. -/
def printsFechaLimitePago : Bool :=
  tipoPagoVal dto = 2 && dto.header.fechaLimitePago.getD "" ≠ ""

/-- `<IdDoc>` on a server `zone` seconds ahead of UTC: the zone is asked for the
indicator of a credit note only. -/
def idDocIn (eNcf : String) : List Line :=
  block 4 "IdDoc" (
    [.element 6 "TipoeCF" (.verbatim (tipo dto)), .element 6 "eNCF" (.verbatim eNcf)] ++
    (if tipo dto = "34" then
      [.element 6 "IndicadorNotaCredito"
        (.verbatim (decimalInt (indicadorNotaCredito zone now dto)))]
    else if tipo dto ≠ "32" then
      [.element 6 "FechaVencimientoSecuencia" (.verbatim (fechaVenc now dto))]
    else []) ++
    (if tipo dto ∈ ["31", "32", "33", "34", "41", "45"] ∧ !isPurelyExemptOrNonTaxable dto then
      [.element 6 "IndicadorMontoGravado" (.verbatim "0")]
    else []) ++
    (if printsTipoIngresos dto then
      [.element 6 "TipoIngresos" (.verbatim (tipoIngresoVal dto))]
    else []) ++
    [.element 6 "TipoPago" (.verbatim (decimalInt (tipoPagoVal dto)))] ++
    (if printsFechaLimitePago dto then
      [.element 6 "FechaLimitePago"
        (.verbatim (normalizeFechaDgii now (dto.header.fechaLimitePago.getD "")))]
    else []))

/-- `<IdDoc>` on a server whose time zone is UTC. -/
def idDoc (eNcf : String) : List Line := idDocIn 0 now dto eNcf

/-! ## Emisor and Comprador -/

/-- `direccionEmisor`. -/
def direccionEmisor : String :=
  let given := dto.header.direccionEmisor.getD ""
  if given ≠ "" then given else "Distrito Nacional, SD"

def emisor (emisorRnc emisorRazonSocial : String) : List Line :=
  block 4 "Emisor" [
    .element 6 "RNCEmisor" (.verbatim emisorRnc),
    .element 6 "RazonSocialEmisor" (.escaped (truncateUtf8 emisorRazonSocial 150)),
    .element 6 "DireccionEmisor" (.escaped (truncateUtf8 (direccionEmisor dto) 100)),
    .element 6 "FechaEmision" (.verbatim (normalizeFechaDgii now dto.header.fechaEmision))]

/-- `explicitForeignId`. -/
def explicitForeignId : String := trim (dto.header.identificadorExtranjero.getD "")

def identificadorExtranjero (id : String) : List Line :=
  [.element 6 "IdentificadorExtranjero" (.escaped (truncateUtf8 id 20))]

/-- The buyer's number, under one of two names. -/
def compradorId : List Line :=
  let rnc := dto.header.rncComprador
  let clean := cleanDigits rnc
  let wellFormed := clean.toList.length = 9 ∨ clean.toList.length = 11
  if tipo dto = "47" then
    let rawForeign := if explicitForeignId dto ≠ "" then explicitForeignId dto else rnc
    if rawForeign ≠ "" then identificadorExtranjero rawForeign else []
  else if tipo dto = "46" then
    if explicitForeignId dto ≠ "" then identificadorExtranjero (explicitForeignId dto)
    else if rnc ≠ "" then
      if hasAlpha rnc then identificadorExtranjero rnc
      else if wellFormed then [.element 6 "RNCComprador" (.verbatim clean)]
      else identificadorExtranjero rnc
    else [.element 6 "IdentificadorExtranjero" (.verbatim "EXTRANJERO")]
  else if explicitForeignId dto ≠ "" ∧ tipo dto ∈ ["32", "33", "34", "44"] then
    identificadorExtranjero (explicitForeignId dto)
  else if rnc ≠ "" then
    if hasAlpha rnc ∧ tipo dto ∈ ["32", "33", "34", "44"] then identificadorExtranjero rnc
    else if wellFormed ∨ tipo dto ∈ ["31", "41", "45"] then
      [.element 6 "RNCComprador" (.verbatim clean)]
    else []
  else if modifiesExport dto then
    [.element 6 "IdentificadorExtranjero" (.verbatim "EXTRANJERO")]
  else []

/-- `rawComprador`. -/
def rawComprador : String :=
  if dto.header.razonSocialComprador = "" then
    if tipo dto = "47" then "Beneficiario del Exterior"
    else if tipo dto = "46" then "Comprador Internacional"
    else "Consumidor Final"
  else dto.header.razonSocialComprador

/-- Whether the buyer's mail address is written. -/
def printsCorreo : Bool :=
  tipo dto ≠ "47" && dto.header.correoComprador.getD "" ≠ "" &&
    emailRegex (primaryEmail (dto.header.correoComprador.getD ""))

def comprador : List Line :=
  if tipo dto ≠ "43" ∧ !modifiesGastosMenores dto then
    block 4 "Comprador" (compradorId dto ++
      [.element 6 "RazonSocialComprador" (.escaped (truncateUtf8 (rawComprador dto) 150))] ++
      (if printsCorreo dto then
        [.element 6 "CorreoComprador"
          (.escaped (primaryEmail (dto.header.correoComprador.getD "")))]
      else []))
  else []

/-! ## Totals -/

def totalesBlock : List Line :=
  block 4 "Totales" ((totales dto).lines.map TotalLine.line)

/-- `<OtraMoneda>`, when the document is in another currency. -/
def otraMoneda : List Line :=
  if isForeignCurrency dto then
    block 4 "OtraMoneda" (
      [.element 6 "TipoMoneda" (.escaped (resolveCanonicalCurrency dto.currency).code),
        .element 6 "TipoCambio" (.verbatim (formatPrice4 (exchangeRate dto)))] ++
      (totales dto).otraMoneda.map TotalLine.line)
  else []

def encabezadoIn (eNcf emisorRnc emisorRazonSocial : String) : List Line :=
  block 2 "Encabezado" (
    [.element 4 "Version" (.verbatim "1.0")] ++ idDocIn zone now dto eNcf ++
    emisor now dto emisorRnc emisorRazonSocial ++ comprador dto ++ totalesBlock dto ++
    otraMoneda dto)

def encabezadoBlock (eNcf emisorRnc emisorRazonSocial : String) : List Line :=
  encabezadoIn 0 now dto eNcf emisorRnc emisorRazonSocial

/-! ## Items -/

/-- `indicadorBienoServicio`. -/
def indicadorBienoServicio : String :=
  if tipo dto = "47" then "2"
  else if tipo dto = "41" ∧ 0 < (dto.retention.bind (·.montoIsrRetenido)).getD 0 then "2"
  else "1"

def money (indent : ℕ) (name : String) (amount : ℚ) : Line :=
  .element indent name (.verbatim (formatMoney2 amount))

/-- `appendLineRetencion`. -/
def lineRetencion (tipo : String) (indicadorAgente : ℤ) (item : ProcessedLineItem) : List Line :=
  let itbis := item.montoItbisRetenido.getD 0
  let isr := item.montoIsrRetenido.getD 0
  let retencion (amounts : List Line) : List Line :=
    block 6 "Retencion" (.element 8 "IndicadorAgenteRetencionoPercepcion"
      (.verbatim (decimalInt indicadorAgente)) :: amounts)
  if tipo = "47" then retencion [money 8 "MontoISRRetenido" isr]
  else if tipo = "41" then
    retencion ([money 8 "MontoITBISRetenido" itbis] ++
      if 0 < isr then [money 8 "MontoISRRetenido" isr] else [])
  else if tipo = "31" ∨ tipo = "33" ∨ tipo = "34" then
    if 0 < itbis ∨ 0 < isr then
      retencion ((if 0 < itbis then [money 8 "MontoITBISRetenido" itbis] else []) ++
        if 0 < isr then [money 8 "MontoISRRetenido" isr] else [])
    else []
  else []

def descuento (amount : ℚ) : List Line :=
  money 6 "DescuentoMonto" amount ::
    block 6 "TablaSubDescuento" (block 8 "SubDescuento"
      [.element 10 "TipoSubDescuento" (.verbatim "$"), money 10 "MontoSubDescuento" amount])

def otraMonedaDetalle (item : ProcessedLineItem) : List Line :=
  block 6 "OtraMonedaDetalle" (
    [.element 8 "PrecioOtraMoneda" (.verbatim (formatPrice4 item.precioOtraMoneda))] ++
    (if allowsDiscount (tipo dto) ∧ 0 < item.discountOtraMoneda then
      [money 8 "DescuentoOtraMoneda" item.discountOtraMoneda]
    else []) ++
    [money 8 "MontoItemOtraMoneda" item.montoItemOtraMoneda])

def itemLines (retention : Option CanonicalRetentionDto) (item : ProcessedLineItem) : List Line :=
  block 4 "Item" (
    [.element 6 "NumeroLinea" (.verbatim (decimal item.lineNumber)),
      .element 6 "IndicadorFacturacion" (.verbatim (decimalInt item.indicadorFacturacion))] ++
    (match retention with
      | some retention =>
        lineRetencion (tipo dto) retention.indicadorAgenteRetencionoPercepcion item
      | none => []) ++
    [.element 6 "NombreItem" (.escaped item.name),
      .element 6 "IndicadorBienoServicio" (.verbatim (indicadorBienoServicio dto))] ++
    (if item.description ≠ "" then
      [.element 6 "DescripcionItem" (.escaped item.description)]
    else []) ++
    [.element 6 "CantidadItem" (.verbatim (formatQty2 item.quantity)),
      .element 6 "PrecioUnitarioItem" (.verbatim (formatPrice4 item.unitPriceDop))] ++
    (if allowsDiscount (tipo dto) ∧ 0 < item.discountDop then descuento item.discountDop else []) ++
    (if isForeignCurrency dto then otraMonedaDetalle dto item else []) ++
    [money 6 "MontoItem" item.montoItemDop])

def detallesItems : List Line :=
  block 2 "DetallesItems"
    ((retainedItems (totales dto).retention (processedItems dto)).flatMap
      (itemLines dto (totales dto).retention))

/-! ## References, and the whole -/

/-- Whether `<InformacionReferencia>` is written: `allowReference`, and a
reference. -/
def printsReferencia : Bool :=
  (isNota (tipo dto) || decide (dto.references.codigoModificacion = some 4)) &&
    normalizedRefEncf dto ≠ ""

def informacionReferencia : List Line :=
  if printsReferencia dto then
    block 2 "InformacionReferencia" (
      [.element 4 "NCFModificado" (.escaped (normalizedRefEncf dto))] ++
      (if dto.references.rncOtroContribuyente.getD "" ≠ "" then
        [.element 4 "RNCOtroContribuyente"
          (.escaped (trim (dto.references.rncOtroContribuyente.getD "")))]
      else []) ++
      [.element 4 "FechaNCFModificado"
        (.verbatim (normalizeFechaDgii now (dto.references.fechaNcfModificado.getD "")))] ++
      (match dto.references.codigoModificacion with
        | some codigo => [.element 4 "CodigoModificacion" (.verbatim (decimalInt codigo))]
        | none =>
          if isNota (tipo dto) then [.element 4 "CodigoModificacion" (.verbatim "1")] else []) ++
      (if isNota (tipo dto) ∧ dto.references.razonModificacion.getD "" ≠ "" then
        [.element 4 "RazonModificacion"
          (.escaped (truncateUtf8 (dto.references.razonModificacion.getD "") 90))]
      else []))
  else []

/-- The lines of the document, on a server `zone` seconds ahead of UTC. -/
def documentLinesIn (eNcf emisorRnc emisorRazonSocial : String) : List Line :=
  block 0 "ECF" (encabezadoIn zone now dto eNcf emisorRnc emisorRazonSocial ++
    detallesItems dto ++ informacionReferencia now dto ++
    [.element 2 "FechaHoraFirma" (.verbatim (dominicanDateTime now))])

/-- The lines of the document, on a server whose time zone is UTC. -/
def documentLines (eNcf emisorRnc emisorRazonSocial : String) : List Line :=
  documentLinesIn 0 now dto eNcf emisorRnc emisorRazonSocial

theorem encabezadoBlock_eq (eNcf emisorRnc emisorRazonSocial : String) :
    encabezadoBlock now dto eNcf emisorRnc emisorRazonSocial =
      block 2 "Encabezado" (
        [.element 4 "Version" (.verbatim "1.0")] ++ idDoc now dto eNcf ++
        emisor now dto emisorRnc emisorRazonSocial ++ comprador dto ++ totalesBlock dto ++
        otraMoneda dto) := rfl

theorem documentLines_eq (eNcf emisorRnc emisorRazonSocial : String) :
    documentLines now dto eNcf emisorRnc emisorRazonSocial =
      block 0 "ECF" (encabezadoBlock now dto eNcf emisorRnc emisorRazonSocial ++
        detallesItems dto ++ informacionReferencia now dto ++
        [.element 2 "FechaHoraFirma" (.verbatim (dominicanDateTime now))]) := rfl

/-- The XML declaration. -/
def declaration : List Char := "<?xml version=\"1.0\" encoding=\"utf-8\"?>\n".toList

/-- `buildXmlFromCanonical`. -/
def documentText (eNcf emisorRnc emisorRazonSocial : String) : List Char :=
  declaration ++ text escapeXml (documentLines now dto eNcf emisorRnc emisorRazonSocial)

/-! ## The builder of the operations -/

/-- What follows the opening of the document, and its totals. -/
def cuerpoEcf (dto : CanonicalDocumentDto) (eNcf emisorRnc emisorRazonSocial : String) (now : ℕ) :
    String × ℚ × ℚ :=
  (String.ofList ((documentText now dto eNcf emisorRnc emisorRazonSocial).drop
    (encabezado "ECF" (tipo dto) eNcf).toList.length), (totales dto).totalDop,
    (totales dto).itbisDop)

/-- The operations with this builder. -/
def withBuilder (ext : Externals) : Externals := { ext with cuerpoEcf := cuerpoEcf }

theorem idDoc_opens (eNcf : String) :
    ∃ rest, idDocIn zone now dto eNcf =
      .opening 4 "IdDoc" :: .element 6 "TipoeCF" (.verbatim (tipo dto)) ::
        .element 6 "eNCF" (.verbatim eNcf) :: rest :=
  ⟨_, rfl⟩

theorem documentLines_opens (eNcf emisorRnc emisorRazonSocial : String) :
    ∃ rest, documentLines now dto eNcf emisorRnc emisorRazonSocial =
      .opening 0 "ECF" :: .opening 2 "Encabezado" :: .element 4 "Version" (.verbatim "1.0") ::
        .opening 4 "IdDoc" :: .element 6 "TipoeCF" (.verbatim (tipo dto)) ::
        .element 6 "eNCF" (.verbatim eNcf) :: rest := by
  obtain ⟨rest, opens⟩ := idDoc_opens 0 now dto eNcf
  rw [documentLines, documentLinesIn, encabezadoIn, opens]
  exact ⟨_, rfl⟩

theorem pieces_toList (a b c d e f g : String) :
    (a ++ b ++ c ++ d ++ e ++ f ++ g).toList =
      (a ++ b ++ c).toList ++ (d.toList ++ (e.toList ++ (f.toList ++ g.toList))) := by
  simp only [String.toList_append, List.append_assoc]

/-- The document opens as every document does. -/
theorem documentText_opens (eNcf emisorRnc emisorRazonSocial : String) :
    (encabezado "ECF" (tipo dto) eNcf).toList <+:
      documentText now dto eNcf emisorRnc emisorRazonSocial := by
  obtain ⟨rest, lines⟩ := documentLines_opens now dto eNcf emisorRnc emisorRazonSocial
  have front : declaration ++ (text escapeXml [.opening 0 "ECF", .opening 2 "Encabezado",
      .element 4 "Version" (.verbatim "1.0"), .opening 4 "IdDoc"] ++
      (blanks 6 ++ openTag "TipoeCF")) =
      ("<?xml version=\"1.0\" encoding=\"utf-8\"?>\n<" ++ "ECF" ++
        ">\n  <Encabezado>\n    <Version>1.0</Version>\n    <IdDoc>\n      <TipoeCF>").toList := by
    decide +kernel
  have middle : closeTag "TipoeCF" ++ (['\n'] ++ (blanks 6 ++ openTag "eNCF")) =
      "</TipoeCF>\n      <eNCF>".toList := by decide +kernel
  have back : closeTag "eNCF" ++ ['\n'] = "</eNCF>\n".toList := by decide +kernel
  have opening : (encabezado "ECF" (tipo dto) eNcf).toList =
      ("<?xml version=\"1.0\" encoding=\"utf-8\"?>\n<" ++ "ECF" ++
        ">\n  <Encabezado>\n    <Version>1.0</Version>\n    <IdDoc>\n      <TipoeCF>").toList ++
      ((tipo dto).toList ++ ("</TipoeCF>\n      <eNCF>".toList ++
        (eNcf.toList ++ "</eNCF>\n".toList))) := pieces_toList _ _ _ _ _ _ _
  have written : documentText now dto eNcf emisorRnc emisorRazonSocial =
      declaration ++ (text escapeXml [.opening 0 "ECF", .opening 2 "Encabezado",
        .element 4 "Version" (.verbatim "1.0"), .opening 4 "IdDoc"] ++
        (blanks 6 ++ openTag "TipoeCF")) ++
      ((tipo dto).toList ++ (closeTag "TipoeCF" ++ (['\n'] ++ (blanks 6 ++ openTag "eNCF")) ++
        (eNcf.toList ++ (closeTag "eNCF" ++ ['\n'])))) ++ text escapeXml rest := by
    rw [documentText, lines]
    simp only [text_cons, text_nil, Line.text, Content.written, List.append_assoc,
      List.append_nil]
  rw [opening, written, front, middle, back]
  exact List.prefix_append _ _

/-- The operations write what `documentText` says. -/
theorem build_instance (ext : Externals) (eNcf emisorRnc emisorRazonSocial : String) :
    buildXmlFromCanonical (withBuilder ext) now dto eNcf emisorRnc emisorRazonSocial =
      (String.ofList (documentText now dto eNcf emisorRnc emisorRazonSocial),
        (totales dto).totalDop, (totales dto).itbisDop) := by
  obtain ⟨rest, opens⟩ := documentText_opens now dto eNcf emisorRnc emisorRazonSocial
  have cuerpo : String.ofList ((documentText now dto eNcf emisorRnc emisorRazonSocial).drop
      (encabezado "ECF" (tipo dto) eNcf).toList.length) = String.ofList rest := by
    rw [← opens, List.drop_left]
  rw [buildXmlFromCanonical, withBuilder]
  dsimp only
  rw [cuerpoEcf, cuerpo, ← opens, String.ofList_append, String.ofList_toList]
  rfl

end EcfDgii.CanonicalBuilder
