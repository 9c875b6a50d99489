import EcfDgii.CanonicalXml
import EcfDgii.XmlFormats

/-!
What the document builder works out before it writes (`buildXmlFromCanonical`
and `normalizeCanonicalLines` of `CanonicalXmlBuilder.cpp`): the kind of
document, its lines with their amounts in pesos, and the retention in force.

Amounts, `double` in the source, are exact rationals; rounding is half away
from zero.  The locals of `buildXmlFromCanonical` that later sections share are
functions of the document under the same names.
-/

set_option autoImplicit false

namespace EcfDgii.CanonicalLines

open EcfDgii.Text EcfDgii.Documents EcfDgii.CanonicalXml EcfDgii.XmlFormats

/-! ## The kind of document -/

/-- `rawRefEncf`. -/
def rawRefEncf (dto : CanonicalDocumentDto) : String := trim dto.references.correctsENcf

/-- `normalizedRefEncf`. -/
def normalizedRefEncf (dto : CanonicalDocumentDto) : String :=
  if rawRefEncf dto = "" then "" else normalizeNcfReference (rawRefEncf dto)

/-- `tipoEcf == "33" || tipoEcf == "34"`: debit and credit notes. -/
def isNota (tipo : String) : Bool := tipo = "33" || tipo = "34"

/-- Whether the reference names a document of a type, given by its eNCF, or by
its old NCF after normalisation. -/
def refersTo (dto : CanonicalDocumentDto) (eNcf ncf : String) : Bool :=
  startsWithIgnoreCase (rawRefEncf dto) eNcf || startsWithIgnoreCase (normalizedRefEncf dto) eNcf ||
    startsWithIgnoreCase (normalizedRefEncf dto) ncf

/-- `tipoEcf`. -/
def tipo (dto : CanonicalDocumentDto) : String := tipoEcf dto.tipoComprobante

/-- `modifiesGastosMenores`. -/
def modifiesGastosMenores (dto : CanonicalDocumentDto) : Bool :=
  isNota (tipo dto) && refersTo dto "E43" "B13"

/-- `modifiesExport`. -/
def modifiesExport (dto : CanonicalDocumentDto) : Bool :=
  isNota (tipo dto) && refersTo dto "E46" "B16"

/-- `modifiesExpenseEcf`. -/
def modifiesExpenseEcf (dto : CanonicalDocumentDto) : Bool :=
  modifiesGastosMenores dto ||
    (isNota (tipo dto) && (refersTo dto "E41" "B11" || refersTo dto "E47" "B17"))

/-- `hasExplicitTaxedLine`. -/
def hasExplicitTaxedLine (dto : CanonicalDocumentDto) : Bool :=
  dto.lines.any fun l =>
    (l.indicadorFacturacion.any fun i => decide (1 ≤ i ∧ i ≤ 3)) ||
      (l.taxRate.any fun r => decide (r = 18 ∨ r = 16)) || (l.taxAmount.any fun t => decide (0 < t))

/-- `hasTaxedBucket`. -/
def hasTaxedBucket (dto : CanonicalDocumentDto) : Bool :=
  dto.totals.taxBuckets.any fun b => decide (0 < b.base)

/-- `isPurelyExemptOrNonTaxable`. -/
def isPurelyExemptOrNonTaxable (dto : CanonicalDocumentDto) : Bool :=
  modifiesGastosMenores dto ||
    (!hasExplicitTaxedLine dto && !hasTaxedBucket dto && decide (0 < dto.totals.montoExento.getD 0) &&
      decide (dto.totals.montoGravadoTotal.getD 0 = 0) && decide (dto.totals.montoItbis = 0))

/-- `hasOnly16Bucket`. -/
def hasOnly16Bucket (dto : CanonicalDocumentDto) : Bool :=
  dto.totals.taxBuckets ≠ [] && (dto.totals.taxBuckets.all fun b => decide (b.rate = 16)) &&
    dto.totals.taxBuckets.any fun b => decide (0 < b.base)

/-- `isForeignCurrency`. -/
def isForeignCurrency (dto : CanonicalDocumentDto) : Bool :=
  let currencyRes := resolveCanonicalCurrency dto.currency
  currencyRes.isForeign && decide (currencyRes.validationError = "")

/-- `exchangeRate`. -/
def exchangeRate (dto : CanonicalDocumentDto) : ℚ :=
  if isForeignCurrency dto then (resolveCanonicalCurrency dto.currency).exchangeRate else 1

/-! ## Lines -/

/-- `ProcessedLineItem`. -/
structure ProcessedLineItem where
  lineNumber : ℕ := 0
  name : String := ""
  description : String := ""
  quantity : ℚ := 1
  unitPrice : ℚ := 0
  discountAmount : ℚ := 0
  montoItem : ℚ := 0
  indicadorFacturacion : ℤ := 1
  hasExplicitIndicador : Bool := false
  unitPriceDop : ℚ := 0
  discountDop : ℚ := 0
  montoItemDop : ℚ := 0
  precioOtraMoneda : ℚ := 0
  discountOtraMoneda : ℚ := 0
  montoItemOtraMoneda : ℚ := 0
  montoItbisRetenido : Option ℚ := none
  montoIsrRetenido : Option ℚ := none

/-- Price, amount and discount of a line that comes with a discount: the amount
may be gross, net of it, or net with the price folded as well. -/
def discountedLine (safeQty safePrice safeAmount incomingDiscount : ℚ) : ℚ × ℚ × ℚ :=
  let calcWithDiscount := round2 (safePrice * safeQty - incomingDiscount)
  if safeAmount = 0 ∧ 0 < safePrice then (safePrice, max 0 calcWithDiscount, incomingDiscount)
  else if |safeAmount - calcWithDiscount| ≤ 5 / 100 then
    (safePrice, max 0 calcWithDiscount, incomingDiscount)
  else if |round2 (safeQty * safePrice) - safeAmount| ≤ 5 / 100 ∧ 0 < safeQty then
    let grossAmount := safeAmount + incomingDiscount
    let grossPrice2 := round2 (grossAmount / safeQty)
    let grossPrice4 := round4 (grossAmount / safeQty)
    if |round2 (safeQty * grossPrice2) - incomingDiscount - safeAmount| ≤ 1 / 100 then
      (grossPrice2, safeAmount, incomingDiscount)
    else if |round2 (safeQty * grossPrice4) - incomingDiscount - safeAmount| ≤ 1 / 100 then
      (grossPrice4, safeAmount, incomingDiscount)
    else (safePrice, safeAmount, 0)
  else (safePrice, safeAmount, 0)

/-- The amount of a line without a discount. -/
def undiscountedAmount (safeQty safePrice safeAmount : ℚ) : ℚ :=
  let calculatedAmount := max 0 (round2 (safePrice * safeQty))
  if safeAmount = 0 ∧ 0 < safePrice then calculatedAmount
  else if |safeAmount - calculatedAmount| ≤ 5 / 100 then calculatedAmount
  else safeAmount

/-- `indicadorFacturacion` and `hasExplicitIndicador`. -/
def lineIndicador (line : CanonicalLineDto) : ℤ × Bool :=
  match line.indicadorFacturacion.filter fun i => decide (0 ≤ i ∧ i ≤ 4) with
  | some indicador => (indicador, true)
  | none =>
    match line.taxRate, line.taxAmount with
    | some rate, _ => (if rate = 18 then 1 else if rate = 16 then 2 else if rate = 0 then 4 else 1, true)
    | none, some tax => (if 0 < tax then 1 else 4, true)
    | none, none => (1, false)

/-- A discount line reduces the item before it. -/
def discountLast (absDiscount : ℚ) (result : List ProcessedLineItem) : List ProcessedLineItem :=
  match result.getLast? with
  | none => result
  | some prev => result.dropLast ++ [{ prev with
      discountAmount := round2 (prev.discountAmount + absDiscount)
      montoItem := max 0 (round2 (prev.montoItem - absDiscount)) }]

/-- `rawQty`. -/
def rawQty (line : CanonicalLineDto) : ℚ := if 0 < line.quantity then line.quantity else 1

/-- `rawPrice`. -/
def rawPrice (line : CanonicalLineDto) : ℚ :=
  if 0 < line.quantity then line.unitPrice
  else if line.unitPrice ≠ 0 then line.unitPrice else line.amount

/-- `absDiscount`. -/
def absDiscount (line : CanonicalLineDto) : ℚ :=
  |if line.amount ≠ 0 then line.amount else rawPrice line * rawQty line|

/-- `price`: worked out from the amount when there is none. -/
def linePrice (line : CanonicalLineDto) : ℚ :=
  if 0 < line.amount ∧ rawPrice line ≤ 0 then line.amount / rawQty line else rawPrice line

/-- `amount`: worked out from the price when there is none. -/
def lineAmount (line : CanonicalLineDto) : ℚ :=
  if line.amount ≤ 0 ∧ 0 < rawPrice line then rawPrice line * rawQty line else line.amount

/-- `incomingDiscount`. -/
def incomingDiscount (line : CanonicalLineDto) : ℚ :=
  if 0 < line.discountAmount then max 0 (round2 line.discountAmount) else 0

/-- `safeQty`. -/
def safeQty (line : CanonicalLineDto) : ℚ := if 0 < rawQty line then round2 (rawQty line) else 1

/-- `safePrice`, as it comes in. -/
def safePrice (line : CanonicalLineDto) : ℚ := max 0 (round4 (linePrice line))

/-- `safeAmount`, as it comes in. -/
def safeAmount (line : CanonicalLineDto) : ℚ := max 0 (round2 (lineAmount line))

/-- `unitPrice`, `montoItem` and `effectiveDiscount` of the item of a line. -/
def lineFigures (line : CanonicalLineDto) : ℚ × ℚ × ℚ :=
  if 0 < incomingDiscount line then
    discountedLine (safeQty line) (safePrice line) (safeAmount line) (incomingDiscount line)
  else (safePrice line, undiscountedAmount (safeQty line) (safePrice line) (safeAmount line), 0)

/-- The item of a line. -/
def newItem (lineNumber : ℕ) (line : CanonicalLineDto) : ProcessedLineItem :=
  let rawName := if line.itemName ≠ "" then line.itemName else "Item"
  { lineNumber := lineNumber
    name := truncateUtf8 rawName 80
    description := if 80 < rawName.toList.length then truncateUtf8 rawName 1000 else ""
    quantity := safeQty line
    unitPrice := (lineFigures line).1
    discountAmount := (lineFigures line).2.2
    montoItem := (lineFigures line).2.1
    indicadorFacturacion := (lineIndicador line).1
    hasExplicitIndicador := (lineIndicador line).2
    montoItbisRetenido := line.montoItbisRetenido
    montoIsrRetenido := line.montoIsrRetenido }

/-- The loop of `normalizeCanonicalLines`, one line: it discounts the item before
it, does nothing, or adds an item. -/
def normalizeLine (result : List ProcessedLineItem) (line : CanonicalLineDto) :
    List ProcessedLineItem :=
  if (line.amount < 0 ∨ rawPrice line < 0) ∧ result.length ≠ 0 then
    discountLast (absDiscount line) result
  else if lineAmount line ≤ 0 ∧ linePrice line ≤ 0 then result
  else result ++ [newItem (result.length + 1) line]

/-- `normalizeCanonicalLines`: a document without a line worth anything gets
one for the whole. -/
def normalizeCanonicalLines (lines : List CanonicalLineDto) (defaultTotal : ℚ) :
    List ProcessedLineItem :=
  match lines.foldl normalizeLine [] with
  | [] => [{ lineNumber := 1, name := "Item General", unitPrice := defaultTotal,
             montoItem := defaultTotal }]
  | result => result

/-! ## Lines in pesos -/

/-- `tipoEcf == "43" || tipoEcf == "44" || tipoEcf == "47"`: exempt by their type. -/
def isExemptTipo (tipo : String) : Bool := tipo = "43" || tipo = "44" || tipo = "47"

/-- `defaultIndicador`. -/
def defaultIndicador (dto : CanonicalDocumentDto) : ℤ :=
  if isExemptTipo (tipo dto) then 4
  else if tipo dto = "46" ∨ modifiesExport dto then 3
  else if isPurelyExemptOrNonTaxable dto then 4
  else if hasOnly16Bucket dto then 2
  else 1

/-- `effInd`. -/
def effInd (dto : CanonicalDocumentDto) (item : ProcessedLineItem) : ℤ :=
  if isExemptTipo (tipo dto) ∨ modifiesGastosMenores dto then 4
  else if tipo dto = "46" ∨ modifiesExport dto then
    if item.hasExplicitIndicador ∧ item.indicadorFacturacion = 0 then 0 else 3
  else if isPurelyExemptOrNonTaxable dto then 4
  else if item.hasExplicitIndicador then item.indicadorFacturacion
  else defaultIndicador dto

/-- `tipoEcf != "43" && tipoEcf != "47"`. -/
def allowsDiscount (tipo : String) : Bool := tipo ≠ "43" && tipo ≠ "47"

/-- The loop over `processedItems`, one item: its indicator, and its amounts in
pesos and in the other currency. -/
def convertItem (dto : CanonicalDocumentDto) (item : ProcessedLineItem) : ProcessedLineItem :=
  let indicador := effInd dto item
  if isForeignCurrency dto then
    let rate := exchangeRate dto
    let precioOtraMoneda := round4 item.unitPrice
    let discountOtraMoneda :=
      if allowsDiscount (tipo dto) ∧ 0 < item.discountAmount then round2 item.discountAmount else 0
    let montoItemOtraMoneda := round2 item.montoItem
    let discountDop := if 0 < discountOtraMoneda then round2 (discountOtraMoneda * rate) else 0
    let single := |item.quantity - 1| < 1 / 1000000000 ∧ discountDop = 0
    let unitPriceDop :=
      if single then round2 (montoItemOtraMoneda * rate) else round4 (precioOtraMoneda * rate)
    let montoItemDop :=
      if single then round2 (montoItemOtraMoneda * rate)
      else max 0 (round2 (round2 (item.quantity * unitPriceDop) - discountDop))
    { item with
      indicadorFacturacion := indicador
      precioOtraMoneda := precioOtraMoneda
      discountOtraMoneda := discountOtraMoneda
      montoItemOtraMoneda := montoItemOtraMoneda
      discountDop := discountDop
      unitPriceDop := unitPriceDop
      montoItemDop := montoItemDop
      montoItbisRetenido := item.montoItbisRetenido.map fun m => round2 (m * rate)
      montoIsrRetenido := item.montoIsrRetenido.map fun m => round2 (m * rate) }
  else
    { item with
      indicadorFacturacion := indicador
      unitPriceDop := item.unitPrice
      discountDop := if allowsDiscount (tipo dto) then item.discountAmount else 0
      montoItemDop := item.montoItem }

/-- `fallbackLineDefault`. -/
def fallbackLineDefault (dto : CanonicalDocumentDto) : ℚ :=
  max 0 (if isExemptTipo (tipo dto) ∨ tipo dto = "46" ∨ modifiesExport dto then
      dto.totals.montoTotal
    else if 0 < dto.totals.montoSubtotal then dto.totals.montoSubtotal
    else max 0 (dto.totals.montoTotal - dto.totals.montoItbis))

/-- `processedItems`. -/
def processedItems (dto : CanonicalDocumentDto) : List ProcessedLineItem :=
  (normalizeCanonicalLines dto.lines (fallbackLineDefault dto)).map (convertItem dto)

/-! ## Retention -/

/-- `effectiveRetention`, before the totals are known. -/
def effectiveRetention (dto : CanonicalDocumentDto) : Option CanonicalRetentionDto :=
  if tipo dto ∈ ["31", "33", "34", "41", "47"] then
    match dto.retention with
    | some retention =>
      if isForeignCurrency dto then
        some { retention with
          montoItbisRetenido := round2 (retention.montoItbisRetenido * exchangeRate dto)
          montoIsrRetenido := retention.montoIsrRetenido.map fun m =>
            round2 (m * exchangeRate dto) }
      else some retention
    | none =>
      if tipo dto = "41" ∨ tipo dto = "47" then
        some { montoIsrRetenido := if tipo dto = "47" then some 0 else none }
      else none
  else none

/-- Whether a line carries a retention of its own (`hasLineRetentions`). -/
def hasLineRetentions (items : List ProcessedLineItem) : Bool :=
  items.any fun item => (item.montoItbisRetenido.any fun m => decide (0 < m)) ||
    item.montoIsrRetenido.any fun m => decide (0 < m)

/-- The share of an amount that falls to an item, the last one taking what is
left. -/
def prorated (amount assigned sumAmounts : ℚ) (last : Bool) (item : ProcessedLineItem) : ℚ :=
  if last then max 0 (round2 (amount - assigned))
  else if 0 < sumAmounts then round2 (amount * (item.montoItemDop / sumAmounts))
  else 0

/-- The loop that spreads the document's retentions over its items. -/
def prorate (docItbis docIsr sumAmounts : ℚ) (assignedItbis assignedIsr : ℚ) :
    List ProcessedLineItem → List ProcessedLineItem
  | [] => []
  | item :: rest =>
    let itbis := prorated docItbis assignedItbis sumAmounts rest.isEmpty item
    let isr := prorated docIsr assignedIsr sumAmounts rest.isEmpty item
    { item with montoItbisRetenido := some itbis, montoIsrRetenido := some isr } ::
      prorate docItbis docIsr sumAmounts (assignedItbis + itbis) (assignedIsr + isr) rest

/-- The items with their retentions. -/
def retainedItems (retention : Option CanonicalRetentionDto) (items : List ProcessedLineItem) :
    List ProcessedLineItem :=
  match retention with
  | none => items
  | some retention =>
    if hasLineRetentions items then items
    else prorate retention.montoItbisRetenido (retention.montoIsrRetenido.getD 0)
      (items.map (·.montoItemDop)).sum 0 0 items

end EcfDgii.CanonicalLines
