import EcfDgii.CanonicalLines

/-!
The totals of an e-CF (`<Totales>` and `<OtraMoneda>` of
`buildXmlFromCanonical`).

A document in pesos prints the totals it came with; a document in another
currency has its totals worked out in pesos from its lines, or from its buckets
converted, and prints what it came with beside them.  Beside the lines, the
result holds the total and the ITBIS in pesos that the row of the document
stores (`computedTotalDop`, `computedItbisDop`).
-/

set_option autoImplicit false

namespace EcfDgii.CanonicalTotals

open EcfDgii.Text EcfDgii.Documents EcfDgii.XmlFormats EcfDgii.Markup
open EcfDgii.CanonicalXml EcfDgii.CanonicalLines

/-! ## Slots -/

/-- The three slots of `DgiiItbisSlots`. -/
inductive Slot
  | i1
  | i2
  | i3
  deriving DecidableEq

/-- The slot of an ITBIS rate. -/
def dgiiItbisSlot (rate : ℤ) : Option Slot :=
  if rate = 18 then some .i1 else if rate = 16 then some .i2 else if rate = 0 then some .i3
  else none

def Slot.number : Slot → String
  | .i1 => "1"
  | .i2 => "2"
  | .i3 => "3"

/-- The rate of a slot. -/
def Slot.rate : Slot → ℤ
  | .i1 => 18
  | .i2 => 16
  | .i3 => 0

/-- The slots, in the order in which they are printed. -/
def slots : List Slot := [.i1, .i2, .i3]

/-- What a slot holds: `slotBase`, `slotTax`. -/
structure Tramo where
  base : ℚ
  tax : ℚ
  deriving DecidableEq

/-- The slots in use. -/
abbrev Tramos := Slot → Option Tramo

def noTramos : Tramos := fun _ => none

/-- One slot in use. -/
def single (slot : Slot) (tramo : Tramo) : Tramos := fun s => if s = slot then some tramo else none

/-- A sum over the slots, those not in use counting as nothing. -/
def sumSlots (amount : Slot → Option ℚ) : ℚ :=
  (amount .i1).getD 0 + (amount .i2).getD 0 + (amount .i3).getD 0

def bases (tramos : Tramos) : Slot → Option ℚ := fun slot => (tramos slot).map (·.base)

def taxes (tramos : Tramos) : Slot → Option ℚ := fun slot => (tramos slot).map (·.tax)

/-- The loop over the buckets, for one slot; `entry` is what is done to each
amount and to each sum. -/
def addBucket (entry : ℚ → ℚ) (slot : Slot) (sum : Option Tramo) (bucket : CanonicalTaxBucketDto) :
    Option Tramo :=
  if dgiiItbisSlot bucket.rate = some slot then
    some ⟨entry (sum.elim 0 (·.base) + entry bucket.base),
      entry (sum.elim 0 (·.tax) + entry bucket.tax)⟩
  else sum

/-- The buckets, added up slot by slot. -/
def bucketTramos (entry : ℚ → ℚ) (buckets : List CanonicalTaxBucketDto) : Tramos :=
  fun slot => buckets.foldl (addBucket entry slot) none

/-! ## Lines of totals -/

/-- An element of the totals: an amount, or the rate of a slot. -/
inductive TotalLine
  | amount (name : String) (value : ℚ)
  | rate (name : String) (value : ℤ)
  deriving DecidableEq

def TotalLine.line : TotalLine → Line
  | .amount name value => .element 6 name (.verbatim (formatMoney2 value))
  | .rate name value => .element 6 name (.verbatim (decimalInt value))

def TotalLine.name : TotalLine → String
  | .amount name _ => name
  | .rate name _ => name

/-- A line for an amount, when a condition holds. -/
def amountIf (condition : Bool) (name : String) (value : ℚ) : List TotalLine :=
  if condition then [.amount name value] else []

/-- A line for an amount that is there. -/
def amountOf (name : String) : Option ℚ → List TotalLine
  | none => []
  | some value => [.amount name value]

/-- The totals of a document: the lines in pesos, those in the other currency,
the amounts the row stores, and the retention in force. -/
structure Totales where
  lines : List TotalLine
  otraMoneda : List TotalLine
  totalDop : ℚ
  itbisDop : ℚ
  retention : Option CanonicalRetentionDto

/-- The lines that types with slots print. -/
def slotLines (gravado exento total : ℚ) (tramos : Tramos) (totalItbis : Option ℚ) :
    List TotalLine :=
  amountIf (decide (0 < gravado)) "MontoGravadoTotal" gravado ++
  slots.flatMap (fun slot => amountOf ("MontoGravadoI" ++ slot.number) (bases tramos slot)) ++
  amountIf (decide (0 < exento)) "MontoExento" exento ++
  slots.flatMap (fun slot =>
    if (tramos slot).isSome then [.rate ("ITBIS" ++ slot.number) slot.rate] else []) ++
  amountOf "TotalITBIS" totalItbis ++
  slots.flatMap (fun slot => amountOf ("TotalITBIS" ++ slot.number) (taxes tramos slot)) ++
  [.amount "MontoTotal" total]

/-- The retained amounts, for the types that print them with slots. -/
def retentionLines (tipo : String) (retention : Option CanonicalRetentionDto) : List TotalLine :=
  match retention with
  | none => []
  | some retention =>
    if tipo ∈ ["31", "33", "34", "41"] then
      amountIf (tipo = "41" || decide (0 < retention.montoItbisRetenido)) "TotalITBISRetenido"
        retention.montoItbisRetenido ++
      isrLines retention
    else []
where
  /-- `TotalISRRetencion`. -/
  isrLines (retention : CanonicalRetentionDto) : List TotalLine :=
    amountIf (decide (0 < retention.montoIsrRetenido.getD 0)) "TotalISRRetencion"
      (retention.montoIsrRetenido.getD 0)

/-- The lines of a document that is exempt by its type. -/
def exemptLines (total : ℚ) : List TotalLine :=
  amountIf (decide (0 < total)) "MontoExento" total ++ [.amount "MontoTotal" total]

/-- The lines of an export. -/
def exportLines (total : ℚ) : List TotalLine :=
  (if 0 < total then
    [.amount "MontoGravadoTotal" total, .amount "MontoGravadoI3" total, .rate "ITBIS3" 0,
      .amount "TotalITBIS" 0, .amount "TotalITBIS3" 0]
  else []) ++ [.amount "MontoTotal" total]

/-! ## In pesos -/

/-- `exento`. -/
def exento (dto : CanonicalDocumentDto) : ℚ :=
  if modifiesGastosMenores dto then
    if 0 < dto.totals.montoTotal then dto.totals.montoTotal
    else dto.totals.montoExento.getD dto.totals.montoSubtotal
  else dto.totals.montoExento.getD 0

/-- `gravado`. -/
def gravado (dto : CanonicalDocumentDto) : ℚ :=
  if modifiesGastosMenores dto ∨ isPurelyExemptOrNonTaxable dto then 0
  else dto.totals.montoGravadoTotal.getD (max 0 (dto.totals.montoSubtotal - exento dto))

/-- `slotBase` and `slotTax` of a document in pesos. -/
def domesticTramos (dto : CanonicalDocumentDto) : Tramos :=
  if dto.totals.taxBuckets.length ≠ 0 ∧ !isPurelyExemptOrNonTaxable dto then
    bucketTramos id dto.totals.taxBuckets
  else if 0 < gravado dto then
    if modifiesExport dto then single .i3 ⟨gravado dto, 0⟩
    else single .i1 ⟨gravado dto, dto.totals.montoItbis⟩
  else noTramos

/-- The totals of a document in pesos. -/
def domesticTotales (dto : CanonicalDocumentDto) : Totales :=
  let total := dto.totals.montoTotal
  let itbis := dto.totals.montoItbis
  let retention := effectiveRetention dto
  if tipo dto = "43" ∨ tipo dto = "44" then
    { lines := exemptLines total
      otraMoneda := []
      totalDop := total
      itbisDop := 0
      retention := retention }
  else if tipo dto = "47" then
    { lines := exemptLines total ++ retention.elim [] retentionLines.isrLines
      otraMoneda := []
      totalDop := total
      itbisDop := 0
      retention := retention }
  else if tipo dto = "46" then
    { lines := exportLines total
      otraMoneda := []
      totalDop := total
      itbisDop := 0
      retention := retention }
  else
    { lines := slotLines (gravado dto) (exento dto) total (domesticTramos dto)
        (if isPurelyExemptOrNonTaxable dto then none else some itbis) ++
        retentionLines (tipo dto) retention
      otraMoneda := []
      totalDop := total
      itbisDop := if isPurelyExemptOrNonTaxable dto then 0 else itbis
      retention := retention }

/-! ## In another currency -/

/-- A sum over items, rounded at every step. -/
def sumItems (amount : ProcessedLineItem → ℚ) (items : List ProcessedLineItem) : ℚ :=
  items.foldl (fun sum item => round2 (sum + amount item)) 0

/-- Bases and exempt amount, in the other currency (with the taxes) and in
pesos. -/
structure Reparto where
  otra : Tramos
  exentoOtra : ℚ
  baseDop : Slot → Option ℚ
  exentoDop : ℚ

/-- `sumLinesDop`. -/
def sumLinesDop (items : List ProcessedLineItem) : ℚ :=
  sumItems (·.montoItemDop) (items.filter fun item => decide (item.indicadorFacturacion ≠ 0))

/-- `diffDop`, when it is small enough to be made up for. -/
def smallDifference (sumLinesDop currentBaseDop : ℚ) : Option ℚ :=
  let diffDop := round2 (sumLinesDop - currentBaseDop)
  if diffDop ≠ 0 ∧ |diffDop| ≤ 1 / 10 then some diffDop else none

/-- The difference goes to the first slot with a base, or to the exempt amount. -/
def absorb (diffDop : ℚ) (reparto : Reparto) : Reparto :=
  match slots.find? fun slot => decide (0 < (reparto.baseDop slot).getD 0) with
  | some slot =>
    let adjusted (s : Slot) : Option ℚ :=
      if s = slot then (reparto.baseDop s).map fun base => round2 (base + diffDop)
      else reparto.baseDop s
    { reparto with baseDop := adjusted }
  | none =>
    if 0 < reparto.exentoDop then
      { reparto with exentoDop := round2 (reparto.exentoDop + diffDop) }
    else reparto

/-- The amounts taken from the buckets. -/
def repartoOfBuckets (dto : CanonicalDocumentDto) (items : List ProcessedLineItem) : Reparto :=
  let otra := bucketTramos round2 dto.totals.taxBuckets
  let exentoOtra := round2 (dto.totals.montoExento.getD 0)
  let baseDop := fun slot => (bases otra slot).map fun base => round2 (base * exchangeRate dto)
  let exentoDop := if 0 < exentoOtra then round2 (exentoOtra * exchangeRate dto) else 0
  let reparto : Reparto :=
    { otra := otra
      exentoOtra := exentoOtra
      baseDop := baseDop
      exentoDop := exentoDop }
  match smallDifference (sumLinesDop items) (sumSlots baseDop + exentoDop) with
  | some diffDop => absorb diffDop reparto
  | none => reparto

/-- The amounts taken from the totals, when both a taxed and an exempt amount
are given. -/
def repartoOfTotals (dto : CanonicalDocumentDto) (items : List ProcessedLineItem) : Reparto :=
  let gOtra := round2 (dto.totals.montoGravadoTotal.getD dto.totals.montoSubtotal)
  let exentoOtra := round2 (dto.totals.montoExento.getD 0)
  let base := round2 (gOtra * exchangeRate dto)
  let exentoDop := round2 (exentoOtra * exchangeRate dto)
  let adjusted := match smallDifference (sumLinesDop items) (base + exentoDop) with
    | some diffDop => round2 (base + diffDop)
    | none => base
  { otra := single .i1 ⟨gOtra, round2 dto.totals.montoItbis⟩
    exentoOtra := exentoOtra
    baseDop := fun slot => if slot = .i1 then some adjusted else none
    exentoDop := exentoDop }

/-- The indicator of a slot: 18 %, 16 %, 0 %. -/
def Slot.indicador : Slot → ℤ
  | .i1 => 1
  | .i2 => 2
  | .i3 => 3

/-- The tax on a base, rounded. -/
def Slot.taxOn (slot : Slot) (base : ℚ) : ℚ :=
  match slot with
  | .i1 => round2 (base * (18 / 100))
  | .i2 => round2 (base * (16 / 100))
  | .i3 => 0

/-- The items of an indicator, when there are any. -/
def itemsOf (indicador : ℤ) (items : List ProcessedLineItem) : List ProcessedLineItem :=
  items.filter fun item => decide (item.indicadorFacturacion = indicador)

/-- The amounts taken from the lines, by their indicators. -/
def repartoOfLines (items : List ProcessedLineItem) : Reparto :=
  let sum (amount : ProcessedLineItem → ℚ) (slot : Slot) : Option ℚ :=
    if (itemsOf slot.indicador items).length = 0 then none
    else some (sumItems amount (itemsOf slot.indicador items))
  { otra := fun slot => (sum (·.montoItemOtraMoneda) slot).map fun base =>
      ⟨base, slot.taxOn base⟩
    exentoOtra := sumItems (·.montoItemOtraMoneda) (itemsOf 4 items)
    baseDop := sum (·.montoItemDop)
    exentoDop := sumItems (·.montoItemDop) (itemsOf 4 items) }

/-- Where the amounts of a document in another currency come from. -/
def reparto (dto : CanonicalDocumentDto) (items : List ProcessedLineItem) : Reparto :=
  let linesHaveExplicitIndicators := items.any (·.hasExplicitIndicador)
  if !linesHaveExplicitIndicators ∧ dto.totals.taxBuckets.length ≠ 0 ∧
      !isPurelyExemptOrNonTaxable dto then
    repartoOfBuckets dto items
  else if !linesHaveExplicitIndicators ∧ !isPurelyExemptOrNonTaxable dto ∧
      0 < dto.totals.montoExento.getD 0 ∧ 0 < dto.totals.montoGravadoTotal.getD 0 then
    repartoOfTotals dto items
  else repartoOfLines items

/-- `slotBaseDop` and `slotTaxDop`. -/
def tramosDop (reparto : Reparto) : Tramos := fun slot =>
  (reparto.baseDop slot).map fun base => ⟨base, slot.taxOn base⟩

/-- The retention of an E41 whose whole ITBIS is retained follows the ITBIS in
pesos. -/
def retentionInDop (dto : CanonicalDocumentDto) (itbisDop : ℚ) : Option CanonicalRetentionDto :=
  match effectiveRetention dto, dto.retention with
  | some effective, some given =>
    if tipo dto = "41" ∧ |given.montoItbisRetenido - dto.totals.montoItbis| ≤ 2 / 100 then
      some { effective with montoItbisRetenido := itbisDop }
    else some effective
  | effective, _ => effective

/-- The lines in the other currency, for the types with slots. -/
def slotLinesOtra (gravado exento total itbis : ℚ) (tramos : Tramos) : List TotalLine :=
  amountIf (decide (0 < gravado)) "MontoGravadoTotalOtraMoneda" gravado ++
  slots.flatMap (fun slot =>
    amountOf ("MontoGravado" ++ slot.number ++ "OtraMoneda") (bases tramos slot)) ++
  amountIf (decide (0 < exento)) "MontoExentoOtraMoneda" exento ++
  amountIf (decide (0 < gravado ∨ 0 < itbis)) "TotalITBISOtraMoneda" itbis ++
  slots.flatMap (fun slot =>
    amountOf ("TotalITBIS" ++ slot.number ++ "OtraMoneda") (taxes tramos slot)) ++
  [.amount "MontoTotalOtraMoneda" total]

/-- The totals of a document in another currency. -/
def foreignTotales (dto : CanonicalDocumentDto) (items : List ProcessedLineItem) : Totales :=
  let retention := effectiveRetention dto
  if isExemptTipo (tipo dto) then
    let exentoOtra := sumItems (·.montoItemOtraMoneda) items
    let exentoDop := sumItems (·.montoItemDop) items
    { lines := exemptLines exentoDop ++
        if tipo dto = "47" then retention.elim [] retentionLines.isrLines else []
      otraMoneda := amountIf (decide (0 < exentoOtra)) "MontoExentoOtraMoneda" exentoOtra ++
        [.amount "MontoTotalOtraMoneda" exentoOtra]
      totalDop := exentoDop
      itbisDop := 0
      retention := retention }
  else if tipo dto = "46" then
    let taxed := items.filter fun item => decide (item.indicadorFacturacion ≠ 0)
    let gravado3Otra := sumItems (·.montoItemOtraMoneda) taxed
    let gravado3Dop := sumItems (·.montoItemDop) taxed
    { lines := exportLines gravado3Dop
      otraMoneda := (if 0 < gravado3Otra then
          [.amount "MontoGravadoTotalOtraMoneda" gravado3Otra,
            .amount "MontoGravado3OtraMoneda" gravado3Otra, .amount "TotalITBISOtraMoneda" 0,
            .amount "TotalITBIS3OtraMoneda" 0]
        else []) ++ [.amount "MontoTotalOtraMoneda" gravado3Otra]
      totalDop := gravado3Dop
      itbisDop := 0
      retention := retention }
  else
    let amounts := reparto dto items
    let tramos := tramosDop amounts
    let gravadoOtra := round2 (sumSlots (bases amounts.otra))
    let itbisOtra := round2 (sumSlots (taxes amounts.otra))
    let totalOtra := round2 (gravadoOtra + amounts.exentoOtra + itbisOtra)
    let gravadoDop := round2 (sumSlots (bases tramos))
    let itbisDop := round2 (sumSlots (taxes tramos))
    let totalDop := round2 (gravadoDop + amounts.exentoDop + itbisDop)
    let retention := retentionInDop dto itbisDop
    { lines := slotLines gravadoDop amounts.exentoDop totalDop tramos
        (if slots.any fun slot => (tramos slot).isSome then some itbisDop else none) ++
        retentionLines (tipo dto) retention
      otraMoneda := slotLinesOtra gravadoOtra amounts.exentoOtra totalOtra itbisOtra amounts.otra
      totalDop := totalDop
      itbisDop := itbisDop
      retention := retention }

/-- The totals of a document. -/
def totales (dto : CanonicalDocumentDto) : Totales :=
  if isForeignCurrency dto then foreignTotales dto (processedItems dto) else domesticTotales dto

end EcfDgii.CanonicalTotals
