import Mathlib.Data.List.Induction
import EcfDgii.CanonicalBuilder
import EcfDgii.Submission

/-!
Documents that differ in their strings only.

The builder looks at a string of the caller's in a few ways: whether it is
there, what kind of number or reference it is, whether a name is too long for
its element.  Documents that agree in all of these, and in their amounts, are
alike, and `tags_alike` says that they have the same elements.
-/

set_option autoImplicit false

namespace EcfDgii.AlikeDocuments

open EcfDgii.Text EcfDgii.Documents EcfDgii.Markup EcfDgii.XmlFormats EcfDgii.CanonicalXml
open EcfDgii.CanonicalLines EcfDgii.CanonicalTotals EcfDgii.CanonicalBuilder EcfDgii.Submission

/-- Lines that differ in their names only, both of them short or both long. -/
structure AlikeLine (a b : CanonicalLineDto) : Prop where
  numbers : { a with itemName := b.itemName } = b
  long : 80 < a.itemName.toList.length ↔ 80 < b.itemName.toList.length

/-- The kinds of receipts a note can modify with consequences. -/
def referenceKinds : List (String × String) :=
  [("E41", "B11"), ("E43", "B13"), ("E46", "B16"), ("E47", "B17")]

/-- Documents with the same type and amounts, whose strings the builder does not
tell apart. -/
structure Alike (a b : CanonicalDocumentDto) : Prop where
  tipoComprobante : a.tipoComprobante = b.tipoComprobante
  totals : a.totals = b.totals
  retention : a.retention = b.retention
  lines : List.Forall₂ AlikeLine a.lines b.lines
  isForeignCurrency : isForeignCurrency a = isForeignCurrency b
  exchangeRate : exchangeRate a = exchangeRate b
  tipoPago : a.header.tipoPago = b.header.tipoPago
  fechaLimitePago : a.header.fechaLimitePago.getD "" = "" ↔ b.header.fechaLimitePago.getD "" = ""
  identificadorExtranjero : explicitForeignId a = "" ↔ explicitForeignId b = ""
  rncComprador : a.header.rncComprador = "" ↔ b.header.rncComprador = ""
  rncAlpha : hasAlpha a.header.rncComprador = hasAlpha b.header.rncComprador
  rncDigits : rncLength a.header.rncComprador = rncLength b.header.rncComprador
  correoComprador : printsCorreo a = printsCorreo b
  correctsENcf : normalizedRefEncf a = "" ↔ normalizedRefEncf b = ""
  referenceKind : ∀ kind ∈ referenceKinds, refersTo a kind.1 kind.2 = refersTo b kind.1 kind.2
  codigoModificacion : a.references.codigoModificacion = b.references.codigoModificacion
  razonModificacion :
    a.references.razonModificacion.getD "" = "" ↔ b.references.razonModificacion.getD "" = ""
  rncOtroContribuyente : a.references.rncOtroContribuyente.getD "" = "" ↔
    b.references.rncOtroContribuyente.getD "" = ""

/-! ## The kind of document -/

section

variable {a b : CanonicalDocumentDto} (alike : Alike a b)

include alike

theorem Alike.tipo : tipo a = tipo b := by
  rw [CanonicalLines.tipo, CanonicalLines.tipo, alike.tipoComprobante]

theorem Alike.modifiesGastosMenores : modifiesGastosMenores a = modifiesGastosMenores b := by
  rw [CanonicalLines.modifiesGastosMenores, CanonicalLines.modifiesGastosMenores, alike.tipo,
    alike.referenceKind ("E43", "B13") (by decide)]

theorem Alike.modifiesExport : modifiesExport a = modifiesExport b := by
  rw [CanonicalLines.modifiesExport, CanonicalLines.modifiesExport, alike.tipo,
    alike.referenceKind ("E46", "B16") (by decide)]

theorem Alike.modifiesExpenseEcf : modifiesExpenseEcf a = modifiesExpenseEcf b := by
  rw [CanonicalLines.modifiesExpenseEcf, CanonicalLines.modifiesExpenseEcf, alike.tipo,
    alike.modifiesGastosMenores, alike.referenceKind ("E41", "B11") (by decide),
    alike.referenceKind ("E47", "B17") (by decide)]

theorem Alike.hasExplicitTaxedLine : hasExplicitTaxedLine a = hasExplicitTaxedLine b := by
  have lines := alike.lines
  unfold CanonicalLines.hasExplicitTaxedLine
  generalize a.lines = first at lines
  generalize b.lines = second at lines
  induction lines with
  | nil => rfl
  | cons same _ ih =>
    rw [List.any_cons, List.any_cons, ih, ← same.numbers]

theorem Alike.isPurelyExemptOrNonTaxable :
    isPurelyExemptOrNonTaxable a = isPurelyExemptOrNonTaxable b := by
  rw [CanonicalLines.isPurelyExemptOrNonTaxable, CanonicalLines.isPurelyExemptOrNonTaxable,
    alike.modifiesGastosMenores, alike.hasExplicitTaxedLine, hasTaxedBucket, hasTaxedBucket,
    alike.totals]

theorem Alike.hasOnly16Bucket : hasOnly16Bucket a = hasOnly16Bucket b := by
  rw [CanonicalLines.hasOnly16Bucket, CanonicalLines.hasOnly16Bucket, alike.totals]

theorem Alike.effectiveRetention : effectiveRetention a = effectiveRetention b := by
  rw [CanonicalLines.effectiveRetention, CanonicalLines.effectiveRetention, alike.tipo,
    alike.retention, alike.isForeignCurrency, alike.exchangeRate]

theorem Alike.fallbackLineDefault : fallbackLineDefault a = fallbackLineDefault b := by
  rw [CanonicalLines.fallbackLineDefault, CanonicalLines.fallbackLineDefault, alike.tipo,
    alike.modifiesExport, alike.totals]

theorem Alike.convertItem : convertItem a = convertItem b := by
  funext item
  have indicador : effInd a item = effInd b item := by
    rw [effInd, effInd, defaultIndicador, defaultIndicador, alike.tipo,
      alike.modifiesGastosMenores, alike.modifiesExport, alike.isPurelyExemptOrNonTaxable,
      alike.hasOnly16Bucket]
  rw [CanonicalLines.convertItem, CanonicalLines.convertItem, indicador, alike.tipo,
    alike.isForeignCurrency, alike.exchangeRate]

end

/-! ## Lines -/

/-- An item without its strings, except that the description is there or not. -/
def bare (item : ProcessedLineItem) : ProcessedLineItem :=
  { item with
    name := ""
    description := if item.description = "" then "" else "x" }

theorem bare_discountLast (absDiscount : ℚ) (result : List ProcessedLineItem) :
    (discountLast absDiscount result).map bare = discountLast absDiscount (result.map bare) := by
  induction result using List.reverseRecOn with
  | nil => rfl
  | append_singleton result item => simp [discountLast, bare]

/-- A long text does not vanish when it is cut. -/
theorem truncateUtf8_empty {s : String} (long : 80 < s.toList.length) (n : ℕ) :
    truncateUtf8 s (n + 1) ≠ "" := by
  intro empty
  have nothing : truncateBytes (n + 1) s.toList = [] := by
    rw [← String.toList_ofList (l := truncateBytes (n + 1) s.toList)]
    exact congrArg String.toList empty
  have short (c : Char) : utf8Length c ≤ 4 := by
    unfold utf8Length
    split_ifs <;> decide
  cases chars : s.toList with
  | nil => simp [chars] at long
  | cons c cs =>
    rw [chars] at nothing long
    unfold truncateBytes at nothing
    have enough : ¬ (c :: cs).length < utf8Length c := by
      have := short c
      omega
    rw [if_neg enough] at nothing
    split at nothing <;> cases nothing

theorem long_rawName (name : String) :
    80 < (if name ≠ "" then name else "Item").toList.length ↔ 80 < name.toList.length := by
  by_cases empty : name = ""
  · subst empty
    decide
  · rw [if_pos empty]

/-- The description of an item is there when the name is long. -/
theorem bare_newItem (lineNumber : ℕ) (line : CanonicalLineDto) :
    bare (newItem lineNumber line) =
      { newItem lineNumber line with
        name := ""
        description := if 80 < line.itemName.toList.length then "x" else "" } := by
  simp only [bare, newItem, long_rawName]
  by_cases long : 80 < line.itemName.toList.length
  · rw [if_pos long, if_pos long, if_neg]
    exact truncateUtf8_empty ((long_rawName _).mpr long) 999
  · rw [if_neg long, if_neg long, if_pos rfl]

theorem AlikeLine.newItem {line line' : CanonicalLineDto} (alike : AlikeLine line line')
    (lineNumber : ℕ) : bare (newItem lineNumber line) = bare (newItem lineNumber line') := by
  rw [bare_newItem, bare_newItem]
  simp only [alike.long]
  obtain ⟨name, rfl⟩ : ∃ name, line' = { line with itemName := name } :=
    ⟨line'.itemName, alike.numbers.symm⟩
  rfl

theorem bare_normalizeLine {results results' : List ProcessedLineItem}
    {line line' : CanonicalLineDto} (before : results.map bare = results'.map bare)
    (alike : AlikeLine line line') :
    (normalizeLine results line).map bare = (normalizeLine results' line').map bare := by
  have length : results.length = results'.length := by
    simpa using congrArg List.length before
  have item := alike.newItem (results'.length + 1)
  obtain ⟨given, raw, discount, amount, price⟩ : line.amount = line'.amount ∧
      rawPrice line = rawPrice line' ∧ absDiscount line = absDiscount line' ∧
      lineAmount line = lineAmount line' ∧ linePrice line = linePrice line' := by
    obtain ⟨name, rfl⟩ : ∃ name, line' = { line with itemName := name } :=
      ⟨line'.itemName, alike.numbers.symm⟩
    exact ⟨rfl, rfl, rfl, rfl, rfl⟩
  rw [normalizeLine, normalizeLine, length, given, raw, discount, amount, price]
  split
  · rw [bare_discountLast, bare_discountLast, before]
  · split
    · exact before
    · rw [List.map_append, List.map_append, before, List.map_singleton, List.map_singleton, item]

theorem bare_foldl {lines lines' : List CanonicalLineDto}
    (alike : List.Forall₂ AlikeLine lines lines') {results results' : List ProcessedLineItem}
    (before : results.map bare = results'.map bare) :
    (lines.foldl normalizeLine results).map bare =
      (lines'.foldl normalizeLine results').map bare := by
  induction alike generalizing results results' with
  | nil => exact before
  | cons same _ ih => exact ih (bare_normalizeLine before same)

theorem bare_normalizeCanonicalLines {lines lines' : List CanonicalLineDto}
    (alike : List.Forall₂ AlikeLine lines lines') (defaultTotal : ℚ) :
    (normalizeCanonicalLines lines defaultTotal).map bare =
      (normalizeCanonicalLines lines' defaultTotal).map bare := by
  have same := bare_foldl alike (rfl : [].map bare = [].map bare)
  have empty := congrArg List.length same
  rw [List.length_map, List.length_map] at empty
  unfold normalizeCanonicalLines
  split
  · next none =>
    rw [none] at empty
    rw [List.eq_nil_of_length_eq_zero empty.symm]
  · next some =>
    split
    · next none =>
      rw [none] at empty
      exact absurd (List.eq_nil_of_length_eq_zero empty) some
    · exact same

theorem bare_convertItem (dto : CanonicalDocumentDto) (item : ProcessedLineItem) :
    bare (convertItem dto item) = convertItem dto (bare item) := by
  unfold convertItem
  dsimp only
  split <;> rfl

theorem Alike.processedItems {a b : CanonicalDocumentDto} (alike : Alike a b) :
    (processedItems a).map bare = (processedItems b).map bare := by
  have commute (dto : CanonicalDocumentDto) : bare ∘ CanonicalLines.convertItem dto =
      CanonicalLines.convertItem dto ∘ bare := funext (bare_convertItem dto)
  rw [CanonicalLines.processedItems, CanonicalLines.processedItems, List.map_map, List.map_map,
    commute, commute, ← List.map_map, ← List.map_map, alike.fallbackLineDefault,
    bare_normalizeCanonicalLines alike.lines, alike.convertItem]

/-! ## Totals -/

theorem sumItems_bare {amount : ProcessedLineItem → ℚ}
    (numeric : ∀ item, amount (bare item) = amount item) (items : List ProcessedLineItem) :
    sumItems amount (items.map bare) = sumItems amount items := by
  simp only [sumItems, List.foldl_map, numeric]

theorem filter_bare {condition : ProcessedLineItem → Bool}
    (numeric : ∀ item, condition (bare item) = condition item) (items : List ProcessedLineItem) :
    (items.map bare).filter condition = (items.filter condition).map bare := by
  rw [List.filter_map]
  exact congrArg (List.map bare) (List.filter_congr fun item _ => numeric item)

theorem itemsOf_bare (indicador : ℤ) (items : List ProcessedLineItem) :
    itemsOf indicador (items.map bare) = (itemsOf indicador items).map bare :=
  filter_bare (fun _ => rfl) items

theorem sumLinesDop_bare (items : List ProcessedLineItem) :
    sumLinesDop (items.map bare) = sumLinesDop items := by
  rw [sumLinesDop, filter_bare (fun _ => rfl), sumItems_bare fun _ => rfl, sumLinesDop]

theorem reparto_bare (dto : CanonicalDocumentDto) (items : List ProcessedLineItem) :
    reparto dto (items.map bare) = reparto dto items := by
  have explicit : (items.map bare).any (·.hasExplicitIndicador) =
      items.any (·.hasExplicitIndicador) := List.any_map
  have montoItem (k : ℤ) : sumItems (·.montoItemDop) ((itemsOf k items).map bare) =
      sumItems (·.montoItemDop) (itemsOf k items) := sumItems_bare (fun _ => rfl) _
  have otra (k : ℤ) : sumItems (·.montoItemOtraMoneda) ((itemsOf k items).map bare) =
      sumItems (·.montoItemOtraMoneda) (itemsOf k items) := sumItems_bare (fun _ => rfl) _
  have lines : repartoOfLines (items.map bare) = repartoOfLines items := by
    simp only [repartoOfLines, itemsOf_bare, List.length_map, montoItem, otra]
  rw [reparto, reparto, explicit, lines, repartoOfBuckets, repartoOfBuckets, repartoOfTotals,
    repartoOfTotals, sumLinesDop_bare]

theorem foreignTotales_bare (dto : CanonicalDocumentDto) (items : List ProcessedLineItem) :
    foreignTotales dto (items.map bare) = foreignTotales dto items := by
  have montoItem (items : List ProcessedLineItem) :
      sumItems (·.montoItemDop) (items.map bare) = sumItems (·.montoItemDop) items :=
    sumItems_bare (fun _ => rfl) _
  have otra (items : List ProcessedLineItem) :
      sumItems (·.montoItemOtraMoneda) (items.map bare) = sumItems (·.montoItemOtraMoneda) items :=
    sumItems_bare (fun _ => rfl) _
  have taxed : (items.map bare).filter (fun item => decide (item.indicadorFacturacion ≠ 0)) =
      (items.filter fun item => decide (item.indicadorFacturacion ≠ 0)).map bare :=
    filter_bare (fun _ => rfl) items
  simp only [foreignTotales, reparto_bare, taxed, montoItem, otra]

section

variable {a b : CanonicalDocumentDto} (alike : Alike a b)

include alike

theorem Alike.domesticTotales : domesticTotales a = domesticTotales b := by
  have exento : exento a = exento b := by
    rw [CanonicalTotals.exento, CanonicalTotals.exento, alike.modifiesGastosMenores, alike.totals]
  have gravado : gravado a = gravado b := by
    rw [CanonicalTotals.gravado, CanonicalTotals.gravado, alike.modifiesGastosMenores,
      alike.isPurelyExemptOrNonTaxable, alike.totals, exento]
  have tramos : domesticTramos a = domesticTramos b := by
    rw [domesticTramos, domesticTramos, alike.isPurelyExemptOrNonTaxable, alike.totals,
      alike.modifiesExport, gravado]
  rw [CanonicalTotals.domesticTotales, CanonicalTotals.domesticTotales, alike.totals, alike.tipo,
    alike.effectiveRetention, alike.isPurelyExemptOrNonTaxable, gravado, exento, tramos]

theorem Alike.foreignTotales (items : List ProcessedLineItem) :
    foreignTotales a items = foreignTotales b items := by
  have reparto : reparto a items = reparto b items := by
    rw [CanonicalTotals.reparto, CanonicalTotals.reparto, repartoOfBuckets, repartoOfBuckets,
      repartoOfTotals, repartoOfTotals, alike.isPurelyExemptOrNonTaxable, alike.totals,
      alike.exchangeRate]
  have retention (itbisDop : ℚ) : retentionInDop a itbisDop = retentionInDop b itbisDop := by
    rw [retentionInDop, retentionInDop, alike.effectiveRetention, alike.retention, alike.tipo,
      alike.totals]
  simp only [CanonicalTotals.foreignTotales, alike.tipo, alike.effectiveRetention, reparto,
    retention]

/-- **Documents that are alike have the same totals.** -/
theorem Alike.totales : totales a = totales b := by
  rw [CanonicalTotals.totales, CanonicalTotals.totales, alike.isForeignCurrency,
    alike.domesticTotales, alike.foreignTotales, ← foreignTotales_bare b, alike.processedItems,
    foreignTotales_bare]

end

/-! ## Tags -/

/-- The tags of some lines. -/
def shape (lines : List Line) : List Token := lines.flatMap Line.tags

@[simp] theorem shape_nil : shape [] = [] := rfl

@[simp] theorem shape_cons (line : Line) (lines : List Line) :
    shape (line :: lines) = line.tags ++ shape lines := rfl

@[simp] theorem shape_append (first second : List Line) :
    shape (first ++ second) = shape first ++ shape second :=
  List.flatMap_append

@[simp] theorem shape_block (indent : ℕ) (name : String) (inner : List Line) :
    shape (block indent name inner) = .opens name.toList :: (shape inner ++ [.closes name.toList]) := by
  simp [block, Line.tags]

@[simp] theorem tags_element (indent : ℕ) (name : String) (content : Content) :
    (Line.element indent name content).tags = [.opens name.toList, .closes name.toList] := rfl

theorem shape_ite (condition : Prop) [Decidable condition] (first second : List Line) :
    shape (if condition then first else second) = if condition then shape first else shape second :=
  apply_ite shape condition first second

theorem shape_itemLines_bare (dto : CanonicalDocumentDto)
    (retention : Option CanonicalRetentionDto) (item : ProcessedLineItem) :
    shape (itemLines dto retention (bare item)) = shape (itemLines dto retention item) := by
  have described : (bare item).description ≠ "" ↔ item.description ≠ "" := by
    by_cases empty : item.description = "" <;> simp [bare, empty]
  simp only [itemLines, shape_block, shape_append, shape_cons, shape_nil, shape_ite, tags_element,
    described]
  rfl

theorem prorate_bare (docItbis docIsr sumAmounts : ℚ) (items : List ProcessedLineItem)
    (assignedItbis assignedIsr : ℚ) :
    (prorate docItbis docIsr sumAmounts assignedItbis assignedIsr items).map bare =
      prorate docItbis docIsr sumAmounts assignedItbis assignedIsr (items.map bare) := by
  induction items generalizing assignedItbis assignedIsr with
  | nil => rfl
  | cons item items ih =>
    simp only [prorate, List.map_cons, ih, List.isEmpty_map]
    rfl

theorem retainedItems_bare (retention : Option CanonicalRetentionDto)
    (items : List ProcessedLineItem) :
    (retainedItems retention items).map bare = retainedItems retention (items.map bare) := by
  have own : hasLineRetentions (items.map bare) = hasLineRetentions items := List.any_map
  have amounts : ((items.map bare).map (·.montoItemDop)).sum =
      (items.map (·.montoItemDop)).sum := by
    rw [List.map_map]
    rfl
  cases retention with
  | none => rfl
  | some retention =>
    simp only [retainedItems, own, amounts]
    split
    · rfl
    · exact prorate_bare _ _ _ _ _ _

section

variable {a b : CanonicalDocumentDto} (alike : Alike a b) (now : ℕ)

include alike

theorem Alike.itemLines (retention : Option CanonicalRetentionDto) (item : ProcessedLineItem) :
    shape (itemLines a retention item) = shape (itemLines b retention item) := by
  simp only [CanonicalBuilder.itemLines, otraMonedaDetalle, shape_block, shape_append, shape_cons,
    shape_nil, shape_ite, tags_element, alike.tipo, alike.isForeignCurrency]

theorem Alike.detallesItems : shape (detallesItems a) = shape (detallesItems b) := by
  have flat (dto : CanonicalDocumentDto) (retention : Option CanonicalRetentionDto)
      (items : List ProcessedLineItem) :
      shape (items.flatMap (CanonicalBuilder.itemLines dto retention)) =
        (items.map bare).flatMap fun item =>
          shape (CanonicalBuilder.itemLines dto retention item) := by
    rw [shape, List.flatMap_assoc, List.flatMap_map]
    exact congrArg (List.flatMap · items) (funext fun item =>
      (shape_itemLines_bare dto retention item).symm)
  rw [CanonicalBuilder.detallesItems, CanonicalBuilder.detallesItems, shape_block, shape_block,
    flat, flat, retainedItems_bare, retainedItems_bare, alike.processedItems, alike.totales,
    funext (alike.itemLines _)]

theorem Alike.idDoc (eNcf eNcf' : String) :
    shape (idDoc now a eNcf) = shape (idDoc now b eNcf') := by
  have tipoPago : tipoPagoVal a = tipoPagoVal b := by
    rw [tipoPagoVal, tipoPagoVal, alike.tipoPago]
  have ingresos : printsTipoIngresos a = printsTipoIngresos b := by
    rw [printsTipoIngresos, printsTipoIngresos, alike.tipo, alike.modifiesExpenseEcf]
  have limite : printsFechaLimitePago a = printsFechaLimitePago b := by
    simp only [printsFechaLimitePago, tipoPago, ne_eq, alike.fechaLimitePago]
  simp only [CanonicalBuilder.idDoc, idDocIn, shape_block, shape_append, shape_cons, shape_nil, shape_ite,
    tags_element, alike.tipo, alike.isPurelyExemptOrNonTaxable, ingresos, limite]

theorem Alike.compradorId : shape (compradorId a) = shape (compradorId b) := by
  have digits (dto : CanonicalDocumentDto) :
      ((cleanDigits dto.header.rncComprador).toList.length = 9 ∨
        (cleanDigits dto.header.rncComprador).toList.length = 11) ↔
      rncLength dto.header.rncComprador = true := by
    simp [rncLength]
  by_cases foreign : explicitForeignId b = ""
  · have foreign' := alike.identificadorExtranjero.mpr foreign
    simp only [CanonicalBuilder.compradorId, CanonicalBuilder.identificadorExtranjero, shape_ite,
      shape_cons, shape_nil, tags_element, digits, alike.rncDigits, alike.tipo, alike.rncAlpha, ne_eq,
      alike.rncComprador, alike.modifiesExport, foreign, foreign', not_true_eq_false, if_false]
  · have foreign' : ¬ explicitForeignId a = "" := fun h =>
      foreign (alike.identificadorExtranjero.mp h)
    simp only [CanonicalBuilder.compradorId, CanonicalBuilder.identificadorExtranjero, shape_ite,
      shape_cons, shape_nil, tags_element, digits, alike.rncDigits, alike.tipo, alike.rncAlpha, ne_eq,
      alike.rncComprador, alike.modifiesExport, foreign, foreign', not_false_eq_true, if_true]

theorem Alike.comprador : shape (comprador a) = shape (comprador b) := by
  simp only [CanonicalBuilder.comprador, shape_block, shape_append, shape_cons, shape_nil,
    shape_ite, tags_element, alike.tipo, alike.modifiesGastosMenores, alike.compradorId,
    alike.correoComprador]

theorem Alike.otraMoneda : shape (otraMoneda a) = shape (otraMoneda b) := by
  simp only [CanonicalBuilder.otraMoneda, shape_block, shape_append, shape_cons, shape_nil,
    shape_ite, tags_element, alike.isForeignCurrency, alike.totales]

theorem Alike.informacionReferencia :
    shape (informacionReferencia now a) = shape (informacionReferencia now b) := by
  have prints : printsReferencia a = printsReferencia b := by
    simp only [printsReferencia, alike.tipo, alike.codigoModificacion, ne_eq, alike.correctsENcf]
  cases codigo : b.references.codigoModificacion <;>
    simp only [CanonicalBuilder.informacionReferencia, prints, shape_block, shape_append,
      shape_cons, shape_nil, shape_ite, tags_element, alike.tipo, alike.codigoModificacion,
      codigo, ne_eq, alike.rncOtroContribuyente, alike.razonModificacion]

/-- **Documents that are alike have the same elements.** -/
theorem Alike.documentLines (eNcf eNcf' emisorRnc emisorRnc' razonSocial razonSocial' : String) :
    shape (documentLines now a eNcf emisorRnc razonSocial) =
      shape (documentLines now b eNcf' emisorRnc' razonSocial') := by
  simp only [documentLines_eq, encabezadoBlock_eq, emisor, totalesBlock, shape_block, shape_append,
    shape_cons, shape_nil, tags_element, alike.idDoc now eNcf eNcf',
    alike.comprador, alike.totales, alike.otraMoneda, alike.detallesItems,
    alike.informacionReferencia now]

end

end EcfDgii.AlikeDocuments
