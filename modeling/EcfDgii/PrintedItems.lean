import EcfDgii.CanonicalBuilder
import EcfDgii.NormalizedLines

/-!
The items of a document as they are printed, and the lines they come from.

Spreading a retention over the items leaves everything else of them alone
(`retainedItems_at`), so that an item is printed with the amounts it was worked
out with (`printed_item`).  The item of a line stays where the line put it, and
only the discount lines behind it change it (`item_of_line`).
-/

set_option autoImplicit false

namespace EcfDgii.PrintedItems

open EcfDgii.Text EcfDgii.Documents EcfDgii.Markup EcfDgii.XmlFormats EcfDgii.PrintedAmounts
open EcfDgii.PrintedTotals EcfDgii.CanonicalLines EcfDgii.CanonicalTotals EcfDgii.CanonicalBuilder
open EcfDgii.NormalizedLines EcfDgii.Rounding

/-! ## The lines of an item -/

theorem printed_money (name : String) (indent : ℕ) (amount : ℚ) :
    amountUnder name (money indent name amount) = cents .even amount := by
  rw [money, amountUnder_same, decimalValue_formatMoney2]

theorem printed_money_other {name n : String} (other : n ≠ name) (indent : ℕ) (amount : ℚ) :
    amountUnder name (money indent n amount) = 0 :=
  amountUnder_other other indent _

/-- The names under which an item prints what it sells, and for how much. -/
def saleNames : List String := ["CantidadItem", "PrecioUnitarioItem", "DescuentoMonto",
  "MontoItem", "MontoItemOtraMoneda", "IndicadorFacturacion"]

/-- A retention prints none of them. -/
theorem printed_lineRetencion_other {name : String} (sale : name ∈ saleNames) (tipo : String)
    (agente : ℤ) (item : ProcessedLineItem) :
    printed name (lineRetencion tipo agente item) = 0 := by
  simp only [saleNames, List.mem_cons, List.not_mem_nil, or_false] at sale
  rcases sale with rfl | rfl | rfl | rfl | rfl | rfl <;>
    simp only [lineRetencion, printed_ite, printed_block, printed_append, printed_cons,
      printed_nil, amountUnder_other, printed_money_other, ne_eq, String.reduceEq,
      not_false_eq_true, add_zero, ite_self]

variable (dto : CanonicalDocumentDto) (retention : Option CanonicalRetentionDto)
  (item : ProcessedLineItem)

theorem printed_cantidad :
    printed "CantidadItem" (itemLines dto retention item) = cents .even item.quantity := by
  cases retention <;> simp only [itemLines, descuento, otraMonedaDetalle, printed_block,
    printed_append, printed_lineRetencion_other (by decide : "CantidadItem" ∈ saleNames),
    printed_cons, printed_nil, printed_ite, amountUnder_other, amountUnder_same,
    decimalValue_formatQty2, printed_money_other, ne_eq, String.reduceEq, not_false_eq_true,
    add_zero, zero_add, ite_self]

theorem printed_precio :
    printed "PrecioUnitarioItem" (itemLines dto retention item) =
      nearest .even 10000 item.unitPriceDop := by
  cases retention <;> simp only [itemLines, descuento, otraMonedaDetalle, printed_block,
    printed_append, printed_lineRetencion_other (by decide : "PrecioUnitarioItem" ∈ saleNames),
    printed_cons, printed_nil, printed_ite, amountUnder_other, amountUnder_same,
    decimalValue_formatPrice4, printed_money_other, ne_eq, String.reduceEq, not_false_eq_true,
    add_zero, zero_add, ite_self]

theorem printed_descuento :
    printed "DescuentoMonto" (itemLines dto retention item) =
      if allowsDiscount (tipo dto) ∧ 0 < item.discountDop then cents .even item.discountDop else 0 := by
  cases retention <;> simp only [itemLines, descuento, otraMonedaDetalle, printed_block,
    printed_append, printed_lineRetencion_other (by decide : "DescuentoMonto" ∈ saleNames),
    printed_cons, printed_nil, printed_ite, amountUnder_other, printed_money, printed_money_other,
    ne_eq, String.reduceEq, not_false_eq_true, add_zero, zero_add, ite_self]

theorem printed_monto :
    printed "MontoItem" (itemLines dto retention item) = cents .even item.montoItemDop := by
  cases retention <;> simp only [itemLines, descuento, otraMonedaDetalle, printed_block,
    printed_append, printed_lineRetencion_other (by decide : "MontoItem" ∈ saleNames),
    printed_cons, printed_nil, printed_ite, amountUnder_other, printed_money, printed_money_other,
    ne_eq, String.reduceEq, not_false_eq_true, add_zero, zero_add, ite_self]

theorem printed_montoOtraMoneda (foreign : isForeignCurrency dto = true) :
    printed "MontoItemOtraMoneda" (itemLines dto retention item) =
      cents .even item.montoItemOtraMoneda := by
  cases retention <;> simp only [itemLines, descuento, otraMonedaDetalle, printed_block,
    printed_append, printed_lineRetencion_other (by decide : "MontoItemOtraMoneda" ∈ saleNames),
    printed_cons, printed_nil, printed_ite, amountUnder_other, printed_money, printed_money_other,
    ne_eq, String.reduceEq, not_false_eq_true, add_zero, zero_add, ite_self, foreign, if_true]

theorem printed_indicador :
    printed "IndicadorFacturacion" (itemLines dto retention item) =
      item.indicadorFacturacion := by
  cases retention <;> simp only [itemLines, descuento, otraMonedaDetalle, printed_block,
    printed_append, printed_lineRetencion_other (by decide : "IndicadorFacturacion" ∈ saleNames),
    printed_cons, printed_nil, printed_ite, amountUnder_other, amountUnder_same,
    decimalValue_decimalInt, printed_money_other, ne_eq, String.reduceEq, not_false_eq_true,
    add_zero, zero_add, ite_self]

/-! ## Where the items stand -/

theorem processedItems_ne_nil (dto : CanonicalDocumentDto) : processedItems dto ≠ [] := by
  unfold processedItems normalizeCanonicalLines
  split
  · simp
  · next nonempty =>
    intro nothing
    exact nonempty (List.map_eq_nil_iff.mp nothing)

/-- Prorating leaves every item where it is, and changes its retentions alone. -/
theorem prorate_at (docItbis docIsr total : ℚ) {items : List ProcessedLineItem} {k : ℕ}
    {found : ProcessedLineItem} (at_k : items[k]? = some found) (itbis isr : ℚ) :
    ∃ ownItbis ownIsr, (prorate docItbis docIsr total itbis isr items)[k]? =
      some { found with montoItbisRetenido := ownItbis, montoIsrRetenido := ownIsr } := by
  induction items generalizing k itbis isr with
  | nil => cases at_k
  | cons first rest ih =>
    cases k with
    | zero =>
      rw [List.getElem?_cons_zero] at at_k
      rw [← Option.some.inj at_k]
      exact ⟨_, _, rfl⟩
    | succ k => exact ih at_k _ _

/-- The items that are printed. -/
def printedItems : List ProcessedLineItem :=
  retainedItems (totales dto).retention (processedItems dto)

theorem printedItems_at {dto : CanonicalDocumentDto} {k : ℕ} {found : ProcessedLineItem}
    (at_k : (processedItems dto)[k]? = some found) :
    ∃ ownItbis ownIsr, (printedItems dto)[k]? =
      some { found with montoItbisRetenido := ownItbis, montoIsrRetenido := ownIsr } := by
  unfold printedItems retainedItems
  split
  · exact ⟨_, _, at_k⟩
  · split
    · exact ⟨_, _, at_k⟩
    · exact prorate_at _ _ _ at_k 0 0

theorem prorate_map {α : Type} (read : ProcessedLineItem → α)
    (same : ∀ item itbis isr, read { item with
      montoItbisRetenido := itbis
      montoIsrRetenido := isr } = read item)
    (docItbis docIsr total itbis isr : ℚ) (items : List ProcessedLineItem) :
    (prorate docItbis docIsr total itbis isr items).map read = items.map read := by
  induction items generalizing itbis isr with
  | nil => rfl
  | cons item items ih => rw [prorate, List.map_cons, List.map_cons, same, ih]

/-- What does not look at the retentions reads the same of the printed items. -/
theorem printedItems_map {α : Type} (read : ProcessedLineItem → α)
    (same : ∀ item itbis isr, read { item with
      montoItbisRetenido := itbis
      montoIsrRetenido := isr } = read item) :
    (printedItems dto).map read = (processedItems dto).map read := by
  unfold printedItems retainedItems
  split
  · rfl
  · split
    · rfl
    · exact prorate_map read same _ _ _ _ _ _

/-- What the printed items of an indicator amount to. -/
def printedUnder (indicador : ℤ) : ℚ :=
  ((printedItems dto).map fun item =>
    if printed "IndicadorFacturacion" (itemLines dto (totales dto).retention item) = indicador then
      printed "MontoItem" (itemLines dto (totales dto).retention item)
    else 0).sum

theorem printedUnder_eq (indicador : ℤ) :
    printedUnder dto indicador =
      ((itemsOf indicador (processedItems dto)).map fun item => cents .even item.montoItemDop).sum := by
  have own (item : ProcessedLineItem) :
      (if printed "IndicadorFacturacion" (itemLines dto (totales dto).retention item) = indicador
        then printed "MontoItem" (itemLines dto (totales dto).retention item) else 0) =
      if item.indicadorFacturacion = indicador then cents .even item.montoItemDop else 0 := by
    rw [printed_indicador, printed_monto]
    exact if_congr Int.cast_inj rfl rfl
  have sums (items : List ProcessedLineItem) :
      (items.map fun item =>
        if item.indicadorFacturacion = indicador then cents .even item.montoItemDop else 0).sum =
      ((itemsOf indicador items).map fun item => cents .even item.montoItemDop).sum := by
    induction items with
    | nil => rfl
    | cons item items ih =>
      by_cases among : item.indicadorFacturacion = indicador
      · simpa [itemsOf, among] using ih
      · simpa [itemsOf, among] using ih
  unfold printedUnder
  simp only [own]
  rw [printedItems_map dto (fun item =>
    if item.indicadorFacturacion = indicador then cents .even item.montoItemDop else 0)
    (fun _ _ _ => rfl), sums]

/-- What the document prints for an item. -/
def printedLines (k : ℕ) : Option (List Line) :=
  (printedItems dto)[k]?.map (itemLines dto (totales dto).retention)

/-! ## The item of a line -/

/-- Whether a line makes an item of its own. -/
def MakesItem (result : List ProcessedLineItem) (line : CanonicalLineDto) : Prop :=
  ¬((line.amount < 0 ∨ rawPrice line < 0) ∧ result.length ≠ 0) ∧
    ¬(lineAmount line ≤ 0 ∧ linePrice line ≤ 0)

/-- The discounts of the lines behind an item, up to the next line that makes
one. -/
def discountsOf : List CanonicalLineDto → List ℚ
  | [] => []
  | line :: rest =>
    if line.amount < 0 ∨ rawPrice line < 0 then absDiscount line :: discountsOf rest
    else if lineAmount line ≤ 0 ∧ linePrice line ≤ 0 then discountsOf rest
    else []

/-- An item after a discount. -/
def discounted (item : ProcessedLineItem) (discount : ℚ) : ProcessedLineItem :=
  { item with
    discountAmount := round2 (item.discountAmount + discount)
    montoItem := max 0 (round2 (item.montoItem - discount)) }

@[simp] theorem newItem_quantity (lineNumber : ℕ) (line : CanonicalLineDto) :
    (newItem lineNumber line).quantity = safeQty line := rfl

@[simp] theorem newItem_unitPrice (lineNumber : ℕ) (line : CanonicalLineDto) :
    (newItem lineNumber line).unitPrice = (lineFigures line).1 := rfl

@[simp] theorem newItem_montoItem (lineNumber : ℕ) (line : CanonicalLineDto) :
    (newItem lineNumber line).montoItem = (lineFigures line).2.1 := rfl

@[simp] theorem newItem_discountAmount (lineNumber : ℕ) (line : CanonicalLineDto) :
    (newItem lineNumber line).discountAmount = (lineFigures line).2.2 := rfl

/-- What a line does leaves every item but the last one alone. -/
theorem foldl_behind (lines : List CanonicalLineDto) (before : List ProcessedLineItem)
    {result : List ProcessedLineItem} (nonempty : result ≠ []) :
    ∃ rest, lines.foldl normalizeLine (before ++ result) = before ++ rest := by
  induction lines generalizing result with
  | nil => exact ⟨result, rfl⟩
  | cons line lines ih =>
    have step : ∃ next, next ≠ [] ∧ normalizeLine (before ++ result) line = before ++ next := by
      induction result using List.reverseRecOn with
      | nil => exact absurd rfl nonempty
      | append_singleton result last =>
        rw [normalizeLine, ← List.append_assoc, discountLast_concat]
        split_ifs
        · exact ⟨_, by simp, List.append_assoc _ _ _⟩
        · exact ⟨_, by simp, List.append_assoc _ _ _⟩
        · exact ⟨result ++ [last] ++ [newItem ((before ++ result ++ [last]).length + 1) line],
            by simp, by simp⟩
    obtain ⟨next, some, stepped⟩ := step
    rw [List.foldl_cons, stepped]
    exact ih some

/-- The last item of some takes the discounts of the lines behind it, and stays
where it is. -/
theorem foldl_discounts (lines : List CanonicalLineDto) (before : List ProcessedLineItem)
    (item : ProcessedLineItem) :
    ∃ rest, lines.foldl normalizeLine (before ++ [item]) =
      before ++ (discountsOf lines).foldl discounted item :: rest := by
  induction lines generalizing item with
  | nil => exact ⟨[], rfl⟩
  | cons line lines ih =>
    rw [List.foldl_cons, normalizeLine, discountsOf]
    by_cases discounts : line.amount < 0 ∨ rawPrice line < 0
    · rw [if_pos ⟨discounts, by simp⟩, if_pos discounts, discountLast_concat, List.foldl_cons]
      exact ih (discounted item (absDiscount line))
    · rw [if_neg fun h => discounts h.1, if_neg discounts]
      by_cases worthless : lineAmount line ≤ 0 ∧ linePrice line ≤ 0
      · rw [if_pos worthless, if_pos worthless]
        exact ih item
      · rw [if_neg worthless, if_neg worthless, List.foldl_nil]
        obtain ⟨rest, behind⟩ := foldl_behind lines (before ++ [item])
          (List.cons_ne_nil (newItem ((before ++ [item]).length + 1) line) [])
        rw [behind, List.append_assoc]
        exact ⟨rest, rfl⟩

/-- **The item of a line stands where the line put it, less the discounts behind
it.** -/
theorem item_of_line {before after : List CanonicalLineDto} {line : CanonicalLineDto}
    (own : MakesItem (before.foldl normalizeLine []) line) (defaultTotal : ℚ) :
    (normalizeCanonicalLines (before ++ line :: after) defaultTotal)[
        (before.foldl normalizeLine []).length]? =
      some ((discountsOf after).foldl discounted
        (newItem ((before.foldl normalizeLine []).length + 1) line)) := by
  have added : normalizeLine (before.foldl normalizeLine []) line =
      before.foldl normalizeLine [] ++
        [newItem ((before.foldl normalizeLine []).length + 1) line] := by
    rw [normalizeLine, if_neg own.1, if_neg own.2]
  have all : (before ++ line :: after).foldl normalizeLine [] =
      after.foldl normalizeLine (before.foldl normalizeLine [] ++
        [newItem ((before.foldl normalizeLine []).length + 1) line]) := by
    rw [List.foldl_append, List.foldl_cons, added]
  obtain ⟨rest, items⟩ := foldl_discounts after (before.foldl normalizeLine [])
    (newItem ((before.foldl normalizeLine []).length + 1) line)
  unfold normalizeCanonicalLines
  rw [all, items]
  split
  · next nothing => simp at nothing
  · rw [List.getElem?_append_right le_rfl, Nat.sub_self, List.getElem?_cons_zero]

end EcfDgii.PrintedItems
