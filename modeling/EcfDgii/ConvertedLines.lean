import EcfDgii.PrintedItems

/-!
The items of a document in another currency, in pesos.

The amount in pesos of an item is worked out from its price and its discount,
each converted and rounded, and of one unit without a discount from its amount.
`line_converts_iff` says when it is the amount in the other currency, converted,
to what five roundings may add up to: always, but for the types that print no
discount, whose discounts are taken off one amount and not off the other.
-/

set_option autoImplicit false

namespace EcfDgii.ConvertedLines

open EcfDgii.Text EcfDgii.Documents EcfDgii.Markup EcfDgii.XmlFormats EcfDgii.Rounding
open EcfDgii.PrintedAmounts EcfDgii.PrintedTotals EcfDgii.CanonicalLines EcfDgii.CanonicalTotals
open EcfDgii.CanonicalBuilder EcfDgii.NormalizedLines EcfDgii.PrintedItems

/-- An item whose amount is what its quantity and price come to, less its
discount, in whole centavos. -/
structure Normalised (item : ProcessedLineItem) : Prop where
  quantity_pos : 0 < item.quantity
  quantity_centavos : Centavos item.quantity
  price_nonneg : 0 ≤ item.unitPrice
  price_grid : OnGrid 10000 item.unitPrice
  discount_nonneg : 0 ≤ item.discountAmount
  discount_centavos : Centavos item.discountAmount
  discount_le : item.discountAmount ≤ round2 (item.quantity * item.unitPrice)
  monto_eq : item.montoItem = round2 (item.quantity * item.unitPrice) - item.discountAmount

/-- What the roundings may add up to. -/
def tolerance (rate quantity : ℚ) : ℚ := 5 / 1000 * rate + 5 / 100000 * quantity + 15 / 1000

/-- The gross amount of an item, from its converted price. -/
def grossDop (rate : ℚ) (item : ProcessedLineItem) : ℚ :=
  round2 (item.quantity * round4 (item.unitPrice * rate))

/-- What the conversion of the gross amount loses. -/
def drift (rate : ℚ) (item : ProcessedLineItem) : ℚ :=
  grossDop rate item - rate * round2 (item.quantity * item.unitPrice)

/-! ## Error bounds -/

theorem abs_round4_sub (value : ℚ) : |round4 value - value| ≤ 1 / 20000 := by
  have close : |nearest .away 10000 value - value| ≤ 1 / (2 * (10000 : ℕ)) :=
    abs_nearest_sub (by decide) value
  rw [round4_eq]
  norm_num at close ⊢
  exact close

/-- The conversion of the gross amount loses three roundings. -/
theorem abs_drift_le {rate : ℚ} (nonneg : 0 ≤ rate) {item : ProcessedLineItem}
    (normal : Normalised item) :
    |drift rate item| ≤ tolerance rate item.quantity - 1 / 100 := by
  have price := abs_le.mp (abs_round4_sub (item.unitPrice * rate))
  have gross := abs_le.mp (abs_round2_sub (item.quantity * item.unitPrice))
  have dop := abs_le.mp
    (abs_round2_sub (item.quantity * round4 (item.unitPrice * rate)))
  have priced : |item.quantity * round4 (item.unitPrice * rate) -
      item.quantity * (item.unitPrice * rate)| ≤ item.quantity * (1 / 20000) := by
    rw [← mul_sub, abs_mul, abs_of_pos normal.quantity_pos]
    exact mul_le_mul_of_nonneg_left (abs_round4_sub _) normal.quantity_pos.le
  have converted : |rate * round2 (item.quantity * item.unitPrice) -
      rate * (item.quantity * item.unitPrice)| ≤ rate * (1 / 200) := by
    rw [← mul_sub, abs_mul, abs_of_nonneg nonneg]
    exact mul_le_mul_of_nonneg_left (abs_round2_sub _) nonneg
  have pricedBounds := abs_le.mp priced
  have convertedBounds := abs_le.mp converted
  have same : item.quantity * (item.unitPrice * rate) =
      rate * (item.quantity * item.unitPrice) := by ring
  rw [drift, grossDop, tolerance, abs_le]
  constructor
  · linarith [pricedBounds.1, convertedBounds.2, dop.1]
  · linarith [pricedBounds.2, convertedBounds.1, dop.2]

variable {dto : CanonicalDocumentDto} {item : ProcessedLineItem}

theorem Normalised.monto_centavos (normal : Normalised item) : Centavos item.montoItem := by
  rw [normal.monto_eq]
  exact (centavos_round2 _).sub normal.discount_centavos

theorem Normalised.monto_nonneg (normal : Normalised item) : 0 ≤ item.montoItem := by
  rw [normal.monto_eq]
  exact sub_nonneg.mpr normal.discount_le

/-- A quantity on the grid next to one is one. -/
theorem Normalised.single_iff (normal : Normalised item) :
    |item.quantity - 1| < 1 / 1000000000 ↔ item.quantity = 1 := by
  constructor
  · intro close
    have one : Centavos (1 : ℚ) := ⟨100, by norm_num⟩
    have bounds := abs_lt.mp close
    apply le_antisymm
    · by_contra above
      have step := OnGrid.step one normal.quantity_centavos (not_le.mp above)
      norm_num at step
      linarith [bounds.2]
    · by_contra below
      have step := OnGrid.step normal.quantity_centavos one (not_le.mp below)
      norm_num at step
      linarith [bounds.1]
  · intro same
    rw [same, sub_self, abs_zero]
    norm_num

/-- Types that print their discounts convert them. -/
theorem abs_convertedDiscount_sub (normal : Normalised item)
    (allowed : allowsDiscount (tipo dto) = true) :
    |convertedDiscount dto item - exchangeRate dto * item.discountAmount| ≤ 1 / 200 := by
  unfold convertedDiscount
  simp only [allowed, true_and, normal.discount_centavos.round2]
  by_cases some : 0 < item.discountAmount
  · rw [if_pos some, if_pos some, mul_comm (exchangeRate dto)]
    exact abs_round2_sub _
  · have none : item.discountAmount = 0 := le_antisymm (not_lt.mp some) normal.discount_nonneg
    rw [if_neg some, if_neg (lt_irrefl 0), none]
    norm_num

/-- Types that print no discount take none off. -/
theorem convertedDiscount_suppressed (suppressed : allowsDiscount (tipo dto) = false) :
    convertedDiscount dto item = 0 := by
  simp [convertedDiscount, suppressed]

theorem convertedMonto_of_single (normal : Normalised item)
    (single : item.quantity = 1 ∧ convertedDiscount dto item = 0) :
    convertedMonto dto item = round2 (item.montoItem * exchangeRate dto) := by
  rw [convertedMonto, if_pos ⟨normal.single_iff.mpr single.1, single.2⟩,
    normal.monto_centavos.round2]

theorem convertedMonto_of_priced (normal : Normalised item)
    (priced : ¬(item.quantity = 1 ∧ convertedDiscount dto item = 0)) :
    convertedMonto dto item =
      max 0 (grossDop (exchangeRate dto) item - convertedDiscount dto item) := by
  have cents : Centavos (grossDop (exchangeRate dto) item - convertedDiscount dto item) := by
    refine (centavos_round2 _).sub ?_
    unfold convertedDiscount
    dsimp only
    split_ifs
    · exact centavos_round2 _
    · exact centavos_zero
    · exact centavos_round2 _
    · exact centavos_zero
  have same : round4 item.unitPrice = item.unitPrice := by
    rw [round4_eq]
    exact normal.price_grid.nearest (by decide)
  rw [convertedMonto, if_neg fun h => priced ⟨normal.single_iff.mp h.1, h.2⟩, same]
  exact congrArg (max 0) cents.round2

/-! ## Amounts in both currencies -/

/-- Whether the amount in pesos is the amount in the other currency, converted. -/
def Converts (rate quantity monto montoOtra : ℚ) : Prop :=
  |monto - rate * montoOtra| ≤ tolerance rate quantity

theorem tolerance_pos {rate quantity : ℚ} (nonneg : 0 ≤ rate) (pos : 0 < quantity) :
    15 / 1000 < tolerance rate quantity := by
  have share := mul_nonneg (by norm_num : (0 : ℚ) ≤ 5 / 1000) nonneg
  unfold tolerance
  linarith

/-- One unit without a discount is converted once. -/
theorem converts_single (normal : Normalised item) (monto : ℚ) :
    Converts (exchangeRate dto) item.quantity (round2 (monto * exchangeRate dto)) monto := by
  have close := abs_round2_sub (monto * exchangeRate dto)
  have wide := tolerance_pos (exchangeRate_nonneg dto) normal.quantity_pos
  rw [Converts, mul_comm (exchangeRate dto)]
  linarith

/-- An amount next to one that is not negative is not made worse by a clamp. -/
theorem abs_max_sub_le {value target bound : ℚ} (nonneg : 0 ≤ target)
    (close : |value - target| ≤ bound) : |max 0 value - target| ≤ bound := by
  have bounds := abs_le.mp close
  rcases le_total 0 value with high | low
  · rwa [max_eq_right high]
  · rw [max_eq_left low]
    exact abs_le.mpr ⟨by linarith, by linarith⟩

/-- Types that print their discounts convert every item. -/
theorem converts_allowed (normal : Normalised item) (allowed : allowsDiscount (tipo dto) = true) :
    Converts (exchangeRate dto) item.quantity (convertedMonto dto item) item.montoItem := by
  by_cases single : item.quantity = 1 ∧ convertedDiscount dto item = 0
  · rw [convertedMonto_of_single normal single]
    exact converts_single normal _
  · rw [convertedMonto_of_priced normal single]
    have gross := abs_le.mp (abs_drift_le (exchangeRate_nonneg dto) normal)
    have discount := abs_le.mp (abs_convertedDiscount_sub normal allowed)
    apply abs_max_sub_le
    · exact mul_nonneg (exchangeRate_nonneg dto) normal.monto_nonneg
    · rw [normal.monto_eq, mul_sub, abs_le]
      unfold drift at gross
      constructor
      · linarith [gross.1, discount.2]
      · linarith [gross.2, discount.1]

/-- Types that print no discount convert an item of several units when its
discount is within what the roundings leave of the tolerance. -/
theorem converts_suppressed_iff (normal : Normalised item)
    (suppressed : allowsDiscount (tipo dto) = false) (several : item.quantity ≠ 1) :
    Converts (exchangeRate dto) item.quantity (convertedMonto dto item) item.montoItem ↔
      exchangeRate dto * item.discountAmount ≤
        tolerance (exchangeRate dto) item.quantity - drift (exchangeRate dto) item := by
  have nonneg : 0 ≤ grossDop (exchangeRate dto) item := by
    have price : 0 ≤ round4 (item.unitPrice * exchangeRate dto) :=
      round4_nonneg (mul_nonneg normal.price_nonneg (exchangeRate_nonneg dto))
    exact round2_nonneg (mul_nonneg normal.quantity_pos.le price)
  have gross := abs_le.mp (abs_drift_le (exchangeRate_nonneg dto) normal)
  have taken := mul_nonneg (exchangeRate_nonneg dto) normal.discount_nonneg
  rw [convertedMonto_of_priced normal fun h => several h.1, convertedDiscount_suppressed suppressed,
    sub_zero, max_eq_right nonneg, Converts, normal.monto_eq, mul_sub, abs_le]
  unfold drift at gross ⊢
  constructor
  · rintro ⟨-, most⟩
    linarith
  · intro most
    constructor
    · linarith [gross.1]
    · linarith

/-- **The amounts of an item in the two currencies agree, to the roundings, unless
its type prints no discount, its units are several and its discount is more than the
roundings leave of the tolerance.** -/
theorem line_converts_iff (foreign : isForeignCurrency dto = true) {k : ℕ}
    (normalised : (normalizeCanonicalLines dto.lines (fallbackLineDefault dto))[k]? = some item)
    (normal : Normalised item) :
    ∃ lines, printedLines dto k = some lines ∧
      (Converts (exchangeRate dto) item.quantity (printed "MontoItem" lines)
          (printed "MontoItemOtraMoneda" lines) ↔
        (allowsDiscount (tipo dto) = true ∨ item.quantity = 1 ∨
          exchangeRate dto * item.discountAmount ≤
            tolerance (exchangeRate dto) item.quantity - drift (exchangeRate dto) item)) := by
  have processed := congrArg (Option.map (convertItem dto)) normalised
  rw [← List.getElem?_map] at processed
  obtain ⟨itbis, isr, found⟩ := printedItems_at processed
  refine ⟨_, by rw [printedLines, found, Option.map_some], ?_⟩
  obtain ⟨dop, otra⟩ := convertItem_foreign foreign item
  have montoCents : Centavos (convertedMonto dto item) := by
    unfold convertedMonto
    split
    · exact centavos_round2 _
    · exact centavos_zero.max (centavos_round2 _)
  rw [printed_monto, printed_montoOtraMoneda _ _ _ foreign]
  dsimp only
  rw [dop, otra, montoCents.cents, normal.monto_centavos.round2, normal.monto_centavos.cents]
  cases allowed : allowsDiscount (tipo dto) with
  | true =>
    simp only [true_or, iff_true]
    exact converts_allowed normal allowed
  | false =>
    simp only [Bool.false_eq_true, false_or]
    by_cases single : item.quantity = 1
    · simp only [single, true_or, iff_true]
      have converts := @converts_single dto item normal item.montoItem
      rw [convertedMonto_of_single normal ⟨single, convertedDiscount_suppressed allowed⟩]
      rwa [single] at converts
    · simp only [single, false_or]
      exact converts_suppressed_iff normal allowed single

/-- Two at 100.00 dollars, less 50.00. -/
def dollarLine : CanonicalLineDto where
  itemName := "Servicio"
  quantity := 2
  unitPrice := 100
  discountAmount := 50
  amount := 150

/-- A document of that line, at 60 pesos a dollar. -/
def dollarInvoice (tipoComprobante : String) : CanonicalDocumentDto where
  sourceReference := { txnId := "T1" }
  tipoComprobante := tipoComprobante
  header := { rncComprador := "131880681" }
  lines := [dollarLine]
  totals := { montoSubtotal := 150, montoTotal := 150 }
  currency := some { code := "USD", exchangeRate := 60 }

theorem normalised_dollarItem : Normalised (newItem 1 dollarLine) where
  quantity_pos := by decide +kernel
  quantity_centavos := ⟨200, by decide +kernel⟩
  price_nonneg := by decide +kernel
  price_grid := ⟨1000000, by decide +kernel⟩
  discount_nonneg := by decide +kernel
  discount_centavos := ⟨5000, by decide +kernel⟩
  discount_le := by decide +kernel
  monto_eq := by decide +kernel

theorem dollarInvoice_at (tipoComprobante : String) :
    (normalizeCanonicalLines (dollarInvoice tipoComprobante).lines
      (fallbackLineDefault (dollarInvoice tipoComprobante)))[0]? = some (newItem 1 dollarLine) := by
  have own : MakesItem ([].foldl normalizeLine []) dollarLine := by
    unfold MakesItem
    decide +kernel
  exact @item_of_line [] [] dollarLine own _

/-- An invoice in dollars agrees with itself in pesos. -/
theorem dollar_invoice_converts :
    ∃ lines, printedLines (dollarInvoice "E31") 0 = some lines ∧
      Converts (exchangeRate (dollarInvoice "E31")) (newItem 1 dollarLine).quantity
        (printed "MontoItem" lines) (printed "MontoItemOtraMoneda" lines) := by
  obtain ⟨lines, found, converts⟩ := line_converts_iff (by decide +kernel) (dollarInvoice_at "E31")
    normalised_dollarItem
  exact ⟨lines, found, converts.mpr (.inl (by decide))⟩

/-- A payment abroad of 150.00 dollars at 60.00 is 12 000.00 pesos, and not
9 000.00. -/
theorem dollar_payment_not_converted :
    ¬ ∀ (dto : CanonicalDocumentDto) (item : ProcessedLineItem) (k : ℕ),
      isForeignCurrency dto = true → 0 < exchangeRate dto →
      (normalizeCanonicalLines dto.lines (fallbackLineDefault dto))[k]? = some item →
      Normalised item → ∃ lines, printedLines dto k = some lines ∧
        Converts (exchangeRate dto) item.quantity (printed "MontoItem" lines)
          (printed "MontoItemOtraMoneda" lines) := by
  intro converts
  obtain ⟨lines, found, close⟩ := converts (dollarInvoice "E47") _ 0 (by decide +kernel)
    (by decide +kernel) (dollarInvoice_at "E47") normalised_dollarItem
  have figures : ((printedLines (dollarInvoice "E47") 0).any fun lines =>
      decide (|printed "MontoItem" lines - 60 * printed "MontoItemOtraMoneda" lines| ≤ 1)) =
        false := by
    decide +kernel
  have rate : exchangeRate (dollarInvoice "E47") = 60 := by decide +kernel
  have quantity : (newItem 1 dollarLine).quantity = 2 := by decide +kernel
  rw [found] at figures
  simp only [Option.any_some, decide_eq_false_iff_not] at figures
  rw [Converts, tolerance, rate, quantity] at close
  norm_num at close
  linarith [not_le.mp figures]

end EcfDgii.ConvertedLines
