import EcfDgii.PrintedItems

/-!
Whether a printed item squares: quantity times price, less the discount, is the
amount, to five centavos.

The builder rounds the quantity of a line to two decimals and its price to four,
and keeps the amount of the line when it is not what the two come to.
`line_squares_iff` says which items of a document in pesos square: those whose
amount, on the rounded figures, is the gross or the net one.  Types that print
no discount, and items that discount lines are folded into, are cases of their
own: a folded discount is printed in full, while `leftover_eq` says that only
what is there is taken off the amount, and half a centavo less.
-/

set_option autoImplicit false

namespace EcfDgii.SquaredLines

open EcfDgii.Text EcfDgii.Documents EcfDgii.Markup EcfDgii.XmlFormats EcfDgii.Rounding
open EcfDgii.PrintedAmounts EcfDgii.PrintedTotals EcfDgii.CanonicalLines EcfDgii.CanonicalTotals
open EcfDgii.CanonicalBuilder EcfDgii.NormalizedLines EcfDgii.PrintedItems

/-! ## The figures of a line, rounded -/

/-- Quantity times price. -/
def gross (line : CanonicalLineDto) : ℚ := round2 (safeQty line * safePrice line)

/-- `calcWithDiscount`. -/
def net (line : CanonicalLineDto) : ℚ :=
  round2 (safePrice line * safeQty line - incomingDiscount line)

/-- The amount is the net one. -/
def IsNet (line : CanonicalLineDto) : Prop := |safeAmount line - net line| ≤ 5 / 100

/-- The amount is the gross one. -/
def IsGross (line : CanonicalLineDto) : Prop := |safeAmount line - gross line| ≤ 5 / 100

/-- Whether a gross price gives amount and discount. -/
def Fits (line : CanonicalLineDto) (price : ℚ) : Prop :=
  |round2 (safeQty line * price) - incomingDiscount line - safeAmount line| ≤ 1 / 100

instance (line : CanonicalLineDto) : Decidable (IsNet line) := inferInstanceAs (Decidable (_ ≤ _))

instance (line : CanonicalLineDto) : Decidable (IsGross line) := inferInstanceAs (Decidable (_ ≤ _))

instance (line : CanonicalLineDto) (price : ℚ) : Decidable (Fits line price) :=
  inferInstanceAs (Decidable (_ ≤ _))

/-- The gross price of a line whose price and amount are net of its discount. -/
def grossPrice (line : CanonicalLineDto) : Option ℚ :=
  let whole := (safeAmount line + incomingDiscount line) / safeQty line
  if Fits line (round2 whole) then some (round2 whole)
  else if Fits line (round4 whole) then some (round4 whole)
  else none

/-- A line that sells a quantity at a price, less a discount. -/
structure Sold (line : CanonicalLineDto) : Prop where
  quantity_pos : 0 < line.quantity
  price_nonneg : 0 ≤ line.unitPrice
  discount_nonneg : 0 ≤ line.discountAmount
  discount_le : line.discountAmount ≤ round2 (line.quantity * line.unitPrice)
  amount_eq : line.amount = round2 (line.quantity * line.unitPrice - line.discountAmount)

theorem safeQty_nonneg (line : CanonicalLineDto) : 0 ≤ safeQty line := by
  unfold safeQty
  split
  · next pos => exact round2_nonneg pos.le
  · exact zero_le_one

theorem centavos_safeQty (line : CanonicalLineDto) : Centavos (safeQty line) := by
  unfold safeQty
  split
  · exact centavos_round2 _
  · exact ⟨100, by norm_num⟩

theorem incomingDiscount_nonneg (line : CanonicalLineDto) : 0 ≤ incomingDiscount line := by
  unfold incomingDiscount
  split
  · exact le_max_left 0 _
  · exact le_rfl

theorem centavos_incomingDiscount (line : CanonicalLineDto) : Centavos (incomingDiscount line) := by
  unfold incomingDiscount
  split
  · exact centavos_zero.max (centavos_round2 _)
  · exact centavos_zero

theorem gross_nonneg (line : CanonicalLineDto) : 0 ≤ gross line :=
  round2_nonneg (mul_nonneg (safeQty_nonneg line) (safePrice_nonneg line))

theorem onGrid_round4 (value : ℚ) : OnGrid 10000 (round4 value) := by
  rw [round4_eq]
  exact onGrid_nearest .away 10000 value

theorem onGrid_of_centavos {value : ℚ} (cents : Centavos value) : OnGrid 10000 value := by
  obtain ⟨k, rfl⟩ := cents
  refine ⟨k * 100, ?_⟩
  push_cast
  ring

theorem onGrid_safePrice (line : CanonicalLineDto) : OnGrid 10000 (safePrice line) :=
  OnGrid.zero.max (onGrid_round4 _)

/-! ## Lines that come to nothing -/

theorem Sold.price_pos {line : CanonicalLineDto} (sold : Sold line)
    (worth : ¬(lineAmount line ≤ 0 ∧ linePrice line ≤ 0)) : 0 < line.unitPrice := by
  by_contra low
  have free : line.unitPrice = 0 := le_antisymm (not_lt.mp low) sold.price_nonneg
  have discount : line.discountAmount = 0 := by
    have most := sold.discount_le
    rw [free, mul_zero, round2_zero] at most
    exact le_antisymm most sold.discount_nonneg
  have nothing : line.amount = 0 := by
    rw [sold.amount_eq, free, discount, mul_zero, sub_zero, round2_zero]
  apply worth
  simp [lineAmount, linePrice, rawPrice, sold.quantity_pos, free, nothing]

/-- A line of less than half a centavo has no discount, and its rounded figures
come to next to nothing. -/
theorem Sold.isNet_of_nothing {line : CanonicalLineDto} (sold : Sold line)
    (price : 0 < line.unitPrice) (nothing : safeAmount line = 0) :
    incomingDiscount line = 0 ∧ gross line ≤ 5 / 100 := by
  have rawPrice_eq : rawPrice line = line.unitPrice := if_pos sold.quantity_pos
  have rawQty_eq : rawQty line = line.quantity := if_pos sold.quantity_pos
  have low : round2 (lineAmount line) ≤ 0 := by
    rw [← nothing]
    exact le_max_right 0 _
  have product : round2 (line.quantity * line.unitPrice) = 0 := by
    rw [lineAmount, rawPrice_eq, rawQty_eq] at low
    split at low
    · rw [mul_comm]
      exact le_antisymm low (round2_nonneg (mul_nonneg price.le sold.quantity_pos.le))
    · next some =>
      rw [sold.amount_eq, (centavos_round2 _).round2, ← sold.amount_eq] at low
      exact absurd ⟨low, price⟩ some
  have undiscounted : line.discountAmount = 0 :=
    le_antisymm (product ▸ sold.discount_le) sold.discount_nonneg
  constructor
  · rw [incomingDiscount, undiscounted]
    exact if_neg (lt_irrefl 0)
  · have small : line.quantity * line.unitPrice ≤ 1 / 200 := by
      have close := abs_le.mp (abs_round2_sub (line.quantity * line.unitPrice))
      rw [product] at close
      linarith [close.1]
    have qty : safeQty line ≤ 2 * line.quantity := by
      rw [safeQty, rawQty_eq, if_pos sold.quantity_pos, round2_eq]
      exact nearest_le_two_mul (by decide) sold.quantity_pos.le
    have unit : safePrice line ≤ 2 * line.unitPrice := by
      rw [safePrice, linePrice, rawPrice_eq, if_neg fun h => absurd price (not_lt.mpr h.2)]
      refine max_le (by linarith) ?_
      rw [round4_eq]
      exact nearest_le_two_mul (by decide) price.le
    have both : safeQty line * safePrice line ≤ 2 * line.quantity * (2 * line.unitPrice) :=
      mul_le_mul qty unit (safePrice_nonneg line) (by linarith [sold.quantity_pos])
    have close := abs_le.mp (abs_round2_sub (safeQty line * safePrice line))
    rw [gross]
    linarith [close.2]

/-! ## The figures of the item -/

theorem net_of_undiscounted {line : CanonicalLineDto} (undiscounted : incomingDiscount line = 0) :
    net line = gross line := by
  rw [net, gross, undiscounted, sub_zero, mul_comm]

/-- What the item of a line prints: its own figures when the amount is the net
one, a gross price when it is the gross one, and no discount otherwise. -/
theorem Sold.lineFigures_eq {line : CanonicalLineDto} (sold : Sold line)
    (price : 0 < line.unitPrice) :
    lineFigures line =
      if IsNet line then (safePrice line, max 0 (net line), incomingDiscount line)
      else if IsGross line ∧ 0 < safeQty line then
        match grossPrice line with
        | some whole => (whole, safeAmount line, incomingDiscount line)
        | none => (safePrice line, safeAmount line, 0)
      else (safePrice line, safeAmount line, 0) := by
  have nothing : safeAmount line = 0 → incomingDiscount line = 0 ∧ gross line ≤ 5 / 100 :=
    sold.isNet_of_nothing price
  by_cases discounted : 0 < incomingDiscount line
  · have some : ¬(safeAmount line = 0 ∧ 0 < safePrice line) := fun h =>
      absurd discounted (not_lt.mpr (nothing h.1).1.le)
    show (if 0 < incomingDiscount line then discountedLine (safeQty line) (safePrice line)
      (safeAmount line) (incomingDiscount line) else _) = _
    rw [if_pos discounted, discountedLine]
    dsimp only
    rw [if_neg some, abs_sub_comm (round2 (safeQty line * safePrice line))]
    refine if_congr Iff.rfl rfl ?_
    refine if_congr Iff.rfl ?_ rfl
    unfold grossPrice
    dsimp only
    by_cases two : Fits line (round2 ((safeAmount line + incomingDiscount line) / safeQty line))
    · rw [if_pos two]
      exact if_pos two
    · rw [if_neg two]
      refine (if_neg two).trans ?_
      by_cases four : Fits line (round4 ((safeAmount line + incomingDiscount line) / safeQty line))
      · rw [if_pos four]
        exact if_pos four
      · rw [if_neg four]
        exact if_neg four
  · have undiscounted : incomingDiscount line = 0 :=
      le_antisymm (not_lt.mp discounted) (incomingDiscount_nonneg line)
    have calculated : max 0 (round2 (safePrice line * safeQty line)) = gross line := by
      rw [mul_comm]
      exact max_eq_right (gross_nonneg line)
    have netMonto : max 0 (net line) = gross line := by
      rw [net_of_undiscounted undiscounted]
      exact max_eq_right (gross_nonneg line)
    show (if 0 < incomingDiscount line then _ else (safePrice line,
      undiscountedAmount (safeQty line) (safePrice line) (safeAmount line), (0 : ℚ))) = _
    rw [if_neg discounted, undiscountedAmount, calculated]
    by_cases isNet : IsNet line
    · rw [if_pos isNet, netMonto, undiscounted]
      rw [IsNet, net_of_undiscounted undiscounted] at isNet
      rw [if_pos isNet, ite_self]
    · have notGross : ¬(IsGross line ∧ 0 < safeQty line) := by
        rintro ⟨isGross, -⟩
        rw [IsNet, net_of_undiscounted undiscounted] at isNet
        exact isNet isGross
      have some : ¬(safeAmount line = 0 ∧ 0 < safePrice line) := by
        rintro ⟨zero, -⟩
        apply isNet
        have small := (nothing zero).2
        rw [IsNet, net_of_undiscounted undiscounted, zero, zero_sub, abs_neg,
          abs_of_nonneg (gross_nonneg line)]
        exact small
      rw [if_neg isNet, if_neg notGross]
      rw [IsNet, net_of_undiscounted undiscounted] at isNet
      rw [if_neg some, if_neg isNet]

/-! ## Discount lines behind an item -/

/-- What discounts leave of an amount. -/
def leftover (monto : ℚ) (discounts : List ℚ) : ℚ :=
  discounts.foldl (fun left discount => max 0 (round2 (left - discount))) monto

theorem absDiscount_nonneg (line : CanonicalLineDto) : 0 ≤ absDiscount line := abs_nonneg _

theorem discountsOf_nonneg (lines : List CanonicalLineDto) :
    ∀ discount ∈ discountsOf lines, 0 ≤ discount := by
  induction lines with
  | nil => simp [discountsOf]
  | cons line lines ih =>
    rw [discountsOf]
    split_ifs
    · intro discount member
      rcases List.mem_cons.mp member with rfl | later
      · exact absDiscount_nonneg line
      · exact ih discount later
    · exact ih
    · simp

/-- Discounts change discount and amount of an item, and nothing else. -/
theorem foldl_discounted (discounts : List ℚ) (nonneg : ∀ discount ∈ discounts, 0 ≤ discount)
    {item : ProcessedLineItem} (cents : Centavos item.discountAmount)
    (low : 0 ≤ item.discountAmount) :
    discounts.foldl discounted item = { item with
      discountAmount := item.discountAmount + (discounts.map round2).sum
      montoItem := leftover item.montoItem discounts } := by
  induction discounts generalizing item with
  | nil => simp [leftover]
  | cons discount discounts ih =>
    have first := nonneg discount List.mem_cons_self
    have added : round2 (item.discountAmount + discount) = item.discountAmount + round2 discount := by
      rw [add_comm, round2_add cents first (by linarith), add_comm]
    rw [List.foldl_cons, ih (fun d h => nonneg d (List.mem_cons_of_mem discount h))
      (centavos_round2 _) (round2_nonneg (add_nonneg low first))]
    simp only [discounted, added, List.map_cons, List.sum_cons, leftover, List.foldl_cons,
      add_assoc]

theorem centavos_leftover {monto : ℚ} (cents : Centavos monto) (discounts : List ℚ) :
    Centavos (leftover monto discounts) := by
  unfold leftover
  induction discounts generalizing monto with
  | nil => exact cents
  | cons discount discounts ih => exact ih (centavos_zero.max (centavos_round2 _))

/-- A discount of a number of centavos and a half. -/
def HalfCentavo (discount : ℚ) : Prop := Int.fract (discount * 100) = 1 / 2

instance (discount : ℚ) : Decidable (HalfCentavo discount) := inferInstanceAs (Decidable (_ = _))

/-- What a discount takes off an amount that covers it: the discount in centavos,
halves downwards. -/
def takes (discount : ℚ) : ℚ := halfDown (discount * 100) / 100

/-- What discounts take off an amount that covers them. -/
def takenOff (discounts : List ℚ) : ℚ := (discounts.map takes).sum

/-- The discounts with half a centavo. -/
def halves (discounts : List ℚ) : ℕ := discounts.countP fun discount => HalfCentavo discount

theorem takes_mono : Monotone takes := by
  intro a b le
  have scaled : halfDown (a * 100) ≤ halfDown (b * 100) := halfDown_mono (by linarith)
  exact div_le_div_of_nonneg_right (Int.cast_le.mpr scaled) (by norm_num)

theorem takes_of_centavos {value : ℚ} (whole : Centavos value) : takes value = value := by
  obtain ⟨k, rfl⟩ := whole
  rw [takes, div_mul_cancel₀ _ (by norm_num : (100 : ℚ) ≠ 0), halfDown_intCast]

theorem takes_nonneg {discount : ℚ} (nonneg : 0 ≤ discount) : 0 ≤ takes discount := by
  rw [← takes_of_centavos centavos_zero]
  exact takes_mono nonneg

theorem takenOff_nonneg {discounts : List ℚ} (nonneg : ∀ discount ∈ discounts, 0 ≤ discount) :
    0 ≤ takenOff discounts := by
  apply List.sum_nonneg
  intro value member
  obtain ⟨discount, among, rfl⟩ := List.mem_map.mp member
  exact takes_nonneg (nonneg discount among)

/-- Discounts are printed in centavos, halves upwards. -/
theorem sum_round2_eq {discounts : List ℚ} (nonneg : ∀ discount ∈ discounts, 0 ≤ discount) :
    (discounts.map round2).sum = takenOff discounts + halves discounts / 100 := by
  induction discounts with
  | nil => simp [takenOff, halves]
  | cons discount discounts ih =>
    have own : round2 discount = takes discount + (if HalfCentavo discount then 1 else 0) / 100 := by
      have low : 0 ≤ discount * ((100 : ℕ) : ℚ) :=
        mul_nonneg (nonneg discount List.mem_cons_self) (by norm_num)
      rw [round2_eq, nearest_away, halfAway_eq_halfDown low, takes, ← add_div]
      unfold HalfCentavo
      push_cast
      rfl
    rw [List.map_cons, List.sum_cons, own,
      ih fun d h => nonneg d (List.mem_cons_of_mem discount h), takenOff, takenOff, List.map_cons,
      List.sum_cons, halves, halves, List.countP_cons]
    push_cast
    simp only [decide_eq_true_eq]
    ring

/-- One discount takes what it takes, or all there is. -/
theorem max_round2_sub {monto discount : ℚ} (cents : Centavos monto) :
    max 0 (round2 (monto - discount)) = max 0 (monto - takes discount) := by
  rcases le_total discount monto with covered | exceeds
  · obtain ⟨k, rfl⟩ := cents
    have scaled : ((k : ℚ) / 100 - discount) * ((100 : ℕ) : ℚ) = k - discount * 100 := by
      push_cast
      ring
    have below : discount * 100 ≤ (k : ℚ) := by linarith
    rw [round2_eq, nearest_away, scaled, halfAway_sub below, takes, ← sub_div]
    push_cast
    rfl
  · have nothing := takes_mono exceeds
    rw [takes_of_centavos cents] at nothing
    rw [max_eq_left (round2_nonpos (sub_nonpos.mpr exceeds)),
      max_eq_left (sub_nonpos.mpr nothing)]

/-- **Discount lines take off what they take, as long as there is something.** -/
theorem leftover_eq {monto : ℚ} (cents : Centavos monto) (low : 0 ≤ monto) {discounts : List ℚ}
    (nonneg : ∀ discount ∈ discounts, 0 ≤ discount) :
    leftover monto discounts = max 0 (monto - takenOff discounts) := by
  induction discounts generalizing monto with
  | nil => simp [leftover, takenOff, low]
  | cons discount discounts ih =>
    have rest : ∀ d ∈ discounts, 0 ≤ d := fun d h => nonneg d (List.mem_cons_of_mem discount h)
    have step := ih (centavos_zero.max (centavos_round2 (monto - discount))) (le_max_left 0 _) rest
    have later := takenOff_nonneg rest
    rw [leftover] at step ⊢
    rw [List.foldl_cons, step, max_round2_sub cents, takenOff, takenOff, List.map_cons,
      List.sum_cons]
    rw [takenOff] at later
    rcases le_total 0 (monto - takes discount) with some | none
    · rw [max_eq_right some]
      congr 1
      ring
    · rw [max_eq_left none, max_eq_left (by linarith), max_eq_left (by linarith)]

/-! ## What is printed of a line -/

theorem discountedLine_printable {safeQty safePrice safeAmount incomingDiscount : ℚ}
    (price : OnGrid 10000 safePrice) (cents : Centavos incomingDiscount)
    (low : 0 ≤ incomingDiscount) :
    OnGrid 10000 (discountedLine safeQty safePrice safeAmount incomingDiscount).1 ∧
      Centavos (discountedLine safeQty safePrice safeAmount incomingDiscount).2.2 ∧
      0 ≤ (discountedLine safeQty safePrice safeAmount incomingDiscount).2.2 := by
  unfold discountedLine
  dsimp only
  split_ifs with free calculated net gross2 gross4
  · exact ⟨price, cents, low⟩
  · exact ⟨price, cents, low⟩
  · exact ⟨onGrid_of_centavos (centavos_round2 _), cents, low⟩
  · exact ⟨onGrid_round4 _, cents, low⟩
  · exact ⟨price, centavos_zero, le_rfl⟩
  · exact ⟨price, centavos_zero, le_rfl⟩

/-- The figures of an item are printed as they are. -/
theorem lineFigures_printable (line : CanonicalLineDto) :
    OnGrid 10000 (lineFigures line).1 ∧ Centavos (lineFigures line).2.2 ∧
      0 ≤ (lineFigures line).2.2 := by
  unfold lineFigures
  split
  · exact discountedLine_printable (onGrid_safePrice line) (centavos_incomingDiscount line)
      (incomingDiscount_nonneg line)
  · exact ⟨onGrid_safePrice line, centavos_zero, le_rfl⟩

theorem newItem_printable (lineNumber : ℕ) (line : CanonicalLineDto) :
    OnGrid 10000 (newItem lineNumber line).unitPrice ∧
      Centavos (newItem lineNumber line).discountAmount ∧
      0 ≤ (newItem lineNumber line).discountAmount := by
  rw [newItem_unitPrice, newItem_discountAmount]
  exact lineFigures_printable line

/-- The printed figures of an item of a document in pesos: quantity, price,
discount and amount. -/
structure Prints (lines : List Line) (quantity price discount monto : ℚ) : Prop where
  quantity_eq : printed "CantidadItem" lines = quantity
  price_eq : printed "PrecioUnitarioItem" lines = price
  discount_eq : printed "DescuentoMonto" lines = discount
  monto_eq : printed "MontoItem" lines = monto

variable {dto : CanonicalDocumentDto} {before after : List CanonicalLineDto}
  {line : CanonicalLineDto}

/-- A document in pesos prints the figures of an item as they are. -/
theorem prints_item (domestic : isForeignCurrency dto = false) {item : ProcessedLineItem}
    (quantity : Centavos item.quantity) (price : OnGrid 10000 item.unitPrice)
    (discount : Centavos item.discountAmount) (low : 0 ≤ item.discountAmount)
    (monto : Centavos item.montoItem) (retention : Option CanonicalRetentionDto)
    (itbis isr : Option ℚ) :
    Prints (itemLines dto retention
        { convertItem dto item with montoItbisRetenido := itbis, montoIsrRetenido := isr })
      item.quantity item.unitPrice
      (if allowsDiscount (tipo dto) then item.discountAmount else 0) item.montoItem := by
  rw [convertItem_domestic domestic]
  constructor
  · rw [printed_cantidad]
    exact quantity.cents .even
  · rw [printed_precio]
    exact price.nearest (by decide)
  · rw [printed_descuento]
    cases allowed : allowsDiscount (tipo dto) with
    | false => simp
    | true =>
      simp only [if_true, true_and, discount.cents]
      split
      · rfl
      · next none => exact le_antisymm low (not_lt.mp none)
  · rw [printed_monto]
    exact monto.cents .even

/-- The item of a line, as a document in pesos prints it. -/
theorem printed_line (domestic : isForeignCurrency dto = false)
    (split : dto.lines = before ++ line :: after)
    (own : MakesItem (before.foldl normalizeLine []) line) :
    ∃ lines, printedLines dto (before.foldl normalizeLine []).length = some lines ∧
      Prints lines (safeQty line) (lineFigures line).1
        (if allowsDiscount (tipo dto) then
          (lineFigures line).2.2 + ((discountsOf after).map round2).sum else 0)
        (leftover (lineFigures line).2.1 (discountsOf after)) := by
  obtain ⟨price, cents, low⟩ :=
    newItem_printable ((before.foldl normalizeLine []).length + 1) line
  have nonneg := discountsOf_nonneg after
  have monto := centavos_newItem ((before.foldl normalizeLine []).length + 1) line
  have item := @item_of_line before after line own (fallbackLineDefault dto)
  rw [← split, foldl_discounted _ nonneg cents low] at item
  have processed := congrArg (Option.map (convertItem dto)) item
  rw [← List.getElem?_map] at processed
  obtain ⟨itbis, isr, found⟩ := printedItems_at processed
  have sum : 0 ≤ ((discountsOf after).map round2).sum := by
    apply List.sum_nonneg
    intro value member
    obtain ⟨discount, among, rfl⟩ := List.mem_map.mp member
    exact round2_nonneg (nonneg discount among)
  have sumCents : Centavos ((discountsOf after).map round2).sum := by
    apply OnGrid.sum
    intro value member
    obtain ⟨discount, -, rfl⟩ := List.mem_map.mp member
    exact centavos_round2 discount
  refine ⟨_, by rw [printedLines, found, Option.map_some], ?_⟩
  apply prints_item domestic
  · exact centavos_safeQty line
  · exact price
  · exact cents.add sumCents
  · exact add_nonneg low sum
  · exact centavos_leftover monto (discountsOf after)

/-! ## Which items square -/

/-- Quantity times price, less the discount, is the amount. -/
def Square (lines : List Line) : Prop :=
  |round2 (printed "CantidadItem" lines * printed "PrecioUnitarioItem" lines) -
    printed "DescuentoMonto" lines - printed "MontoItem" lines| ≤ 5 / 100

/-- A line of a type that prints no discount, with a discount: the discount, or
what it is taken from, is small, or the price was net of it. -/
def Suppressed (line : CanonicalLineDto) : Prop :=
  (IsNet line ∧ min (incomingDiscount line) (gross line) ≤ 5 / 100) ∨
    (¬IsNet line ∧ IsGross line ∧ ∀ price, 0 < safeQty line → grossPrice line = some price →
      |round2 (safeQty line * price) - safeAmount line| ≤ 5 / 100)

/-- What the figures of a line that is not net of its discount leave over: with a
gross price worked out from the amount and the discount, or with its own. -/
def rest (line : CanonicalLineDto) (shown : ℚ) : ℚ :=
  match if IsGross line ∧ 0 < safeQty line then grossPrice line else none with
  | some price => round2 (safeQty line * price) - shown - safeAmount line
  | none => gross line - safeAmount line

/-- With discount lines behind it, a line loses what they are printed for and do
not take off: half a centavo of some, and all that goes beyond its amount.  A type
that prints no discount loses what they do take off. -/
def FoldsUp (tipo : String) (line : CanonicalLineDto) (discounts : List ℚ) : Prop :=
  if allowsDiscount tipo then
    if IsNet line then
      max 0 (incomingDiscount line - gross line) + halves discounts / 100 +
        max 0 (takenOff discounts - max 0 (gross line - incomingDiscount line)) ≤ 5 / 100
    else
      |rest line (incomingDiscount line) - halves discounts / 100 -
        max 0 (takenOff discounts - safeAmount line)| ≤ 5 / 100
  else if IsNet line then
    min (incomingDiscount line) (gross line) +
      min (max 0 (gross line - incomingDiscount line)) (takenOff discounts) ≤ 5 / 100
  else |rest line 0 + min (safeAmount line) (takenOff discounts)| ≤ 5 / 100

/-- Whether the item of a line squares, with the discounts of the lines behind
it. -/
def SquaresUp (tipo : String) (line : CanonicalLineDto) (discounts : List ℚ) : Prop :=
  if discounts ≠ [] then FoldsUp tipo line discounts
  else if allowsDiscount tipo ∨ incomingDiscount line = 0 then IsNet line ∨ IsGross line
  else Suppressed line

/-- A net amount leaves of the gross one what the discount does not take. -/
theorem own_of_isNet {line : CanonicalLineDto} (isNet : IsNet line) :
    gross line - incomingDiscount line - max 0 (net line) =
        min 0 (gross line - incomingDiscount line) ∧
      |min 0 (gross line - incomingDiscount line)| ≤ 5 / 100 := by
  have product : 0 ≤ safeQty line * safePrice line :=
    mul_nonneg (safeQty_nonneg line) (safePrice_nonneg line)
  have cents := centavos_incomingDiscount line
  have difference : net line = round2 (safeQty line * safePrice line - incomingDiscount line) := by
    rw [net, mul_comm]
  rcases le_total (incomingDiscount line) (safeQty line * safePrice line) with covered | exceeds
  · have whole : net line = gross line - incomingDiscount line := by
      rw [difference, gross, sub_eq_add_neg, round2_add _ product (by linarith), sub_eq_add_neg]
      exact OnGrid.neg cents
    have nonneg : 0 ≤ gross line - incomingDiscount line := by
      rw [← whole, difference]
      exact round2_nonneg (sub_nonneg.mpr covered)
    rw [whole, max_eq_right nonneg, min_eq_left nonneg, sub_self, abs_zero]
    exact ⟨rfl, by norm_num⟩
  · have low : net line ≤ 0 := by
      rw [difference]
      exact round2_nonpos (sub_nonpos.mpr exceeds)
    have most : gross line ≤ incomingDiscount line := by
      have mono := round2_mono exceeds
      rwa [cents.round2] at mono
    have rest : incomingDiscount line - gross line ≤ -net line := by
      have step := OnGrid.sub_nearest_le (by decide : 0 < 100) cents product exceeds
      rw [difference, gross, round2_eq, round2_eq, ← nearest_neg, neg_sub]
      exact step
    have close := abs_le.mp isNet
    have amount := safeAmount_nonneg line
    rw [max_eq_left low, min_eq_right (sub_nonpos.mpr most), sub_zero]
    refine ⟨rfl, abs_le.mpr ?_⟩
    constructor
    · linarith [close.2]
    · linarith

theorem max_net_of_isNet {line : CanonicalLineDto} (isNet : IsNet line) :
    max 0 (net line) = max 0 (gross line - incomingDiscount line) := by
  have parts := min_add_max 0 (gross line - incomingDiscount line)
  linarith [(own_of_isNet isNet).1]

theorem sub_net_of_isNet {line : CanonicalLineDto} (isNet : IsNet line) :
    gross line - max 0 (net line) = min (incomingDiscount line) (gross line) := by
  have shifted := min_add_add_right 0 (gross line - incomingDiscount line) (incomingDiscount line)
  rw [zero_add, sub_add_cancel] at shifted
  rw [shifted, ← (own_of_isNet isNet).1]
  ring

theorem fits_of_grossPrice {line : CanonicalLineDto} {price : ℚ}
    (worked : grossPrice line = some price) : Fits line price := by
  unfold grossPrice at worked
  dsimp only at worked
  split_ifs at worked with two four
  · exact Option.some.inj worked ▸ two
  · exact Option.some.inj worked ▸ four

/-- Of a type that prints its discounts, or of a line without one, an item squares
when its amount is the net or the gross one. -/
theorem squares_printing {line : CanonicalLineDto} (sold : Sold line)
    (price : 0 < line.unitPrice) :
    |round2 (safeQty line * (lineFigures line).1) - (lineFigures line).2.2 -
      (lineFigures line).2.1| ≤ 5 / 100 ↔ IsNet line ∨ IsGross line := by
  rw [sold.lineFigures_eq price]
  by_cases isNet : IsNet line
  · obtain ⟨difference, small⟩ := own_of_isNet isNet
    rw [if_pos isNet]
    simp only [isNet, true_or, iff_true]
    show |gross line - _ - _| ≤ _
    rw [difference]
    exact small
  · have own : |gross line - 0 - safeAmount line| ≤ 5 / 100 ↔ IsGross line := by
      rw [sub_zero, abs_sub_comm]
      rfl
    rw [if_neg isNet]
    split
    · next netPrice =>
      cases worked : grossPrice line with
      | some whole =>
        have fits := abs_le.mp (fits_of_grossPrice worked)
        simp only [netPrice.1, or_true, iff_true]
        refine abs_le.mpr ⟨?_, ?_⟩
        · linarith [fits.1]
        · linarith [fits.2]
      | none =>
        simp only [isNet, false_or]
        exact own
    · simp only [isNet, false_or]
      exact own

/-- Of a type that prints no discount. -/
theorem squares_suppressed {line : CanonicalLineDto} (sold : Sold line)
    (price : 0 < line.unitPrice) :
    |round2 (safeQty line * (lineFigures line).1) - 0 - (lineFigures line).2.1| ≤ 5 / 100 ↔
      Suppressed line := by
  rw [sold.lineFigures_eq price]
  unfold Suppressed
  by_cases isNet : IsNet line
  · have nonneg : 0 ≤ min (incomingDiscount line) (gross line) :=
      le_min (incomingDiscount_nonneg line) (gross_nonneg line)
    rw [if_pos isNet]
    simp only [isNet, true_and, not_true_eq_false, false_and, or_false]
    show |gross line - 0 - max 0 (net line)| ≤ _ ↔ _
    rw [sub_zero, sub_net_of_isNet isNet, abs_of_nonneg nonneg]
  · have own : |gross line - 0 - safeAmount line| ≤ 5 / 100 ↔ IsGross line := by
      rw [sub_zero, abs_sub_comm]
      rfl
    rw [if_neg isNet]
    simp only [isNet, false_and, false_or, not_false_eq_true, true_and]
    by_cases isGross : IsGross line
    · by_cases some : 0 < safeQty line
      · rw [if_pos ⟨isGross, some⟩]
        cases worked : grossPrice line with
        | some whole => simp [isGross, some]
        | none =>
          simp only [isGross, reduceCtorEq, false_implies, implies_true, and_true, iff_true]
          exact own.mpr isGross
      · rw [if_neg fun h => some h.2]
        simp only [isGross, some, false_implies, implies_true, and_true, iff_true]
        exact own.mpr isGross
    · rw [if_neg fun h => isGross h.1]
      simp only [isGross, false_and, iff_false]
      exact fun h => isGross (own.mp h)

/-- Without a discount of its own an item has none. -/
theorem figures_of_undiscounted {line : CanonicalLineDto} (undiscounted : incomingDiscount line = 0) :
    (lineFigures line).2.2 = 0 := by
  rw [lineFigures, if_neg (not_lt.mpr undiscounted.le)]

/-- What discount lines change in a difference, and what is printed of them. -/
theorem folded_printing {discounts : List ℚ} (nonneg : ∀ discount ∈ discounts, 0 ≤ discount)
    {monto : ℚ} (cents : Centavos monto) (low : 0 ≤ monto) (product discount : ℚ) :
    product - (discount + (discounts.map round2).sum) - leftover monto discounts =
      product - discount - monto - halves discounts / 100 -
        max 0 (takenOff discounts - monto) := by
  have swapped : takenOff discounts + max 0 (monto - takenOff discounts) =
      monto + max 0 (takenOff discounts - monto) := by
    rcases le_total monto (takenOff discounts) with exceeds | covered
    · rw [max_eq_left (sub_nonpos.mpr exceeds), max_eq_right (sub_nonneg.mpr exceeds)]
      ring
    · rw [max_eq_right (sub_nonneg.mpr covered), max_eq_left (sub_nonpos.mpr covered)]
      ring
  rw [leftover_eq cents low nonneg, sum_round2_eq nonneg]
  linarith

theorem folded_suppressed {discounts : List ℚ} (nonneg : ∀ discount ∈ discounts, 0 ≤ discount)
    {monto : ℚ} (cents : Centavos monto) (low : 0 ≤ monto) (product : ℚ) :
    product - 0 - leftover monto discounts =
      product - monto + min monto (takenOff discounts) := by
  rw [leftover_eq cents low nonneg]
  rcases le_total monto (takenOff discounts) with exceeds | covered
  · rw [max_eq_left (sub_nonpos.mpr exceeds), min_eq_left exceeds]
    ring
  · rw [max_eq_right (sub_nonneg.mpr covered), min_eq_right covered]
    ring

theorem centavos_safeAmount (line : CanonicalLineDto) : Centavos (safeAmount line) :=
  centavos_zero.max (centavos_round2 _)

/-- The figures of a line whose amount is not the net one. -/
theorem Sold.lineFigures_rest {line : CanonicalLineDto} (sold : Sold line)
    (price : 0 < line.unitPrice) (notNet : ¬IsNet line) :
    (lineFigures line).2.1 = safeAmount line ∧
      round2 (safeQty line * (lineFigures line).1) - (lineFigures line).2.2 - safeAmount line =
        rest line (incomingDiscount line) ∧
      round2 (safeQty line * (lineFigures line).1) - safeAmount line = rest line 0 := by
  rw [sold.lineFigures_eq price, if_neg notNet]
  unfold rest
  by_cases netPrice : IsGross line ∧ 0 < safeQty line
  · rw [if_pos netPrice, if_pos netPrice]
    cases grossPrice line with
    | some whole => exact ⟨rfl, rfl, by dsimp only; rw [sub_zero]⟩
    | none => exact ⟨rfl, by rw [sub_zero]; rfl, rfl⟩
  · rw [if_neg netPrice, if_neg netPrice]
    exact ⟨rfl, by rw [sub_zero]; rfl, rfl⟩

/-- An item that discount lines are folded into. -/
theorem squares_folded {line : CanonicalLineDto} (sold : Sold line) (price : 0 < line.unitPrice)
    {discounts : List ℚ} (nonneg : ∀ discount ∈ discounts, 0 ≤ discount) (tipo : String) :
    |round2 (safeQty line * (lineFigures line).1) -
        (if allowsDiscount tipo then (lineFigures line).2.2 + (discounts.map round2).sum else 0) -
        leftover (lineFigures line).2.1 discounts| ≤ 5 / 100 ↔ FoldsUp tipo line discounts := by
  have taken := takenOff_nonneg nonneg
  unfold FoldsUp
  by_cases isNet : IsNet line
  · have monto : max 0 (net line) = max 0 (gross line - incomingDiscount line) :=
      max_net_of_isNet isNet
    have cents : Centavos (max 0 (net line)) := centavos_zero.max (centavos_round2 _)
    have low : 0 ≤ max 0 (net line) := le_max_left 0 _
    have product : round2 (safeQty line * safePrice line) = gross line := rfl
    have covered := le_max_left 0 (gross line - incomingDiscount line)
    rw [sold.lineFigures_eq price, if_pos isNet, if_pos isNet, if_pos isNet]
    dsimp only
    split
    · have own : gross line - incomingDiscount line - max 0 (net line) =
          -max 0 (incomingDiscount line - gross line) := by
        rw [(own_of_isNet isNet).1]
        rcases le_total (gross line) (incomingDiscount line) with low | high
        · rw [min_eq_right (sub_nonpos.mpr low), max_eq_right (sub_nonneg.mpr low), neg_sub]
        · rw [min_eq_left (sub_nonneg.mpr high), max_eq_left (sub_nonpos.mpr high), neg_zero]
      have lost : 0 ≤ max 0 (incomingDiscount line - gross line) + halves discounts / 100 +
          max 0 (takenOff discounts - max 0 (gross line - incomingDiscount line)) := by
        have excess := le_max_left 0 (incomingDiscount line - gross line)
        have beyond := le_max_left 0
          (takenOff discounts - max 0 (gross line - incomingDiscount line))
        positivity
      rw [folded_printing nonneg cents low, product, own, monto, ← abs_of_nonneg lost, ← abs_neg]
      congr! 2
      ring
    · have own := sub_net_of_isNet isNet
      have lost : 0 ≤ min (incomingDiscount line) (gross line) +
          min (max 0 (gross line - incomingDiscount line)) (takenOff discounts) :=
        add_nonneg (le_min (incomingDiscount_nonneg line) (gross_nonneg line))
          (le_min covered taken)
      rw [folded_suppressed nonneg cents low, product, own, monto, abs_of_nonneg lost]
  · obtain ⟨monto, printing, suppressed⟩ := sold.lineFigures_rest price isNet
    rw [if_neg isNet, if_neg isNet, monto]
    split
    · rw [folded_printing nonneg (centavos_safeAmount line) (safeAmount_nonneg line), printing]
    · rw [folded_suppressed nonneg (centavos_safeAmount line) (safeAmount_nonneg line), suppressed]

/-- An E31 in pesos with one line. -/
def lineInvoice (line : CanonicalLineDto) : CanonicalDocumentDto where
  sourceReference := { txnId := "T1" }
  tipoComprobante := "E31"
  header := { rncComprador := "131880681" }
  lines := [line]
  totals := { montoSubtotal := line.amount, montoTotal := line.amount }

/-- Two at 100.00, less 50.00. -/
def discountedLine2 : CanonicalLineDto where
  itemName := "Servicio"
  quantity := 2
  unitPrice := 100
  discountAmount := 50
  amount := 150

/-- 0.335 at 1000.00. -/
def fractionLine : CanonicalLineDto where
  itemName := "Servicio"
  quantity := 335 / 1000
  unitPrice := 1000
  amount := 335

theorem sold_discountedLine2 : Sold discountedLine2 := by
  constructor <;> decide +kernel

theorem sold_fractionLine : Sold fractionLine := by
  constructor <;> decide +kernel

end EcfDgii.SquaredLines
