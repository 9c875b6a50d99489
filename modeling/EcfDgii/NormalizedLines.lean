import EcfDgii.PrintedTotals
import EcfDgii.Submission
import Mathlib.Data.List.Induction

/-!
The lines of a document, normalised (`normalizeCanonicalLines`).

A line worth something becomes an item; a discount line reduces the item before
it, which never falls below nothing.  `lines_conserved_iff` says when no money
is lost on the way: exactly when every discount is covered by what is left of
the item it reduces.
-/

set_option autoImplicit false

namespace EcfDgii.NormalizedLines

open EcfDgii.Text EcfDgii.Documents EcfDgii.XmlFormats EcfDgii.Rounding EcfDgii.PrintedAmounts
open EcfDgii.PrintedTotals EcfDgii.CanonicalLines EcfDgii.Submission

/-! ## What holds of every item -/

theorem round4_nonneg {value : ℚ} (nonneg : 0 ≤ value) : 0 ≤ round4 value := by
  rw [round4_eq]
  exact nearest_nonneg (by decide) nonneg

/-- An item that costs nothing less than nothing. -/
structure Sound (item : ProcessedLineItem) : Prop where
  monto_nonneg : 0 ≤ item.montoItem
  price_nonneg : 0 ≤ item.unitPrice

theorem discountedLine_nonneg {safeQty safePrice safeAmount incomingDiscount : ℚ}
    (price : 0 ≤ safePrice) (amount : 0 ≤ safeAmount) (discount : 0 ≤ incomingDiscount) :
    0 ≤ (discountedLine safeQty safePrice safeAmount incomingDiscount).1 ∧
      0 ≤ (discountedLine safeQty safePrice safeAmount incomingDiscount).2.1 := by
  unfold discountedLine
  dsimp only
  split_ifs with free calculated net gross2 gross4
  · exact ⟨price, le_max_left 0 _⟩
  · exact ⟨price, le_max_left 0 _⟩
  · exact ⟨round2_nonneg (div_nonneg (add_nonneg amount discount) net.2.le), amount⟩
  · exact ⟨round4_nonneg (div_nonneg (add_nonneg amount discount) net.2.le), amount⟩
  · exact ⟨price, amount⟩
  · exact ⟨price, amount⟩

theorem undiscountedAmount_nonneg {safeQty safePrice safeAmount : ℚ} (amount : 0 ≤ safeAmount) :
    0 ≤ undiscountedAmount safeQty safePrice safeAmount := by
  unfold undiscountedAmount
  dsimp only
  split_ifs
  · exact le_max_left 0 _
  · exact le_max_left 0 _
  · exact amount

theorem safePrice_nonneg (line : CanonicalLineDto) : 0 ≤ safePrice line := le_max_left 0 _

theorem safeAmount_nonneg (line : CanonicalLineDto) : 0 ≤ safeAmount line := le_max_left 0 _

theorem sound_newItem (lineNumber : ℕ) (line : CanonicalLineDto) :
    Sound (newItem lineNumber line) := by
  have price := safePrice_nonneg line
  have amount := safeAmount_nonneg line
  have figures : 0 ≤ (lineFigures line).1 ∧ 0 ≤ (lineFigures line).2.1 := by
    unfold lineFigures
    split
    · next some => exact discountedLine_nonneg price amount some.le
    · exact ⟨price, undiscountedAmount_nonneg amount⟩
  exact ⟨figures.2, figures.1⟩

/-- A discount line changes the last item, and no other. -/
theorem discountLast_concat (absDiscount : ℚ) (result : List ProcessedLineItem)
    (item : ProcessedLineItem) :
    discountLast absDiscount (result ++ [item]) =
      result ++ [{ item with
        discountAmount := round2 (item.discountAmount + absDiscount)
        montoItem := max 0 (round2 (item.montoItem - absDiscount)) }] := by
  simp [discountLast]

theorem sound_normalizeLine {result : List ProcessedLineItem} (line : CanonicalLineDto)
    (sound : ∀ item ∈ result, Sound item) : ∀ item ∈ normalizeLine result line, Sound item := by
  rw [normalizeLine]
  split_ifs with discounts worthless
  · induction result using List.reverseRecOn with
    | nil => exact absurd rfl discounts.2
    | append_singleton result last =>
      rw [discountLast_concat]
      intro item member
      rcases List.mem_append.mp member with earlier | changed
      · exact sound item (List.mem_append_left _ earlier)
      · rw [List.mem_singleton.mp changed]
        exact ⟨le_max_left 0 _,
          (sound last (List.mem_append_right _ (List.mem_singleton_self _))).price_nonneg⟩
  · exact sound
  · intro item member
    rcases List.mem_append.mp member with earlier | new
    · exact sound item earlier
    · rw [List.mem_singleton.mp new]
      exact sound_newItem _ line

theorem sound_foldl (lines : List CanonicalLineDto) {result : List ProcessedLineItem}
    (sound : ∀ item ∈ result, Sound item) :
    ∀ item ∈ lines.foldl normalizeLine result, Sound item := by
  induction lines generalizing result with
  | nil => exact sound
  | cons line lines ih => exact ih (sound_normalizeLine line sound)

theorem sound_normalizeCanonicalLines (lines : List CanonicalLineDto) {defaultTotal : ℚ}
    (nonneg : 0 ≤ defaultTotal) :
    ∀ item ∈ normalizeCanonicalLines lines defaultTotal, Sound item := by
  unfold normalizeCanonicalLines
  split
  · intro item member
    rw [List.mem_singleton.mp member]
    exact ⟨nonneg, nonneg⟩
  · exact sound_foldl lines (by simp)

/-- What a currency is resolved to when nothing is wrong with it: pesos, or a
listed code, for which any other rate would have been as good. -/
theorem resolved_cases {given : Option CanonicalCurrencyDto}
    (valid : (resolveCanonicalCurrency given).validationError = "") :
    resolveCanonicalCurrency given = {} ∨
      ∃ currency code, given = some currency ∧ code ∈ validDgiiForeignCurrencyCodes ∧
        0 < currency.exchangeRate ∧ currency.exchangeRate < 1000 ∧
        ∀ rate, 0 < rate → rate < 1000 →
          resolveCanonicalCurrency (some { currency with exchangeRate := rate }) =
            { isForeign := true
              code := code
              exchangeRate := roundHalfAway 10000 rate } := by
  cases given with
  | none => exact .inl rfl
  | some currency =>
    unfold resolveCanonicalCurrency at *
    dsimp only at *
    generalize named : (if toupper (trim currency.code) = "CNY" then "CHY"
      else if toupper (trim currency.code) = "US$" then "USD"
      else toupper (trim currency.code)) = code at *
    split at valid
    · next pesos => exact .inl (if_pos pesos)
    · next another =>
      right
      split at valid
      · exact absurd (congrArg String.toList valid) (by simp)
      · next listed =>
        split at valid
        · simp at valid
        · next inside =>
          simp only [not_or, not_le] at inside
          refine ⟨currency, code, rfl, Classical.not_not.mp listed, inside.1, inside.2, ?_⟩
          intro rate pos small
          have within : ¬ (rate ≤ 0 ∨ 1000 ≤ rate) := by
            simpa only [not_or, not_le] using ⟨pos, small⟩
          rw [if_neg another, named, if_neg listed, if_neg within]

/-- A currency the submission accepts, other than pesos, comes with a rate. -/
theorem rate_of_resolved {given : Option CanonicalCurrencyDto}
    (foreign : (resolveCanonicalCurrency given).isForeign = true)
    (valid : (resolveCanonicalCurrency given).validationError = "") :
    ∃ currency, given = some currency ∧ 0 < currency.exchangeRate ∧ currency.exchangeRate < 1000 ∧
      (resolveCanonicalCurrency given).exchangeRate =
        roundHalfAway 10000 currency.exchangeRate := by
  rcases resolved_cases valid with pesos | ⟨currency, code, rfl, -, pos, small, resolved⟩
  · rw [pesos] at foreign
    cases foreign
  · exact ⟨currency, rfl, pos, small, congrArg (·.exchangeRate) (resolved _ pos small)⟩

/-- The rate of a document is not negative. -/
theorem exchangeRate_nonneg (dto : CanonicalDocumentDto) : 0 ≤ exchangeRate dto := by
  unfold exchangeRate
  split
  · next foreign =>
    simp only [isForeignCurrency, Bool.and_eq_true, decide_eq_true_eq] at foreign
    obtain ⟨currency, -, pos, -, rate⟩ := rate_of_resolved foreign.1 foreign.2
    rw [rate, roundHalfAway_eq]
    exact nearest_nonneg (by decide) pos.le
  · exact zero_le_one

/-- `discountDop` of an item in another currency. -/
def convertedDiscount (dto : CanonicalDocumentDto) (item : ProcessedLineItem) : ℚ :=
  let discountOtraMoneda :=
    if allowsDiscount (tipo dto) ∧ 0 < item.discountAmount then round2 item.discountAmount else 0
  if 0 < discountOtraMoneda then round2 (discountOtraMoneda * exchangeRate dto) else 0

/-- `montoItemDop` of an item in another currency: of one unit without a discount
the amount is converted, of every other item the price and the discount. -/
def convertedMonto (dto : CanonicalDocumentDto) (item : ProcessedLineItem) : ℚ :=
  if |item.quantity - 1| < 1 / 1000000000 ∧ convertedDiscount dto item = 0 then
    round2 (round2 item.montoItem * exchangeRate dto)
  else
    max 0 (round2 (round2 (item.quantity * round4 (round4 item.unitPrice * exchangeRate dto)) -
      convertedDiscount dto item))

theorem convertItem_foreign {dto : CanonicalDocumentDto} (foreign : isForeignCurrency dto = true)
    (item : ProcessedLineItem) :
    (convertItem dto item).montoItemDop = convertedMonto dto item ∧
      (convertItem dto item).montoItemOtraMoneda = round2 item.montoItem := by
  unfold convertItem convertedMonto
  rw [if_pos foreign]
  refine ⟨?_, rfl⟩
  by_cases single : |item.quantity - 1| < 1 / 1000000000 ∧ convertedDiscount dto item = 0
  · rw [if_pos single]
    exact if_pos single
  · rw [if_neg single]
    refine (if_neg single).trans ?_
    congr 4
    exact congrArg (item.quantity * ·) (if_neg single)

theorem convertItem_domestic {dto : CanonicalDocumentDto}
    (domestic : isForeignCurrency dto = false) (item : ProcessedLineItem) :
    convertItem dto item = { item with
      indicadorFacturacion := effInd dto item
      unitPriceDop := item.unitPrice
      discountDop := if allowsDiscount (tipo dto) then item.discountAmount else 0
      montoItemDop := item.montoItem } := by
  unfold convertItem
  rw [if_neg (by simp [domestic])]

/-- **No item is worth less than nothing.** -/
theorem processedItems_nonneg (dto : CanonicalDocumentDto) :
    ∀ item ∈ processedItems dto, 0 ≤ item.montoItemDop := by
  intro item member
  obtain ⟨given, among, rfl⟩ := List.mem_map.mp member
  have sound := sound_normalizeCanonicalLines dto.lines
    (le_max_left 0 _ : 0 ≤ fallbackLineDefault dto) given among
  cases foreign : isForeignCurrency dto with
  | true =>
    rw [(convertItem_foreign foreign given).1, convertedMonto]
    split
    · exact round2_nonneg (mul_nonneg (round2_nonneg sound.monto_nonneg) (exchangeRate_nonneg dto))
    · exact le_max_left 0 _
  | false =>
    rw [convertItem_domestic foreign]
    exact sound.monto_nonneg

/-! ## Lines of sales and of discounts -/

/-- A line that sells a quantity at a price. -/
structure Sale (line : CanonicalLineDto) : Prop where
  quantity_pos : 0 < line.quantity
  quantity_grid : OnGrid 100 line.quantity
  price_nonneg : 0 ≤ line.unitPrice
  price_grid : OnGrid 10000 line.unitPrice
  amount_eq : line.amount = round2 (line.quantity * line.unitPrice)
  undiscounted : line.discountAmount = 0

/-- A line that takes an amount off the item before it. -/
structure Discount (line : CanonicalLineDto) : Prop where
  amount_neg : line.amount < 0
  amount_centavos : Centavos line.amount

/-- Lines that come to something, and not to less than nothing. -/
structure Billed (lines : List CanonicalLineDto) : Prop where
  each : ∀ line ∈ lines, Sale line ∨ Discount line
  sum_nonneg : 0 ≤ (lines.map (·.amount)).sum
  billable : ∃ line ∈ lines, ¬(line.amount = 0 ∧ line.unitPrice = 0)

/-- Whether every discount is covered by what is left of the item before it:
`left` is nothing before the first item, and a sale at no price is no item. -/
def Covered : Option ℚ → List CanonicalLineDto → Prop
  | _, [] => True
  | left, line :: rest =>
    if line.amount < 0 then
      match left with
      | none => False
      | some monto => 0 ≤ monto + line.amount ∧ Covered (some (monto + line.amount)) rest
    else Covered (if line.unitPrice = 0 then left else some line.amount) rest

theorem Sale.amount_nonneg {line : CanonicalLineDto} (sale : Sale line) : 0 ≤ line.amount := by
  rw [sale.amount_eq]
  exact round2_nonneg (mul_nonneg sale.quantity_pos.le sale.price_nonneg)

theorem Sale.rawPrice_eq {line : CanonicalLineDto} (sale : Sale line) :
    rawPrice line = line.unitPrice :=
  if_pos sale.quantity_pos

/-- A sale at no price is not worth anything, and every other one is. -/
theorem Sale.worthless_iff {line : CanonicalLineDto} (sale : Sale line) :
    (lineAmount line ≤ 0 ∧ linePrice line ≤ 0) ↔ line.unitPrice = 0 := by
  constructor
  · rintro ⟨amount, price⟩
    by_contra some
    have pos : 0 < line.unitPrice := lt_of_le_of_ne sale.price_nonneg (Ne.symm some)
    rw [linePrice, sale.rawPrice_eq, if_neg fun h => absurd pos (not_lt.mpr h.2)] at price
    exact absurd pos (not_lt.mpr price)
  · intro free
    have nothing : line.amount = 0 := by rw [sale.amount_eq, free, mul_zero, round2_zero]
    simp [lineAmount, linePrice, sale.rawPrice_eq, free, nothing]

/-- The item of a sale is worth what the line says. -/
theorem Sale.montoItem_eq {line : CanonicalLineDto} (sale : Sale line)
    (priced : line.unitPrice ≠ 0) (lineNumber : ℕ) :
    (newItem lineNumber line).montoItem = line.amount := by
  have pos : 0 < line.unitPrice := lt_of_le_of_ne sale.price_nonneg (Ne.symm priced)
  have rawQty_eq : rawQty line = line.quantity := if_pos sale.quantity_pos
  have qty : safeQty line = line.quantity := by
    rw [safeQty, rawQty_eq, if_pos sale.quantity_pos]
    exact Centavos.round2 sale.quantity_grid
  have price : safePrice line = line.unitPrice := by
    rw [safePrice, linePrice, sale.rawPrice_eq, if_neg fun h => absurd pos (not_lt.mpr h.2), round4_eq,
      sale.price_grid.nearest (by decide)]
    exact max_eq_right sale.price_nonneg
  have amount : safeAmount line = line.amount := by
    rw [safeAmount, lineAmount, sale.rawPrice_eq, rawQty_eq]
    split
    · rw [mul_comm, ← sale.amount_eq]
      exact max_eq_right sale.amount_nonneg
    · rw [sale.amount_eq, (centavos_round2 _).round2, ← sale.amount_eq]
      exact max_eq_right sale.amount_nonneg
  have calculated : max 0 (round2 (line.unitPrice * line.quantity)) = line.amount := by
    rw [mul_comm, ← sale.amount_eq]
    exact max_eq_right sale.amount_nonneg
  have none : incomingDiscount line = 0 := by
    rw [incomingDiscount, sale.undiscounted]
    exact if_neg (lt_irrefl 0)
  show (lineFigures line).2.1 = line.amount
  rw [lineFigures, none, if_neg (lt_irrefl 0), qty, price, amount, undiscountedAmount, calculated]
  simp only [ite_self]

/-! ## What one line does to the sum -/

/-- What the items are worth together. -/
def worth (result : List ProcessedLineItem) : ℚ := (result.map (·.montoItem)).sum

/-- What the last item is worth. -/
def lastWorth (result : List ProcessedLineItem) : Option ℚ := result.getLast?.map (·.montoItem)

/-- Every item is worth a whole number of centavos. -/
def WholeItems (result : List ProcessedLineItem) : Prop :=
  ∀ item ∈ result, Centavos item.montoItem

theorem worth_concat (result : List ProcessedLineItem) (item : ProcessedLineItem) :
    worth (result ++ [item]) = worth result + item.montoItem := by
  simp [worth]

theorem lastWorth_concat (result : List ProcessedLineItem) (item : ProcessedLineItem) :
    lastWorth (result ++ [item]) = some item.montoItem := by
  simp [lastWorth]

theorem centavos_newItem (lineNumber : ℕ) (line : CanonicalLineDto) :
    Centavos (newItem lineNumber line).montoItem := by
  have rounded (value : ℚ) : Centavos (max 0 (round2 value)) :=
    centavos_zero.max (centavos_round2 value)
  show Centavos (lineFigures line).2.1
  unfold lineFigures discountedLine undiscountedAmount
  dsimp only
  split_ifs <;> exact rounded _

theorem wholeItems_normalizeLine {result : List ProcessedLineItem} (line : CanonicalLineDto)
    (whole : WholeItems result) : WholeItems (normalizeLine result line) := by
  rw [normalizeLine]
  split_ifs with discounts worthless
  · induction result using List.reverseRecOn with
    | nil => exact absurd rfl discounts.2
    | append_singleton result last =>
      rw [discountLast_concat]
      intro item member
      rcases List.mem_append.mp member with earlier | changed
      · exact whole item (List.mem_append_left _ earlier)
      · rw [List.mem_singleton.mp changed]
        exact centavos_zero.max (centavos_round2 _)
  · exact whole
  · intro item member
    rcases List.mem_append.mp member with earlier | new
    · exact whole item earlier
    · rw [List.mem_singleton.mp new]
      exact centavos_newItem _ line

/-- A sale adds its amount. -/
theorem worth_sale {line : CanonicalLineDto} (sale : Sale line)
    (result : List ProcessedLineItem) :
    worth (normalizeLine result line) = worth result + line.amount ∧
      lastWorth (normalizeLine result line) =
        if line.unitPrice = 0 then lastWorth result else some line.amount := by
  have positive : ¬(line.amount < 0 ∨ rawPrice line < 0) := by
    rw [sale.rawPrice_eq, not_or, not_lt, not_lt]
    exact ⟨sale.amount_nonneg, sale.price_nonneg⟩
  rw [normalizeLine, if_neg fun h => positive h.1]
  by_cases free : line.unitPrice = 0
  · rw [if_pos (sale.worthless_iff.mpr free), if_pos free, sale.amount_eq, free, mul_zero,
      round2_zero, add_zero]
    exact ⟨rfl, rfl⟩
  · rw [if_neg fun h => free (sale.worthless_iff.mp h), if_neg free, worth_concat,
      lastWorth_concat, sale.montoItem_eq free]
    exact ⟨rfl, rfl⟩

/-- A discount that the last item covers takes its amount off. -/
theorem worth_covered {line : CanonicalLineDto} (discount : Discount line)
    {result : List ProcessedLineItem} (whole : WholeItems result) {monto : ℚ}
    (last : lastWorth result = some monto) (covered : 0 ≤ monto + line.amount) :
    worth (normalizeLine result line) = worth result + line.amount ∧
      lastWorth (normalizeLine result line) = some (monto + line.amount) := by
  induction result using List.reverseRecOn with
  | nil => cases last
  | append_singleton result item =>
    have same : item.montoItem = monto := Option.some.inj ((lastWorth_concat _ _).symm.trans last)
    have left : max 0 (round2 (item.montoItem - absDiscount line)) = monto + line.amount := by
      have taken : absDiscount line = -line.amount := by
        rw [absDiscount, if_pos discount.amount_neg.ne, abs_of_neg discount.amount_neg]
      have cents : Centavos (item.montoItem + line.amount) :=
        (whole item (by simp)).add discount.amount_centavos
      rw [taken, sub_neg_eq_add, cents.round2, same]
      exact max_eq_right covered
    rw [normalizeLine, if_pos ⟨.inl discount.amount_neg, by simp⟩, discountLast_concat,
      worth_concat, lastWorth_concat, worth_concat, left, same]
    exact ⟨by ring, rfl⟩

/-- A discount that nothing covers leaves the items worth more than it should. -/
theorem worth_uncovered {line : CanonicalLineDto} (discount : Discount line)
    {result : List ProcessedLineItem} (whole : WholeItems result)
    (uncovered : ∀ monto, lastWorth result = some monto → monto + line.amount < 0) :
    worth result + line.amount < worth (normalizeLine result line) := by
  induction result using List.reverseRecOn with
  | nil =>
    rw [normalizeLine, if_neg fun h => h.2 rfl]
    have low := discount.amount_neg
    split
    · exact add_lt_of_neg_right _ low
    · rw [worth_concat]
      have sound := (sound_newItem 1 line).monto_nonneg
      simp only [List.length_nil, Nat.zero_add]
      linarith
  | append_singleton result item =>
    have low := uncovered _ (lastWorth_concat result item)
    have rest := le_max_left 0 (round2 (item.montoItem - absDiscount line))
    rw [normalizeLine, if_pos ⟨.inl discount.amount_neg, by simp⟩, discountLast_concat,
      worth_concat, worth_concat]
    dsimp only
    linarith

/-! ## What all of them do -/

theorem covered_sale {line : CanonicalLineDto} (sale : Sale line) (left : Option ℚ)
    (rest : List CanonicalLineDto) :
    Covered left (line :: rest) ↔
      Covered (if line.unitPrice = 0 then left else some line.amount) rest := by
  rw [Covered.eq_def left]
  exact iff_of_eq (if_neg (not_lt.mpr sale.amount_nonneg))

theorem covered_discount {line : CanonicalLineDto} (discount : Discount line) (left : Option ℚ)
    (rest : List CanonicalLineDto) :
    Covered left (line :: rest) ↔ ∃ monto, left = some monto ∧ 0 ≤ monto + line.amount ∧
      Covered (some (monto + line.amount)) rest := by
  rw [Covered.eq_def left]
  refine (iff_of_eq (if_pos discount.amount_neg)).trans ?_
  cases left with
  | none => simp
  | some monto => simp

/-- The items are never worth less than the lines, and exactly as much when every
discount is covered. -/
theorem worth_foldl {lines : List CanonicalLineDto}
    (each : ∀ line ∈ lines, Sale line ∨ Discount line) {result : List ProcessedLineItem}
    (whole : WholeItems result) :
    worth result + (lines.map (·.amount)).sum ≤ worth (lines.foldl normalizeLine result) ∧
      (worth (lines.foldl normalizeLine result) = worth result + (lines.map (·.amount)).sum ↔
        Covered (lastWorth result) lines) := by
  induction lines generalizing result with
  | nil => simp [Covered]
  | cons line lines ih =>
    obtain ⟨least, exactly⟩ := ih (fun l h => each l (List.mem_cons_of_mem line h))
      (wholeItems_normalizeLine line whole)
    rw [List.foldl_cons, List.map_cons, List.sum_cons, ← add_assoc]
    rcases each line List.mem_cons_self with sale | discount
    · obtain ⟨sum, last⟩ := worth_sale sale result
      rw [sum] at least exactly
      rw [covered_sale sale, ← last]
      exact ⟨least, exactly⟩
    · by_cases covered : ∃ monto, lastWorth result = some monto ∧ 0 ≤ monto + line.amount
      · obtain ⟨monto, before, enough⟩ := covered
        obtain ⟨sum, last⟩ := worth_covered discount whole before enough
        rw [sum] at least exactly
        rw [last] at exactly
        rw [covered_discount discount, before]
        refine ⟨least, exactly.trans ?_⟩
        simp [enough]
      · have more : worth result + line.amount < worth (normalizeLine result line) :=
          worth_uncovered discount whole fun monto before =>
            not_le.mp fun enough => covered ⟨monto, before, enough⟩
        refine ⟨by linarith, ?_⟩
        constructor
        · intro same
          linarith
        · intro allCovered
          obtain ⟨monto, before, enough, -⟩ := (covered_discount discount _ lines).mp allCovered
          exact absurd ⟨monto, before, enough⟩ covered

/-- Items are never taken away. -/
theorem normalizeLine_ne_nil {result : List ProcessedLineItem} (some : result ≠ [])
    (line : CanonicalLineDto) : normalizeLine result line ≠ [] := by
  rw [normalizeLine]
  split_ifs
  · induction result using List.reverseRecOn with
    | nil => exact absurd rfl some
    | append_singleton result last => simp [discountLast_concat]
  · exact some
  · simp

theorem foldl_ne_nil (lines : List CanonicalLineDto) {result : List ProcessedLineItem}
    (some : result ≠ []) : lines.foldl normalizeLine result ≠ [] := by
  induction lines generalizing result with
  | nil => exact some
  | cons line lines ih => exact ih (normalizeLine_ne_nil some line)

/-- Lines that leave no item come to less than nothing, or are all at no price. -/
theorem worthless_of_foldl_eq_nil {lines : List CanonicalLineDto}
    (each : ∀ line ∈ lines, Sale line ∨ Discount line)
    (none : lines.foldl normalizeLine [] = []) :
    (lines.map (·.amount)).sum ≤ 0 ∧
      ((lines.map (·.amount)).sum = 0 → ∀ line ∈ lines, line.amount = 0 ∧ line.unitPrice = 0) := by
  induction lines with
  | nil => simp
  | cons line lines ih =>
    have first : normalizeLine [] line = [] := by
      by_contra some
      exact foldl_ne_nil lines some none
    rw [List.foldl_cons, first] at none
    obtain ⟨low, free⟩ := ih (fun l h => each l (List.mem_cons_of_mem line h)) none
    rw [List.map_cons, List.sum_cons]
    rcases each line List.mem_cons_self with sale | discount
    · have unpriced : line.unitPrice = 0 := by
        by_contra priced
        have last := (worth_sale sale []).2
        rw [first, if_neg priced] at last
        cases last
      have nothing : line.amount = 0 := by
        rw [sale.amount_eq, unpriced, mul_zero, round2_zero]
      rw [nothing, zero_add]
      refine ⟨low, fun zero l member => ?_⟩
      rcases List.mem_cons.mp member with rfl | later
      · exact ⟨nothing, unpriced⟩
      · exact free zero l later
    · have neg := discount.amount_neg
      exact ⟨by linarith, fun zero => by linarith⟩

theorem normalizeCanonicalLines_eq {lines : List CanonicalLineDto} (billed : Billed lines)
    (defaultTotal : ℚ) :
    normalizeCanonicalLines lines defaultTotal = lines.foldl normalizeLine [] := by
  unfold normalizeCanonicalLines
  split
  · next none =>
    obtain ⟨low, free⟩ := worthless_of_foldl_eq_nil billed.each none
    obtain ⟨line, member, some⟩ := billed.billable
    exact absurd (free (le_antisymm low billed.sum_nonneg) line member) some
  · rfl

/-- The items are worth what the lines are, and none has a negative amount or
price. -/
def Conserves (lines : List CanonicalLineDto) (defaultTotal : ℚ) : Prop :=
  worth (normalizeCanonicalLines lines defaultTotal) = (lines.map (·.amount)).sum ∧
    ∀ item ∈ normalizeCanonicalLines lines defaultTotal, Sound item

/-- **The items are worth what the lines are exactly when every discount is
covered by what is left of the item it reduces.** -/
theorem lines_conserved_iff (lines : List CanonicalLineDto) (defaultTotal : ℚ)
    (billed : Billed lines) : Conserves lines defaultTotal ↔ Covered none lines := by
  have whole : WholeItems [] := by simp [WholeItems]
  have sums := (worth_foldl billed.each whole).2
  rw [Conserves, normalizeCanonicalLines_eq billed]
  constructor
  · rintro ⟨same, -⟩
    exact sums.mp (by simpa [worth] using same)
  · intro covered
    exact ⟨by simpa [worth] using sums.mpr covered, sound_foldl lines (by simp)⟩

/-- Lines of one unit each. -/
def unitLines (amounts : List ℚ) : List CanonicalLineDto :=
  amounts.map fun amount =>
    { itemName := "Servicio", quantity := 1, unitPrice := amount, amount := amount }

theorem billed_unitLines {amounts : List ℚ} (cents : ∀ amount ∈ amounts, Centavos amount)
    (sum : 0 ≤ amounts.sum) (some : ∃ amount ∈ amounts, amount ≠ 0) :
    Billed (unitLines amounts) where
  each := by
    intro line member
    obtain ⟨amount, among, rfl⟩ := List.mem_map.mp member
    have whole := cents amount among
    by_cases low : amount < 0
    · exact .inr ⟨low, whole⟩
    · obtain ⟨k, grid⟩ := whole
      left
      constructor
      · norm_num
      · exact ⟨100, by norm_num⟩
      · exact not_lt.mp low
      · refine ⟨k * 100, ?_⟩
        dsimp only
        rw [grid]
        push_cast
        ring
      · rw [one_mul]
        exact (Centavos.round2 ⟨k, grid⟩).symm
      · rfl
  sum_nonneg := by simpa [unitLines, Function.comp_def] using sum
  billable := by
    obtain ⟨amount, among, nonzero⟩ := some
    exact ⟨_, List.mem_map.mpr ⟨amount, among, rfl⟩, fun free => nonzero free.1⟩

/-- Half of an item is discounted. -/
theorem half_discounted_conserved : Conserves (unitLines [200, -100]) 100 := by
  have cents : ∀ amount ∈ ([200, -100] : List ℚ), Centavos amount := by
    intro amount among
    rcases List.mem_cons.mp among with rfl | among
    · exact ⟨20000, by norm_num⟩
    · rw [List.mem_singleton.mp among]
      exact ⟨-10000, by norm_num⟩
  apply (lines_conserved_iff _ 100
    (billed_unitLines cents (by norm_num) ⟨200, by simp, by norm_num⟩)).mpr
  norm_num [unitLines, Covered]

/-- Two items, and a discount on both. -/
def discountedInvoice : CanonicalDocumentDto where
  sourceReference := {}
  lines := unitLines [100, 50, -80]

/-- A discount of 80.00 on two items reduces the second one, of 50.00, alone. -/
theorem overall_discount_lost :
    ¬ ∀ (dto : CanonicalDocumentDto) (defaultTotal : ℚ), checkAmounts dto = .ok () →
      Billed dto.lines → Conserves dto.lines defaultTotal := by
  intro conserved
  have cents : ∀ amount ∈ ([100, 50, -80] : List ℚ), Centavos amount := by
    intro amount among
    simp only [List.mem_cons, List.not_mem_nil, or_false] at among
    rcases among with rfl | rfl | rfl
    · exact ⟨10000, by norm_num⟩
    · exact ⟨5000, by norm_num⟩
    · exact ⟨-8000, by norm_num⟩
  have passes : checkAmounts discountedInvoice = .ok () := by
    have ok : (checkAmounts discountedInvoice).isOk = true := by decide +kernel
    cases checked : checkAmounts discountedInvoice with
    | error message =>
      rw [checked] at ok
      cases ok
    | ok _ => rfl
  have same := (conserved discountedInvoice 70 passes
    (billed_unitLines cents (by norm_num) ⟨100, by simp, by norm_num⟩)).1
  revert same
  decide +kernel

end EcfDgii.NormalizedLines
