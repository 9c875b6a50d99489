import EcfDgii.DomesticTotals
import EcfDgii.SquaredLines

/-!
The indicators of the lines against the totals of a document in pesos.

The indicator of a line follows its rate, and so does the slot of a bucket; but a
line at no rate is exempt, and a bucket at no rate is taxed at nothing.
`indicators_agree_iff` says when lines and totals agree, for buckets that are the
sums of the lines: when the roundings of the taxed lines cancel, and no line at no
rate comes to anything.
-/

set_option autoImplicit false

namespace EcfDgii.LineIndicators

open EcfDgii.Text EcfDgii.Documents EcfDgii.XmlFormats EcfDgii.Rounding EcfDgii.PrintedAmounts
open EcfDgii.PrintedTotals EcfDgii.CanonicalLines EcfDgii.CanonicalTotals EcfDgii.CanonicalBuilder
open EcfDgii.NormalizedLines EcfDgii.PrintedItems EcfDgii.SquaredLines EcfDgii.ForeignTotals
open EcfDgii.DomesticTotals

/-! ## Lines with a rate -/

/-- A line with a rate, and without an indicator or a discount. -/
structure Rated (line : CanonicalLineDto) : Prop where
  rate : ∃ slot : Slot, line.taxRate = some (slot.rate : ℚ)
  unmarked : line.indicadorFacturacion = none
  undiscounted : line.discountAmount = 0
  amount_nonneg : 0 ≤ line.amount
  price_nonneg : 0 ≤ line.unitPrice

/-- The lines of a rate. -/
def linesAt (slot : Slot) (lines : List CanonicalLineDto) : List CanonicalLineDto :=
  lines.filter fun line => decide (line.taxRate = some (slot.rate : ℚ))

/-- What the lines of a rate say they amount to. -/
def amountAt (slot : Slot) (lines : List CanonicalLineDto) : ℚ :=
  ((linesAt slot lines).map (·.amount)).sum

/-- What the builder makes of a line. -/
def lineWorth (line : CanonicalLineDto) : ℚ := (lineFigures line).2.1

/-- What the builder makes of the lines of a rate. -/
def worthAt (slot : Slot) (lines : List CanonicalLineDto) : ℚ :=
  ((linesAt slot lines).map lineWorth).sum

/-- A line that is sold for quantity times price, whatever its amount: it has none,
in centavos, or is within five of it. -/
def Recalculated (line : CanonicalLineDto) : Prop :=
  (safeAmount line = 0 ∧ 0 < safePrice line) ∨ |safeAmount line - gross line| ≤ 5 / 100

instance (line : CanonicalLineDto) : Decidable (Recalculated line) :=
  inferInstanceAs (Decidable (_ ∨ _))

/-- What the roundings of quantity, price and amount change in a line. -/
def drift (line : CanonicalLineDto) : ℚ :=
  (if Recalculated line then gross line else safeAmount line) - line.amount

/-- What they change in the lines of a rate. -/
def driftAt (slot : Slot) (lines : List CanonicalLineDto) : ℚ :=
  ((linesAt slot lines).map drift).sum

/-- The indicator of a line of a rate: a line at no rate is exempt. -/
def rateIndicador : Slot → ℤ
  | .i1 => 1
  | .i2 => 2
  | .i3 => 4

theorem rate_injective {one other : Slot} (same : (one.rate : ℚ) = other.rate) : one = other := by
  cases one <;> cases other <;> first | rfl | simp [Slot.rate] at same

theorem lineIndicador_of_rate {line : CanonicalLineDto} (unmarked : line.indicadorFacturacion = none)
    {slot : Slot} (rate : line.taxRate = some (slot.rate : ℚ)) :
    lineIndicador line = (rateIndicador slot, true) := by
  unfold lineIndicador
  rw [unmarked, rate]
  cases slot <;> simp [Slot.rate, rateIndicador]

/-- A line is worth its amount and its drift. -/
theorem lineWorth_eq {line : CanonicalLineDto} (rated : Rated line) :
    lineWorth line = line.amount + drift line := by
  have none : incomingDiscount line = 0 := by
    rw [incomingDiscount, rated.undiscounted]
    exact if_neg (lt_irrefl 0)
  have calculated : max 0 (round2 (safePrice line * safeQty line)) = gross line := by
    rw [mul_comm]
    exact max_eq_right (gross_nonneg line)
  have worth : lineWorth line = if Recalculated line then gross line else safeAmount line := by
    rw [lineWorth, lineFigures, none, if_neg (lt_irrefl 0)]
    dsimp only
    rw [undiscountedAmount, calculated]
    by_cases free : safeAmount line = 0 ∧ 0 < safePrice line
    · rw [if_pos free, if_pos (.inl free)]
    · rw [if_neg free]
      exact if_congr ⟨.inr, fun h => h.resolve_left free⟩ rfl rfl
  rw [worth, drift]
  ring

/-- A line comes to nothing when quantity times price do, and its amount is next
to nothing. -/
theorem lineWorth_eq_zero_iff {line : CanonicalLineDto} (rated : Rated line) :
    lineWorth line = 0 ↔ gross line = 0 ∧ safeAmount line ≤ 5 / 100 := by
  have nonneg := safeAmount_nonneg line
  rw [lineWorth_eq rated, drift, add_sub_cancel]
  constructor
  · intro nothing
    split at nothing
    · next recalculated =>
      refine ⟨nothing, ?_⟩
      rcases recalculated with ⟨free, -⟩ | close
      · rw [free]
        norm_num
      · rwa [nothing, sub_zero, abs_of_nonneg nonneg] at close
    · next kept =>
      have noPrice : safePrice line = 0 := by
        by_contra some
        exact kept (.inl ⟨nothing, lt_of_le_of_ne (safePrice_nonneg line) (Ne.symm some)⟩)
      have product : gross line = 0 := by rw [gross, noPrice, mul_zero, round2_zero]
      exact ⟨product, by rw [nothing]; norm_num⟩
  · rintro ⟨product, small⟩
    have recalculated : Recalculated line := by
      right
      rwa [product, sub_zero, abs_of_nonneg nonneg]
    rw [if_pos recalculated, product]

/-- A sale in whole units of the grids drifts nowhere. -/
theorem drift_of_sale {line : CanonicalLineDto} (rated : Rated line) (sale : Sale line)
    (priced : line.unitPrice ≠ 0) : drift line = 0 := by
  have worth : lineWorth line = line.amount := sale.montoItem_eq priced 1
  linarith [lineWorth_eq rated]

/-- A line worth nothing is nothing. -/
theorem lineWorth_of_worthless {line : CanonicalLineDto} (rated : Rated line)
    (worthless : lineAmount line ≤ 0 ∧ linePrice line ≤ 0) : lineWorth line = 0 := by
  have amount : safeAmount line = 0 := max_eq_left (round2_nonpos worthless.1)
  have price : safePrice line = 0 := by
    apply max_eq_left
    have mirrored := round4_nonneg (neg_nonneg.mpr worthless.2)
    rw [round4_eq, nearest_neg, ← round4_eq] at mirrored
    exact neg_nonneg.mp mirrored
  refine (lineWorth_eq_zero_iff rated).mpr ⟨?_, by rw [amount]; norm_num⟩
  rw [gross, price, mul_zero, round2_zero]

/-- A line with a rate discounts nothing. -/
theorem normalizeLine_of_rated {line : CanonicalLineDto} (rated : Rated line)
    (result : List ProcessedLineItem) :
    normalizeLine result line =
      if lineAmount line ≤ 0 ∧ linePrice line ≤ 0 then result
      else result ++ [newItem (result.length + 1) line] := by
  have positive : ¬(line.amount < 0 ∨ rawPrice line < 0) := by
    rw [not_or, not_lt, not_lt]
    refine ⟨rated.amount_nonneg, ?_⟩
    unfold rawPrice
    split_ifs
    · exact rated.price_nonneg
    · exact rated.price_nonneg
    · exact rated.amount_nonneg
  rw [normalizeLine, if_neg fun h => positive h.1]

/-! ## The items of lines with a rate -/

/-- What the items of an indicator are worth. -/
def tally (indicador : ℤ) (items : List ProcessedLineItem) : ℚ :=
  ((itemsOf indicador items).map (·.montoItem)).sum

/-- Items whose indicator comes from their line, in whole centavos. -/
def Marked (items : List ProcessedLineItem) : Prop :=
  ∀ item ∈ items, item.hasExplicitIndicador = true ∧ Centavos item.montoItem

theorem tally_concat (indicador : ℤ) (items : List ProcessedLineItem) (item : ProcessedLineItem) :
    tally indicador (items ++ [item]) =
      tally indicador items + if item.indicadorFacturacion = indicador then item.montoItem else 0 := by
  unfold tally itemsOf
  rw [List.filter_append, List.map_append, List.sum_append]
  by_cases among : item.indicadorFacturacion = indicador
  · simp [among]
  · simp [among]

/-- What the builder makes of the lines of an indicator. -/
def worthUnder (indicador : ℤ) (lines : List CanonicalLineDto) : ℚ :=
  (lines.map fun line => if (lineIndicador line).1 = indicador then lineWorth line else 0).sum

theorem tally_foldl {lines : List CanonicalLineDto} (rated : ∀ line ∈ lines, Rated line)
    (indicador : ℤ) {result : List ProcessedLineItem} (marked : Marked result) :
    Marked (lines.foldl normalizeLine result) ∧
      tally indicador (lines.foldl normalizeLine result) =
        tally indicador result + worthUnder indicador lines := by
  induction lines generalizing result with
  | nil => exact ⟨marked, (add_zero _).symm⟩
  | cons line lines ih =>
    have own := rated line List.mem_cons_self
    have rest := fun l h => rated l (List.mem_cons_of_mem line h)
    rw [List.foldl_cons, normalizeLine_of_rated own, worthUnder, List.map_cons, List.sum_cons,
      ← add_assoc]
    split
    · next worthless =>
      rw [lineWorth_of_worthless own worthless, ite_self, add_zero]
      exact ih rest marked
    · have next : Marked (result ++ [newItem (result.length + 1) line]) := by
        intro item member
        rcases List.mem_append.mp member with earlier | new
        · exact marked item earlier
        · rw [List.mem_singleton.mp new]
          obtain ⟨slot, rate⟩ := own.rate
          refine ⟨?_, centavos_newItem _ line⟩
          show (lineIndicador line).2 = true
          rw [lineIndicador_of_rate own.unmarked rate]
      obtain ⟨after, sum⟩ := ih rest next
      refine ⟨after, ?_⟩
      rw [sum, tally_concat]
      rfl

/-- The lines of an indicator are those of its rate. -/
theorem worthUnder_rate {lines : List CanonicalLineDto} (rated : ∀ line ∈ lines, Rated line)
    (slot : Slot) : worthUnder (rateIndicador slot) lines = worthAt slot lines := by
  unfold worthUnder worthAt linesAt
  induction lines with
  | nil => rfl
  | cons line lines ih =>
    have own := rated line List.mem_cons_self
    obtain ⟨at_slot, rate⟩ := own.rate
    have rest := ih fun l h => rated l (List.mem_cons_of_mem line h)
    rw [List.map_cons, List.sum_cons, rest, lineIndicador_of_rate own.unmarked rate]
    by_cases same : at_slot = slot
    · subst same
      simp [rate]
    · have other : ¬rateIndicador at_slot = rateIndicador slot := by
        intro h
        apply same
        cases at_slot <;> cases slot <;> first | rfl | simp [rateIndicador] at h
      have otherRate : ¬(at_slot.rate : ℚ) = slot.rate := fun h => same (rate_injective h)
      simp [rate, other, otherRate]

/-- No rate gives the indicator of the third slot. -/
theorem worthUnder_three {lines : List CanonicalLineDto} (rated : ∀ line ∈ lines, Rated line) :
    worthUnder 3 lines = 0 := by
  unfold worthUnder
  apply List.sum_eq_zero
  intro value member
  obtain ⟨line, among, rfl⟩ := List.mem_map.mp member
  have own := rated line among
  obtain ⟨slot, rate⟩ := own.rate
  rw [lineIndicador_of_rate own.unmarked rate]
  cases slot <;> rfl

/-! ## Documents of such lines -/

/-- A document in pesos of lines with a rate, whose buckets are their sums. -/
structure RatedDocument (dto : CanonicalDocumentDto) : Prop where
  domestic : isForeignCurrency dto = false
  slotted : Slotted (tipo dto)
  petty : modifiesGastosMenores dto = false
  exported : modifiesExport dto = false
  rated : ∀ line ∈ dto.lines, Rated line
  sums : ∀ slot, slotSum (·.base) dto slot = amountAt slot dto.lines
  carried : ∀ line ∈ dto.lines, ∃ bucket ∈ dto.totals.taxBuckets,
    line.taxRate = some (bucket.rate : ℚ)
  exento : dto.totals.montoExento.getD 0 = 0

/-- Lines at no amount and no price. -/
def AllFree (lines : List CanonicalLineDto) : Prop :=
  ∀ line ∈ lines, line.amount = 0 ∧ line.unitPrice = 0

instance (lines : List CanonicalLineDto) : Decidable (AllFree lines) :=
  inferInstanceAs (Decidable (∀ line ∈ lines, _))

/-- The amount of the only item of a document without a line at an amount or a
price. -/
def soleAmount (totals : CanonicalTotalsDto) : ℚ :=
  if 0 < totals.montoSubtotal then totals.montoSubtotal
  else max 0 (totals.montoTotal - totals.montoItbis)

/-- Whether lines and totals agree.  At 18 and 16 per cent, what the roundings change
in the lines is what printing changes in their sum, nothing when it is in centavos;
at no rate, no line comes to anything.  Lines at no price at all are replaced by one
for the whole. -/
def Settled (dto : CanonicalDocumentDto) : Prop :=
  if AllFree dto.lines then
    cents .even (soleAmount dto.totals) =
      if dto.totals.taxBuckets = [] then positive .even (givenGravado dto.totals) else 0
  else
    (∀ slot : Slot, slot ≠ .i3 →
      driftAt slot dto.lines =
        cents .even (amountAt slot dto.lines) - amountAt slot dto.lines) ∧
    cents .even (amountAt .i3 dto.lines) = 0 ∧
    ∀ line ∈ linesAt .i3 dto.lines, gross line = 0 ∧ safeAmount line ≤ 5 / 100

variable {dto : CanonicalDocumentDto}

theorem RatedDocument.taxed (document : RatedDocument dto) :
    isPurelyExemptOrNonTaxable dto = false := by
  simp [isPurelyExemptOrNonTaxable, document.petty, document.exento]

/-- A line with a rate is worthless when it has neither amount nor price. -/
theorem worthless_iff {line : CanonicalLineDto} (rated : Rated line) :
    (lineAmount line ≤ 0 ∧ linePrice line ≤ 0) ↔ line.amount = 0 ∧ line.unitPrice = 0 := by
  constructor
  · rintro ⟨amount, price⟩
    have noPrice : line.unitPrice = 0 := by
      by_contra some
      have pos : 0 < line.unitPrice := lt_of_le_of_ne rated.price_nonneg (Ne.symm some)
      have raw : rawPrice line = line.unitPrice := by
        unfold rawPrice
        rw [if_pos some, ite_self]
      rw [linePrice, raw, if_neg fun h => absurd pos (not_lt.mpr h.2)] at price
      exact absurd pos (not_lt.mpr price)
    refine ⟨?_, noPrice⟩
    by_contra some
    have pos : 0 < line.amount := lt_of_le_of_ne rated.amount_nonneg (Ne.symm some)
    rw [lineAmount, if_neg fun h => absurd pos (not_lt.mpr h.1)] at amount
    exact absurd pos (not_lt.mpr amount)
  · rintro ⟨amount, price⟩
    simp [lineAmount, linePrice, rawPrice, amount, price]

/-- Lines at no price leave no item, and others do. -/
theorem foldl_eq_nil_iff {lines : List CanonicalLineDto} (rated : ∀ line ∈ lines, Rated line) :
    lines.foldl normalizeLine [] = [] ↔ AllFree lines := by
  induction lines with
  | nil => simp [AllFree]
  | cons line lines ih =>
    have own := rated line List.mem_cons_self
    have rest := ih fun l h => rated l (List.mem_cons_of_mem line h)
    rw [AllFree, List.forall_mem_cons, ← worthless_iff own, List.foldl_cons,
      normalizeLine_of_rated own]
    split
    · next worthless => simpa [worthless, AllFree] using rest
    · next worth =>
      simp only [worth, false_and, iff_false]
      exact foldl_ne_nil lines (by simp)

/-- An item with an indicator keeps it. -/
theorem effInd_of_marked (document : RatedDocument dto) {item : ProcessedLineItem}
    (marked : item.hasExplicitIndicador = true) : effInd dto item = item.indicadorFacturacion := by
  have exempt := document.slotted.1
  have abroad := document.slotted.2
  simp [effInd, exempt, document.petty, abroad, document.exported, document.taxed, marked]

/-- What is printed under an indicator is what the lines of its rate are worth. -/
theorem printedUnder_of_rated (document : RatedDocument dto) (some : ¬AllFree dto.lines)
    (indicador : ℤ) : printedUnder dto indicador = worthUnder indicador dto.lines := by
  have nothing : Marked [] := by simp [Marked]
  obtain ⟨marked, sum⟩ := tally_foldl document.rated indicador nothing
  have items : normalizeCanonicalLines dto.lines (fallbackLineDefault dto) =
      dto.lines.foldl normalizeLine [] := by
    unfold normalizeCanonicalLines
    split
    · next none => exact absurd ((foldl_eq_nil_iff document.rated).mp none) some
    · rfl
  have tallied (items : List ProcessedLineItem) (marked : Marked items) :
      ((itemsOf indicador (items.map (convertItem dto))).map fun item =>
        cents .even item.montoItemDop).sum = tally indicador items := by
    unfold tally itemsOf
    induction items with
    | nil => rfl
    | cons item items ih =>
      obtain ⟨explicit, whole⟩ := marked item List.mem_cons_self
      have rest := ih fun i h => marked i (List.mem_cons_of_mem item h)
      have same : (convertItem dto item).indicadorFacturacion = item.indicadorFacturacion := by
        rw [convertItem_domestic document.domestic]
        exact effInd_of_marked document explicit
      have monto : cents .even (convertItem dto item).montoItemDop = item.montoItem := by
        rw [convertItem_domestic document.domestic]
        exact whole.cents .even
      by_cases among : item.indicadorFacturacion = indicador
      · simp only [List.map_cons, List.filter_cons, same, among, decide_true, if_true,
          List.sum_cons, monto, rest]
      · simp only [List.map_cons, List.filter_cons, same, among, decide_false,
          Bool.false_eq_true, if_false, rest]
  have none : tally indicador [] = 0 := rfl
  rw [printedUnder_eq, processedItems, items, tallied _ marked, sum, none, zero_add]

/-- A document of nothing prints one item for the whole. -/
theorem printedUnder_of_free (document : RatedDocument dto) (free : AllFree dto.lines)
    (indicador : ℤ) :
    printedUnder dto indicador =
      if (if hasOnly16Bucket dto then 2 else 1) = indicador then
        cents .even (fallbackLineDefault dto)
      else 0 := by
  have none := (foldl_eq_nil_iff document.rated).mpr free
  have default : defaultIndicador dto = if hasOnly16Bucket dto then 2 else 1 := by
    have exempt := document.slotted.1
    have abroad := document.slotted.2
    simp [defaultIndicador, exempt, abroad, document.exported, document.taxed]
  have exempt := document.slotted.1
  have abroad := document.slotted.2
  rw [printedUnder_eq, processedItems, normalizeCanonicalLines, none]
  simp only [List.map_cons, List.map_nil, convertItem_domestic document.domestic, itemsOf,
    List.filter_cons, List.filter_nil, effInd, exempt, document.petty, abroad, document.exported,
    document.taxed, default, Bool.false_eq_true, or_self, if_false, decide_eq_true_eq]
  generalize (if hasOnly16Bucket dto = true then (2 : ℤ) else 1) = own
  by_cases same : own = indicador
  · simp [same]
  · simp [same]

/-- What a document of rated lines prints in its slots. -/
theorem figures_of_rated (document : RatedDocument dto) :
    (∀ slot, (figures .even (totales dto).lines).base slot =
      cents .even (if dto.totals.taxBuckets = [] then
        (if slot = .i1 then max 0 (gravado dto) else 0) else amountAt slot dto.lines)) ∧
      (figures .even (totales dto).lines).exento = 0 := by
  have inForce : totales dto = domesticTotales dto := by
    rw [totales, document.domestic]
    rfl
  have own : exento dto = 0 := by
    rw [exento, document.petty]
    exact document.exento
  rw [inForce, (figures_of_slotted document.slotted).1]
  refine ⟨fun slot => ?_, ?_⟩
  · dsimp only
    congr 1
    unfold domesticTramos
    by_cases none : dto.totals.taxBuckets = []
    · rw [if_pos none, if_neg (by simp [none])]
      by_cases pos : 0 < gravado dto
      · rw [if_pos pos, document.exported, max_eq_right pos.le]
        cases slot <;> simp [bases, single]
      · rw [if_neg pos, max_eq_left (not_lt.mp pos), ite_self]
        rfl
    · rw [if_neg none, if_pos ⟨fun h => none (List.length_eq_zero_iff.mp h), by
        simp [document.taxed]⟩, (bucketTramos_sums _ slot).1]
      exact document.sums slot
  · dsimp only
    rw [own, positive_zero]

theorem positive_eq (value : ℚ) : positive .even value = cents .even (max 0 value) := by
  unfold positive
  split
  · next pos => rw [max_eq_right pos.le]
  · next low => rw [max_eq_left (not_lt.mp low), cents_zero]

/-- Lines at no price amount to nothing. -/
theorem amountAt_of_free {lines : List CanonicalLineDto} (free : AllFree lines) (slot : Slot) :
    amountAt slot lines = 0 := by
  unfold amountAt
  apply List.sum_eq_zero
  intro value member
  obtain ⟨line, among, rfl⟩ := List.mem_map.mp member
  exact (free line (List.mem_filter.mp among).1).1

/-- The item for the whole, of a document that is neither exempt nor an export. -/
theorem fallback_eq (document : RatedDocument dto) :
    fallbackLineDefault dto = soleAmount dto.totals := by
  have exempt := document.slotted.1
  have abroad := document.slotted.2
  simp only [fallbackLineDefault, exempt, abroad, document.exported, Bool.false_eq_true, or_self,
    if_false]
  unfold soleAmount
  split
  · next some => exact max_eq_right some.le
  · exact max_eq_right (le_max_left 0 _)

/-- The lines of a rate are worth their amounts and their drifts. -/
theorem worthAt_eq {lines : List CanonicalLineDto} (rated : ∀ line ∈ lines, Rated line)
    (slot : Slot) : worthAt slot lines = amountAt slot lines + driftAt slot lines := by
  unfold worthAt amountAt driftAt linesAt
  rw [← List.sum_map_add]
  refine congrArg List.sum (List.map_congr_left fun line member => ?_)
  exact lineWorth_eq (rated line (List.mem_filter.mp member).1)

theorem worthAt_eq_zero_iff {lines : List CanonicalLineDto} (rated : ∀ line ∈ lines, Rated line)
    (slot : Slot) :
    worthAt slot lines = 0 ↔
      ∀ line ∈ linesAt slot lines, gross line = 0 ∧ safeAmount line ≤ 5 / 100 := by
  have nonneg : ∀ value ∈ (linesAt slot lines).map lineWorth, 0 ≤ value := by
    intro value member
    obtain ⟨line, -, rfl⟩ := List.mem_map.mp member
    exact (sound_newItem 1 line).monto_nonneg
  have own (line : CanonicalLineDto) (member : line ∈ linesAt slot lines) :=
    lineWorth_eq_zero_iff (rated line (List.mem_filter.mp member).1)
  constructor
  · intro nothing line member
    apply (own line member).mp
    exact List.all_zero_of_le_zero_le_of_sum_eq_zero nonneg nothing (List.mem_map_of_mem member)
  · intro each
    apply List.sum_eq_zero
    intro value member
    obtain ⟨line, among, rfl⟩ := List.mem_map.mp member
    exact (own line among).mpr (each line among)

theorem settled_of_free_iff (document : RatedDocument dto) (free : AllFree dto.lines) :
    ByLine dto (figures .even (totales dto).lines) ↔ Settled dto := by
  obtain ⟨base, exento⟩ := figures_of_rated document
  rw [ByLine, Settled, if_pos free, exento, positive_eq, ← fallback_eq document,
    ← (given_of_taxed document.taxed).1]
  simp only [base, printedUnder_of_free document free, amountAt_of_free free]
  by_cases none : dto.totals.taxBuckets = []
  · have one : hasOnly16Bucket dto = false := by simp [hasOnly16Bucket, none]
    simp only [none, one, if_true, Bool.false_eq_true, if_false]
    constructor
    · rintro ⟨slots, -⟩
      exact (slots .i1).symm
    · intro same
      refine ⟨fun slot => ?_, rfl⟩
      cases slot
      · exact same.symm
      · exact cents_zero
      · exact cents_zero
  · simp only [none, if_false, cents_zero]
    constructor
    · rintro ⟨slots, -⟩
      cases only : hasOnly16Bucket dto with
      | true =>
        have second := slots .i2
        simp only [only, if_true, Slot.indicador] at second
        exact second.symm
      | false =>
        have first := slots .i1
        simp only [only, Bool.false_eq_true, if_false, Slot.indicador, if_true] at first
        exact first.symm
    · intro nothing
      simp [nothing]

theorem settled_of_lines_iff (document : RatedDocument dto) (some : ¬AllFree dto.lines) :
    ByLine dto (figures .even (totales dto).lines) ↔ Settled dto := by
  obtain ⟨base, exento⟩ := figures_of_rated document
  have buckets : dto.totals.taxBuckets ≠ [] := by
    intro none
    apply some
    intro line member
    obtain ⟨bucket, among, -⟩ := document.carried line member
    rw [none] at among
    cases among
  have one : printedUnder dto 1 = worthAt .i1 dto.lines :=
    (printedUnder_of_rated document some 1).trans (worthUnder_rate document.rated .i1)
  have two : printedUnder dto 2 = worthAt .i2 dto.lines :=
    (printedUnder_of_rated document some 2).trans (worthUnder_rate document.rated .i2)
  have three : printedUnder dto 3 = 0 :=
    (printedUnder_of_rated document some 3).trans (worthUnder_three document.rated)
  have four : printedUnder dto 4 = worthAt .i3 dto.lines :=
    (printedUnder_of_rated document some 4).trans (worthUnder_rate document.rated .i3)
  have own (slot : Slot) : cents .even (amountAt slot dto.lines) = worthAt slot dto.lines ↔
      driftAt slot dto.lines =
        cents .even (amountAt slot dto.lines) - amountAt slot dto.lines := by
    rw [worthAt_eq document.rated]
    constructor <;> intro same <;> linarith
  rw [ByLine, Settled, if_neg some, exento, four, ← worthAt_eq_zero_iff document.rated]
  simp only [base, if_neg buckets]
  constructor
  · rintro ⟨slots, exempt⟩
    refine ⟨fun slot taxed => (own slot).mp ?_, (slots .i3).trans three, exempt.symm⟩
    cases slot
    · exact (slots .i1).trans one
    · exact (slots .i2).trans two
    · exact absurd rfl taxed
  · rintro ⟨taxed, third, exempt⟩
    refine ⟨fun slot => ?_, exempt.symm⟩
    cases slot
    · exact ((own .i1).mpr (taxed .i1 (by decide))).trans one.symm
    · exact ((own .i2).mpr (taxed .i2 (by decide))).trans two.symm
    · exact third.trans three.symm

/-- An E31 in pesos with one line of 100.00 and its bucket. -/
def ratedInvoice (slot : Slot) : CanonicalDocumentDto where
  sourceReference := { txnId := "T1" }
  tipoComprobante := "E31"
  header := { rncComprador := "131880681" }
  lines := [{ quantity := 1, unitPrice := 100, amount := 100, taxRate := some (slot.rate : ℚ) }]
  totals :=
    { montoSubtotal := 100
      taxBuckets := [{ rate := slot.rate, base := 100, tax := slot.rate }]
      montoItbis := slot.rate
      montoTotal := 100 + slot.rate }

theorem rated_ratedInvoice (slot : Slot) : RatedDocument (ratedInvoice slot) where
  domestic := by
    show isForeignCurrency { sourceReference := {} } = false
    decide
  slotted := by
    have typed : tipo (ratedInvoice slot) = "31" := by
      show CanonicalXml.tipoEcf "E31" = "31"
      decide
    rw [typed]
    constructor <;> decide
  petty := by
    show modifiesGastosMenores { sourceReference := {}, tipoComprobante := "E31" } = false
    decide
  exported := by
    show modifiesExport { sourceReference := {}, tipoComprobante := "E31" } = false
    decide
  rated := by
    intro line member
    rw [List.mem_singleton.mp member]
    exact ⟨⟨slot, rfl⟩, rfl, rfl, by norm_num, by norm_num⟩
  sums := by
    intro other
    cases slot <;> cases other <;> decide +kernel
  carried := by
    intro line member
    rw [List.mem_singleton.mp member]
    exact ⟨_, List.mem_singleton_self _, rfl⟩
  exento := rfl

end EcfDgii.LineIndicators
