import EcfDgii.CanonicalBuilder
import EcfDgii.PrintedTotals
import EcfDgii.DocumentInvariants

/-!
The totals of a consumer invoice's summary (`<Totales>` of `buildRfceXml`), and
when they are those of the invoice.

The summary works its totals out again, from the document when it is in pesos
and says how it is taxed, and otherwise from the total and the ITBIS of the
stored row, which it takes for an amount taxed at 18 % or for an exempt one.
`rfce_agrees_iff` says which invoices have a summary that agrees with them.
-/

set_option autoImplicit false

namespace EcfDgii.RfceTotals

open EcfDgii.Text EcfDgii.Documents EcfDgii.Engine EcfDgii.Submission EcfDgii.SubmissionFollows
open EcfDgii.CanonicalXml EcfDgii.XmlFormats EcfDgii.CanonicalLines EcfDgii.CanonicalTotals
open EcfDgii.CanonicalBuilder EcfDgii.PrintedTotals EcfDgii.DocumentInvariants
open EcfDgii.Rounding EcfDgii.PrintedAmounts

variable {ties : Ties}

/-! ## The summary -/

/-- A document in pesos that says how it is taxed. -/
def saysTaxes (dto : CanonicalDocumentDto) : Bool :=
  !(resolveCanonicalCurrency dto.currency).isForeign &&
    (decide (dto.totals.taxBuckets.length ≠ 0) || dto.totals.montoGravadoTotal.isSome ||
      dto.totals.montoExento.isSome)

/-- A line for every slot with a positive amount. -/
def positiveLines (name : String) (amount : Slot → Option ℚ) : List TotalLine :=
  slots.flatMap fun slot =>
    amountIf (decide (0 < (amount slot).getD 0)) (name ++ slot.number) ((amount slot).getD 0)

/-- The lines of a summary: taxed amounts, exempt amount, ITBIS. -/
def summaryLines (gravadoTotal exentoTotal itbisTotal : ℚ) (tramos : Tramos) : List TotalLine :=
  let taxTotal := sumSlots (taxes tramos)
  amountIf (decide (0 < gravadoTotal)) "MontoGravadoTotal" gravadoTotal ++
  positiveLines "MontoGravadoI" (bases tramos) ++
  amountIf (decide (0 < exentoTotal)) "MontoExento" exentoTotal ++
  if 0 < itbisTotal ∨ 0 < taxTotal then
    .amount "TotalITBIS" (if 0 < itbisTotal then itbisTotal else taxTotal) ::
      positiveLines "TotalITBIS" (taxes tramos)
  else []

/-- The lines of a document that says how it is taxed. -/
def statedLines (doc : EcfDocument) (dto : CanonicalDocumentDto) : List TotalLine :=
  let gravadoTotal := dto.totals.montoGravadoTotal.getD 0
  let exentoTotal := dto.totals.montoExento.getD 0
  let itbisTotal := dto.totals.montoItbis
  if dto.totals.taxBuckets.length ≠ 0 then
    let tramos := bucketTramos id dto.totals.taxBuckets
    summaryLines (if gravadoTotal = 0 then sumSlots (bases tramos) else gravadoTotal) exentoTotal
      itbisTotal tramos
  else if 0 < doc.itbisAmount then
    let base := max 0 (doc.totalAmount - doc.itbisAmount)
    summaryLines base exentoTotal itbisTotal (single .i1 ⟨base, doc.itbisAmount⟩)
  else summaryLines gravadoTotal doc.totalAmount itbisTotal noTramos

/-- The lines taken from the stored row alone. -/
def storedLines (doc : EcfDocument) : List TotalLine :=
  if 0 < doc.itbisAmount then
    let montoGravado := max 0 (doc.totalAmount - doc.itbisAmount)
    [.amount "MontoGravadoTotal" montoGravado, .amount "MontoGravadoI1" montoGravado,
      .amount "TotalITBIS" doc.itbisAmount, .amount "TotalITBIS1" doc.itbisAmount]
  else [.amount "MontoExento" doc.totalAmount]

/-- `<Totales>` of `buildRfceXml`. -/
def rfceTotales (doc : EcfDocument) (dto : Option CanonicalDocumentDto) : List TotalLine :=
  (match dto.filter saysTaxes with
    | some dto => statedLines doc dto
    | none => storedLines doc) ++ [.amount "MontoTotal" doc.totalAmount]

/-- The row a document is stored in (`applyCanonicalContent`). -/
def stored (ext : Externals) (now : ℕ) (doc : EcfDocument) (dto : CanonicalDocumentDto)
    (editSequence emisorRnc emisorRazonSocial : String) : EcfDocument :=
  applyCanonicalContent (withBuilder ext) now doc dto editSequence emisorRnc emisorRazonSocial

theorem stored_totalAmount (ext : Externals) (now : ℕ) (doc : EcfDocument)
    (dto : CanonicalDocumentDto) (editSequence emisorRnc emisorRazonSocial : String) :
    (stored ext now doc dto editSequence emisorRnc emisorRazonSocial).totalAmount =
      (totales dto).totalDop := rfl

theorem stored_itbisAmount (ext : Externals) (now : ℕ) (doc : EcfDocument)
    (dto : CanonicalDocumentDto) (editSequence emisorRnc emisorRazonSocial : String) :
    (stored ext now doc dto editSequence emisorRnc emisorRazonSocial).itbisAmount =
      (totales dto).itbisDop := rfl

section

variable (gravado exento itbis total : ℚ) (tramos : Tramos)

/-- The lines of the ITBIS hold nothing else. -/
theorem figures_summaryLines :
    figures ties (summaryLines gravado exento itbis tramos ++ [.amount "MontoTotal" total]) =
      { gravado := positive ties gravado
        base := fun slot => positive ties ((bases tramos slot).getD 0)
        exento := positive ties exento
        itbis := positive ties (if 0 < itbis then itbis else sumSlots (taxes tramos))
        tax := fun slot => if 0 < itbis ∨ 0 < sumSlots (taxes tramos) then
          positive ties ((taxes tramos slot).getD 0) else 0
        total := cents ties total } := by
  have itbisTotal : (if 0 < itbis ∨ 0 < sumSlots (taxes tramos) then
      cents ties (if 0 < itbis then itbis else sumSlots (taxes tramos)) else 0) =
      positive ties (if 0 < itbis then itbis else sumSlots (taxes tramos)) := by
    unfold positive
    by_cases own : 0 < itbis
    · simp [own]
    · simp [own]
  rw [← itbisTotal]
  by_cases taxed : 0 < itbis ∨ 0 < sumSlots (taxes tramos)
  all_goals
    ext slot
    any_goals cases slot
  all_goals
    simp only [ne_eq, String.reduceEq, not_false_eq_true, figures, summaryLines, positiveLines,
      slots, List.flatMap_cons, List.flatMap_nil, List.append_nil,
      List.append_assoc, List.cons_append, taxed, if_true, if_false, valueOf_skipIf, valueOf_skip,
      valueOf_amountIf, valueOf_amount, valueOf_nil, Slot.number, String.reduceAppend, positive]

/-- The figures of a summary taken from the stored row. -/
theorem figures_storedLines (doc : EcfDocument) :
    figures ties (storedLines doc ++ [.amount "MontoTotal" doc.totalAmount]) =
      if 0 < doc.itbisAmount then
        { gravado := cents ties (max 0 (doc.totalAmount - doc.itbisAmount))
          base := fun slot => if slot = .i1 then
            cents ties (max 0 (doc.totalAmount - doc.itbisAmount)) else 0
          exento := 0
          itbis := cents ties doc.itbisAmount
          tax := fun slot => if slot = .i1 then cents ties doc.itbisAmount else 0
          total := cents ties doc.totalAmount }
      else
        { gravado := 0
          base := fun _ => 0
          exento := cents ties doc.totalAmount
          itbis := 0
          tax := fun _ => 0
          total := cents ties doc.totalAmount } := by
  by_cases taxed : 0 < doc.itbisAmount
  all_goals
    rw [storedLines]
    simp only [taxed, if_true, if_false]
    ext slot
    any_goals cases slot
  all_goals
    simp only [ne_eq, String.reduceEq, not_false_eq_true, figures, List.cons_append,
      List.nil_append, valueOf_skip, valueOf_amount, valueOf_nil, Slot.number, String.reduceAppend,
      reduceCtorEq, if_true, if_false]

end

/-! ## Documents whose totals fit together -/

/-- The totals of a document fit together, around a taxed amount: what is given
of them is not negative and adds up. -/
structure Consistent (totals : CanonicalTotalsDto) (gravado : ℚ) : Prop where
  total : totals.montoTotal = gravado + totals.montoExento.getD 0 + totals.montoItbis
  given : ∀ g, totals.montoGravadoTotal = some g → g = gravado
  gravado_nonneg : 0 ≤ gravado
  exento_nonneg : 0 ≤ totals.montoExento.getD 0
  itbis_nonneg : 0 ≤ totals.montoItbis
  buckets_nonneg : ∀ bucket ∈ totals.taxBuckets, 0 ≤ bucket.base ∧ 0 ≤ bucket.tax
  buckets : totals.taxBuckets ≠ [] →
    (totals.taxBuckets.map (·.base)).sum = gravado ∧
      (totals.taxBuckets.map (·.tax)).sum = totals.montoItbis

theorem Consistent.givenGravado_nonneg {totals : CanonicalTotalsDto} {gravado : ℚ}
    (consistent : Consistent totals gravado) : 0 ≤ givenGravado totals := by
  unfold givenGravado
  cases given : totals.montoGravadoTotal with
  | none => exact le_max_left 0 _
  | some g =>
    rw [Option.getD_some, consistent.given g given]
    exact consistent.gravado_nonneg

/-- What the buckets of a consistent document give: amounts that are not
negative and add up to the taxed amount and the ITBIS. -/
structure BucketFigures (totals : CanonicalTotalsDto) (gravado : ℚ) : Prop where
  base_nonneg : ∀ slot, 0 ≤ (bases (bucketTramos id totals.taxBuckets) slot).getD 0
  tax_nonneg : ∀ slot, 0 ≤ (taxes (bucketTramos id totals.taxBuckets) slot).getD 0
  base_sum : sumSlots (bases (bucketTramos id totals.taxBuckets)) = gravado
  tax_sum : sumSlots (taxes (bucketTramos id totals.taxBuckets)) = totals.montoItbis

theorem Consistent.bucketFigures {totals : CanonicalTotalsDto} {gravado : ℚ}
    (consistent : Consistent totals gravado) (some : totals.taxBuckets ≠ [])
    (known : ∀ bucket ∈ totals.taxBuckets, bucket.rate ∈ dgiiItbisSlots) :
    BucketFigures totals gravado := by
  obtain ⟨baseSum, taxSum⟩ := consistent.buckets some
  have nonneg (amount : CanonicalTaxBucketDto → ℚ)
      (each : ∀ bucket ∈ totals.taxBuckets, 0 ≤ amount bucket) (slot : Slot) :
      0 ≤ ((bucketsOf slot totals.taxBuckets).map amount).sum := by
    refine List.sum_nonneg fun value member => ?_
    obtain ⟨bucket, own, rfl⟩ := List.mem_map.mp member
    exact each bucket (List.mem_filter.mp own).1
  constructor
  · intro slot
    rw [(bucketTramos_sums _ slot).1]
    exact nonneg _ (fun bucket member => (consistent.buckets_nonneg bucket member).1) slot
  · intro slot
    rw [(bucketTramos_sums _ slot).2]
    exact nonneg _ (fun bucket member => (consistent.buckets_nonneg bucket member).2) slot
  · rw [sumSlots, (bucketTramos_sums _ .i1).1, (bucketTramos_sums _ .i2).1,
      (bucketTramos_sums _ .i3).1, sum_bucketsOf _ known, baseSum]
  · rw [sumSlots, (bucketTramos_sums _ .i1).2, (bucketTramos_sums _ .i2).2,
      (bucketTramos_sums _ .i3).2, sum_bucketsOf _ known, taxSum]

/-! ## In pesos -/

section

variable {dto : CanonicalDocumentDto} {taxed : ℚ}

theorem notes_of_consumo (consumo : tipo dto = "32") :
    modifiesGastosMenores dto = false ∧ modifiesExport dto = false := by
  constructor <;> simp [modifiesGastosMenores, modifiesExport, isNota, consumo]

/-- A purely exempt document has an exempt amount and no other. -/
theorem exempt_of_pure (consumo : tipo dto = "32") (pure : isPurelyExemptOrNonTaxable dto = true) :
    (∀ bucket ∈ dto.totals.taxBuckets, bucket.base ≤ 0) ∧
      dto.totals.montoGravadoTotal.getD 0 = 0 ∧ dto.totals.montoItbis = 0 := by
  simp only [isPurelyExemptOrNonTaxable, (notes_of_consumo consumo).1, Bool.false_or,
    Bool.and_eq_true, Bool.not_eq_true', decide_eq_true_eq] at pure
  obtain ⟨⟨⟨⟨-, bucket⟩, -⟩, gravado⟩, itbis⟩ := pure
  refine ⟨fun b member => ?_, gravado, itbis⟩
  simp only [hasTaxedBucket, List.any_eq_false, decide_eq_true_eq, not_lt] at bucket
  exact bucket b member

/-- What an E32 in pesos prints. -/
theorem domestic_figures (consumo : tipo dto = "32") :
    figures ties (domesticTotales dto).lines =
      { gravado := positive ties (gravado dto)
        base := fun slot => cents ties ((bases (domesticTramos dto) slot).getD 0)
        exento := positive ties (dto.totals.montoExento.getD 0)
        itbis := cents ties ((if isPurelyExemptOrNonTaxable dto then none
          else some dto.totals.montoItbis).getD 0)
        tax := fun slot => cents ties ((taxes (domesticTramos dto) slot).getD 0)
        total := cents ties dto.totals.montoTotal } := by
  have exempt : exento dto = dto.totals.montoExento.getD 0 := by
    simp [exento, notes_of_consumo consumo]
  have lines : (domesticTotales dto).lines = slotLines (gravado dto) (exento dto)
      dto.totals.montoTotal (domesticTramos dto)
      (if isPurelyExemptOrNonTaxable dto then none else some dto.totals.montoItbis) ++
        retentionLines "32" (effectiveRetention dto) := by
    simp [domesticTotales, consumo]
  rw [lines, exempt, figures_slotLines _ _ _ _ (beside_retentionLines _ _)]

theorem domestic_stored (consumo : tipo dto = "32") :
    (domesticTotales dto).totalDop = dto.totals.montoTotal ∧
      (domesticTotales dto).itbisDop = dto.totals.montoItbis := by
  have itbis : (domesticTotales dto).itbisDop =
      if isPurelyExemptOrNonTaxable dto then 0 else dto.totals.montoItbis := by
    simp [domesticTotales, consumo]
  refine ⟨by simp [domesticTotales, consumo], ?_⟩
  rw [itbis]
  split
  · next pure => exact (exempt_of_pure consumo pure).2.2.symm
  · rfl

theorem gravado_of_consumo (consumo : tipo dto = "32") :
    gravado dto = if isPurelyExemptOrNonTaxable dto then 0 else givenGravado dto.totals := by
  simp [gravado, givenGravado, givenExento, exento, notes_of_consumo consumo]

theorem rfceTotales_stated {doc : EcfDocument} (stated : saysTaxes dto = true) :
    rfceTotales doc (some dto) =
      statedLines doc dto ++ [.amount "MontoTotal" doc.totalAmount] := by
  simp [rfceTotales, Option.filter, stated]

theorem rfceTotales_unstated {doc : EcfDocument} (unstated : saysTaxes dto = false) :
    rfceTotales doc (some dto) =
      storedLines doc ++ [.amount "MontoTotal" doc.totalAmount] := by
  simp [rfceTotales, Option.filter, unstated]

/-- With buckets, the taxed amount is all that can differ. -/
theorem agree_of_buckets (consumo : tipo dto = "32") (consistent : Consistent dto.totals taxed)
    (some : dto.totals.taxBuckets ≠ [])
    (known : ∀ bucket ∈ dto.totals.taxBuckets, bucket.rate ∈ dgiiItbisSlots)
    (stated : saysTaxes dto = true) {doc : EcfDocument}
    (total : doc.totalAmount = dto.totals.montoTotal) :
    figures ties (rfceTotales doc (.some dto)) = figures ties (domesticTotales dto).lines ↔
      isPurelyExemptOrNonTaxable dto = true ∨
        cents ties (givenGravado dto.totals) = cents ties taxed := by
  have figs := consistent.bucketFigures some known
  have lines : statedLines doc dto = summaryLines taxed (dto.totals.montoExento.getD 0)
      dto.totals.montoItbis (bucketTramos id dto.totals.taxBuckets) := by
    have own : (if dto.totals.montoGravadoTotal.getD 0 = 0 then taxed
        else dto.totals.montoGravadoTotal.getD 0) = taxed := by
      split
      · rfl
      · next given =>
        cases h : dto.totals.montoGravadoTotal with
        | none => simp [h] at given
        | some g => exact consistent.given g h
    have length : dto.totals.taxBuckets.length ≠ 0 := fun h => some (List.length_eq_zero_iff.mp h)
    simp only [statedLines, length, if_true, figs.base_sum, own, ne_eq, not_false_eq_true]
  have itbis : (if 0 < dto.totals.montoItbis then dto.totals.montoItbis
      else sumSlots (taxes (bucketTramos id dto.totals.taxBuckets))) = dto.totals.montoItbis := by
    rw [figs.tax_sum, ite_self]
  rw [rfceTotales_stated stated, lines, figures_summaryLines, domestic_figures consumo, itbis,
    figs.tax_sum, total, gravado_of_consumo consumo]
  cases pure : isPurelyExemptOrNonTaxable dto with
  | true =>
    obtain ⟨untaxed, -, noItbis⟩ := exempt_of_pure consumo pure
    have nothing : taxed = 0 := by
      rw [← (consistent.buckets some).1]
      refine List.sum_eq_zero fun value member => ?_
      obtain ⟨bucket, own, rfl⟩ := List.mem_map.mp member
      exact le_antisymm (untaxed bucket own) (consistent.buckets_nonneg bucket own).1
    have bases_zero := slot_eq_zero figs.base_nonneg (figs.base_sum.trans nothing)
    have taxes_zero := slot_eq_zero figs.tax_nonneg (figs.tax_sum.trans noItbis)
    have unused : domesticTramos dto = noTramos := by
      simp [domesticTramos, pure, gravado_of_consumo consumo]
    have noBase : ∀ slot, (bases noTramos slot).getD 0 = 0 := fun _ => rfl
    have noTax : ∀ slot, (taxes noTramos slot).getD 0 = 0 := fun _ => rfl
    simp only [unused, nothing, noItbis, bases_zero, taxes_zero, noBase, noTax, if_true,
      Option.getD_none, positive_zero, cents_zero, lt_irrefl, or_self, if_false, true_or]
  | false =>
    have used : domesticTramos dto = bucketTramos id dto.totals.taxBuckets := by
      have length : dto.totals.taxBuckets.length ≠ 0 :=
        fun h => some (List.length_eq_zero_iff.mp h)
      simp [domesticTramos, pure, length]
    simp only [used, Bool.false_eq_true, if_false, false_or, or_self, Option.getD_some,
      Figures.mk.injEq]
    constructor
    · rintro ⟨same, -⟩
      rw [positive_of_nonneg consistent.gravado_nonneg,
        positive_of_nonneg consistent.givenGravado_nonneg] at same
      exact same.symm
    · intro same
      refine ⟨?_, funext fun slot => positive_of_nonneg (figs.base_nonneg slot), trivial,
        positive_of_nonneg consistent.itbis_nonneg, funext fun slot => ?_, trivial⟩
      · rw [positive_of_nonneg consistent.gravado_nonneg,
          positive_of_nonneg consistent.givenGravado_nonneg, same]
      · split
        · exact positive_of_nonneg (figs.tax_nonneg slot)
        · next none =>
          have nothing := le_antisymm (not_lt.mp none) consistent.itbis_nonneg
          rw [slot_eq_zero figs.tax_nonneg (figs.tax_sum.trans nothing), cents_zero]

/-- A document in pesos that does not say how it is taxed gives no amounts. -/
theorem unstated_amounts (domestic : (resolveCanonicalCurrency dto.currency).isForeign = false)
    (unstated : saysTaxes dto = false) :
    dto.totals.montoGravadoTotal = none ∧ dto.totals.montoExento = none := by
  simp only [saysTaxes, domestic, Bool.not_false, Bool.true_and, Bool.or_eq_false_iff,
    Option.isSome_eq_false_iff, Option.isNone_iff_eq_none] at unstated
  exact ⟨unstated.1.2, unstated.2⟩

section

variable (consistent : Consistent dto.totals taxed)
  (domestic : (resolveCanonicalCurrency dto.currency).isForeign = false)
  (none : dto.totals.taxBuckets = []) {doc : EcfDocument}
  (total : doc.totalAmount = dto.totals.montoTotal) (itbis : doc.itbisAmount = dto.totals.montoItbis)

include consistent domestic none total itbis

/-- With ITBIS, the summary takes all that is not ITBIS for taxed at 18 %. -/
theorem figures_of_itbis (some : 0 < dto.totals.montoItbis) :
    figures ties (rfceTotales doc (.some dto)) =
      { gravado := cents ties (taxed + dto.totals.montoExento.getD 0)
        base := fun slot => if slot = .i1 then cents ties (taxed + dto.totals.montoExento.getD 0) else 0
        exento := positive ties (dto.totals.montoExento.getD 0)
        itbis := cents ties dto.totals.montoItbis
        tax := fun slot => if slot = .i1 then cents ties dto.totals.montoItbis else 0
        total := cents ties dto.totals.montoTotal } := by
  have rest : dto.totals.montoTotal - dto.totals.montoItbis =
      taxed + dto.totals.montoExento.getD 0 := by
    rw [consistent.total]
    ring
  have nonneg : 0 ≤ taxed + dto.totals.montoExento.getD 0 :=
    add_nonneg consistent.gravado_nonneg consistent.exento_nonneg
  have base : max 0 (doc.totalAmount - doc.itbisAmount) =
      taxed + dto.totals.montoExento.getD 0 := by
    rw [total, itbis, rest, max_eq_right nonneg]
  cases stated : saysTaxes dto with
  | true =>
    have lines : statedLines doc dto = summaryLines (taxed + dto.totals.montoExento.getD 0)
        (dto.totals.montoExento.getD 0) dto.totals.montoItbis
        (single .i1 ⟨taxed + dto.totals.montoExento.getD 0, dto.totals.montoItbis⟩) := by
      simp only [statedLines, none, List.length_nil, itbis, some, if_true, ne_eq, not_true_eq_false,
        if_false]
      rw [← itbis, base]
    rw [rfceTotales_stated stated, lines, figures_summaryLines, total]
    ext slot
    any_goals cases slot
    all_goals
      simp [single, bases, taxes, some, positive_of_nonneg nonneg,
        positive_of_nonneg consistent.itbis_nonneg]
  | false =>
    rw [rfceTotales_unstated stated, figures_storedLines, base, itbis, total, if_pos some,
      (unstated_amounts domestic stated).2]
    simp

/-- Without ITBIS, the summary takes the whole for exempt. -/
theorem figures_of_no_itbis (free : dto.totals.montoItbis = 0) :
    figures ties (rfceTotales doc (.some dto)) =
      { gravado := positive ties (dto.totals.montoGravadoTotal.getD 0)
        base := fun _ => 0
        exento := cents ties dto.totals.montoTotal
        itbis := 0
        tax := fun _ => 0
        total := cents ties dto.totals.montoTotal } := by
  have nonneg : 0 ≤ dto.totals.montoTotal := by
    rw [consistent.total, free, add_zero]
    exact add_nonneg consistent.gravado_nonneg consistent.exento_nonneg
  cases stated : saysTaxes dto with
  | true =>
    have lines : statedLines doc dto = summaryLines (dto.totals.montoGravadoTotal.getD 0)
        dto.totals.montoTotal 0 noTramos := by
      simp [statedLines, none, itbis, free, total]
    rw [rfceTotales_stated stated, lines, figures_summaryLines, total]
    simp [noTramos, bases, taxes, sumSlots, positive_of_nonneg nonneg]
  | false =>
    rw [rfceTotales_unstated stated, figures_storedLines, itbis, total, free, if_neg (lt_irrefl 0),
      (unstated_amounts domestic stated).1]
    simp

/-- With ITBIS, the summary agrees when nothing is exempt and something taxed. -/
theorem agree_of_itbis (consumo : tipo dto = "32") (some : 0 < dto.totals.montoItbis) :
    figures ties (rfceTotales doc (.some dto)) = figures ties (domesticTotales dto).lines ↔
      cents ties (givenGravado dto.totals) = cents ties (taxed + dto.totals.montoExento.getD 0) ∧
        (0 < givenGravado dto.totals ∨ cents ties dto.totals.montoItbis = 0) := by
  have pure : isPurelyExemptOrNonTaxable dto = false := by
    by_contra exempt
    rw [Bool.not_eq_false] at exempt
    exact some.ne' (exempt_of_pure consumo exempt).2.2
  have own : gravado dto = givenGravado dto.totals := by
    rw [gravado_of_consumo consumo, pure]
    rfl
  have used : domesticTramos dto = if 0 < givenGravado dto.totals then
      single .i1 ⟨givenGravado dto.totals, dto.totals.montoItbis⟩ else noTramos := by
    simp [domesticTramos, none, own, notes_of_consumo consumo]
  have base (slot : Slot) : cents ties ((bases (domesticTramos dto) slot).getD 0) =
      if slot = .i1 then cents ties (givenGravado dto.totals) else 0 := by
    rw [used]
    split
    · cases slot <;> simp [single, bases, cents_zero]
    · next low =>
      have nothing := le_antisymm (not_lt.mp low) consistent.givenGravado_nonneg
      simp [noTramos, bases, cents_zero, nothing]
  have tax (slot : Slot) : cents ties ((taxes (domesticTramos dto) slot).getD 0) =
      if slot = .i1 ∧ 0 < givenGravado dto.totals then cents ties dto.totals.montoItbis else 0 := by
    rw [used]
    split
    · next high => cases slot <;> simp [single, taxes, cents_zero, high]
    · next low => simp [noTramos, taxes, cents_zero, low]
  rw [figures_of_itbis consistent domestic none total itbis some, domestic_figures consumo, own]
  simp only [base, tax, pure, Figures.mk.injEq, funext_iff,
    positive_of_nonneg consistent.givenGravado_nonneg]
  constructor
  · rintro ⟨same, -, -, -, taxes, -⟩
    refine ⟨same.symm, ?_⟩
    by_cases high : 0 < givenGravado dto.totals
    · exact .inl high
    · right
      simpa [high] using taxes .i1
  · rintro ⟨same, high⟩
    refine ⟨same.symm, fun slot => by rw [same], trivial, rfl, fun slot => ?_, trivial⟩
    rcases high with high | nothing
    · simp [high]
    · simp [nothing]

/-- Without ITBIS, the summary agrees when everything is exempt. -/
theorem agree_of_no_itbis (consumo : tipo dto = "32") (free : dto.totals.montoItbis = 0) :
    figures ties (rfceTotales doc (.some dto)) = figures ties (domesticTotales dto).lines ↔
      (isPurelyExemptOrNonTaxable dto = true ∨ cents ties (givenGravado dto.totals) = 0) ∧
        cents ties (taxed + dto.totals.montoExento.getD 0) =
          cents ties (dto.totals.montoExento.getD 0) := by
  have nonneg : 0 ≤ gravado dto := by
    rw [gravado_of_consumo consumo]
    split
    · exact le_rfl
    · exact consistent.givenGravado_nonneg
  have untaxed : cents ties (gravado dto) = 0 ↔
      isPurelyExemptOrNonTaxable dto = true ∨ cents ties (givenGravado dto.totals) = 0 := by
    rw [gravado_of_consumo consumo]
    split
    · next pure => simp [pure, cents_zero]
    · next pure => simp [pure]
  have used : domesticTramos dto = if 0 < gravado dto then single .i1 ⟨gravado dto, 0⟩
      else noTramos := by
    simp [domesticTramos, none, notes_of_consumo consumo, free]
  have base (slot : Slot) : cents ties ((bases (domesticTramos dto) slot).getD 0) =
      if slot = .i1 then cents ties (gravado dto) else 0 := by
    rw [used]
    split
    · cases slot <;> simp [single, bases, cents_zero]
    · next low => simp [noTramos, bases, cents_zero, le_antisymm (not_lt.mp low) nonneg]
  have tax (slot : Slot) : cents ties ((taxes (domesticTramos dto) slot).getD 0) = 0 := by
    rw [used]
    split
    · cases slot <;> simp [single, taxes, cents_zero]
    · simp [noTramos, taxes, cents_zero]
  have given : cents ties (gravado dto) = 0 →
      positive ties (dto.totals.montoGravadoTotal.getD 0) = 0 := by
    intro nothing
    cases h : dto.totals.montoGravadoTotal with
    | none => exact positive_zero
    | some g =>
      have same : givenGravado dto.totals = g := by rw [givenGravado, h, Option.getD_some]
      rw [Option.getD_some]
      rcases untaxed.mp nothing with pure | zero
      · have zero := (exempt_of_pure consumo pure).2.1
        rw [h, Option.getD_some] at zero
        rw [zero, positive_zero]
      · rw [same] at zero
        rw [← same, positive_of_nonneg consistent.givenGravado_nonneg, same, zero]
  have whole : dto.totals.montoTotal = taxed + dto.totals.montoExento.getD 0 := by
    rw [consistent.total, free, add_zero]
  have noItbis : cents ties ((if isPurelyExemptOrNonTaxable dto = true then Option.none
      else some (0 : ℚ)).getD 0) = 0 := by
    split <;> exact cents_zero
  rw [figures_of_no_itbis consistent domestic none total itbis free, domestic_figures consumo,
    ← untaxed, whole, free]
  simp only [base, tax, noItbis, Figures.mk.injEq, funext_iff, positive_of_nonneg nonneg,
    positive_of_nonneg consistent.exento_nonneg]
  constructor
  · rintro ⟨-, bases, exento, -⟩
    exact ⟨by simpa using (bases .i1).symm, exento⟩
  · rintro ⟨nothing, exento⟩
    refine ⟨by rw [given nothing, nothing], fun slot => ?_, exento, trivial, trivial, trivial⟩
    simp [nothing]

end

end

/-! ## In another currency -/

section

variable {dto : CanonicalDocumentDto}

theorem slotted_consumo (consumo : tipo dto = "32") : Slotted (tipo dto) := by
  rw [consumo]
  constructor <;> decide

/-- Everything converted is taxed at 18 %, and bears ITBIS; or everything is
exempt. -/
def UniformConverted (dto : CanonicalDocumentDto) : Prop :=
  (converted dto .i2 = 0 ∧ converted dto .i3 = 0 ∧ convertedExento dto = 0 ∧
      0 < Slot.i1.taxOn (converted dto .i1)) ∨
    ((∀ slot, converted dto slot = 0) ∧ 0 ≤ convertedExento dto)

/-- The summary of a document in another currency agrees when the document is
taxed in one way. -/
theorem agree_of_foreign (consumo : tipo dto = "32")
    (foreign : (resolveCanonicalCurrency dto.currency).isForeign = true) {doc : EcfDocument}
    (total : doc.totalAmount =
      convertedGravado dto + convertedExento dto + convertedItbis dto)
    (itbis : doc.itbisAmount = convertedItbis dto) :
    figures ties (rfceTotales doc (some dto)) =
        figures ties (foreignTotales dto (processedItems dto)).lines ↔
      UniformConverted dto := by
  have unstated : saysTaxes dto = false := by simp [saysTaxes, foreign]
  have rest : doc.totalAmount - doc.itbisAmount = convertedGravado dto + convertedExento dto := by
    rw [total, itbis]
    ring
  have taxable := ((centavos_convertedGravado dto).add (centavos_convertedExento dto)).cents ties
  have wholeTotal := (((centavos_convertedGravado dto).add (centavos_convertedExento dto)).add
    (centavos_convertedItbis dto)).cents ties
  rw [rfceTotales_unstated unstated, figures_storedLines,
    foreign_figures (slotted_consumo consumo), rest, total,
    itbis, wholeTotal, (centavos_convertedItbis dto).cents]
  have exento_centavos : positive ties (convertedExento dto) = max 0 (convertedExento dto) := by
    unfold positive
    split
    · next high => rw [(centavos_convertedExento dto).cents, max_eq_right high.le]
    · next low => rw [max_eq_left (not_lt.mp low)]
  have itbis_alone (two : converted dto .i2 = 0) :
      convertedItbis dto = Slot.i1.taxOn (converted dto .i1) := by
    rw [convertedItbis, two, taxOn_zero, add_zero]
  have gravado_alone (two : converted dto .i2 = 0) (three : converted dto .i3 = 0) :
      convertedGravado dto = converted dto .i1 := by
    rw [convertedGravado, two, three, add_zero, add_zero]
  have base_pos (tax : 0 < Slot.i1.taxOn (converted dto .i1)) : 0 < converted dto .i1 := by
    by_contra low
    exact absurd tax (not_lt.mpr (round2_nonpos (by linarith)))
  by_cases taxed : 0 < convertedItbis dto
  · rw [if_pos taxed]
    simp only [Figures.mk.injEq, funext_iff]
    constructor
    · rintro ⟨-, bases, exento, -, -, -⟩
      have two : converted dto .i2 = 0 := (bases .i2).symm
      have three : converted dto .i3 = 0 := (bases .i3).symm
      have tax := taxed
      rw [itbis_alone two] at tax
      have base := bases .i1
      rw [if_pos rfl, gravado_alone two three] at base
      rw [exento_centavos] at exento
      have low : convertedExento dto ≤ 0 := max_eq_left_iff.mp exento.symm
      have high := base_pos tax
      have none : convertedExento dto = 0 := by
        rcases max_choice 0 (converted dto .i1 + convertedExento dto) with zero | sum
        · rw [zero, cents_zero] at base
          exact absurd base high.ne
        · rw [sum, ((centavos_converted dto .i1).add (centavos_convertedExento dto)).cents] at base
          linarith
      exact .inl ⟨two, three, none, tax⟩
    · rintro (⟨two, three, none, tax⟩ | ⟨none, -⟩)
      · have high := base_pos tax
        rw [gravado_alone two three, none, add_zero, max_eq_right high.le,
          (centavos_converted dto .i1).cents, positive_of_nonneg high.le,
          (centavos_converted dto .i1).cents, itbis_alone two, positive_zero]
        refine ⟨rfl, fun slot => ?_, rfl, trivial, fun slot => ?_, trivial⟩
        · cases slot <;> simp [two, three]
        · cases slot <;> simp [two, three, taxOn_zero]
      · rw [itbis_alone (none .i2), none .i1, taxOn_zero] at taxed
        exact absurd taxed (lt_irrefl 0)
  · rw [if_neg taxed]
    simp only [Figures.mk.injEq, funext_iff]
    constructor
    · rintro ⟨-, bases, exento, -, -, -⟩
      have none (slot : Slot) : converted dto slot = 0 := (bases slot).symm
      rw [exento_centavos, gravado_alone (none .i2) (none .i3), itbis_alone (none .i2), none .i1,
        taxOn_zero, zero_add, add_zero] at exento
      exact .inr ⟨none, exento ▸ le_max_left 0 _⟩
    · rintro (⟨two, -, -, tax⟩ | ⟨none, nonneg⟩)
      · rw [itbis_alone two] at taxed
        exact absurd tax taxed
      · rw [exento_centavos, gravado_alone (none .i2) (none .i3), itbis_alone (none .i2), none .i1,
          taxOn_zero, zero_add, add_zero, max_eq_right nonneg, positive_zero]
        refine ⟨rfl, fun slot => (none slot).symm, rfl, rfl, fun slot => ?_, trivial⟩
        rw [none slot, taxOn_zero]

end

/-! ## The summary and the invoice -/

/-- A document in pesos is taxed in one way: it has buckets, and its taxed
amount is theirs; or all of it but the ITBIS is taxed at 18 %; or all of it is
exempt. -/
def UniformInPesos (ties : Ties) (dto : CanonicalDocumentDto) (gravado : ℚ) : Prop :=
  if dto.totals.taxBuckets.length ≠ 0 then
    isPurelyExemptOrNonTaxable dto = true ∨ cents ties (givenGravado dto.totals) = cents ties gravado
  else if 0 < dto.totals.montoItbis then
    cents ties (givenGravado dto.totals) = cents ties (gravado + dto.totals.montoExento.getD 0) ∧
      (0 < givenGravado dto.totals ∨ cents ties dto.totals.montoItbis = 0)
  else
    (isPurelyExemptOrNonTaxable dto = true ∨ cents ties (givenGravado dto.totals) = 0) ∧
      cents ties (gravado + dto.totals.montoExento.getD 0) = cents ties (dto.totals.montoExento.getD 0)

/-- A document is taxed in one way. -/
def Uniform (ties : Ties) (dto : CanonicalDocumentDto) (gravado : ℚ) : Prop :=
  if (resolveCanonicalCurrency dto.currency).isForeign then UniformConverted dto
  else UniformInPesos ties dto gravado

theorem known_of_checkBuckets {dto : CanonicalDocumentDto} {done : Unit}
    (passed : checkBuckets dto = .ok done) :
    ∀ bucket ∈ dto.totals.taxBuckets, bucket.rate ∈ dgiiItbisSlots := by
  unfold checkBuckets at passed
  split at passed
  · cases passed
  · next none =>
    intro bucket member
    simpa using List.find?_eq_none.mp none bucket member

/-- What the checks of a submission say of an E32: its type, its currency and
the rates of its buckets. -/
theorem checked_consumo {submitted dto : CanonicalDocumentDto}
    (accepted : checkDocument submitted = .ok dto) (e32 : dto.tipoComprobante = "E32") :
    tipo dto = "32" ∧ (resolveCanonicalCurrency dto.currency).validationError = "" ∧
      ∀ bucket ∈ dto.totals.taxBuckets, bucket.rate ∈ dgiiItbisSlots := by
  refine ⟨by rw [tipo, e32]; decide, ?_⟩
  unfold checkDocument at accepted
  simp only [bind, Except.bind, pure, Except.pure] at accepted
  repeat' split at accepted
  all_goals cases accepted
  next _ currency _ _ _ _ _ _ _ _ _ _ _ _ _ buckets =>
    exact ⟨Classical.not_not.mp currency, known_of_checkBuckets buckets⟩

/-- **Summaries.**  The summary of a consumer invoice agrees with the invoice
exactly when the invoice is taxed in one way. -/
theorem rfce_agrees_iff (ties : Ties) (ext : Externals) (now : ℕ) (doc : EcfDocument)
    {submitted dto : CanonicalDocumentDto} {gravado : ℚ}
    (editSequence emisorRnc emisorRazonSocial : String)
    (accepted : checkDocument submitted = .ok dto) (e32 : dto.tipoComprobante = "E32")
    (consistent : Consistent dto.totals gravado) :
    (∀ name ∈ totalesElements,
      valueOf ties name (rfceTotales
        (stored ext now doc dto editSequence emisorRnc emisorRazonSocial) (some dto)) =
      valueOf ties name (totales dto).lines) ↔ Uniform ties dto gravado := by
  obtain ⟨consumo, valid, known⟩ := checked_consumo accepted e32
  have foreignCurrency : isForeignCurrency dto =
      (resolveCanonicalCurrency dto.currency).isForeign := by
    simp [isForeignCurrency, valid]
  rw [agree_iff, Uniform]
  cases foreign : (resolveCanonicalCurrency dto.currency).isForeign with
  | true =>
    have whole : totales dto = foreignTotales dto (processedItems dto) := by
      rw [totales, foreignCurrency, foreign, if_pos rfl]
    obtain ⟨total, itbis⟩ := foreign_stored (slotted_consumo consumo)
    rw [if_pos rfl, whole]
    refine agree_of_foreign consumo foreign ?_ ?_
    · rw [stored_totalAmount, whole, total]
    · rw [stored_itbisAmount, whole, itbis]
  | false =>
    have whole : totales dto = domesticTotales dto := by
      rw [totales, foreignCurrency, foreign, if_neg Bool.false_ne_true]
    obtain ⟨total, itbis⟩ := domestic_stored consumo
    have storedTotal : (stored ext now doc dto editSequence emisorRnc
        emisorRazonSocial).totalAmount = dto.totals.montoTotal := by
      rw [stored_totalAmount, whole, total]
    have storedItbis : (stored ext now doc dto editSequence emisorRnc
        emisorRazonSocial).itbisAmount = dto.totals.montoItbis := by
      rw [stored_itbisAmount, whole, itbis]
    rw [if_neg Bool.false_ne_true, whole, UniformInPesos]
    split
    · next some =>
      have nonempty : dto.totals.taxBuckets ≠ [] := fun h => some (by rw [h]; rfl)
      have stated : saysTaxes dto = true := by simp [saysTaxes, foreign, nonempty]
      exact agree_of_buckets consumo consistent nonempty known stated storedTotal
    · next none =>
      have empty : dto.totals.taxBuckets = [] :=
        List.length_eq_zero_iff.mp (Classical.not_not.mp none)
      split
      · next taxed =>
        exact agree_of_itbis consistent foreign empty storedTotal storedItbis consumo taxed
      · next free =>
        exact agree_of_no_itbis consistent foreign empty storedTotal storedItbis consumo
          (le_antisymm (not_lt.mp free) consistent.itbis_nonneg)

/-- A consumer invoice in pesos with a taxed and an exempt amount, and no
buckets. -/
def mixedInvoice : CanonicalDocumentDto where
  sourceReference := { txnId := "T1" }
  tipoComprobante := "E32"
  lines := [{ itemName := "Servicio", quantity := 1, unitPrice := 200, amount := 200 }]
  totals :=
    { montoSubtotal := 200
      montoGravadoTotal := some 100
      montoExento := some 100
      montoItbis := 18
      montoTotal := 218 }

theorem mixedInvoice_accepted : checkDocument mixedInvoice = .ok mixedInvoice := by
  have passes : (checkDocument mixedInvoice).isOk = true := by decide +kernel
  have typed : normalizedTipo mixedInvoice.tipoComprobante = "E32" := by decide
  cases checked : checkDocument mixedInvoice with
  | error message =>
    rw [checked] at passes
    cases passes
  | ok dto =>
    rw [(checkDocument_ok checked).1, typed]
    rfl

theorem mixedInvoice_consistent : Consistent mixedInvoice.totals 100 where
  total := by decide +kernel
  given := by
    intro g same
    exact (Option.some.inj same).symm
  gravado_nonneg := by norm_num
  exento_nonneg := by decide +kernel
  itbis_nonneg := by decide +kernel
  buckets_nonneg := nofun
  buckets := fun some => absurd rfl some

def sampleRow : EcfDocument where
  id := "1"
  eNcf := "E320000000001"
  rncEmisor := "101672919"
  sourceTxnId := "T1"
  editSequence := ""

/-- The mixed invoice is not taxed in one way. -/
theorem mixed_invoice_not_uniform : ¬ Uniform .away mixedInvoice 100 := by
  intro uniform
  have same := (rfce_agrees_iff .away sampleExternals 0 sampleRow "" "101672919" "EMISOR"
    mixedInvoice_accepted rfl mixedInvoice_consistent).mpr uniform "MontoGravadoTotal" (by decide)
  revert same
  decide +kernel

/-- The summary of the mixed invoice calls all of it taxed. -/
theorem mixed_invoice_disagrees :
    ¬ ∀ (ext : Externals) (now : ℕ) (doc : EcfDocument) (submitted dto : CanonicalDocumentDto)
      (gravado : ℚ) (editSequence emisorRnc emisorRazonSocial : String),
      checkDocument submitted = .ok dto → dto.tipoComprobante = "E32" →
      Consistent dto.totals gravado → (totales dto).totalDop < 250000 →
      ∀ name ∈ totalesElements,
        valueOf .away name (rfceTotales
          (stored ext now doc dto editSequence emisorRnc emisorRazonSocial) (some dto)) =
        valueOf .away name (totales dto).lines := by
  intro agrees
  have same := agrees sampleExternals 0 sampleRow mixedInvoice mixedInvoice 100 "" "101672919"
    "EMISOR" mixedInvoice_accepted rfl mixedInvoice_consistent (by decide +kernel)
    "MontoGravadoTotal" (by decide)
  revert same
  decide +kernel

end EcfDgii.RfceTotals
