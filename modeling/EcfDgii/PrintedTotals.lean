import EcfDgii.CanonicalTotals
import EcfDgii.PrintedAmounts
import EcfDgii.Submission
import Mathlib.Algebra.Order.BigOperators.Group.List

/-!
The printed totals of a document, as figures.

`figures` takes the amounts of a list of totals apart, rounded to centavos: with
halves to the even digit they are the figures of the text, with halves away from
zero what `round2` makes of them.  The sections below say what the lines of a
document with slots amount to, what its buckets add up to, and what a document
in another currency comes to in pesos.
-/

set_option autoImplicit false

namespace EcfDgii.PrintedTotals

open EcfDgii.Text EcfDgii.Documents EcfDgii.Submission EcfDgii.XmlFormats EcfDgii.Rounding
open EcfDgii.PrintedAmounts EcfDgii.CanonicalLines EcfDgii.CanonicalTotals

/-! ## Elements -/

/-- The amount under a name, in centavos; what is not printed counts as
nothing. -/
def valueOf (ties : Ties) (name : String) : List TotalLine → ℚ
  | [] => 0
  | .amount n value :: rest => if n = name then cents ties value else valueOf ties name rest
  | .rate _ _ :: rest => valueOf ties name rest

variable {ties : Ties}

/-- The elements of the totals that the summary prints. -/
def totalesElements : List String :=
  ["MontoGravadoTotal", "MontoGravadoI1", "MontoGravadoI2", "MontoGravadoI3", "MontoExento",
    "TotalITBIS", "TotalITBIS1", "TotalITBIS2", "TotalITBIS3", "MontoTotal"]

/-- What the elements of a summary or an invoice amount to. -/
@[ext] structure Figures where
  gravado : ℚ
  base : Slot → ℚ
  exento : ℚ
  itbis : ℚ
  tax : Slot → ℚ
  total : ℚ

/-- An amount in centavos when it is positive, and only then. -/
def positive (ties : Ties) (value : ℚ) : ℚ := if 0 < value then cents ties value else 0

def figures (ties : Ties) (lines : List TotalLine) : Figures where
  gravado := valueOf ties "MontoGravadoTotal" lines
  base slot := valueOf ties ("MontoGravadoI" ++ slot.number) lines
  exento := valueOf ties "MontoExento" lines
  itbis := valueOf ties "TotalITBIS" lines
  tax slot := valueOf ties ("TotalITBIS" ++ slot.number) lines
  total := valueOf ties "MontoTotal" lines

/-- Two lists of totals agree when their figures do. -/
theorem agree_iff (first second : List TotalLine) :
    (∀ name ∈ totalesElements, valueOf ties name first = valueOf ties name second) ↔
      figures ties first = figures ties second := by
  have slot (f g : Slot → ℚ) : f = g ↔ f .i1 = g .i1 ∧ f .i2 = g .i2 ∧ f .i3 = g .i3 := by
    constructor
    · rintro rfl
      exact ⟨rfl, rfl, rfl⟩
    · rintro ⟨one, two, three⟩
      funext s
      cases s <;> assumption
  simp only [totalesElements, List.forall_mem_cons, figures, Figures.mk.injEq, slot,
    Slot.number, String.reduceAppend]
  constructor
  · rintro ⟨gravado, base1, base2, base3, exento, itbis, tax1, tax2, tax3, total, -⟩
    exact ⟨gravado, ⟨base1, base2, base3⟩, exento, itbis, ⟨tax1, tax2, tax3⟩, total⟩
  · rintro ⟨gravado, ⟨base1, base2, base3⟩, exento, itbis, ⟨tax1, tax2, tax3⟩, total⟩
    exact ⟨gravado, base1, base2, base3, exento, itbis, tax1, tax2, tax3, total, nofun⟩

@[simp] theorem valueOf_nil (name : String) : valueOf ties name [] = 0 := rfl

section

variable {name n : String} (other : n ≠ name)

include other

theorem valueOf_skipIf (condition : Bool) (value : ℚ) (rest : List TotalLine) :
    valueOf ties name (amountIf condition n value ++ rest) = valueOf ties name rest := by
  cases condition <;> simp [amountIf, valueOf, other]

theorem valueOf_skipOf (value : Option ℚ) (rest : List TotalLine) :
    valueOf ties name (amountOf n value ++ rest) = valueOf ties name rest := by
  cases value <;> simp [amountOf, valueOf, other]

theorem valueOf_skip (value : ℚ) (rest : List TotalLine) :
    valueOf ties name (.amount n value :: rest) = valueOf ties name rest := by
  simp [valueOf, other]

end

theorem valueOf_skipRate (name n : String) (condition : Bool) (value : ℤ) (rest : List TotalLine) :
    valueOf ties name ((if condition then [TotalLine.rate n value] else []) ++ rest) =
      valueOf ties name rest := by
  cases condition <;> rfl

theorem valueOf_amountIf (name : String) (value : ℚ) (rest : List TotalLine) :
    valueOf ties name (amountIf (decide (0 < value)) name value ++ rest) =
      if 0 < value then cents ties value else valueOf ties name rest := by
  by_cases some : 0 < value <;> simp [amountIf, valueOf, some]

theorem valueOf_amountOf (name : String) (value : Option ℚ) (rest : List TotalLine) :
    valueOf ties name (amountOf name value ++ rest) =
      value.elim (valueOf ties name rest) (cents ties) := by
  cases value <;> simp [amountOf, valueOf]

theorem valueOf_amount (name : String) (value : ℚ) (rest : List TotalLine) :
    valueOf ties name (.amount name value :: rest) = cents ties value := by
  simp [valueOf]

@[simp] theorem valueOf_rate (name n : String) (value : ℤ) (rest : List TotalLine) :
    valueOf ties name (.rate n value :: rest) = valueOf ties name rest := rfl

@[simp] theorem cents_zero : cents ties 0 = 0 := OnGrid.zero.nearest (by decide)

theorem round2_zero : round2 0 = 0 := by decide +kernel

theorem elim_cents (value : Option ℚ) : value.elim 0 (cents ties) = cents ties (value.getD 0) := by
  cases value with
  | none => exact cents_zero.symm
  | some value => rfl

/-- The figures of no lines. -/
def noFigures : Figures where
  gravado := 0
  base _ := 0
  exento := 0
  itbis := 0
  tax _ := 0
  total := 0

/-- Lines that hold none of the figures. -/
def Beside (lines : List TotalLine) : Prop :=
  ∀ ties, ∀ name ∈ totalesElements, valueOf ties name lines = 0

theorem beside_nil : Beside [] := fun _ _ _ => rfl

theorem beside_isrLines (retention : CanonicalRetentionDto) :
    Beside (retentionLines.isrLines retention) := by
  intro ties name member
  have other : "TotalISRRetencion" ≠ name := by
    rintro rfl
    revert member
    decide
  simpa [retentionLines.isrLines] using
    valueOf_skipIf other (decide (0 < retention.montoIsrRetenido.getD 0)) _ []

theorem beside_isrLines_elim (retention : Option CanonicalRetentionDto) :
    Beside (retention.elim [] retentionLines.isrLines) := by
  cases retention with
  | none => exact beside_nil
  | some retention => exact beside_isrLines retention

theorem beside_retentionLines (tipo : String) (retention : Option CanonicalRetentionDto) :
    Beside (retentionLines tipo retention) := by
  unfold retentionLines
  split
  · exact beside_nil
  · split
    · intro ties name member
      have other : "TotalITBISRetenido" ≠ name := by
        rintro rfl
        revert member
        decide
      rw [valueOf_skipIf other]
      exact beside_isrLines _ ties name member
    · exact beside_nil

section

variable (gravado exento total : ℚ) (tramos : Tramos) {rest : List TotalLine}
  (beside : Beside rest)

include beside

/-- The figures of the lines a document with slots prints. -/
theorem figures_slotLines (totalItbis : Option ℚ) :
    figures ties (slotLines gravado exento total tramos totalItbis ++ rest) =
      { gravado := positive ties gravado
        base := fun slot => cents ties ((bases tramos slot).getD 0)
        exento := positive ties exento
        itbis := cents ties (totalItbis.getD 0)
        tax := fun slot => cents ties ((taxes tramos slot).getD 0)
        total := cents ties total } := by
  have none (name : String) (member : name ∈ totalesElements) : valueOf ties name rest = 0 :=
    beside ties name member
  simp only [totalesElements, List.forall_mem_cons] at none
  obtain ⟨none1, none2, none3, none4, none5, none6, none7, none8, none9, -⟩ := none
  ext slot
  any_goals cases slot
  all_goals
    simp only [ne_eq, String.reduceEq, not_false_eq_true, figures, slotLines, slots,
      List.flatMap_cons, List.flatMap_nil, List.append_nil, List.append_assoc, List.cons_append,
      List.nil_append, valueOf_skipIf, valueOf_skipOf, valueOf_skip, valueOf_skipRate,
      valueOf_amountIf, valueOf_amountOf, valueOf_amount, Slot.number, String.reduceAppend,
      positive, elim_cents, none1, none2, none3, none4, none5, none6, none7, none8, none9]

/-- The figures of a document that is exempt by its type. -/
theorem figures_exemptLines :
    figures ties (exemptLines total ++ rest) =
      { noFigures with
        exento := positive ties total
        total := cents ties total } := by
  have none (name : String) (member : name ∈ totalesElements) : valueOf ties name rest = 0 :=
    beside ties name member
  simp only [totalesElements, List.forall_mem_cons] at none
  obtain ⟨none1, none2, none3, none4, none5, none6, none7, none8, none9, -⟩ := none
  ext slot
  any_goals cases slot
  all_goals
    simp only [ne_eq, String.reduceEq, not_false_eq_true, figures, noFigures, exemptLines,
      List.append_assoc, List.cons_append, List.nil_append, valueOf_skipIf, valueOf_skip,
      valueOf_amountIf, valueOf_amount, Slot.number, String.reduceAppend, positive, none1, none2,
      none3, none4, none5, none6, none7, none8, none9]

end

/-- The figures of an export. -/
theorem figures_exportLines (total : ℚ) :
    figures ties (exportLines total) =
      { noFigures with
        gravado := positive ties total
        base := fun slot => if slot = .i3 then positive ties total else 0
        total := cents ties total } := by
  unfold exportLines
  by_cases some : 0 < total
  all_goals
    ext slot
    any_goals cases slot
    all_goals
      simp only [ne_eq, String.reduceEq, not_false_eq_true, figures, noFigures, List.cons_append,
        List.nil_append, valueOf_skip, valueOf_rate, valueOf_amount, valueOf_nil, Slot.number,
        String.reduceAppend, positive, some, if_true, if_false, reduceCtorEq, cents_zero, ite_self]

theorem positive_of_nonneg {value : ℚ} (nonneg : 0 ≤ value) :
    positive ties value = cents ties value := by
  unfold positive
  split
  · rfl
  · next low => rw [le_antisymm (not_lt.mp low) nonneg, cents_zero]

@[simp] theorem positive_zero : positive ties 0 = 0 := if_neg (lt_irrefl 0)

/-! ## What a caller gives -/

/-- The exempt amount a caller gives. -/
def givenExento (totals : CanonicalTotalsDto) : ℚ := totals.montoExento.getD 0

/-- The taxed amount a caller gives, or what its subtotal leaves. -/
def givenGravado (totals : CanonicalTotalsDto) : ℚ :=
  totals.montoGravadoTotal.getD (max 0 (totals.montoSubtotal - givenExento totals))

/-! ## Buckets -/

/-- The buckets of a slot. -/
def bucketsOf (slot : Slot) (buckets : List CanonicalTaxBucketDto) : List CanonicalTaxBucketDto :=
  buckets.filter fun bucket => decide (dgiiItbisSlot bucket.rate = some slot)

theorem bases_getD (tramos : Tramos) (slot : Slot) :
    (bases tramos slot).getD 0 = (tramos slot).elim 0 (·.base) := by
  cases h : tramos slot <;> simp [bases, h]

theorem taxes_getD (tramos : Tramos) (slot : Slot) :
    (taxes tramos slot).getD 0 = (tramos slot).elim 0 (·.tax) := by
  cases h : tramos slot <;> simp [taxes, h]

theorem foldl_addBucket (slot : Slot) (buckets : List CanonicalTaxBucketDto) (sum : Option Tramo) :
    (buckets.foldl (addBucket id slot) sum).elim 0 (·.base) =
        sum.elim 0 (·.base) + ((bucketsOf slot buckets).map (·.base)).sum ∧
      (buckets.foldl (addBucket id slot) sum).elim 0 (·.tax) =
        sum.elim 0 (·.tax) + ((bucketsOf slot buckets).map (·.tax)).sum := by
  induction buckets generalizing sum with
  | nil => simp [bucketsOf]
  | cons bucket buckets ih =>
    rw [List.foldl_cons]
    obtain ⟨base, tax⟩ := ih (addBucket id slot sum bucket)
    rw [base, tax]
    by_cases own : dgiiItbisSlot bucket.rate = some slot <;>
      simp [addBucket, bucketsOf, own, add_assoc]

theorem bucketTramos_sums (buckets : List CanonicalTaxBucketDto) (slot : Slot) :
    (bases (bucketTramos id buckets) slot).getD 0 =
        ((bucketsOf slot buckets).map (·.base)).sum ∧
      (taxes (bucketTramos id buckets) slot).getD 0 =
        ((bucketsOf slot buckets).map (·.tax)).sum := by
  obtain ⟨base, tax⟩ := foldl_addBucket slot buckets none
  rw [bases_getD, taxes_getD, bucketTramos, base, tax]
  exact ⟨zero_add _, zero_add _⟩

/-- Every bucket of a known rate is in one slot. -/
theorem sum_bucketsOf (amount : CanonicalTaxBucketDto → ℚ) {buckets : List CanonicalTaxBucketDto}
    (known : ∀ bucket ∈ buckets, bucket.rate ∈ dgiiItbisSlots) :
    ((bucketsOf .i1 buckets).map amount).sum + ((bucketsOf .i2 buckets).map amount).sum +
      ((bucketsOf .i3 buckets).map amount).sum = (buckets.map amount).sum := by
  induction buckets with
  | nil => simp [bucketsOf]
  | cons bucket buckets ih =>
    have rest := ih fun b member => known b (List.mem_cons_of_mem bucket member)
    have rate := known bucket List.mem_cons_self
    simp only [dgiiItbisSlots, List.mem_cons, List.not_mem_nil, or_false] at rate
    rw [List.map_cons, List.sum_cons, ← rest]
    rcases rate with is18 | is16 | is0
    · simp [bucketsOf, dgiiItbisSlot, is18]
      ring
    · simp [bucketsOf, dgiiItbisSlot, is16]
      ring
    · simp [bucketsOf, dgiiItbisSlot, is0]
      ring

/-- Amounts of a slot that are not negative are nothing when their sum is. -/
theorem slot_eq_zero {amount : Slot → Option ℚ} (nonneg : ∀ slot, 0 ≤ (amount slot).getD 0)
    (none : sumSlots amount = 0) (slot : Slot) : (amount slot).getD 0 = 0 := by
  have one := nonneg .i1
  have two := nonneg .i2
  have three := nonneg .i3
  unfold sumSlots at none
  cases slot <;> linarith

/-! ## Whole centavos -/

/-- A whole number of centavos. -/
def Centavos (value : ℚ) : Prop := ∃ n : ℤ, value = n / 100

theorem centavos_zero : Centavos 0 := OnGrid.zero

theorem centavos_round2 (value : ℚ) : Centavos (round2 value) := by
  rw [round2_eq]
  exact onGrid_nearest .away 100 value

theorem Centavos.add {a b : ℚ} (left : Centavos a) (right : Centavos b) : Centavos (a + b) :=
  OnGrid.add left right

theorem Centavos.sub {a b : ℚ} (left : Centavos a) (right : Centavos b) : Centavos (a - b) :=
  OnGrid.sub left right

theorem Centavos.max {a b : ℚ} (left : Centavos a) (right : Centavos b) : Centavos (max a b) :=
  OnGrid.max left right

theorem Centavos.round2 {value : ℚ} (whole : Centavos value) : XmlFormats.round2 value = value := by
  rw [round2_eq]
  exact OnGrid.nearest (by decide) whole

theorem centavos_cents (value : ℚ) : Centavos (cents ties value) := onGrid_nearest ties 100 value

theorem Centavos.cents {value : ℚ} (whole : Centavos value) (ties : Ties) :
    PrintedAmounts.cents ties value = value :=
  OnGrid.nearest (by decide) whole

theorem round2_nonneg {value : ℚ} (nonneg : 0 ≤ value) : 0 ≤ round2 value := by
  rw [round2_eq]
  exact nearest_nonneg (by decide) nonneg

theorem round2_nonpos {value : ℚ} (low : value ≤ 0) : round2 value ≤ 0 := by
  have mirrored := round2_nonneg (neg_nonneg.mpr low)
  rw [round2_eq, nearest_neg, ← round2_eq] at mirrored
  exact neg_nonneg.mp mirrored

theorem round2_mono : Monotone round2 := by
  intro a b le
  rw [round2_eq, round2_eq]
  exact nearest_mono (by decide) le

theorem abs_cents_sub (value : ℚ) : |cents ties value - value| ≤ 1 / 200 := by
  have close : |cents ties value - value| ≤ 1 / (2 * (100 : ℕ)) := abs_nearest_sub (by decide) value
  norm_num at close ⊢
  exact close

theorem abs_round2_sub (value : ℚ) : |round2 value - value| ≤ 1 / 200 := by
  rw [← cents_away]
  exact abs_cents_sub value

/-- Whole centavos that are added are passed over. -/
theorem round2_add {value whole : ℚ} (centavos : Centavos whole) (nonneg : 0 ≤ value)
    (sum : 0 ≤ value + whole) : round2 (value + whole) = round2 value + whole := by
  rw [round2_eq, round2_eq]
  exact OnGrid.nearest_add (by decide) centavos nonneg sum

theorem centavos_taxOn (slot : Slot) (base : ℚ) : Centavos (slot.taxOn base) := by
  cases slot
  · exact centavos_round2 _
  · exact centavos_round2 _
  · exact centavos_zero

theorem centavos_sumItems (amount : ProcessedLineItem → ℚ) (items : List ProcessedLineItem) :
    Centavos (sumItems amount items) := by
  unfold sumItems
  induction items using List.reverseRecOn with
  | nil => exact centavos_zero
  | append_singleton items item _ =>
    rw [List.foldl_append]
    exact centavos_round2 _

/-- Amounts in pesos are whole centavos, wherever they come from. -/
structure Reparto.Whole (amounts : Reparto) : Prop where
  base : ∀ slot, Centavos ((amounts.baseDop slot).getD 0)
  exento : Centavos amounts.exentoDop

theorem whole_absorb {amounts : Reparto} (whole : Reparto.Whole amounts) (diffDop : ℚ) :
    Reparto.Whole (absorb diffDop amounts) := by
  unfold absorb
  split
  · next chosen _ =>
    refine ⟨fun slot => ?_, whole.exento⟩
    dsimp only
    split
    · cases given : amounts.baseDop slot with
      | none => exact centavos_zero
      | some base => exact centavos_round2 _
    · exact whole.base slot
  · split
    · exact ⟨whole.base, centavos_round2 _⟩
    · exact whole

theorem whole_reparto (dto : CanonicalDocumentDto) (items : List ProcessedLineItem) :
    Reparto.Whole (reparto dto items) := by
  unfold reparto
  dsimp only
  split
  · have plain : Reparto.Whole
        { otra := bucketTramos round2 dto.totals.taxBuckets
          exentoOtra := round2 (dto.totals.montoExento.getD 0)
          baseDop := fun slot => (bases (bucketTramos round2 dto.totals.taxBuckets) slot).map
            fun base => round2 (base * exchangeRate dto)
          exentoDop := if 0 < round2 (dto.totals.montoExento.getD 0) then
            round2 (round2 (dto.totals.montoExento.getD 0) * exchangeRate dto) else 0 } := by
      constructor
      · intro slot
        dsimp only
        cases bases (bucketTramos round2 dto.totals.taxBuckets) slot with
        | none => exact centavos_zero
        | some base => exact centavos_round2 _
      · dsimp only
        split
        · exact centavos_round2 _
        · exact centavos_zero
    unfold repartoOfBuckets
    dsimp only
    split
    · exact whole_absorb plain _
    · exact plain
  · split
    · refine ⟨fun slot => ?_, centavos_round2 _⟩
      unfold repartoOfTotals
      dsimp only
      split
      · rw [Option.getD_some]
        split
        · exact centavos_round2 _
        · exact centavos_round2 _
      · exact centavos_zero
    · refine ⟨fun slot => ?_, centavos_sumItems _ _⟩
      unfold repartoOfLines
      dsimp only
      split
      · exact centavos_zero
      · exact centavos_sumItems _ _

section

variable (dto : CanonicalDocumentDto)

/-- The base of a slot in pesos, for a document in another currency. -/
def converted (slot : Slot) : ℚ := ((reparto dto (processedItems dto)).baseDop slot).getD 0

/-- The exempt amount in pesos. -/
def convertedExento : ℚ := (reparto dto (processedItems dto)).exentoDop

/-- The taxed amount in pesos. -/
def convertedGravado : ℚ := converted dto .i1 + converted dto .i2 + converted dto .i3

/-- The ITBIS in pesos. -/
def convertedItbis : ℚ :=
  Slot.i1.taxOn (converted dto .i1) + Slot.i2.taxOn (converted dto .i2)

theorem taxOn_zero (slot : Slot) : slot.taxOn 0 = 0 := by
  cases slot <;> simp [Slot.taxOn, round2_zero]

theorem tramosDop_getD (slot : Slot) :
    (bases (tramosDop (reparto dto (processedItems dto))) slot).getD 0 = converted dto slot ∧
      (taxes (tramosDop (reparto dto (processedItems dto))) slot).getD 0 =
        slot.taxOn (converted dto slot) := by
  unfold bases taxes tramosDop converted
  cases (reparto dto (processedItems dto)).baseDop slot with
  | none => exact ⟨rfl, (taxOn_zero slot).symm⟩
  | some base => exact ⟨rfl, rfl⟩

theorem centavos_converted (slot : Slot) : Centavos (converted dto slot) :=
  (whole_reparto dto (processedItems dto)).base slot

theorem centavos_convertedExento : Centavos (convertedExento dto) :=
  (whole_reparto dto (processedItems dto)).exento

theorem centavos_convertedGravado : Centavos (convertedGravado dto) :=
  ((centavos_converted dto .i1).add (centavos_converted dto .i2)).add (centavos_converted dto .i3)

theorem centavos_convertedItbis : Centavos (convertedItbis dto) :=
  (centavos_taxOn _ _).add (centavos_taxOn _ _)

/-- The sums of a document in another currency. -/
theorem foreign_sums :
    round2 (sumSlots (bases (tramosDop (reparto dto (processedItems dto))))) =
        convertedGravado dto ∧
      round2 (sumSlots (taxes (tramosDop (reparto dto (processedItems dto))))) =
        convertedItbis dto := by
  have noTax : Slot.i3.taxOn (converted dto .i3) = 0 := rfl
  simp only [sumSlots, tramosDop_getD, noTax, add_zero]
  exact ⟨(centavos_convertedGravado dto).round2, (centavos_convertedItbis dto).round2⟩

variable {dto}

/-- The types that print slots: neither exempt by their type nor exports. -/
def Slotted (tipo : String) : Prop := isExemptTipo tipo = false ∧ tipo ≠ "46"

/-- What the row of a document in another currency stores. -/
theorem foreign_stored (slotted : Slotted (tipo dto)) :
    (foreignTotales dto (processedItems dto)).totalDop =
        convertedGravado dto + convertedExento dto + convertedItbis dto ∧
      (foreignTotales dto (processedItems dto)).itbisDop = convertedItbis dto := by
  obtain ⟨gravado, itbis⟩ := foreign_sums dto
  have whole := ((centavos_convertedGravado dto).add (centavos_convertedExento dto)).add
    (centavos_convertedItbis dto)
  obtain ⟨taxed, domestic⟩ := slotted
  unfold foreignTotales
  simp only [taxed, domestic, Bool.false_eq_true, if_false, gravado, itbis]
  exact ⟨whole.round2, trivial⟩

/-- What a document in another currency prints. -/
theorem foreign_figures (slotted : Slotted (tipo dto)) :
    figures ties (foreignTotales dto (processedItems dto)).lines =
      { gravado := positive ties (convertedGravado dto)
        base := converted dto
        exento := positive ties (convertedExento dto)
        itbis := convertedItbis dto
        tax := fun slot => slot.taxOn (converted dto slot)
        total := convertedGravado dto + convertedExento dto + convertedItbis dto } := by
  obtain ⟨gravado, itbis⟩ := foreign_sums dto
  have whole := ((centavos_convertedGravado dto).add (centavos_convertedExento dto)).add
    (centavos_convertedItbis dto)
  obtain ⟨taxed, domestic⟩ := slotted
  have printed : cents ties ((if slots.any fun slot =>
      (tramosDop (reparto dto (processedItems dto)) slot).isSome then
      some (convertedItbis dto) else none).getD 0) = convertedItbis dto := by
    split
    · exact (centavos_convertedItbis dto).cents ties
    · next unused =>
      have empty (slot : Slot) : converted dto slot = 0 := by
        have off : tramosDop (reparto dto (processedItems dto)) slot = none := by
          cases slot <;> simp_all [slots]
        rw [← (tramosDop_getD dto slot).1, bases, off]
        rfl
      have nothing : convertedItbis dto = 0 := by
        rw [convertedItbis, empty, empty, taxOn_zero, taxOn_zero, add_zero]
      rw [nothing]
      exact cents_zero
  have lines : (foreignTotales dto (processedItems dto)).lines =
      slotLines (convertedGravado dto) (convertedExento dto)
        (round2 (convertedGravado dto + convertedExento dto + convertedItbis dto))
        (tramosDop (reparto dto (processedItems dto)))
        (if slots.any fun slot => (tramosDop (reparto dto (processedItems dto)) slot).isSome then
          some (convertedItbis dto) else none) ++
        retentionLines (tipo dto) (retentionInDop dto (convertedItbis dto)) := by
    unfold foreignTotales
    simp only [taxed, domestic, Bool.false_eq_true, if_false, gravado, itbis]
    rfl
  rw [lines, figures_slotLines _ _ _ _ (beside_retentionLines _ _), printed]
  simp only [tramosDop_getD, (centavos_converted dto _).cents, (centavos_taxOn _ _).cents,
    whole.round2, whole.cents]

end

end EcfDgii.PrintedTotals
