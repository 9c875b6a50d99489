import EcfDgii.PrintedItems

/-!
The totals of a document in another currency, in both currencies.

They come from the buckets, from the taxed and the exempt amount, or from the
lines.  Where they do not come from the lines, a small difference in pesos is
made up for in one of the bases.  `foreign_totals_consistent_iff` says when what
is printed adds up: unless that takes more off the bases than there is.
-/

set_option autoImplicit false

namespace EcfDgii.ForeignTotals

open EcfDgii.Text EcfDgii.Documents EcfDgii.Markup EcfDgii.XmlFormats EcfDgii.Rounding
open EcfDgii.PrintedAmounts EcfDgii.PrintedTotals EcfDgii.CanonicalLines EcfDgii.CanonicalTotals
open EcfDgii.CanonicalBuilder EcfDgii.NormalizedLines EcfDgii.PrintedItems

/-! ## Figures that add up -/

/-- The figures add up. -/
structure Adds (f : Figures) : Prop where
  total : f.total = f.gravado + f.exento + f.itbis
  gravado : f.gravado = f.base .i1 + f.base .i2 + f.base .i3
  itbis : f.itbis = f.tax .i1 + f.tax .i2 + f.tax .i3

variable {ties : Ties}

/-- What `<OtraMoneda>` prints. -/
def otraFigures (ties : Ties) (lines : List TotalLine) : Figures where
  gravado := valueOf ties "MontoGravadoTotalOtraMoneda" lines
  base slot := valueOf ties ("MontoGravado" ++ slot.number ++ "OtraMoneda") lines
  exento := valueOf ties "MontoExentoOtraMoneda" lines
  itbis := valueOf ties "TotalITBISOtraMoneda" lines
  tax slot := valueOf ties ("TotalITBIS" ++ slot.number ++ "OtraMoneda") lines
  total := valueOf ties "MontoTotalOtraMoneda" lines

theorem valueOf_amountWhen (name : String) (condition : Bool) (value : ℚ) (rest : List TotalLine) :
    valueOf ties name (amountIf condition name value ++ rest) =
      if condition then cents ties value else valueOf ties name rest := by
  cases condition <;> simp [amountIf, valueOf]

/-- The figures of the types with slots. -/
theorem otraFigures_slotLinesOtra (gravado exento total itbis : ℚ) (tramos : Tramos) :
    otraFigures ties (slotLinesOtra gravado exento total itbis tramos) =
      { gravado := positive ties gravado
        base := fun slot => cents ties ((bases tramos slot).getD 0)
        exento := positive ties exento
        itbis := if 0 < gravado ∨ 0 < itbis then cents ties itbis else 0
        tax := fun slot => cents ties ((taxes tramos slot).getD 0)
        total := cents ties total } := by
  ext slot
  any_goals cases slot
  all_goals
    simp only [ne_eq, String.reduceEq, not_false_eq_true, otraFigures, slotLinesOtra, slots,
      List.flatMap_cons, List.flatMap_nil, List.append_nil, List.append_assoc, valueOf_skipIf,
      valueOf_skipOf, valueOf_skip, valueOf_amountWhen, valueOf_amountOf, valueOf_amount,
      valueOf_nil, Slot.number, String.reduceAppend, positive, elim_cents, decide_eq_true_eq]

/-- The figures of the types that are exempt. -/
theorem otraFigures_exempt (exento : ℚ) :
    otraFigures ties (amountIf (decide (0 < exento)) "MontoExentoOtraMoneda" exento ++
        [.amount "MontoTotalOtraMoneda" exento]) =
      { noFigures with
        exento := positive ties exento
        total := cents ties exento } := by
  ext slot
  any_goals cases slot
  all_goals
    simp only [ne_eq, String.reduceEq, not_false_eq_true, otraFigures, noFigures, valueOf_skipIf,
      valueOf_skip, valueOf_amountIf, valueOf_amount, valueOf_nil, Slot.number,
      String.reduceAppend, positive]

/-- The figures of an export. -/
theorem otraFigures_export (gravado : ℚ) :
    otraFigures ties ((if 0 < gravado then
        [.amount "MontoGravadoTotalOtraMoneda" gravado,
          .amount "MontoGravado3OtraMoneda" gravado, .amount "TotalITBISOtraMoneda" 0,
          .amount "TotalITBIS3OtraMoneda" 0]
        else []) ++ [.amount "MontoTotalOtraMoneda" gravado]) =
      { noFigures with
        gravado := positive ties gravado
        base := fun slot => if slot = .i3 then positive ties gravado else 0
        total := cents ties gravado } := by
  by_cases some : 0 < gravado
  all_goals
    ext slot
    any_goals cases slot
    all_goals
      simp only [ne_eq, String.reduceEq, not_false_eq_true, otraFigures, noFigures,
        List.cons_append, List.nil_append, valueOf_skip, valueOf_amount, valueOf_nil, Slot.number,
        String.reduceAppend, positive, some, if_true, if_false, reduceCtorEq, cents_zero,
        ite_self]

theorem positive_of_centavos {value : ℚ} (cents : Centavos value) :
    positive ties value = max 0 value := by
  unfold positive
  rw [cents.cents]
  split
  · next pos => exact (max_eq_right pos.le).symm
  · next low => exact (max_eq_left (not_lt.mp low)).symm

/-! ## Amounts of money -/

/-- Whole centavos, and not less than nothing. -/
def Money (value : ℚ) : Prop := 0 ≤ value ∧ Centavos value

theorem money_zero : Money 0 := ⟨le_rfl, centavos_zero⟩

theorem money_round2 {value : ℚ} (nonneg : 0 ≤ value) : Money (round2 value) :=
  ⟨round2_nonneg nonneg, centavos_round2 value⟩

theorem Money.add {a b : ℚ} (left : Money a) (right : Money b) : Money (a + b) :=
  ⟨add_nonneg left.1 right.1, left.2.add right.2⟩

theorem Money.positive {value : ℚ} (money : Money value) :
    PrintedTotals.positive ties value = value := by
  rw [positive_of_centavos money.2]
  exact max_eq_right money.1

theorem money_taxOn (slot : Slot) {base : ℚ} (nonneg : 0 ≤ base) : Money (slot.taxOn base) := by
  cases slot
  · exact money_round2 (mul_nonneg nonneg (by norm_num))
  · exact money_round2 (mul_nonneg nonneg (by norm_num))
  · exact money_zero

theorem money_sumItems {amount : ProcessedLineItem → ℚ} {items : List ProcessedLineItem}
    (nonneg : ∀ item ∈ items, 0 ≤ amount item) : Money (sumItems amount items) := by
  unfold sumItems
  induction items using List.reverseRecOn with
  | nil => exact money_zero
  | append_singleton items item ih =>
    rw [List.foldl_append]
    have before := ih fun i h => nonneg i (List.mem_append_left _ h)
    exact money_round2 (add_nonneg before.1 (nonneg item (by simp)))

/-- A sum of whole centavos is not rounded. -/
theorem sumItems_eq {amount : ProcessedLineItem → ℚ} {items : List ProcessedLineItem}
    (cents : ∀ item ∈ items, Centavos (amount item)) :
    sumItems amount items = (items.map amount).sum := by
  have whole (items : List ProcessedLineItem) (start : ℚ) (from_centavos : Centavos start)
      (cents : ∀ item ∈ items, Centavos (amount item)) :
      items.foldl (fun sum item => round2 (sum + amount item)) start =
        start + (items.map amount).sum := by
    induction items generalizing start with
    | nil => simp
    | cons item items ih =>
      have next := from_centavos.add (cents item List.mem_cons_self)
      rw [List.foldl_cons, next.round2, ih _ next fun i h => cents i (List.mem_cons_of_mem item h),
        List.map_cons, List.sum_cons, add_assoc]
  rw [sumItems, whole items 0 centavos_zero cents, zero_add]

/-! ## Totals that are not negative -/

/-- Totals as a caller gives them: nothing less than nothing. -/
structure NonNegative (totals : CanonicalTotalsDto) : Prop where
  subtotal : 0 ≤ totals.montoSubtotal
  gravado : ∀ amount, totals.montoGravadoTotal = some amount → 0 ≤ amount
  exento : ∀ amount, totals.montoExento = some amount → 0 ≤ amount
  itbis : 0 ≤ totals.montoItbis
  total : 0 ≤ totals.montoTotal
  buckets : ∀ bucket ∈ totals.taxBuckets, 0 ≤ bucket.base ∧ 0 ≤ bucket.tax

theorem getD_nonneg {amount : Option ℚ} {default : ℚ} (nonneg : ∀ a, amount = some a → 0 ≤ a)
    (low : 0 ≤ default) : 0 ≤ amount.getD default := by
  cases amount with
  | none => exact low
  | some a => exact nonneg a rfl

/-- A slot of the other currency. -/
def MoneySlot (tramo : Option Tramo) : Prop :=
  Money (tramo.elim 0 (·.base)) ∧ Money (tramo.elim 0 (·.tax))

theorem money_bucketTramos {buckets : List CanonicalTaxBucketDto}
    (nonneg : ∀ bucket ∈ buckets, 0 ≤ bucket.base ∧ 0 ≤ bucket.tax) (slot : Slot) :
    MoneySlot (bucketTramos round2 buckets slot) := by
  unfold bucketTramos
  induction buckets using List.reverseRecOn with
  | nil => exact ⟨money_zero, money_zero⟩
  | append_singleton buckets bucket ih =>
    have before := ih fun b h => nonneg b (List.mem_append_left _ h)
    obtain ⟨base, tax⟩ := nonneg bucket (by simp)
    rw [List.foldl_append, List.foldl_cons, List.foldl_nil, addBucket]
    split
    · constructor
      · exact money_round2 (add_nonneg before.1.1 (round2_nonneg base))
      · exact money_round2 (add_nonneg before.2.1 (round2_nonneg tax))
    · exact before

variable {dto : CanonicalDocumentDto}

/-- The items of a document in another currency: amounts of money in both. -/
theorem money_processedItems (foreign : isForeignCurrency dto = true) :
    ∀ item ∈ processedItems dto, Money item.montoItemDop ∧ Money item.montoItemOtraMoneda := by
  intro item member
  have nonneg := processedItems_nonneg dto item member
  obtain ⟨given, among, rfl⟩ := List.mem_map.mp member
  obtain ⟨dop, otra⟩ := convertItem_foreign foreign given
  have sound := sound_normalizeCanonicalLines dto.lines
    (le_max_left 0 _ : 0 ≤ fallbackLineDefault dto) given among
  constructor
  · refine ⟨nonneg, ?_⟩
    rw [dop, convertedMonto]
    split
    · exact centavos_round2 _
    · exact centavos_zero.max (centavos_round2 _)
  · rw [otra]
    exact money_round2 sound.monto_nonneg

/-- The amounts in the other currency. -/
structure MoneyOtra (amounts : Reparto) : Prop where
  slot : ∀ slot, MoneySlot (amounts.otra slot)
  exento : Money amounts.exentoOtra

theorem moneyOtra_absorb {amounts : Reparto} (money : MoneyOtra amounts) (diffDop : ℚ) :
    MoneyOtra (absorb diffDop amounts) := by
  unfold absorb
  split
  · exact ⟨money.slot, money.exento⟩
  · split
    · exact ⟨money.slot, money.exento⟩
    · exact money

theorem moneyOtra_reparto (foreign : isForeignCurrency dto = true)
    (nonneg : NonNegative dto.totals) : MoneyOtra (reparto dto (processedItems dto)) := by
  have exento : Money (round2 (dto.totals.montoExento.getD 0)) :=
    money_round2 (getD_nonneg nonneg.exento le_rfl)
  have otra : ∀ item ∈ processedItems dto, 0 ≤ item.montoItemOtraMoneda :=
    fun item member => (money_processedItems foreign item member).2.1
  unfold reparto
  dsimp only
  split
  · have plain (base : Slot → Option ℚ) (exentoDop : ℚ) : MoneyOtra
        { otra := bucketTramos round2 dto.totals.taxBuckets
          exentoOtra := round2 (dto.totals.montoExento.getD 0)
          baseDop := base
          exentoDop := exentoDop } :=
      ⟨money_bucketTramos nonneg.buckets, exento⟩
    unfold repartoOfBuckets
    dsimp only
    split
    · exact moneyOtra_absorb (plain _ _) _
    · exact plain _ _
  · split
    · refine ⟨fun slot => ?_, exento⟩
      unfold repartoOfTotals single
      dsimp only
      split
      · constructor
        · exact money_round2 (getD_nonneg nonneg.gravado nonneg.subtotal)
        · exact money_round2 nonneg.itbis
      · exact ⟨money_zero, money_zero⟩
    · have among (indicador : ℤ) : ∀ item ∈ itemsOf indicador (processedItems dto),
          0 ≤ item.montoItemOtraMoneda :=
        fun item member => otra item (List.mem_filter.mp member).1
      refine ⟨fun slot => ?_, money_sumItems (among 4)⟩
      unfold repartoOfLines
      dsimp only
      split
      · exact ⟨money_zero, money_zero⟩
      · have base := money_sumItems (among slot.indicador)
        exact ⟨base, money_taxOn slot base.1⟩

/-- **The other currency adds up**, for the types with slots. -/
theorem otra_adds (foreign : isForeignCurrency dto = true) (nonneg : NonNegative dto.totals)
    (slotted : Slotted (tipo dto)) :
    Adds (otraFigures ties (foreignTotales dto (processedItems dto)).otraMoneda) := by
  obtain ⟨slot, exento⟩ := moneyOtra_reparto foreign nonneg
  have base (s : Slot) : Money ((bases (reparto dto (processedItems dto)).otra s).getD 0) := by
    rw [bases_getD]
    exact (slot s).1
  have tax (s : Slot) : Money ((taxes (reparto dto (processedItems dto)).otra s).getD 0) := by
    rw [taxes_getD]
    exact (slot s).2
  have gravado : Money (sumSlots (bases (reparto dto (processedItems dto)).otra)) :=
    ((base .i1).add (base .i2)).add (base .i3)
  have itbis : Money (sumSlots (taxes (reparto dto (processedItems dto)).otra)) :=
    ((tax .i1).add (tax .i2)).add (tax .i3)
  have total := (gravado.add exento).add itbis
  have lines : (foreignTotales dto (processedItems dto)).otraMoneda =
      slotLinesOtra (sumSlots (bases (reparto dto (processedItems dto)).otra))
        (reparto dto (processedItems dto)).exentoOtra
        (sumSlots (bases (reparto dto (processedItems dto)).otra) +
          (reparto dto (processedItems dto)).exentoOtra +
          sumSlots (taxes (reparto dto (processedItems dto)).otra))
        (sumSlots (taxes (reparto dto (processedItems dto)).otra))
        (reparto dto (processedItems dto)).otra := by
    unfold foreignTotales
    simp only [slotted.1, slotted.2, Bool.false_eq_true, if_false, gravado.2.round2,
      itbis.2.round2, total.2.round2]
  have printed : (if 0 < sumSlots (bases (reparto dto (processedItems dto)).otra) ∨
      0 < sumSlots (taxes (reparto dto (processedItems dto)).otra) then
      cents ties (sumSlots (taxes (reparto dto (processedItems dto)).otra)) else 0) =
      sumSlots (taxes (reparto dto (processedItems dto)).otra) := by
    split
    · exact itbis.2.cents ties
    · next none => exact le_antisymm itbis.1 (not_lt.mp fun pos => none (.inr pos))
  rw [lines, otraFigures_slotLinesOtra, printed, gravado.positive, exento.positive]
  simp only [(base _).2.cents, (tax _).2.cents, total.2.cents]
  exact ⟨rfl, rfl, rfl⟩

/-! ## The difference in pesos -/

section

variable (dto)

/-- `linesHaveExplicitIndicators`. -/
def linesHaveExplicitIndicators : Bool := (processedItems dto).any (·.hasExplicitIndicador)

/-- The totals come from the buckets. -/
def FromBuckets : Prop :=
  !linesHaveExplicitIndicators dto ∧ dto.totals.taxBuckets.length ≠ 0 ∧
    !isPurelyExemptOrNonTaxable dto

/-- The totals come from the taxed and the exempt amount. -/
def FromTotals : Prop :=
  !linesHaveExplicitIndicators dto ∧ !isPurelyExemptOrNonTaxable dto ∧
    0 < dto.totals.montoExento.getD 0 ∧ 0 < dto.totals.montoGravadoTotal.getD 0

instance : Decidable (FromBuckets dto) := inferInstanceAs (Decidable (_ ∧ _))

instance : Decidable (FromTotals dto) := inferInstanceAs (Decidable (_ ∧ _))

/-- The amounts of the buckets, before the difference is made up for. -/
def plainOfBuckets : Reparto where
  otra := bucketTramos round2 dto.totals.taxBuckets
  exentoOtra := round2 (dto.totals.montoExento.getD 0)
  baseDop slot := (bases (bucketTramos round2 dto.totals.taxBuckets) slot).map fun base =>
    round2 (base * exchangeRate dto)
  exentoDop := if 0 < round2 (dto.totals.montoExento.getD 0) then
    round2 (round2 (dto.totals.montoExento.getD 0) * exchangeRate dto) else 0

/-- The taxed amount in pesos, before the difference is made up for. -/
def plainGravado : ℚ :=
  round2 (round2 (dto.totals.montoGravadoTotal.getD dto.totals.montoSubtotal) * exchangeRate dto)

/-- The exempt amount in pesos that goes with it. -/
def plainExento : ℚ := round2 (round2 (dto.totals.montoExento.getD 0) * exchangeRate dto)

/-- The difference of the lines to what was converted, when it is made up for. -/
def difference (gravado exento : ℚ) : Option ℚ :=
  smallDifference (sumLinesDop (processedItems dto)) (gravado + exento)

/-- What is made up for takes more off the taxed amount than there is: the lines
are worth less than the exempt amount alone. -/
def Overdrawn : Prop :=
  if FromBuckets dto then
    0 < sumSlots (plainOfBuckets dto).baseDop ∧
      (difference dto (sumSlots (plainOfBuckets dto).baseDop)
        (plainOfBuckets dto).exentoDop).isSome ∧
      sumLinesDop (processedItems dto) < (plainOfBuckets dto).exentoDop
  else
    FromTotals dto ∧ (difference dto (plainGravado dto) (plainExento dto)).isSome ∧
      sumLinesDop (processedItems dto) < plainExento dto

instance : Decidable (Overdrawn dto) :=
  inferInstanceAs (Decidable (if FromBuckets dto then _ else _))

theorem reparto_eq :
    reparto dto (processedItems dto) =
      if FromBuckets dto then repartoOfBuckets dto (processedItems dto)
      else if FromTotals dto then repartoOfTotals dto (processedItems dto)
      else repartoOfLines (processedItems dto) :=
  rfl

theorem repartoOfBuckets_eq :
    repartoOfBuckets dto (processedItems dto) =
      match difference dto (sumSlots (plainOfBuckets dto).baseDop)
        (plainOfBuckets dto).exentoDop with
      | some diffDop => absorb diffDop (plainOfBuckets dto)
      | none => plainOfBuckets dto :=
  rfl

end

/-- The taxed amount of some amounts in pesos. -/
def gravadoOf (amounts : Reparto) : ℚ := sumSlots amounts.baseDop

theorem money_sumLinesDop (foreign : isForeignCurrency dto = true) :
    Money (sumLinesDop (processedItems dto)) :=
  money_sumItems fun item member =>
    (money_processedItems foreign item (List.mem_filter.mp member).1).1.1

/-- A difference of whole centavos is made up for as it is. -/
theorem difference_eq {gravado exento diffDop : ℚ} (foreign : isForeignCurrency dto = true)
    (gravadoCents : Centavos gravado) (exentoCents : Centavos exento)
    (made : difference dto gravado exento = some diffDop) :
    diffDop = sumLinesDop (processedItems dto) - (gravado + exento) := by
  unfold difference smallDifference at made
  dsimp only at made
  split at made
  · rw [← Option.some.inj made]
    exact ((money_sumLinesDop foreign).2.sub (gravadoCents.add exentoCents)).round2
  · cases made

theorem money_plainOfBuckets (nonneg : NonNegative dto.totals) :
    (∀ slot, Money (((plainOfBuckets dto).baseDop slot).getD 0)) ∧
      Money (plainOfBuckets dto).exentoDop := by
  have rate := exchangeRate_nonneg dto
  constructor
  · intro slot
    have base := (money_bucketTramos nonneg.buckets slot).1
    unfold plainOfBuckets bases
    dsimp only
    cases there : bucketTramos round2 dto.totals.taxBuckets slot with
    | none => exact money_zero
    | some tramo =>
      rw [there] at base
      exact money_round2 (mul_nonneg base.1 rate)
  · unfold plainOfBuckets
    dsimp only
    split
    · next some => exact money_round2 (mul_nonneg some.le rate)
    · exact money_zero

/-- The amounts in pesos are not negative. -/
def Covered (amounts : Reparto) : Prop := 0 ≤ gravadoOf amounts ∧ 0 ≤ amounts.exentoDop

/-- The difference goes to a slot that is in use, or to the exempt amount. -/
theorem absorb_cases {amounts : Reparto} (money : ∀ slot, Money ((amounts.baseDop slot).getD 0))
    {diffDop : ℚ} (cents : Centavos diffDop) :
    (0 < gravadoOf amounts ∧ gravadoOf (absorb diffDop amounts) = gravadoOf amounts + diffDop ∧
      (absorb diffDop amounts).exentoDop = amounts.exentoDop) ∨
    (gravadoOf amounts = 0 ∧ gravadoOf (absorb diffDop amounts) = 0 ∧
      (absorb diffDop amounts).exentoDop =
        if 0 < amounts.exentoDop then round2 (amounts.exentoDop + diffDop)
        else amounts.exentoDop) := by
  have low (slot : Slot) := (money slot).1
  have one := low .i1
  have two := low .i2
  have three := low .i3
  unfold absorb
  split
  · next chosen found =>
    have pos : 0 < (amounts.baseDop chosen).getD 0 := by
      simpa using List.find?_some found
    left
    obtain ⟨base, there⟩ : ∃ base, amounts.baseDop chosen = some base := by
      cases h : amounts.baseDop chosen with
      | none =>
        rw [h] at pos
        exact absurd pos (lt_irrefl 0)
      | some base => exact ⟨base, rfl⟩
    have whole : round2 (base + diffDop) = base + diffDop := by
      have baseCents := (money chosen).2
      rw [there] at baseCents
      exact (baseCents.add cents).round2
    refine ⟨?_, ?_, rfl⟩
    · unfold gravadoOf sumSlots
      cases chosen <;> linarith
    · unfold gravadoOf sumSlots
      cases chosen
      · simp [there, whole]
        ring
      · simp [there, whole]
        ring
      · simp [there, whole]
        ring
  · next none =>
    right
    have empty (slot : Slot) : (amounts.baseDop slot).getD 0 = 0 := by
      have unused := List.find?_eq_none.mp none slot (by cases slot <;> simp [slots])
      exact le_antisymm (by simpa using unused) (low slot)
    have nothing : gravadoOf amounts = 0 := by
      unfold gravadoOf sumSlots
      rw [empty, empty, empty, add_zero, add_zero]
    refine ⟨nothing, ?_, ?_⟩
    · split
      · exact nothing
      · exact nothing
    · split
      · next some => rfl
      · next some => rfl

/-- The amounts of the buckets stay positive unless they are overdrawn. -/
theorem covered_buckets_iff (foreign : isForeignCurrency dto = true)
    (nonneg : NonNegative dto.totals) (buckets : FromBuckets dto) :
    Covered (repartoOfBuckets dto (processedItems dto)) ↔ ¬Overdrawn dto := by
  obtain ⟨base, exento⟩ := money_plainOfBuckets nonneg
  have gravado : Money (sumSlots (plainOfBuckets dto).baseDop) :=
    ((base .i1).add (base .i2)).add (base .i3)
  have lines := money_sumLinesDop foreign
  rw [repartoOfBuckets_eq, Overdrawn, if_pos buckets]
  cases made : difference dto (sumSlots (plainOfBuckets dto).baseDop)
      (plainOfBuckets dto).exentoDop with
  | none =>
    simp only [Option.isSome_none, Bool.false_eq_true, false_and, and_false, not_false_eq_true,
      iff_true]
    exact ⟨gravado.1, exento.1⟩
  | some diffDop =>
    have whole := difference_eq foreign gravado.2 exento.2 made
    have cents : Centavos diffDop := by
      rw [whole]
      exact lines.2.sub (gravado.2.add exento.2)
    simp only [Option.isSome_some, true_and]
    rcases absorb_cases base cents with ⟨some, taxed, exempt⟩ | ⟨none, taxed, exempt⟩
    · rw [Covered, taxed, exempt, gravadoOf, whole]
      unfold gravadoOf at some
      constructor
      · rintro ⟨enough, -⟩ ⟨-, short⟩
        linarith
      · intro enough
        have most := not_lt.mp fun short => enough ⟨some, short⟩
        exact ⟨by linarith, exento.1⟩
    · unfold gravadoOf at none
      have covered : Covered (absorb diffDop (plainOfBuckets dto)) := by
        rw [Covered, taxed, exempt]
        refine ⟨le_rfl, ?_⟩
        split
        · apply round2_nonneg
          rw [whole, none]
          linarith [lines.1]
        · exact exento.1
      simp only [covered, true_iff]
      rintro ⟨pos, -⟩
      exact absurd none pos.ne'

/-- The amounts of the totals stay positive unless they are overdrawn. -/
theorem covered_totals_iff (foreign : isForeignCurrency dto = true)
    (nonneg : NonNegative dto.totals) (other : ¬FromBuckets dto) (given : FromTotals dto) :
    Covered (repartoOfTotals dto (processedItems dto)) ↔ ¬Overdrawn dto := by
  have rate := exchangeRate_nonneg dto
  have gravado : Money (plainGravado dto) :=
    money_round2 (mul_nonneg (round2_nonneg (getD_nonneg nonneg.gravado nonneg.subtotal)) rate)
  have exento : Money (plainExento dto) :=
    money_round2 (mul_nonneg (round2_nonneg (getD_nonneg nonneg.exento le_rfl)) rate)
  have taxed : gravadoOf (repartoOfTotals dto (processedItems dto)) =
      match difference dto (plainGravado dto) (plainExento dto) with
      | some diffDop => round2 (plainGravado dto + diffDop)
      | none => plainGravado dto := by
    show _ + (0 : ℚ) + 0 = _
    rw [add_zero, add_zero]
    rfl
  have exempt : (repartoOfTotals dto (processedItems dto)).exentoDop = plainExento dto := rfl
  rw [Covered, taxed, exempt, Overdrawn, if_neg other]
  simp only [exento.1, and_true, given, true_and]
  cases made : difference dto (plainGravado dto) (plainExento dto) with
  | none => simp [gravado.1]
  | some diffDop =>
    have whole := difference_eq foreign gravado.2 exento.2 made
    have cents : Centavos (plainGravado dto + diffDop) := by
      rw [whole]
      exact gravado.2.add ((money_sumLinesDop foreign).2.sub (gravado.2.add exento.2))
    simp only [Option.isSome_some, true_and, not_lt, cents.round2]
    rw [whole]
    constructor
    · intro enough
      linarith
    · intro enough
      linarith

/-- **The amounts in pesos are not negative exactly when they are not overdrawn.** -/
theorem covered_iff (foreign : isForeignCurrency dto = true) (nonneg : NonNegative dto.totals) :
    Covered (reparto dto (processedItems dto)) ↔ ¬Overdrawn dto := by
  rw [reparto_eq]
  by_cases buckets : FromBuckets dto
  · rw [if_pos buckets]
    exact covered_buckets_iff foreign nonneg buckets
  · rw [if_neg buckets]
    by_cases given : FromTotals dto
    · rw [if_pos given]
      exact covered_totals_iff foreign nonneg buckets given
    · rw [if_neg given, Overdrawn, if_neg buckets]
      simp only [given, false_and, not_false_eq_true, iff_true]
      have among (indicador : ℤ) : Money (sumItems (·.montoItemDop)
          (itemsOf indicador (processedItems dto))) :=
        money_sumItems fun item member =>
          (money_processedItems foreign item (List.mem_filter.mp member).1).1.1
      have base (slot : Slot) :
          0 ≤ ((repartoOfLines (processedItems dto)).baseDop slot).getD 0 := by
        unfold repartoOfLines
        dsimp only
        split
        · exact le_rfl
        · exact (among slot.indicador).1
      exact ⟨add_nonneg (add_nonneg (base .i1) (base .i2)) (base .i3), (among 4).1⟩

/-! ## The totals -/

/-- Every tax is the tax on its base. -/
def Taxes (f : Figures) : Prop :=
  ∀ slot : Slot, f.tax slot = round2 (f.base slot * ((slot.rate : ℚ) / 100))

theorem taxOn_eq (slot : Slot) (base : ℚ) : slot.taxOn base = round2 (base * ((slot.rate : ℚ) / 100)) := by
  cases slot
  · rfl
  · rfl
  · show (0 : ℚ) = round2 (base * (0 / 100))
    rw [zero_div, mul_zero, round2_zero]

/-- The pesos of the types with slots add up when no amount is negative. -/
theorem dop_adds_iff (slotted : Slotted (tipo dto)) :
    Adds (figures ties (foreignTotales dto (processedItems dto)).lines) ↔
      Covered (reparto dto (processedItems dto)) := by
  have gravado : gravadoOf (reparto dto (processedItems dto)) = convertedGravado dto := rfl
  have exento : (reparto dto (processedItems dto)).exentoDop = convertedExento dto := rfl
  rw [foreign_figures slotted, Covered, gravado, exento]
  constructor
  · rintro ⟨total, taxed, -⟩
    have exempt : convertedExento dto = positive ties (convertedExento dto) := by
      dsimp only at total taxed
      rw [taxed] at total
      unfold convertedGravado at total
      linarith
    rw [positive_of_centavos (centavos_convertedGravado dto)] at taxed
    rw [positive_of_centavos (centavos_convertedExento dto)] at exempt
    constructor
    · rw [convertedGravado, ← taxed]
      exact le_max_left 0 _
    · rw [exempt]
      exact le_max_left 0 _
  · rintro ⟨taxed, exempt⟩
    have gravadoMoney : Money (convertedGravado dto) := ⟨taxed, centavos_convertedGravado dto⟩
    have exentoMoney : Money (convertedExento dto) := ⟨exempt, centavos_convertedExento dto⟩
    rw [gravadoMoney.positive, exentoMoney.positive]
    refine ⟨rfl, rfl, ?_⟩
    exact (add_zero _).symm

theorem dop_taxes (slotted : Slotted (tipo dto)) :
    Taxes (figures ties (foreignTotales dto (processedItems dto)).lines) := by
  intro slot
  rw [foreign_figures slotted]
  exact taxOn_eq slot _

/-! ## Totals by line -/

/-- The totals come from the lines. -/
def FromLines (dto : CanonicalDocumentDto) : Prop :=
  Slotted (tipo dto) → ¬FromBuckets dto ∧ ¬FromTotals dto

/-- Bases and exempt amount are what the lines of each indicator amount to. -/
def ByLine (dto : CanonicalDocumentDto) (f : Figures) : Prop :=
  (∀ slot : Slot, f.base slot = printedUnder dto slot.indicador) ∧ f.exento = printedUnder dto 4

/-- The amounts of an indicator are printed as they are added up. -/
theorem printedUnder_foreign (foreign : isForeignCurrency dto = true) (indicador : ℤ) :
    printedUnder dto indicador =
      sumItems (·.montoItemDop) (itemsOf indicador (processedItems dto)) := by
  have cents : ∀ item ∈ itemsOf indicador (processedItems dto), Centavos item.montoItemDop :=
    fun item member => (money_processedItems foreign item (List.mem_filter.mp member).1).1.2
  rw [printedUnder_eq, sumItems_eq cents]
  exact congrArg List.sum (List.map_congr_left fun item member => (cents item member).cents .even)

theorem byLine_of_slotted (foreign : isForeignCurrency dto = true)
    (nonneg : NonNegative dto.totals) (slotted : Slotted (tipo dto))
    (lines : ¬FromBuckets dto ∧ ¬FromTotals dto) :
    ByLine dto (figures ties (foreignTotales dto (processedItems dto)).lines) := by
  have plain : reparto dto (processedItems dto) = repartoOfLines (processedItems dto) := by
    rw [reparto_eq, if_neg lines.1, if_neg lines.2]
  have exento : Money (convertedExento dto) := by
    refine ⟨?_, centavos_convertedExento dto⟩
    have covered := (covered_iff foreign nonneg).mpr (by
      rw [Overdrawn, if_neg lines.1]
      exact fun overdrawn => lines.2 overdrawn.1)
    exact covered.2
  rw [foreign_figures slotted]
  constructor
  · intro slot
    dsimp only
    rw [printedUnder_foreign foreign, converted, plain]
    unfold repartoOfLines
    dsimp only
    split
    · next none => rw [List.length_eq_zero_iff.mp none, Option.getD_none, sumItems, List.foldl_nil]
    · rfl
  · dsimp only
    rw [exento.positive, printedUnder_foreign foreign, convertedExento, plain]
    rfl

/-- An item of a document has the indicator the document gives it. -/
theorem indicador_of_processed {item : ProcessedLineItem} (member : item ∈ processedItems dto) :
    ∃ given, item.indicadorFacturacion = effInd dto given := by
  obtain ⟨given, -, rfl⟩ := List.mem_map.mp member
  refine ⟨given, ?_⟩
  unfold convertItem
  dsimp only
  split <;> rfl

/-- Items that all have one indicator. -/
theorem itemsOf_all {indicador : ℤ} {items : List ProcessedLineItem}
    (all : ∀ item ∈ items, item.indicadorFacturacion = indicador) (other : ℤ) :
    itemsOf other items = if other = indicador then items else [] := by
  unfold itemsOf
  split
  · next same =>
    rw [List.filter_eq_self]
    intro item member
    simp [all item member, same]
  · next another =>
    rw [List.filter_eq_nil_iff]
    intro item member
    simpa [all item member] using fun same => another same.symm

/-! ## Consistent totals -/

/-- Totals that add up in both currencies, and with what is stored of them. -/
structure Consistent (ties : Ties) (dto : CanonicalDocumentDto) (totales : Totales) : Prop where
  dop : Adds (figures ties totales.lines)
  taxes : Taxes (figures ties totales.lines)
  otra : Adds (otraFigures ties totales.otraMoneda)
  lines : FromLines dto → ByLine dto (figures ties totales.lines)
  total : totales.totalDop = (figures ties totales.lines).total
  itbis : totales.itbisDop = (figures ties totales.lines).itbis

theorem exempt_consistent (foreign : isForeignCurrency dto = true)
    (exempt : isExemptTipo (tipo dto) = true) :
    Consistent ties dto (foreignTotales dto (processedItems dto)) := by
  have dop : Money (sumItems (·.montoItemDop) (processedItems dto)) :=
    money_sumItems fun item member => (money_processedItems foreign item member).1.1
  have otra : Money (sumItems (·.montoItemOtraMoneda) (processedItems dto)) :=
    money_sumItems fun item member => (money_processedItems foreign item member).2.1
  have all : ∀ item ∈ processedItems dto, item.indicadorFacturacion = 4 := by
    intro item member
    obtain ⟨given, same⟩ := indicador_of_processed member
    rw [same, effInd, if_pos (.inl exempt)]
  have beside : Beside (if tipo dto = "47" then
      (effectiveRetention dto).elim [] retentionLines.isrLines else []) := by
    split
    · exact beside_isrLines_elim _
    · exact beside_nil
  have printed : figures ties (foreignTotales dto (processedItems dto)).lines =
      { noFigures with
        exento := sumItems (·.montoItemDop) (processedItems dto)
        total := sumItems (·.montoItemDop) (processedItems dto) } := by
    unfold foreignTotales
    simp only [exempt, if_true]
    rw [figures_exemptLines _ beside, dop.positive, dop.2.cents]
  have printedOtra : otraFigures ties (foreignTotales dto (processedItems dto)).otraMoneda =
      { noFigures with
        exento := sumItems (·.montoItemOtraMoneda) (processedItems dto)
        total := sumItems (·.montoItemOtraMoneda) (processedItems dto) } := by
    unfold foreignTotales
    simp only [exempt, if_true]
    rw [otraFigures_exempt, otra.positive, otra.2.cents]
  constructor
  · rw [printed]
    constructor <;> simp [noFigures]
  · rw [printed]
    intro slot
    simp [noFigures, round2_zero]
  · rw [printedOtra]
    constructor <;> simp [noFigures]
  · intro _
    rw [printed]
    constructor
    · intro slot
      rw [printedUnder_foreign foreign, itemsOf_all all]
      cases slot <;> rfl
    · rw [printedUnder_foreign foreign, itemsOf_all all, if_pos rfl]
  · rw [printed]
    unfold foreignTotales
    simp only [exempt, if_true]
  · rw [printed]
    unfold foreignTotales
    simp only [exempt, if_true]
    rfl

theorem export_consistent (foreign : isForeignCurrency dto = true) (exported : tipo dto = "46") :
    Consistent ties dto (foreignTotales dto (processedItems dto)) := by
  have taxed : isExemptTipo (tipo dto) = false := by
    rw [exported]
    decide
  have own : modifiesGastosMenores dto = false := by
    rw [modifiesGastosMenores, exported]
    rfl
  have indicador : ∀ item ∈ processedItems dto,
      item.indicadorFacturacion = 0 ∨ item.indicadorFacturacion = 3 := by
    intro item member
    obtain ⟨given, same⟩ := indicador_of_processed member
    rw [same, effInd, if_neg (by simp [taxed, own]), if_pos (.inl exported)]
    split
    · exact .inl rfl
    · exact .inr rfl
  have gravado3 : ((processedItems dto).filter fun item =>
      decide (item.indicadorFacturacion ≠ 0)) = itemsOf 3 (processedItems dto) := by
    apply List.filter_congr
    intro item member
    rcases indicador item member with free | sold
    · simp [free]
    · simp [sold]
  have others {other : ℤ} (not0 : other ≠ 0) (not3 : other ≠ 3) :
      itemsOf other (processedItems dto) = [] := by
    apply List.filter_eq_nil_iff.mpr
    intro item member
    rcases indicador item member with free | sold
    · simpa [free] using not0.symm
    · simpa [sold] using not3.symm
  have dop : Money (sumItems (·.montoItemDop) (itemsOf 3 (processedItems dto))) :=
    money_sumItems fun item member =>
      (money_processedItems foreign item (List.mem_filter.mp member).1).1.1
  have otra : Money (sumItems (·.montoItemOtraMoneda) (itemsOf 3 (processedItems dto))) :=
    money_sumItems fun item member =>
      (money_processedItems foreign item (List.mem_filter.mp member).1).2.1
  have whole : foreignTotales dto (processedItems dto) =
      { lines := exportLines (sumItems (·.montoItemDop) (itemsOf 3 (processedItems dto)))
        otraMoneda := (if 0 < sumItems (·.montoItemOtraMoneda) (itemsOf 3 (processedItems dto)) then
            [.amount "MontoGravadoTotalOtraMoneda"
                (sumItems (·.montoItemOtraMoneda) (itemsOf 3 (processedItems dto))),
              .amount "MontoGravado3OtraMoneda"
                (sumItems (·.montoItemOtraMoneda) (itemsOf 3 (processedItems dto))),
              .amount "TotalITBISOtraMoneda" 0, .amount "TotalITBIS3OtraMoneda" 0]
          else []) ++ [.amount "MontoTotalOtraMoneda"
            (sumItems (·.montoItemOtraMoneda) (itemsOf 3 (processedItems dto)))]
        totalDop := sumItems (·.montoItemDop) (itemsOf 3 (processedItems dto))
        itbisDop := 0
        retention := effectiveRetention dto } := by
    unfold foreignTotales
    dsimp only
    rw [if_neg (by simp [taxed]), if_pos exported, gravado3]
  have printed : figures ties (foreignTotales dto (processedItems dto)).lines =
      { noFigures with
        gravado := sumItems (·.montoItemDop) (itemsOf 3 (processedItems dto))
        base := fun slot => if slot = .i3 then
          sumItems (·.montoItemDop) (itemsOf 3 (processedItems dto)) else 0
        total := sumItems (·.montoItemDop) (itemsOf 3 (processedItems dto)) } := by
    rw [whole, figures_exportLines, dop.positive, dop.2.cents]
  have printedOtra : otraFigures ties (foreignTotales dto (processedItems dto)).otraMoneda =
      { noFigures with
        gravado := sumItems (·.montoItemOtraMoneda) (itemsOf 3 (processedItems dto))
        base := fun slot => if slot = .i3 then
          sumItems (·.montoItemOtraMoneda) (itemsOf 3 (processedItems dto)) else 0
        total := sumItems (·.montoItemOtraMoneda) (itemsOf 3 (processedItems dto)) } := by
    rw [whole, otraFigures_export, otra.positive, otra.2.cents]
  constructor
  · rw [printed]
    constructor <;> simp [noFigures]
  · rw [printed]
    intro slot
    cases slot <;> simp [noFigures, round2_zero, Slot.rate]
  · rw [printedOtra]
    constructor <;> simp [noFigures]
  · intro _
    rw [printed]
    constructor
    · intro slot
      have one : itemsOf 1 (processedItems dto) = [] := others (by decide) (by decide)
      have two : itemsOf 2 (processedItems dto) = [] := others (by decide) (by decide)
      rw [printedUnder_foreign foreign]
      cases slot
      · rw [Slot.indicador, one]
        rfl
      · rw [Slot.indicador, two]
        rfl
      · rfl
    · have four : itemsOf 4 (processedItems dto) = [] := others (by decide) (by decide)
      rw [printedUnder_foreign foreign, four]
      rfl
  · rw [printed, whole]
  · rw [printed, whole]
    rfl

/-- **The totals in another currency add up, in it, in pesos and with what is
stored, exactly when making up for the difference does not take more off the bases
than there is.** -/
theorem foreign_totals_consistent_iff (ties : Ties) (foreign : isForeignCurrency dto = true)
    (nonneg : NonNegative dto.totals) :
    Consistent ties dto (totales dto) ↔ ¬(Slotted (tipo dto) ∧ Overdrawn dto) := by
  have inForce : totales dto = foreignTotales dto (processedItems dto) := by
    rw [totales, if_pos foreign]
  rw [inForce]
  by_cases exempt : isExemptTipo (tipo dto) = true
  · simp only [exempt_consistent foreign exempt, true_iff]
    rintro ⟨slotted, -⟩
    rw [slotted.1] at exempt
    cases exempt
  · by_cases exported : tipo dto = "46"
    · simp only [export_consistent foreign exported, true_iff]
      exact fun overdrawn => overdrawn.1.2 exported
    · have slotted : Slotted (tipo dto) := ⟨Bool.eq_false_iff.mpr exempt, exported⟩
      simp only [slotted, true_and, ← covered_iff foreign nonneg]
      constructor
      · intro consistent
        exact (dop_adds_iff slotted).mp consistent.dop
      · intro covered
        obtain ⟨total, itbis⟩ := foreign_stored slotted
        constructor
        · exact (dop_adds_iff slotted).mpr covered
        · exact dop_taxes slotted
        · exact otra_adds foreign nonneg slotted
        · exact fun lines => byLine_of_slotted foreign nonneg slotted (lines slotted)
        · rw [foreign_figures slotted, total]
        · rw [foreign_figures slotted, itbis]

/-- An E31 in dollars with one bucket. -/
def dollarInvoice (rate lines base tax exento : ℚ) : CanonicalDocumentDto where
  sourceReference := { txnId := "T1" }
  tipoComprobante := "E31"
  header := { rncComprador := "131880681" }
  lines := [{ itemName := "Servicio", quantity := 1, unitPrice := lines, amount := lines }]
  totals :=
    { montoSubtotal := base + exento
      montoExento := some exento
      taxBuckets := [{ rate := 18, base := base, tax := tax }]
      montoItbis := tax
      montoTotal := base + exento + tax }
  currency := some { code := "USD", exchangeRate := rate }

theorem nonNegative_dollarInvoice {rate lines base tax exento : ℚ} (base_nonneg : 0 ≤ base)
    (tax_nonneg : 0 ≤ tax) (exento_nonneg : 0 ≤ exento) :
    NonNegative (dollarInvoice rate lines base tax exento).totals where
  subtotal := add_nonneg base_nonneg exento_nonneg
  gravado := nofun
  exento := by
    intro amount same
    rwa [← Option.some.inj same]
  itbis := tax_nonneg
  total := add_nonneg (add_nonneg base_nonneg exento_nonneg) tax_nonneg
  buckets := by
    intro bucket member
    rw [List.mem_singleton.mp member]
    exact ⟨base_nonneg, tax_nonneg⟩

/-- An invoice of 100.00 dollars and 18.00 of ITBIS. -/
theorem dollar_invoice_consistent :
    Consistent .away (dollarInvoice 60 100 100 18 0) (totales (dollarInvoice 60 100 100 18 0)) := by
  apply (foreign_totals_consistent_iff .away (by decide +kernel)
    (nonNegative_dollarInvoice (by norm_num) (by norm_num) (by norm_num))).mpr
  rintro ⟨-, overdrawn⟩
  revert overdrawn
  decide +kernel

/-- Of 100.00 exempt and 0.05 taxed against a line of 99.96, nine centavos are
taken off the taxed five. -/
theorem small_base_overdrawn :
    ¬ ∀ dto : CanonicalDocumentDto, isForeignCurrency dto = true → 0 < exchangeRate dto →
      NonNegative dto.totals →
      (∀ bucket ∈ dto.totals.taxBuckets, bucket.rate ∈ ([18, 16, 0] : List ℤ)) →
      Consistent .away dto (totales dto) := by
  intro consistent
  have same := (consistent (dollarInvoice 1 (9996 / 100) (5 / 100) (1 / 100) 100)
    (by decide +kernel) (by decide +kernel)
    (nonNegative_dollarInvoice (by norm_num) (by norm_num) (by norm_num)) (by decide)).dop.total
  revert same
  decide +kernel

end EcfDgii.ForeignTotals
