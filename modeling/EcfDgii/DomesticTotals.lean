import EcfDgii.ForeignTotals

/-!
The totals of a document in pesos.

They are the totals the caller gives, under elements that depend on the type and
on what a note modifies.  `domestic_totals_consistent_iff` says when totals that
add up are printed so: when they are of whole centavos, and no document that
counts as exempt has a taxed amount left over from its subtotal.
-/

set_option autoImplicit false

namespace EcfDgii.DomesticTotals

open EcfDgii.Text EcfDgii.Documents EcfDgii.XmlFormats EcfDgii.Rounding
open EcfDgii.PrintedAmounts EcfDgii.PrintedTotals
open EcfDgii.CanonicalLines EcfDgii.CanonicalTotals EcfDgii.NormalizedLines EcfDgii.ForeignTotals

/-- A note on petty expenses or on an export, or a document of such a type: there
is no ITBIS. -/
def Untaxed (dto : CanonicalDocumentDto) : Prop :=
  isExemptTipo (tipo dto) = true ∨ tipo dto = "46" ∨ modifiesGastosMenores dto = true ∨
    modifiesExport dto = true

/-- Totals of a caller that add up. -/
structure AddUp (dto : CanonicalDocumentDto) : Prop where
  nonneg : NonNegative dto.totals
  subtotal : dto.totals.montoSubtotal = givenGravado dto.totals + givenExento dto.totals
  total : dto.totals.montoTotal =
    givenGravado dto.totals + givenExento dto.totals + dto.totals.montoItbis
  rates : ∀ bucket ∈ dto.totals.taxBuckets, bucket.rate ∈ ([18, 16, 0] : List ℤ)
  buckets : dto.totals.taxBuckets ≠ [] →
    (dto.totals.taxBuckets.map (·.base)).sum = givenGravado dto.totals ∧
      (dto.totals.taxBuckets.map (·.tax)).sum = dto.totals.montoItbis
  untaxed : givenGravado dto.totals = 0 ∨ Untaxed dto → dto.totals.montoItbis = 0

/-- What the buckets of a slot amount to. -/
def slotSum (amount : CanonicalTaxBucketDto → ℚ) (dto : CanonicalDocumentDto) (slot : Slot) : ℚ :=
  ((bucketsOf slot dto.totals.taxBuckets).map amount).sum

/-- What the slots print together. -/
def printedSlots (amount : CanonicalTaxBucketDto → ℚ) (dto : CanonicalDocumentDto) : ℚ :=
  cents .even (slotSum amount dto .i1) + cents .even (slotSum amount dto .i2) +
    cents .even (slotSum amount dto .i3)

/-- The parts of the totals lose nothing when they are rounded. -/
structure WholeParts (dto : CanonicalDocumentDto) : Prop where
  itbis : Centavos dto.totals.montoItbis
  parts : cents .even (givenGravado dto.totals) + cents .even (givenExento dto.totals) =
    givenGravado dto.totals + givenExento dto.totals
  bases : dto.totals.taxBuckets ≠ [] →
    cents .even (givenGravado dto.totals) = printedSlots (·.base) dto
  taxes : dto.totals.taxBuckets ≠ [] → dto.totals.montoItbis = printedSlots (·.tax) dto

/-- Whether totals that add up are printed so: a document with slots that counts as
exempt must be exempt as a whole. -/
def Printable (dto : CanonicalDocumentDto) : Prop :=
  Centavos dto.totals.montoTotal ∧
    (Slotted (tipo dto) → modifiesGastosMenores dto = false →
      if isPurelyExemptOrNonTaxable dto = true then
        cents .even (givenExento dto.totals) = dto.totals.montoTotal
      else WholeParts dto)

/-- Totals that are printed as they add up, and as they are stored. -/
structure Printed (totales : Totales) : Prop where
  adds : Adds (figures .even totales.lines)
  total : totales.totalDop = (figures .even totales.lines).total
  itbis : totales.itbisDop = (figures .even totales.lines).itbis

variable {dto : CanonicalDocumentDto}

theorem AddUp.exento_nonneg (addUp : AddUp dto) : 0 ≤ givenExento dto.totals :=
  getD_nonneg addUp.nonneg.exento le_rfl

theorem AddUp.gravado_nonneg (addUp : AddUp dto) : 0 ≤ givenGravado dto.totals :=
  getD_nonneg addUp.nonneg.gravado (le_max_left 0 _)

theorem centavos_iff_cents (value : ℚ) : Centavos value ↔ value = cents .even value := by
  constructor
  · intro whole
    exact (whole.cents .even).symm
  · intro same
    rw [same]
    exact centavos_cents value

/-! ## Types without slots -/

theorem printed_exempt {total : ℚ} (nonneg : 0 ≤ total) {rest : List TotalLine}
    (beside : Beside rest) (otra : List TotalLine) (retention : Option CanonicalRetentionDto) :
    Printed
        { lines := exemptLines total ++ rest
          otraMoneda := otra
          totalDop := total
          itbisDop := 0
          retention := retention } ↔ Centavos total := by
  rw [centavos_iff_cents]
  constructor
  · intro printed
    have stored := printed.total
    rwa [figures_exemptLines _ beside] at stored
  · intro same
    constructor
    · rw [figures_exemptLines _ beside, positive_of_nonneg nonneg]
      constructor <;> simp [noFigures]
    · rwa [figures_exemptLines _ beside]
    · rw [figures_exemptLines _ beside]
      rfl

theorem printed_export {total : ℚ} (nonneg : 0 ≤ total) (otra : List TotalLine)
    (retention : Option CanonicalRetentionDto) :
    Printed
        { lines := exportLines total
          otraMoneda := otra
          totalDop := total
          itbisDop := 0
          retention := retention } ↔ Centavos total := by
  rw [centavos_iff_cents]
  constructor
  · intro printed
    have stored := printed.total
    rwa [figures_exportLines] at stored
  · intro same
    constructor
    · rw [figures_exportLines, positive_of_nonneg nonneg]
      constructor <;> simp [noFigures]
    · rwa [figures_exportLines]
    · rw [figures_exportLines]
      rfl

/-! ## Types with slots -/

/-- What a document with slots prints in pesos. -/
theorem figures_of_slotted (slotted : Slotted (tipo dto)) :
    figures .even (domesticTotales dto).lines =
      { gravado := positive .even (gravado dto)
        base := fun slot => cents .even ((bases (domesticTramos dto) slot).getD 0)
        exento := positive .even (exento dto)
        itbis := cents .even (if isPurelyExemptOrNonTaxable dto then 0 else dto.totals.montoItbis)
        tax := fun slot => cents .even ((taxes (domesticTramos dto) slot).getD 0)
        total := cents .even dto.totals.montoTotal } ∧
      (domesticTotales dto).totalDop = dto.totals.montoTotal ∧
      (domesticTotales dto).itbisDop =
        if isPurelyExemptOrNonTaxable dto then 0 else dto.totals.montoItbis := by
  obtain ⟨taxed, notExport⟩ := slotted
  simp only [isExemptTipo, Bool.or_eq_false_iff, decide_eq_false_iff_not] at taxed
  obtain ⟨⟨not43, not44⟩, not47⟩ := taxed
  have itbis : (if isPurelyExemptOrNonTaxable dto then none else some dto.totals.montoItbis).getD 0 =
      if isPurelyExemptOrNonTaxable dto then 0 else dto.totals.montoItbis := by
    split <;> rfl
  unfold domesticTotales
  simp only [not43, not44, not47, notExport, or_self, if_false]
  rw [figures_slotLines _ _ _ _ (beside_retentionLines _ _), itbis]
  simp only [and_self]

/-- The totals of a document with slots add up when those that are printed do. -/
theorem printed_slotted_iff (slotted : Slotted (tipo dto)) {f : Figures}
    (figures_eq : figures .even (domesticTotales dto).lines = f)
    (total_eq : f.total = cents .even dto.totals.montoTotal)
    (itbis_eq : f.itbis =
      cents .even (if isPurelyExemptOrNonTaxable dto then 0 else dto.totals.montoItbis)) :
    Printed (domesticTotales dto) ↔ Adds f ∧ Centavos dto.totals.montoTotal ∧
      (isPurelyExemptOrNonTaxable dto = false → Centavos dto.totals.montoItbis) := by
  obtain ⟨-, total, itbis⟩ := figures_of_slotted slotted
  have stored : (if isPurelyExemptOrNonTaxable dto then 0 else dto.totals.montoItbis) = f.itbis ↔
      (isPurelyExemptOrNonTaxable dto = false → Centavos dto.totals.montoItbis) := by
    rw [itbis_eq]
    cases isPurelyExemptOrNonTaxable dto with
    | true => simp [cents_zero]
    | false => simp [centavos_iff_cents]
  constructor
  · intro printed
    have adds := printed.adds
    have storedTotal := printed.total
    have storedItbis := printed.itbis
    rw [figures_eq] at adds storedTotal storedItbis
    rw [total, total_eq, ← centavos_iff_cents] at storedTotal
    exact ⟨adds, storedTotal, stored.mp (itbis.symm.trans storedItbis)⟩
  · rintro ⟨adds, whole, itbisCents⟩
    constructor
    · rwa [figures_eq]
    · rw [figures_eq, total, total_eq]
      exact (centavos_iff_cents _).mp whole
    · rw [figures_eq, itbis]
      exact stored.mpr itbisCents

/-- Without a taxed amount no slot is in use, nor when the document counts as
exempt. -/
theorem domesticTramos_exempt (exempt : isPurelyExemptOrNonTaxable dto = true) (slot : Slot) :
    (bases (domesticTramos dto) slot).getD 0 = 0 ∧ (taxes (domesticTramos dto) slot).getD 0 = 0 := by
  have free : gravado dto = 0 := by rw [gravado, if_pos (.inr exempt)]
  have none : domesticTramos dto = noTramos := by
    unfold domesticTramos
    rw [if_neg (by simp [exempt]), free, if_neg (lt_irrefl 0)]
  rw [none]
  exact ⟨rfl, rfl⟩

/-- A document that counts as exempt prints an exempt amount and a total. -/
theorem figures_of_exempt (slotted : Slotted (tipo dto))
    (exempt : isPurelyExemptOrNonTaxable dto = true) :
    figures .even (domesticTotales dto).lines =
      { noFigures with
        exento := positive .even (exento dto)
        total := cents .even dto.totals.montoTotal } := by
  have free : gravado dto = 0 := by rw [gravado, if_pos (.inr exempt)]
  rw [(figures_of_slotted slotted).1]
  simp only [domesticTramos_exempt exempt, free, exempt, if_true, cents_zero, positive_zero,
    noFigures]

/-- A note on petty expenses is exempt as a whole. -/
theorem exento_of_petty (addUp : AddUp dto) (petty : modifiesGastosMenores dto = true) :
    positive .even (exento dto) = cents .even dto.totals.montoTotal := by
  rw [exento, if_pos petty]
  split
  · exact positive_of_nonneg addUp.nonneg.total
  · next low =>
    have nothing : dto.totals.montoTotal = 0 :=
      le_antisymm (not_lt.mp low) addUp.nonneg.total
    have exempt := addUp.exento_nonneg
    have taxed := addUp.gravado_nonneg
    have itbis := addUp.nonneg.itbis
    have total := addUp.total
    have subtotal := addUp.subtotal
    have none : dto.totals.montoExento.getD dto.totals.montoSubtotal = 0 := by
      cases given : dto.totals.montoExento with
      | none =>
        rw [Option.getD_none]
        linarith
      | some amount =>
        rw [givenExento, given] at exempt total
        rw [Option.getD_some] at exempt total ⊢
        linarith
    rw [none, nothing, positive_zero, cents_zero]

/-- A document that counts as exempt. -/
theorem printed_exempt_iff (addUp : AddUp dto) (slotted : Slotted (tipo dto))
    (exempt : isPurelyExemptOrNonTaxable dto = true) :
    Printed (domesticTotales dto) ↔ Printable dto := by
  have printed := printed_slotted_iff slotted (figures_of_exempt slotted exempt) rfl
    (by rw [exempt, if_pos rfl, cents_zero]; rfl)
  rw [printed, Printable]
  simp only [exempt, slotted, forall_const, if_true, Bool.true_eq_false, false_implies, and_true]
  have adds : Adds { noFigures with
      exento := positive .even (exento dto)
      total := cents .even dto.totals.montoTotal } ↔
      cents .even dto.totals.montoTotal = positive .even (exento dto) := by
    constructor
    · intro adds
      simpa [noFigures] using adds.total
    · intro same
      constructor <;> simp [noFigures, same]
  rw [adds]
  cases petty : modifiesGastosMenores dto with
  | true => simp [exento_of_petty addUp petty]
  | false =>
    have own : exento dto = givenExento dto.totals := by
      rw [exento, petty]
      rfl
    rw [own, positive_of_nonneg addUp.exento_nonneg]
    constructor
    · rintro ⟨same, whole⟩
      refine ⟨whole, fun _ => ?_⟩
      rw [← same, whole.cents]
    · rintro ⟨whole, same⟩
      exact ⟨by rw [whole.cents, same rfl], whole⟩

/-- A document that does not count as exempt prints the amounts it is given. -/
theorem given_of_taxed (taxed : isPurelyExemptOrNonTaxable dto = false) :
    gravado dto = givenGravado dto.totals ∧ exento dto = givenExento dto.totals := by
  have notPetty : modifiesGastosMenores dto = false := by
    simp only [isPurelyExemptOrNonTaxable, Bool.or_eq_false_iff] at taxed
    exact taxed.1
  have exempt : exento dto = givenExento dto.totals := by
    rw [exento, notPetty]
    rfl
  refine ⟨?_, exempt⟩
  rw [gravado, if_neg (by simp [taxed, notPetty]), exempt]
  rfl

/-- What the slots of a document print together. -/
theorem slots_of_taxed (addUp : AddUp dto) (taxed : isPurelyExemptOrNonTaxable dto = false) :
    (cents .even ((bases (domesticTramos dto) .i1).getD 0) +
        cents .even ((bases (domesticTramos dto) .i2).getD 0) +
        cents .even ((bases (domesticTramos dto) .i3).getD 0) =
      if dto.totals.taxBuckets ≠ [] then printedSlots (·.base) dto
      else cents .even (givenGravado dto.totals)) ∧
    (cents .even ((taxes (domesticTramos dto) .i1).getD 0) +
        cents .even ((taxes (domesticTramos dto) .i2).getD 0) +
        cents .even ((taxes (domesticTramos dto) .i3).getD 0) =
      if dto.totals.taxBuckets ≠ [] then printedSlots (·.tax) dto
      else cents .even dto.totals.montoItbis) := by
  have own := (given_of_taxed taxed).1
  by_cases buckets : dto.totals.taxBuckets ≠ []
  · have tramos : domesticTramos dto = bucketTramos id dto.totals.taxBuckets := by
      unfold domesticTramos
      rw [if_pos ⟨fun none => buckets (List.length_eq_zero_iff.mp none), by simp [taxed]⟩]
    have sums := bucketTramos_sums dto.totals.taxBuckets
    rw [tramos, if_pos buckets, if_pos buckets]
    simp only [(sums _).1, (sums _).2]
    exact ⟨rfl, rfl⟩
  · have none : dto.totals.taxBuckets = [] := Classical.not_not.mp buckets
    rw [if_neg buckets, if_neg buckets]
    unfold domesticTramos
    rw [if_neg (by simp [none]), own]
    split
    · split
      · next exported =>
        have free := addUp.untaxed (.inr (.inr (.inr (.inr exported))))
        rw [free]
        simp [bases, taxes, single, cents_zero]
      · simp [bases, taxes, single, cents_zero]
    · next low =>
      have nothing : givenGravado dto.totals = 0 :=
        le_antisymm (not_lt.mp low) addUp.gravado_nonneg
      have free := addUp.untaxed (.inl nothing)
      rw [nothing, free]
      simp [bases, taxes, noTramos, cents_zero]

/-- A document that does not count as exempt. -/
theorem printed_taxed_iff (addUp : AddUp dto) (slotted : Slotted (tipo dto))
    (taxed : isPurelyExemptOrNonTaxable dto = false) :
    Printed (domesticTotales dto) ↔ Printable dto := by
  obtain ⟨baseSum, taxSum⟩ := slots_of_taxed addUp taxed
  obtain ⟨ownGravado, ownExento⟩ := given_of_taxed taxed
  have notPetty : modifiesGastosMenores dto = false := by
    simp only [isPurelyExemptOrNonTaxable, Bool.or_eq_false_iff] at taxed
    exact taxed.1
  have figures_eq := (figures_of_slotted slotted).1
  rw [ownGravado, ownExento, positive_of_nonneg addUp.gravado_nonneg,
    positive_of_nonneg addUp.exento_nonneg] at figures_eq
  rw [printed_slotted_iff slotted figures_eq rfl rfl, Printable]
  simp only [taxed, notPetty, slotted, forall_const, Bool.false_eq_true, if_false]
  have sum := addUp.total
  constructor
  · rintro ⟨⟨total, gravado, itbis⟩, whole, itbisCents⟩
    simp only [baseSum, taxSum, whole.cents, itbisCents.cents] at total gravado itbis
    refine ⟨whole, itbisCents, by linarith, fun buckets => ?_, fun buckets => ?_⟩
    · rwa [if_pos buckets] at gravado
    · rwa [if_pos buckets] at itbis
  · rintro ⟨whole, itbisCents, parts, bases, taxes⟩
    refine ⟨⟨?_, ?_, ?_⟩, whole, itbisCents⟩
    · simp only [whole.cents, itbisCents.cents]
      linarith
    · simp only [baseSum]
      split
      · next buckets => exact bases buckets
      · rfl
    · simp only [taxSum, itbisCents.cents]
      split
      · next buckets => exact taxes buckets
      · rfl

/-- **Totals that add up are printed so, exactly when they are of whole centavos and
a document that counts as exempt is exempt as a whole.** -/
theorem domestic_totals_consistent_iff (domestic : isForeignCurrency dto = false)
    (addUp : AddUp dto) : Printed (totales dto) ↔ Printable dto := by
  have inForce : totales dto = domesticTotales dto := by
    rw [totales, domestic]
    rfl
  rw [inForce]
  by_cases slotted : Slotted (tipo dto)
  · cases exempt : isPurelyExemptOrNonTaxable dto with
    | true => exact printed_exempt_iff addUp slotted exempt
    | false => exact printed_taxed_iff addUp slotted exempt
  · have whole : Printable dto ↔ Centavos dto.totals.montoTotal := by
      simp [Printable, slotted]
    have total := addUp.nonneg.total
    rw [whole]
    unfold domesticTotales
    dsimp only
    split
    · have lines := printed_exempt total beside_nil [] (effectiveRetention dto)
      rwa [List.append_nil] at lines
    · next notExempt =>
      split
      · exact printed_exempt total (beside_isrLines_elim _) [] (effectiveRetention dto)
      · next here =>
        split
        · exact printed_export total [] (effectiveRetention dto)
        · next notExport =>
          refine absurd ⟨?_, notExport⟩ slotted
          rw [not_or] at notExempt
          simp [isExemptTipo, notExempt, here]

/-- An E31 in pesos without buckets and without a taxed amount of its own. -/
def plainInvoice (subtotal itbis exento : ℚ) : CanonicalDocumentDto where
  sourceReference := { txnId := "T1" }
  tipoComprobante := "E31"
  header := { rncComprador := "131880681" }
  lines := [{ itemName := "Servicio", quantity := 1, unitPrice := subtotal, amount := subtotal }]
  totals :=
    { montoSubtotal := subtotal
      montoExento := some exento
      montoItbis := itbis
      montoTotal := subtotal + itbis }

theorem addUp_plainInvoice {subtotal itbis exento : ℚ} (exento_nonneg : 0 ≤ exento)
    (most : exento ≤ subtotal) (itbis_nonneg : 0 ≤ itbis)
    (untaxed : subtotal = exento → itbis = 0) : AddUp (plainInvoice subtotal itbis exento) := by
  have gravado : givenGravado (plainInvoice subtotal itbis exento).totals = subtotal - exento :=
    max_eq_right (sub_nonneg.mpr most)
  have given : givenExento (plainInvoice subtotal itbis exento).totals = exento := rfl
  constructor
  · constructor
    · exact exento_nonneg.trans most
    · nofun
    · intro amount same
      rwa [← Option.some.inj same]
    · exact itbis_nonneg
    · exact add_nonneg (exento_nonneg.trans most) itbis_nonneg
    · nofun
  · rw [gravado, given, sub_add_cancel]
    rfl
  · rw [gravado, given, sub_add_cancel]
    rfl
  · nofun
  · exact fun some => absurd rfl some
  · rintro (nothing | noTax)
    · rw [gravado] at nothing
      exact untaxed (sub_eq_zero.mp nothing)
    · revert noTax
      unfold Untaxed modifiesGastosMenores modifiesExport
      have typed : tipo (plainInvoice subtotal itbis exento) = "31" := by
        show CanonicalXml.tipoEcf "E31" = "31"
        decide
      rw [typed]
      simp [isExemptTipo, isNota]

/-- An invoice of 100.00 and 18.00 of ITBIS. -/
theorem plain_invoice_printed : Printed (totales (plainInvoice 100 18 0)) := by
  apply (domestic_totals_consistent_iff (by decide)
    (addUp_plainInvoice le_rfl (by norm_num) (by norm_num) (by norm_num))).mpr
  have taxed : isPurelyExemptOrNonTaxable (plainInvoice 100 18 0) = false := by decide +kernel
  refine ⟨⟨11800, by decide +kernel⟩, fun _ _ => ?_⟩
  rw [taxed]
  refine ⟨⟨1800, by decide +kernel⟩, by decide +kernel, ?_, ?_⟩
  · exact fun some => absurd rfl some
  · exact fun some => absurd rfl some

/-- Of a subtotal of 200.00 with 100.00 exempt, the other 100.00 are not printed. -/
theorem derived_gravado_dropped :
    ¬ ∀ dto : CanonicalDocumentDto, isForeignCurrency dto = false → AddUp dto →
      Printed (totales dto) := by
  intro printed
  have same := (printed (plainInvoice 200 0 100) (by decide)
    (addUp_plainInvoice (by norm_num) (by norm_num) le_rfl (fun _ => rfl))).adds.total
  revert same
  decide +kernel

end EcfDgii.DomesticTotals
