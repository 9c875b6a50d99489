import EcfDgii.PrintedItems

/-!
The retention of a document, spread over its lines.

A document whose lines carry no retention of their own has its retention spread
over them in proportion to their amounts.  Every share is rounded, and the last
line takes what the others leave, but never less than nothing:
`retentions_conserved_iff` says that the lines add up to the document exactly
when the others leave it something.
-/

set_option autoImplicit false

namespace EcfDgii.ProratedRetentions

open EcfDgii.Text EcfDgii.Documents EcfDgii.Markup EcfDgii.XmlFormats EcfDgii.PrintedAmounts
open EcfDgii.PrintedTotals EcfDgii.CanonicalLines EcfDgii.CanonicalTotals EcfDgii.CanonicalBuilder
open EcfDgii.NormalizedLines EcfDgii.PrintedItems EcfDgii.Rounding

/-! ## Shares -/

/-- The share of an item that is not the last. -/
def share (amount total : ℚ) (item : ProcessedLineItem) : ℚ :=
  if 0 < total then round2 (amount * (item.montoItemDop / total)) else 0

/-- What the items but the last take of an amount. -/
def taken (amount : ℚ) (items : List ProcessedLineItem) : ℚ :=
  (items.dropLast.map (share amount (items.map (·.montoItemDop)).sum)).sum

theorem share_nonneg {amount total : ℚ} {item : ProcessedLineItem} (amount_nonneg : 0 ≤ amount)
    (item_nonneg : 0 ≤ item.montoItemDop) : 0 ≤ share amount total item := by
  unfold share
  split
  · next pos => exact round2_nonneg (mul_nonneg amount_nonneg (div_nonneg item_nonneg pos.le))
  · exact le_rfl

theorem centavos_share (amount total : ℚ) (item : ProcessedLineItem) :
    Centavos (share amount total item) := by
  unfold share
  split
  · exact centavos_round2 _
  · exact centavos_zero

/-- What a loop assigns when it has assigned something already. -/
theorem sum_prorate (docItbis docIsr total : ℚ) {items : List ProcessedLineItem}
    (some : items ≠ []) (assignedItbis assignedIsr : ℚ) :
    ((prorate docItbis docIsr total assignedItbis assignedIsr items).map
        fun item => item.montoItbisRetenido.getD 0).sum =
      (items.dropLast.map (share docItbis total)).sum + max 0 (round2 (docItbis -
        (assignedItbis + (items.dropLast.map (share docItbis total)).sum))) ∧
    ((prorate docItbis docIsr total assignedItbis assignedIsr items).map
        fun item => item.montoIsrRetenido.getD 0).sum =
      (items.dropLast.map (share docIsr total)).sum + max 0 (round2 (docIsr -
        (assignedIsr + (items.dropLast.map (share docIsr total)).sum))) := by
  induction items generalizing assignedItbis assignedIsr with
  | nil => exact absurd rfl some
  | cons item rest ih =>
    cases rest with
    | nil => simp [prorate, prorated]
    | cons next rest =>
      obtain ⟨itbis, isr⟩ := ih (List.cons_ne_nil next rest)
        (assignedItbis + share docItbis total item) (assignedIsr + share docIsr total item)
      have first (amount assigned : ℚ) :
          prorated amount assigned total (next :: rest).isEmpty item = share amount total item :=
        rfl
      rw [prorate]
      simp only [first, List.map_cons, List.sum_cons, Option.getD_some,
        List.dropLast_cons_of_ne_nil (List.cons_ne_nil next rest)] at itbis isr ⊢
      rw [itbis, isr]
      constructor <;> simp only [add_assoc]

/-- An amount of ITBIS and one of ISR of whole centavos, neither negative: an E41
prints its ITBIS whatever its sign. -/
structure Retained (tipo : String) (itbis isr : ℚ) : Prop where
  itbis_nonneg : tipo ≠ "41" → 0 ≤ itbis
  itbis_centavos : Centavos itbis
  isr_nonneg : 0 ≤ isr
  isr_centavos : Centavos isr

/-- What an item is assigned. -/
def Assigned (tipo : String) (item : ProcessedLineItem) : Prop :=
  Retained tipo (item.montoItbisRetenido.getD 0) (item.montoIsrRetenido.getD 0)

theorem prorated_nonneg {amount total : ℚ} {item : ProcessedLineItem} (assigned : ℚ) (last : Bool)
    (amount_nonneg : 0 ≤ amount) (item_nonneg : 0 ≤ item.montoItemDop) :
    0 ≤ prorated amount assigned total last item := by
  unfold prorated
  split
  · exact le_max_left 0 _
  · exact share_nonneg amount_nonneg item_nonneg

theorem centavos_prorated (amount assigned total : ℚ) (last : Bool) (item : ProcessedLineItem) :
    Centavos (prorated amount assigned total last item) := by
  unfold prorated
  split
  · exact centavos_zero.max (centavos_round2 _)
  · exact centavos_share amount total item

theorem prorate_assigned {tipo : String} {docItbis docIsr total : ℚ}
    (retained : Retained tipo docItbis docIsr) {items : List ProcessedLineItem}
    (nonneg : ∀ item ∈ items, 0 ≤ item.montoItemDop) (assignedItbis assignedIsr : ℚ) :
    ∀ item ∈ prorate docItbis docIsr total assignedItbis assignedIsr items,
      Assigned tipo item := by
  induction items generalizing assignedItbis assignedIsr with
  | nil => simp [prorate]
  | cons item rest ih =>
    have first := nonneg item List.mem_cons_self
    rw [prorate]
    intro found member
    rcases List.mem_cons.mp member with rfl | later
    · constructor
      · intro other
        exact prorated_nonneg _ _ (retained.itbis_nonneg other) first
      · exact centavos_prorated _ _ _ _ _
      · exact prorated_nonneg _ _ retained.isr_nonneg first
      · exact centavos_prorated _ _ _ _ _
    · exact ih (fun i h => nonneg i (List.mem_cons_of_mem item h)) _ _ found later

/-- The shares add up to the amount when the last one is what is left. -/
theorem conserved_iff {amount others : ℚ} (amount_centavos : Centavos amount)
    (others_centavos : Centavos others) :
    others + max 0 (round2 (amount - others)) = amount ↔ others ≤ amount := by
  rw [(amount_centavos.sub others_centavos).round2]
  constructor
  · intro whole
    have left := le_max_left 0 (amount - others)
    linarith
  · intro enough
    rw [max_eq_right (sub_nonneg.mpr enough)]
    ring

/-! ## Printed lines -/

/-- Only the retention of an item prints retained amounts. -/
theorem printed_itemLines (dto : CanonicalDocumentDto) (retention : CanonicalRetentionDto)
    (item : ProcessedLineItem) {name : String}
    (retained : name = "MontoITBISRetenido" ∨ name = "MontoISRRetenido") :
    printed name (itemLines dto (some retention) item) =
      printed name (lineRetencion (tipo dto) retention.indicadorAgenteRetencionoPercepcion
        item) := by
  rcases retained with rfl | rfl <;>
    simp only [itemLines, descuento, otraMonedaDetalle, printed_block, printed_append,
      printed_cons, printed_nil, printed_ite, amountUnder_other, printed_money_other, ne_eq,
      String.reduceEq, not_false_eq_true, add_zero, zero_add, ite_self]

/-- The types whose lines carry a retention. -/
def retainingTypes : List String := ["31", "33", "34", "41", "47"]

/-- What the lines of an item print of what it was assigned. -/
theorem printed_lineRetencion {tipo : String} (typed : tipo ∈ retainingTypes) (agente : ℤ)
    {item : ProcessedLineItem} (assigned : Assigned tipo item) :
    printed "MontoITBISRetenido" (lineRetencion tipo agente item) =
        (if tipo = "47" then 0 else item.montoItbisRetenido.getD 0) ∧
      printed "MontoISRRetenido" (lineRetencion tipo agente item) =
        item.montoIsrRetenido.getD 0 := by
  obtain ⟨itbis_nonneg, itbis_centavos, isr_nonneg, isr_centavos⟩ := assigned
  have itbis_or (other : tipo ≠ "41") :
      0 < item.montoItbisRetenido.getD 0 ∨ item.montoItbisRetenido.getD 0 = 0 :=
    (itbis_nonneg other).lt_or_eq.imp_right Eq.symm
  have isr_or : 0 < item.montoIsrRetenido.getD 0 ∨ item.montoIsrRetenido.getD 0 = 0 :=
    isr_nonneg.lt_or_eq.imp_right Eq.symm
  by_cases compras : tipo = "41"
  · subst compras
    rcases isr_or with isr | isr
    all_goals
      simp only [lineRetencion, printed_block, printed_append, printed_cons, printed_nil,
        amountUnder_other, printed_money, printed_money_other, ne_eq,
        String.reduceEq, not_false_eq_true, add_zero, zero_add, isr, if_true, if_false,
        lt_irrefl, itbis_centavos.cents, isr_centavos.cents, and_self]
  · simp only [retainingTypes, List.mem_cons, List.not_mem_nil, or_false] at typed
    rcases itbis_or compras with itbis | itbis
    all_goals
      rcases isr_or with isr | isr
      all_goals
        rcases typed with rfl | rfl | rfl | rfl | rfl
        all_goals first
          | exact absurd rfl compras
          | simp only [lineRetencion, printed_block, printed_append, printed_cons, printed_nil,
              amountUnder_other, printed_money, printed_money_other, ne_eq,
              String.reduceEq, not_false_eq_true, add_zero, zero_add, itbis, isr, if_true,
              if_false, true_or, or_true, or_self, lt_irrefl, itbis_centavos.cents,
              isr_centavos.cents, cents_zero, and_self]

/-! ## Printed totals -/

/-- A document with slots prints its retention behind them. -/
theorem lines_of_slotted {dto : CanonicalDocumentDto} (slotted : Slotted (tipo dto)) :
    ∃ gravado exento total tramos itbis, (totales dto).lines =
      slotLines gravado exento total tramos itbis ++
        retentionLines (tipo dto) (totales dto).retention := by
  obtain ⟨taxed, notExport⟩ := slotted
  simp only [isExemptTipo, Bool.or_eq_false_iff, decide_eq_false_iff_not] at taxed
  obtain ⟨⟨not43, not44⟩, not47⟩ := taxed
  unfold totales foreignTotales domesticTotales
  simp only [isExemptTipo, not43, not44, not47, notExport, decide_false, Bool.or_self, or_self,
    Bool.false_eq_true, if_false]
  split
  · exact ⟨_, _, _, _, _, rfl⟩
  · exact ⟨_, _, _, _, _, rfl⟩

/-- A payment abroad prints its retention of ISR alone. -/
theorem lines_of_47 {dto : CanonicalDocumentDto} (abroad : tipo dto = "47") :
    ∃ total, (totales dto).lines =
      exemptLines total ++ (totales dto).retention.elim [] retentionLines.isrLines := by
  unfold totales foreignTotales domesticTotales
  simp only [isExemptTipo, abroad, String.reduceEq, decide_true, decide_false, Bool.or_true,
    or_self, if_true, if_false]
  split
  · exact ⟨_, rfl⟩
  · exact ⟨_, rfl⟩

variable {ties : Ties}

/-- What a retention retains. -/
def InForce (tipo : String) (retention : CanonicalRetentionDto) : Prop :=
  Retained tipo retention.montoItbisRetenido (retention.montoIsrRetenido.getD 0)

theorem valueOf_isrLines {tipo : String} {retention : CanonicalRetentionDto}
    (whole : InForce tipo retention) :
    valueOf ties "TotalISRRetencion" (retentionLines.isrLines retention) =
      retention.montoIsrRetenido.getD 0 := by
  have lines := @valueOf_amountIf ties "TotalISRRetencion" (retention.montoIsrRetenido.getD 0) []
  rw [List.append_nil, valueOf_nil] at lines
  rw [retentionLines.isrLines, lines]
  split
  · exact whole.isr_centavos.cents ties
  · next low => exact le_antisymm whole.isr_nonneg (not_lt.mp low)

theorem valueOf_retentionLines {tipo : String} (typed : tipo ∈ ["31", "33", "34", "41"])
    {retention : CanonicalRetentionDto} (whole : InForce tipo retention) :
    valueOf ties "TotalITBISRetenido" (retentionLines tipo (some retention)) =
        retention.montoItbisRetenido ∧
      valueOf ties "TotalISRRetencion" (retentionLines tipo (some retention)) =
        retention.montoIsrRetenido.getD 0 := by
  have isr := @valueOf_isrLines ties tipo retention whole
  have other : valueOf ties "TotalITBISRetenido" (retentionLines.isrLines retention) = 0 := by
    have lines := @valueOf_skipIf ties _ _
      (by decide : "TotalISRRetencion" ≠ "TotalITBISRetenido")
      (decide (0 < retention.montoIsrRetenido.getD 0)) (retention.montoIsrRetenido.getD 0) []
    rwa [List.append_nil, valueOf_nil] at lines
  rw [retentionLines, if_pos typed]
  refine ⟨?_, by rw [valueOf_skipIf (by decide), isr]⟩
  cases shown : (decide (tipo = "41") || decide (0 < retention.montoItbisRetenido)) with
  | true =>
    simp [amountIf, valueOf, whole.itbis_centavos.cents]
  | false =>
    simp only [Bool.or_eq_false_iff, decide_eq_false_iff_not] at shown
    simp only [amountIf, Bool.false_eq_true, if_false, List.nil_append, other]
    exact le_antisymm (whole.itbis_nonneg shown.1) (not_lt.mp shown.2)

theorem valueOf_beyond_slots {name : String}
    (retained : name = "TotalITBISRetenido" ∨ name = "TotalISRRetencion")
    (gravado exento total : ℚ) (tramos : Tramos) (itbis : Option ℚ) (rest : List TotalLine) :
    valueOf ties name (slotLines gravado exento total tramos itbis ++ rest) = valueOf ties name rest := by
  rcases retained with rfl | rfl <;>
    simp only [ne_eq, String.reduceEq, not_false_eq_true, slotLines, slots, List.flatMap_cons,
      List.flatMap_nil, List.append_nil, List.append_assoc, List.cons_append, List.nil_append,
      valueOf_skipIf, valueOf_skipOf, valueOf_skip, valueOf_skipRate, Slot.number,
      String.reduceAppend]

theorem valueOf_beyond_exempt {name : String}
    (retained : name = "TotalITBISRetenido" ∨ name = "TotalISRRetencion") (total : ℚ)
    (rest : List TotalLine) : valueOf ties name (exemptLines total ++ rest) = valueOf ties name rest := by
  rcases retained with rfl | rfl <;>
    simp only [ne_eq, String.reduceEq, not_false_eq_true, exemptLines, List.append_assoc,
      List.cons_append, List.nil_append, valueOf_skipIf, valueOf_skip]

/-- Every type that retains but the payments abroad has slots. -/
theorem slotted_of_typed {tipo : String} (typed : tipo ∈ retainingTypes) (here : tipo ≠ "47") :
    tipo ∈ ["31", "33", "34", "41"] ∧ Slotted tipo := by
  simp only [retainingTypes, List.mem_cons, List.not_mem_nil, or_false] at typed
  rcases typed with rfl | rfl | rfl | rfl | rfl
  · exact ⟨by decide, by constructor <;> decide⟩
  · exact ⟨by decide, by constructor <;> decide⟩
  · exact ⟨by decide, by constructor <;> decide⟩
  · exact ⟨by decide, by constructor <;> decide⟩
  · exact absurd rfl here

/-- What the totals print of the retention in force. -/
theorem printed_totals {dto : CanonicalDocumentDto} (typed : tipo dto ∈ retainingTypes)
    {retention : CanonicalRetentionDto} (given : (totales dto).retention = some retention)
    (whole : InForce (tipo dto) retention) :
    valueOf ties "TotalITBISRetenido" (totales dto).lines =
        (if tipo dto = "47" then 0 else retention.montoItbisRetenido) ∧
      valueOf ties "TotalISRRetencion" (totales dto).lines = retention.montoIsrRetenido.getD 0 := by
  by_cases abroad : tipo dto = "47"
  · obtain ⟨total, lines⟩ := lines_of_47 abroad
    rw [lines, given, if_pos abroad, Option.elim_some, valueOf_beyond_exempt (.inl rfl),
      valueOf_beyond_exempt (.inr rfl)]
    refine ⟨?_, valueOf_isrLines whole⟩
    have lines := @valueOf_skipIf ties _ _
      (by decide : "TotalISRRetencion" ≠ "TotalITBISRetenido")
      (decide (0 < retention.montoIsrRetenido.getD 0)) (retention.montoIsrRetenido.getD 0) []
    rwa [List.append_nil, valueOf_nil] at lines
  · obtain ⟨rest, slotted⟩ := slotted_of_typed typed abroad
    obtain ⟨gravado, exento, total, tramos, itbis, lines⟩ := lines_of_slotted slotted
    rw [lines, given, if_neg abroad, valueOf_beyond_slots (.inl rfl),
      valueOf_beyond_slots (.inr rfl)]
    exact valueOf_retentionLines rest whole

/-! ## The retention in force -/

/-- A retention as a document gives it: whole centavos, none of them negative. -/
structure Whole (retention : CanonicalRetentionDto) : Prop where
  itbis_nonneg : 0 ≤ retention.montoItbisRetenido
  itbis_centavos : Centavos retention.montoItbisRetenido
  isr_nonneg : 0 ≤ retention.montoIsrRetenido.getD 0
  isr_centavos : Centavos (retention.montoIsrRetenido.getD 0)

/-- In pesos the retention of a document is of whole centavos as well. -/
theorem effectiveRetention_whole {dto : CanonicalDocumentDto}
    (given : ∀ r, dto.retention = some r → Whole r) {retention : CanonicalRetentionDto}
    (effective : effectiveRetention dto = some retention) : Whole retention := by
  have typed : tipo dto ∈ ["31", "33", "34", "41", "47"] := by
    by_contra untyped
    simp [effectiveRetention, untyped] at effective
  rw [effectiveRetention, if_pos typed] at effective
  split at effective
  · next own there =>
    obtain ⟨itbis_nonneg, itbis_centavos, isr_nonneg, isr_centavos⟩ := given own there
    split at effective
    · rw [← Option.some.inj effective]
      have rate := exchangeRate_nonneg dto
      constructor
      · exact round2_nonneg (mul_nonneg itbis_nonneg rate)
      · exact centavos_round2 _
      · cases isr : own.montoIsrRetenido with
        | none => exact le_rfl
        | some m =>
          rw [isr] at isr_nonneg
          exact round2_nonneg (mul_nonneg isr_nonneg rate)
      · cases isr : own.montoIsrRetenido with
        | none => exact centavos_zero
        | some m => exact centavos_round2 _
    · rw [← Option.some.inj effective]
      exact ⟨itbis_nonneg, itbis_centavos, isr_nonneg, isr_centavos⟩
  · split at effective
    · rw [← Option.some.inj effective]
      split
      · exact ⟨le_rfl, centavos_zero, le_rfl, centavos_zero⟩
      · exact ⟨le_rfl, centavos_zero, le_rfl, centavos_zero⟩
    · cases effective

/-- What is retained is the document's retention in pesos, but for an E41, whose
ITBIS may be the one worked out in pesos. -/
theorem retention_of_totales (dto : CanonicalDocumentDto) :
    (totales dto).retention = effectiveRetention dto ∨
      ∃ effective itbis, tipo dto = "41" ∧ effectiveRetention dto = some effective ∧
        Centavos itbis ∧
        (totales dto).retention = some { effective with montoItbisRetenido := itbis } := by
  have inDop (itbisDop : ℚ) (cents : Centavos itbisDop) :
      retentionInDop dto itbisDop = effectiveRetention dto ∨
        ∃ effective itbis, tipo dto = "41" ∧ effectiveRetention dto = some effective ∧
          Centavos itbis ∧
          retentionInDop dto itbisDop = some { effective with montoItbisRetenido := itbis } := by
    unfold retentionInDop
    split
    · next effective given inForce _ =>
      split
      · next compras => exact .inr ⟨effective, itbisDop, compras.1, inForce, cents, rfl⟩
      · exact .inl inForce.symm
    · exact .inl rfl
  unfold totales foreignTotales domesticTotales
  split
  · dsimp only
    split
    · exact .inl rfl
    · split
      · exact .inl rfl
      · exact inDop _ (centavos_round2 _)
  · dsimp only
    split_ifs <;> exact .inl rfl

theorem inForce_of_whole {dto : CanonicalDocumentDto}
    (given : ∀ r, dto.retention = some r → Whole r) {retention : CanonicalRetentionDto}
    (inForce : (totales dto).retention = some retention) : InForce (tipo dto) retention := by
  rcases retention_of_totales dto with same | ⟨effective, itbis, compras, there, cents, changed⟩
  · obtain ⟨itbis_nonneg, itbis_centavos, isr_nonneg, isr_centavos⟩ :=
      effectiveRetention_whole given (same.symm.trans inForce)
    exact ⟨fun _ => itbis_nonneg, itbis_centavos, isr_nonneg, isr_centavos⟩
  · obtain ⟨-, -, isr_nonneg, isr_centavos⟩ := effectiveRetention_whole given there
    rw [← Option.some.inj (changed.symm.trans inForce)]
    exact ⟨fun other => absurd compras other, cents, isr_nonneg, isr_centavos⟩

/-! ## The document -/

theorem printed_detallesItems (name : String) (dto : CanonicalDocumentDto) :
    printed name (detallesItems dto) =
      ((retainedItems (totales dto).retention (processedItems dto)).map fun item =>
        printed name (itemLines dto (totales dto).retention item)).sum := by
  rw [detallesItems, printed_block, printed_flatMap]

/-- Without a retention nothing retained is printed. -/
theorem printed_itemLines_none (dto : CanonicalDocumentDto) (item : ProcessedLineItem)
    {name : String} (retained : name = "MontoITBISRetenido" ∨ name = "MontoISRRetenido") :
    printed name (itemLines dto none item) = 0 := by
  rcases retained with rfl | rfl <;>
    simp only [itemLines, descuento, otraMonedaDetalle, printed_block, printed_append,
      printed_cons, printed_nil, printed_ite, amountUnder_other, printed_money_other, ne_eq,
      String.reduceEq, not_false_eq_true, add_zero, ite_self]

/-- Without a retention neither the items nor the totals retain anything. -/
theorem nothing_retained {dto : CanonicalDocumentDto} (typed : tipo dto ∈ retainingTypes)
    (none : (totales dto).retention = none) {name total : String}
    (retained : name = "MontoITBISRetenido" ∧ total = "TotalITBISRetenido" ∨
      name = "MontoISRRetenido" ∧ total = "TotalISRRetencion") :
    printed name (detallesItems dto) = 0 ∧ valueOf ties total (totales dto).lines = 0 := by
  constructor
  · rw [printed_detallesItems, none]
    have named := retained.imp And.left And.left
    simp [printed_itemLines_none dto _ named]
  · by_cases abroad : tipo dto = "47"
    · obtain ⟨amount, lines⟩ := lines_of_47 abroad
      rw [lines, none, valueOf_beyond_exempt (retained.imp And.right And.right)]
      rfl
    · obtain ⟨gravado, exento, amount, tramos, itbis, lines⟩ :=
        lines_of_slotted (slotted_of_typed typed abroad).2
      rw [lines, none, valueOf_beyond_slots (retained.imp And.right And.right)]
      rfl

/-- What the items print is what they were assigned. -/
theorem assigned_printed {dto : CanonicalDocumentDto} (typed : tipo dto ∈ retainingTypes)
    (retention : CanonicalRetentionDto) {items : List ProcessedLineItem}
    (assigned : ∀ item ∈ items, Assigned (tipo dto) item) :
    (items.map fun item =>
        printed "MontoITBISRetenido" (itemLines dto (some retention) item)).sum =
      (if tipo dto = "47" then 0
        else (items.map fun item => item.montoItbisRetenido.getD 0).sum) ∧
    (items.map fun item =>
        printed "MontoISRRetenido" (itemLines dto (some retention) item)).sum =
      (items.map fun item => item.montoIsrRetenido.getD 0).sum := by
  induction items with
  | nil => simp
  | cons item items ih =>
    obtain ⟨itbis, isr⟩ := ih fun i h => assigned i (List.mem_cons_of_mem item h)
    obtain ⟨ownItbis, ownIsr⟩ := printed_lineRetencion typed
      retention.indicadorAgenteRetencionoPercepcion (assigned item List.mem_cons_self)
    simp only [List.map_cons, List.sum_cons, itbis, isr, printed_itemLines dto retention item
      (.inl rfl), printed_itemLines dto retention item (.inr rfl), ownItbis, ownIsr, and_true]
    split
    · exact add_zero 0
    · rfl

theorem centavos_taken (amount : ℚ) (items : List ProcessedLineItem) :
    Centavos (taken amount items) := by
  apply Rounding.OnGrid.sum
  intro value member
  obtain ⟨item, -, rfl⟩ := List.mem_map.mp member
  exact centavos_share amount _ item

/-- The printed lines add up to the printed total, for the ITBIS and the ISR. -/
def Conserved (dto : CanonicalDocumentDto) : Prop :=
  printed "MontoITBISRetenido" (detallesItems dto) =
      valueOf .even "TotalITBISRetenido" (totales dto).lines ∧
    printed "MontoISRRetenido" (detallesItems dto) =
      valueOf .even "TotalISRRetencion" (totales dto).lines

/-- **What is retained of the lines is what is retained of the document, exactly
when the rounded shares of the lines but the last do not exceed it.** -/
theorem retentions_conserved_iff (dto : CanonicalDocumentDto) (typed : tipo dto ∈ retainingTypes)
    (unretained : hasLineRetentions (processedItems dto) = false)
    (given : ∀ r, dto.retention = some r → Whole r) :
    Conserved dto ↔ ∀ r, (totales dto).retention = some r →
      (tipo dto ≠ "47" →
        taken r.montoItbisRetenido (processedItems dto) ≤ r.montoItbisRetenido) ∧
      taken (r.montoIsrRetenido.getD 0) (processedItems dto) ≤ r.montoIsrRetenido.getD 0 := by
  cases inForce : (totales dto).retention with
  | none =>
    obtain ⟨itbisLines, itbisTotal⟩ := nothing_retained typed inForce (.inl ⟨rfl, rfl⟩)
    obtain ⟨isrLines, isrTotal⟩ := nothing_retained typed inForce (.inr ⟨rfl, rfl⟩)
    constructor
    · intro _ r there
      cases there
    · intro _
      exact ⟨itbisLines.trans itbisTotal.symm, isrLines.trans isrTotal.symm⟩
  | some retention =>
    have retained := inForce_of_whole given inForce
    obtain ⟨itbisTotal, isrTotal⟩ := printed_totals typed inForce retained
    have items : retainedItems (some retention) (processedItems dto) =
        prorate retention.montoItbisRetenido (retention.montoIsrRetenido.getD 0)
          ((processedItems dto).map (·.montoItemDop)).sum 0 0 (processedItems dto) := by
      rw [retainedItems, unretained]
      rfl
    obtain ⟨itbisLines, isrLines⟩ := assigned_printed typed retention
      (prorate_assigned retained (processedItems_nonneg dto) 0 0)
    obtain ⟨itbisSum, isrSum⟩ := sum_prorate retention.montoItbisRetenido
      (retention.montoIsrRetenido.getD 0) ((processedItems dto).map (·.montoItemDop)).sum
      (processedItems_ne_nil dto) 0 0
    simp only [zero_add] at itbisSum isrSum
    have itbis := conserved_iff retained.itbis_centavos
      (centavos_taken retention.montoItbisRetenido (processedItems dto))
    have isr := conserved_iff retained.isr_centavos
      (centavos_taken (retention.montoIsrRetenido.getD 0) (processedItems dto))
    rw [Conserved, printed_detallesItems, printed_detallesItems, inForce, items, itbisLines,
      isrLines, itbisSum, isrSum, itbisTotal, isrTotal]
    simp only [Option.some.injEq, forall_eq']
    apply and_congr
    · by_cases abroad : tipo dto = "47"
      · simp [abroad]
      · simpa [abroad, taken] using itbis
    · exact isr

/-- An E31 in pesos with an amount of ITBIS retained. -/
def retainedInvoice (retained : ℚ) (amounts : List ℚ) : CanonicalDocumentDto where
  sourceReference := { txnId := "T1" }
  tipoComprobante := "E31"
  header := { rncComprador := "131880681" }
  lines := amounts.map fun amount =>
    { itemName := "Servicio", quantity := 1, unitPrice := amount, amount := amount }
  totals :=
    { montoSubtotal := amounts.sum
      montoItbis := retained
      montoTotal := amounts.sum + retained }
  retention := some { montoItbisRetenido := retained }

theorem retainedInvoice_whole {retained : ℚ} (nonneg : 0 ≤ retained) (cents : Centavos retained)
    (amounts : List ℚ) :
    ∀ r, (retainedInvoice retained amounts).retention = some r → Whole r := by
  intro r same
  rw [← Option.some.inj same]
  exact ⟨nonneg, cents, le_rfl, centavos_zero⟩

/-- Two lines share a retention. -/
theorem equal_shares_conserved : Conserved (retainedInvoice 36 [100, 100]) := by
  apply (retentions_conserved_iff (retainedInvoice 36 [100, 100]) (by decide) (by decide +kernel)
    (retainedInvoice_whole (by norm_num) ⟨3600, by norm_num⟩ _)).mpr
  have domestic : isForeignCurrency (retainedInvoice 36 [100, 100]) = false := by decide
  have inForce : (totales (retainedInvoice 36 [100, 100])).retention =
      some { montoItbisRetenido := 36 } := by
    rw [totales, domestic]
    rfl
  intro r same
  rw [← Option.some.inj (inForce.symm.trans same)]
  decide +kernel

/-- Three lines of 100.00 take 6.02 each of 18.05, and leave the last one
nothing. -/
theorem rounded_shares_exceed :
    ¬ ∀ dto : CanonicalDocumentDto, tipo dto ∈ retainingTypes →
      hasLineRetentions (processedItems dto) = false →
      (∀ r, dto.retention = some r → Whole r) → Conserved dto := by
  intro conserved
  have same := conserved (retainedInvoice (1805 / 100) [100, 100, 100, 1 / 100]) (by decide)
    (by decide +kernel) (retainedInvoice_whole (by norm_num) ⟨1805, by norm_num⟩ _)
  revert same
  unfold Conserved
  decide +kernel

end EcfDgii.ProratedRetentions
