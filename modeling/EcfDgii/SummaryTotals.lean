import EcfDgii.SummaryDocuments

/-!
The totals of a summary, before and after they are printed.

`validateTotalesConsistency` checks up to four equations, each with a tolerance
of a cent (`consistent_iff`).  The serializer clamps, rounds and cuts each amount
by itself.  `survives_iff` says when the printed amounts still satisfy the
equations, with half a cent more for each printed addend: without amounts below
zero always, but for two amounts that stand half a cent off; with some, when they
come to no more than the roundings leave.
-/

set_option autoImplicit false

namespace EcfDgii.SummaryTotals

open EcfDgii.XmlFormats EcfDgii.Elements EcfDgii.Rounding EcfDgii.DirectSending
open EcfDgii.PrintedAmounts (decimalValue cents)
open EcfDgii.Summaries EcfDgii.SummaryDocuments

/-! ## The equations -/

/-- The amounts under `Totales`. -/
inductive Total
  | montoGravadoTotal
  | montoGravadoI1
  | montoGravadoI2
  | montoGravadoI3
  | montoExento
  | totalITBIS
  | totalITBIS1
  | totalITBIS2
  | totalITBIS3
  | montoImpuestoAdicional
  | montoTotal
  | montoNoFacturable
  | montoPeriodo
  deriving DecidableEq

/-- The element of an amount. -/
def Total.tag : Total → String
  | montoGravadoTotal => "MontoGravadoTotal"
  | montoGravadoI1 => "MontoGravadoI1"
  | montoGravadoI2 => "MontoGravadoI2"
  | montoGravadoI3 => "MontoGravadoI3"
  | montoExento => "MontoExento"
  | totalITBIS => "TotalITBIS"
  | totalITBIS1 => "TotalITBIS1"
  | totalITBIS2 => "TotalITBIS2"
  | totalITBIS3 => "TotalITBIS3"
  | montoImpuestoAdicional => "MontoImpuestoAdicional"
  | montoTotal => "MontoTotal"
  | montoNoFacturable => "MontoNoFacturable"
  | montoPeriodo => "MontoPeriodo"

/-- The amounts that are given. -/
abbrev Totals := Total → Option ℚ

/-- The amounts of a summary. -/
def given (rfce : Summary) : Totals
  | .montoGravadoTotal => rfce.content.montoGravadoTotal
  | .montoGravadoI1 => rfce.content.montoGravadoI1
  | .montoGravadoI2 => rfce.content.montoGravadoI2
  | .montoGravadoI3 => rfce.content.montoGravadoI3
  | .montoExento => rfce.content.montoExento
  | .totalITBIS => rfce.totalITBIS
  | .totalITBIS1 => rfce.content.totalITBIS1
  | .totalITBIS2 => rfce.content.totalITBIS2
  | .totalITBIS3 => rfce.content.totalITBIS3
  | .montoImpuestoAdicional => rfce.content.montoImpuestoAdicional
  | .montoTotal => some rfce.montoTotal
  | .montoNoFacturable => rfce.content.montoNoFacturable
  | .montoPeriodo => rfce.content.montoPeriodo

/-- The amounts that a reader finds in a document. -/
def printedTotals (xml : String) : Totals := fun total => do
  let root ← document xml
  let encabezado ← root.child "Encabezado"
  let totales ← encabezado.child "Totales"
  let element ← totales.child total.tag
  return decimalValue element.text

/-- An amount and the ones it is the sum of. -/
inductive Equation
  | total
  | gravado
  | itbis
  | periodo
  deriving DecidableEq

def Equation.sum : Equation → Total
  | total => .montoTotal
  | gravado => .montoGravadoTotal
  | itbis => .totalITBIS
  | periodo => .montoPeriodo

def Equation.addends : Equation → List Total
  | total => [.montoGravadoTotal, .totalITBIS, .montoExento, .montoImpuestoAdicional]
  | gravado => [.montoGravadoI1, .montoGravadoI2, .montoGravadoI3]
  | itbis => [.totalITBIS1, .totalITBIS2, .totalITBIS3]
  | periodo => [.montoTotal, .montoNoFacturable]

/-- When an equation is checked. -/
def Equation.InForce (t : Totals) : Equation → Prop
  | total => (t .montoGravadoTotal).isSome ∨ ((t .montoExento).isSome ∧ t .totalITBIS = none)
  | gravado => (t .montoGravadoTotal).isSome ∧
      ((t .montoGravadoI1).isSome ∨ (t .montoGravadoI2).isSome ∨ (t .montoGravadoI3).isSome)
  | itbis => (t .totalITBIS).isSome ∧
      ((t .totalITBIS1).isSome ∨ (t .totalITBIS2).isSome ∨ (t .totalITBIS3).isSome)
  | periodo => (t .montoPeriodo).isSome ∧ (t .montoNoFacturable).isSome

/-- The addends that are given. -/
def Equation.terms (t : Totals) (equation : Equation) : List ℚ := equation.addends.filterMap t

/-- The equations in force hold, up to a tolerance for so many addends. -/
def Consistent (tolerance : ℕ → ℚ) (t : Totals) : Prop :=
  ∀ equation : Equation, equation.InForce t →
    |(t equation.sum).getD 0 - (equation.terms t).sum| ≤ tolerance (equation.terms t).length

/-- **Validation survives serialisation**: the printed totals satisfy the
equations with a cent, and half a cent for each printed addend. -/
def Survives (rfce : Summary) : Prop :=
  Consistent (fun addends => 1 / 100 + addends / 200) (printedTotals (serialize rfce))

/-! ## What the validator checks -/

theorem terms_sum (t : Totals) (equation : Equation) :
    (equation.terms t).sum = (equation.addends.map fun total => (t total).getD 0).sum := by
  rw [Equation.terms]
  induction equation.addends with
  | nil => rfl
  | cons total totals ih =>
    rw [List.map_cons, List.sum_cons, ← ih, List.filterMap_cons]
    cases t total with
    | none => simp
    | some value => simp

/-- An equation within a tolerance of a cent. -/
def Checked (t : Totals) (equation : Equation) : Prop :=
  equation.InForce t → |(t equation.sum).getD 0 - (equation.terms t).sum| ≤ 1 / 100

theorem checked_total (rfce : Summary) :
    totalFailures rfce = [] ↔ Checked (given rfce) .total := by
  unfold totalFailures Checked
  rw [terms_sum]
  simp only [Equation.InForce, Equation.sum, Equation.addends, given, List.map_cons, List.map_nil,
    List.sum_cons, List.sum_nil, add_zero, Option.getD_some]
  cases rfce.content.montoGravadoTotal with
  | some gravado => simp [failure_eq_nil, Apart, add_assoc]
  | none =>
    cases rfce.content.montoExento with
    | none => simp
    | some exento =>
      cases rfce.totalITBIS with
      | some itbis => simp
      | none => simp [failure_eq_nil, Apart]

theorem checked_periodo (rfce : Summary) :
    (match rfce.content.montoPeriodo, rfce.content.montoNoFacturable with
      | some periodo, some noFacturable =>
        failure (Apart periodo (rfce.montoTotal + noFacturable))
          "MontoPeriodo debe ser igual a MontoTotal + MontoNoFacturable."
      | _, _ => []) = [] ↔ Checked (given rfce) .periodo := by
  unfold Checked
  rw [terms_sum]
  simp only [Equation.InForce, Equation.sum, Equation.addends, given, List.map_cons, List.map_nil,
    List.sum_cons, List.sum_nil, add_zero, Option.getD_some]
  cases rfce.content.montoPeriodo with
  | none => simp
  | some periodo =>
    cases rfce.content.montoNoFacturable with
    | none => simp
    | some noFacturable => simp [failure_eq_nil, Apart]

/-- A sum against its parts. -/
theorem checked_parts {t : Totals} {equation : Equation} (message : String)
    (inForce : equation.InForce t ↔
      (t equation.sum).isSome ∧ (equation.addends.map t).any Option.isSome) :
    partFailures (t equation.sum) (equation.addends.map t) message = [] ↔ Checked t equation := by
  rw [Checked, inForce, terms_sum]
  cases total : t equation.sum with
  | none => simp [partFailures]
  | some value =>
    rw [partFailures, failure_eq_nil, List.map_map]
    simp only [Apart, not_and, not_lt, Option.isSome_some, true_and, Option.getD_some]
    rfl

/-- **The totals that pass** are those that satisfy the equations up to a cent. -/
theorem consistent_iff (rfce : Summary) :
    validateTotalesConsistency rfce = [] ↔ Consistent (fun _ => 1 / 100) (given rfce) := by
  have gravado := @checked_parts (given rfce) .gravado
    "MontoGravadoTotal no coincide con la suma de MontoGravadoI1+I2+I3."
    (by simp [Equation.InForce, Equation.sum, Equation.addends])
  have itbis := @checked_parts (given rfce) .itbis
    "TotalITBIS no coincide con la suma de TotalITBIS1+2+3."
    (by simp [Equation.InForce, Equation.sum, Equation.addends])
  have parts : validateTotalesConsistency rfce = [] ↔
      ((Checked (given rfce) .total ∧ Checked (given rfce) .gravado) ∧
        Checked (given rfce) .itbis) ∧ Checked (given rfce) .periodo := by
    rw [← checked_total, ← gravado, ← itbis, ← checked_periodo, ← List.append_eq_nil_iff,
      ← List.append_eq_nil_iff, ← List.append_eq_nil_iff]
    rfl
  rw [parts]
  constructor
  · rintro ⟨⟨⟨total, gravado⟩, itbis⟩, periodo⟩ equation
    cases equation with
    | total => exact total
    | gravado => exact gravado
    | itbis => exact itbis
    | periodo => exact periodo
  · intro consistent
    exact ⟨⟨⟨consistent .total, consistent .gravado⟩, consistent .itbis⟩, consistent .periodo⟩

theorem consistent_of_valid {rfce : Summary} (valid : validateRfce rfce = []) :
    Consistent (fun _ => 1 / 100) (given rfce) := by
  rw [← consistent_iff]
  simp only [validateRfce, List.append_eq_nil_iff] at valid
  exact valid.1.1.2

/-! ## What is printed -/

theorem name_amount (name : String) (value : ℚ) : (amount name value).name = name := rfl

theorem find_amountOpt (tag name : String) (value : Option ℚ) :
    (amountOpt tag value).find? (fun part => part.name = name) =
      if tag = name then value.map (amount tag) else none := by
  cases value with
  | none => simp [amountOpt]
  | some value =>
    by_cases same : tag = name <;> simp [amountOpt, amount, Outline.name, same]

theorem find_items {α : Type} {tag name : String} (other : tag ≠ name) (itemTag : String)
    (item : α → List (Outline Field)) (entries : List α) :
    (items tag itemTag item entries).find? (fun part => part.name = name) = none := by
  unfold items
  split
  · rfl
  · simp [Outline.name, other]

/-- Each amount stands under its own name. -/
theorem part_totales (rfce : Summary) (total : Total) :
    (totales rfce).part total.tag = (given rfce total).map (amount total.tag) := by
  have table (name : String) (other : "ImpuestosAdicionales" ≠ name) :=
    @find_items _ _ _ other "ImpuestoAdicional" impuesto rfce.content.impuestosAdicionales
  cases total <;>
    simp [totales, Outline.part, Total.tag, given, List.find?_append, name_amount,
      find_amountOpt, table]

/-- A value as it is printed. -/
def printedValue (v : ℚ) : ℚ := cut (cents .even (max v 0))

theorem decimalValue_printedValue (v : ℚ) : decimalValue (printed v) = printedValue v := by
  rcases lt_or_ge v 0 with negative | nonneg
  · have zero : printed v = printed 0 := by
      rw [printed, printed, money, money, if_pos negative, if_neg (lt_irrefl 0)]
    rw [zero, decimalValue_printed le_rfl, printedValue, max_eq_right negative.le]
  · rw [decimalValue_printed nonneg, printedValue, max_eq_left nonneg]

/-- **What a reader finds** under each name is the amount as it is printed. -/
theorem printedTotals_serialize (rfce : Summary) (total : Total) :
    printedTotals (serialize rfce) total = (given rfce total).map printedValue := by
  have root : ((outline rfce).node (shown printed)).child "Encabezado" =
      some ((Outline.group "Encabezado" (encabezado rfce)).node (shown printed)) := by
    rw [child_node]
    rfl
  have header : ((Outline.group "Encabezado" (encabezado rfce)).node (shown printed)).child
      "Totales" = some ((totales rfce).node (shown printed)) := by
    rw [child_node]
    rfl
  have element := @child_node _ (shown printed) (totales rfce) total.tag
  rw [part_totales, Option.map_map] at element
  simp only [printedTotals, document_serialize, root, header, element, Option.bind_eq_bind,
    Option.bind_some]
  cases given rfce total with
  | none => rfl
  | some value =>
    have text := @text_leaf _ (shown printed) total.tag (Field.amount value)
    exact congrArg some ((congrArg decimalValue text).trans (decimalValue_printedValue value))

/-! ## The equations that survive -/

/-- The amounts of an equation. -/
def Equation.amounts (t : Totals) (equation : Equation) : List ℚ :=
  (t equation.sum).toList ++ equation.terms t

/-- What printing adds to an amount, one below zero taken for zero. -/
def rounding (v : ℚ) : ℚ := cents .even (max v 0) - max v 0

/-- What the addends below zero come to, less the sum when it is below zero. -/
def Equation.lost (t : Totals) (equation : Equation) : ℚ :=
  ((equation.terms t).map fun v => max 0 (-v)).sum - max 0 (-(t equation.sum).getD 0)

/-- What may be lost: the tolerance, and what the addends as they are given and
rounded fall short of the sum. -/
def Equation.leeway (t : Totals) (equation : Equation) : ℚ :=
  1 / 100 + (equation.terms t).length / 200 +
    ((t equation.sum).getD 0 - (equation.terms t).sum) +
    (rounding ((t equation.sum).getD 0) - ((equation.terms t).map rounding).sum)

/-- Two amounts a cent apart, each with half a cent: printing takes the smaller to
the even cent below it, and the greater to the next even one. -/
def HalfCents (smaller greater : ℚ) : Prop :=
  ∃ k : ℤ, k % 2 = 0 ∧ smaller = (k + 1 / 2) / 100 ∧ greater = smaller + 1 / 100

/-- An equation keeps up when each amount has room in the buffer and, with amounts
below zero, no more is lost than may be; without them, when it is not one of two
amounts that stand half a cent off. -/
def Equation.KeepsUp (t : Totals) (equation : Equation) : Prop :=
  (∀ v ∈ equation.amounts t, Fits v) ∧
    if ∃ v ∈ equation.amounts t, v < 0 then equation.lost t ≤ equation.leeway t
    else ∀ v, equation.terms t = [v] →
      ¬ HalfCents v ((t equation.sum).getD 0) ∧ ¬ HalfCents ((t equation.sum).getD 0) v

/-- The amounts of an equation, those below zero taken for zero and each of them
rounded and cut, add up. -/
def Equation.Balanced (t : Totals) (equation : Equation) : Prop :=
  |((t equation.sum).map printedValue).getD 0 - ((equation.terms t).map printedValue).sum| ≤
    1 / 100 + (equation.terms t).length / 200

instance (t : Totals) (equation : Equation) : Decidable (equation.Balanced t) :=
  inferInstanceAs (Decidable (_ ≤ _))

/-- What is given is printed, and nothing else. -/
theorem inForce_map (t : Totals) (f : ℚ → ℚ) (equation : Equation) :
    equation.InForce (fun total => (t total).map f) ↔ equation.InForce t := by
  cases equation <;> simp only [Equation.InForce, Option.isSome_map, Option.map_eq_none_iff]

theorem terms_map (t : Totals) (f : ℚ → ℚ) (equation : Equation) :
    equation.terms (fun total => (t total).map f) = (equation.terms t).map f :=
  List.map_filterMap.symm

/-- A summary survives exactly when its equations in force stay balanced. -/
theorem survives_iff_balanced (rfce : Summary) :
    Survives rfce ↔
      ∀ equation : Equation, equation.InForce (given rfce) → equation.Balanced (given rfce) := by
  have same : printedTotals (serialize rfce) = fun total => (given rfce total).map printedValue :=
    funext (printedTotals_serialize rfce)
  rw [Survives, same]
  refine forall_congr' fun equation => ?_
  rw [inForce_map, terms_map, List.length_map]
  rfl

theorem sum_of_inForce {rfce : Summary} {equation : Equation}
    (inForce : equation.InForce (given rfce)) : ∃ v, given rfce equation.sum = some v := by
  cases equation with
  | total => exact ⟨_, rfl⟩
  | gravado =>
    obtain ⟨⟨v, value⟩, -⟩ := And.imp_left Option.isSome_iff_exists.mp inForce
    exact ⟨v, value⟩
  | itbis =>
    obtain ⟨⟨v, value⟩, -⟩ := And.imp_left Option.isSome_iff_exists.mp inForce
    exact ⟨v, value⟩
  | periodo =>
    obtain ⟨⟨v, value⟩, -⟩ := And.imp_left Option.isSome_iff_exists.mp inForce
    exact ⟨v, value⟩

theorem fits_of_nonpos {v : ℚ} (nonpos : v ≤ 0) : Fits v := by
  have low : cents .even v ≤ 0 := by
    have mirrored : 0 ≤ nearest .even 100 (-v) :=
      nearest_nonneg (by decide) (neg_nonneg.mpr nonpos)
    rw [nearest_neg] at mirrored
    exact neg_nonneg.mp mirrored
  exact .inl (low.trans_lt (by norm_num))

theorem printedValue_of_fits {v : ℚ} (fits : Fits v) :
    printedValue v = max v 0 + rounding v := by
  have clamped : Fits (max v 0) := by
    rcases max_choice v 0 with own | zero
    · rwa [own]
    · rw [zero]
      exact fits_of_nonpos le_rfl
  rw [printedValue, rounding, (cut_eq_iff (le_max_right v 0)).mpr clamped]
  ring

theorem abs_rounding_le (v : ℚ) : |rounding v| ≤ 1 / 200 := by
  have close : |nearest .even 100 (max v 0) - max v 0| ≤ 1 / (2 * (100 : ℕ)) :=
    abs_nearest_sub (by decide) _
  norm_num at close ⊢
  exact close

theorem rounding_of_neg {v : ℚ} (neg : v < 0) : rounding v = 0 := by
  have zero : nearest .even 100 (0 : ℚ) = 0 := OnGrid.zero.nearest (by decide)
  rw [rounding, max_eq_right neg.le, cents, zero, sub_zero]

theorem printedValue_nonneg (v : ℚ) : 0 ≤ printedValue v :=
  cut_nonneg (nearest_nonneg (by decide) (le_max_right v 0))

theorem fits_of_small {v : ℚ} (small : v < 10 ^ 60 - 1) : Fits v := by
  have close : |nearest .even 100 v - v| ≤ 1 / (2 * (100 : ℕ)) := abs_nearest_sub (by decide) v
  have near := (abs_le.mp close).2
  refine .inl ?_
  rw [cents]
  norm_num at near small ⊢
  linarith

/-- A large amount is printed as a large one. -/
theorem printedValue_ge (v : ℚ) : min v (10 ^ 60) - 1 ≤ printedValue v := by
  by_cases fits : Fits v
  · rw [printedValue_of_fits fits]
    have rounded := (abs_le.mp (abs_rounding_le v)).1
    linarith [min_le_left v (10 ^ 60), le_max_left v 0]
  · have pos : 0 < v := not_le.mp fun nonpos => fits (fits_of_nonpos nonpos)
    obtain ⟨s, inCents, -⟩ := printed_inCents pos.le
    have large : (10 : ℚ) ^ 60 ≤ s / 100 := by
      rw [← inCents]
      exact not_lt.mp fun small => fits (.inl small)
    rw [printedValue, max_eq_left pos.le, inCents]
    exact (sub_le_self _ zero_le_one).trans ((min_le_right v _).trans (cut_ge large))

/-- Amounts below zero are not rounded. -/
theorem sum_rounding_ge (values : List ℚ) :
    -(values.length / 200 : ℚ) ≤ (values.map rounding).sum ∧
      ((∃ v ∈ values, v < 0) → -((values.length - 1) / 200 : ℚ) ≤ (values.map rounding).sum) := by
  induction values with
  | nil => simp
  | cons value values ih =>
    obtain ⟨all, some⟩ := ih
    have own := (abs_le.mp (abs_rounding_le value)).1
    simp only [List.map_cons, List.sum_cons, List.length_cons, Nat.cast_add, Nat.cast_one]
    refine ⟨by linarith, ?_⟩
    rintro ⟨v, member, neg⟩
    rcases List.mem_cons.mp member with rfl | later
    · rw [rounding_of_neg neg]
      linarith
    · have rest := some ⟨v, later, neg⟩
      linarith

/-- What printing makes of the addends, against what it makes of the sum. -/
theorem printed_difference {t : Totals} {equation : Equation} {total : ℚ}
    (value : t equation.sum = some total) (fits : ∀ v ∈ equation.amounts t, Fits v) :
    ((equation.terms t).map printedValue).sum - printedValue total =
      equation.lost t - equation.leeway t + (1 / 100 + (equation.terms t).length / 200) := by
  rw [Equation.amounts, value, Option.toList_some, List.singleton_append, List.forall_mem_cons]
    at fits
  have clamped (v : ℚ) : max v 0 = v + max 0 (-v) := by
    rcases le_total v 0 with low | high
    · rw [max_eq_right low, max_eq_right (neg_nonneg.mpr low)]
      ring
    · rw [max_eq_left high, max_eq_left (neg_nonpos.mpr high)]
      ring
  have sums : ((equation.terms t).map printedValue).sum = (equation.terms t).sum +
      ((equation.terms t).map fun v => max 0 (-v)).sum + ((equation.terms t).map rounding).sum := by
    have each : (equation.terms t).map printedValue =
        (equation.terms t).map fun v => v + max 0 (-v) + rounding v :=
      List.map_congr_left fun v member => by rw [printedValue_of_fits (fits.2 v member), clamped]
    rw [each, List.sum_map_add, List.sum_map_add, List.map_id']
  rw [sums, printedValue_of_fits fits.1, clamped, Equation.lost, Equation.leeway, value,
    Option.getD_some]
  ring

theorem halfCents_iff {smaller greater : ℚ} : HalfCents smaller greater ↔
    ∃ k : ℤ, k % 2 = 0 ∧ smaller * 100 = k + 1 / 2 ∧ greater * 100 = smaller * 100 + 1 := by
  refine exists_congr fun k => and_congr_right fun _ => ?_
  constructor
  · rintro ⟨rfl, rfl⟩
    exact ⟨by ring, by ring⟩
  · rintro ⟨first, second⟩
    exact ⟨by linarith, by linarith⟩

/-- Two amounts no more than a cent apart that are printed two cents apart. -/
theorem printed_apart_iff {total v : ℚ} (close : |total * 100 - v * 100| ≤ 1) :
    |halfEven (total * 100) - halfEven (v * 100)| = 2 ↔ HalfCents v total ∨ HalfCents total v := by
  obtain ⟨low, high⟩ := abs_le.mp close
  rw [halfCents_iff, halfCents_iff, ← halfEven_apart_iff high,
    ← halfEven_apart_iff (by linarith : v * 100 - total * 100 ≤ 1), abs_eq (by decide)]
  refine or_congr_right ?_
  constructor <;> intro apart <;> omega

theorem printedValue_inCents {v : ℚ} (fits : Fits v) (nonneg : 0 ≤ v) :
    printedValue v = (halfEven (v * 100) : ℤ) / 100 := by
  rw [printedValue_of_fits fits, rounding, add_sub_cancel, max_eq_left nonneg, cents, nearest_even]
  norm_num

theorem sum_printedValue {values : List ℚ} (fits : ∀ v ∈ values, Fits v)
    (nonneg : ∀ v ∈ values, 0 ≤ v) :
    (values.map printedValue).sum =
      (((values.map (· * (100 : ℚ))).map halfEven).sum : ℤ) / 100 := by
  induction values with
  | nil => simp
  | cons v values ih =>
    rw [List.forall_mem_cons] at fits nonneg
    simp only [List.map_cons, List.sum_cons]
    rw [ih fits.2 nonneg.2, printedValue_inCents fits.1 nonneg.1]
    push_cast
    ring

theorem close_inCents {total : ℚ} {values : List ℚ} (close : |total - values.sum| ≤ 1 / 100) :
    |total * 100 - (values.map (· * (100 : ℚ))).sum| ≤ ((1 : ℕ) : ℚ) := by
  have factor : (values.map (· * (100 : ℚ))).sum = values.sum * 100 := by
    simpa using List.sum_map_mul_right values id (100 : ℚ)
  rw [factor, ← sub_mul, abs_mul, abs_of_pos (by norm_num : (0 : ℚ) < 100)]
  norm_num
  linarith

/-- The balance of amounts that are not negative, in half cents. -/
theorem balanced_inCents {t : Totals} {equation : Equation} {total : ℚ}
    (value : t equation.sum = some total) (fits : ∀ v ∈ equation.amounts t, Fits v)
    (nonneg : ∀ v ∈ equation.amounts t, 0 ≤ v) :
    equation.Balanced t ↔
      2 * |halfEven (total * 100) -
        (((equation.terms t).map (· * (100 : ℚ))).map halfEven).sum| ≤
      2 + ((equation.terms t).length : ℤ) := by
  rw [Equation.amounts, value, Option.toList_some, List.singleton_append, List.forall_mem_cons]
    at fits nonneg
  rw [Equation.Balanced, value, Option.map_some, Option.getD_some,
    printedValue_inCents fits.1 nonneg.1, sum_printedValue fits.2 nonneg.2, ← sub_div, abs_div,
    abs_of_pos (by norm_num : (0 : ℚ) < 100), ← @Int.cast_le ℚ]
  push_cast
  constructor <;> intro most <;> linarith

theorem length_terms_le (t : Totals) (equation : Equation) : (equation.terms t).length ≤ 4 := by
  have most := List.length_filterMap_le t equation.addends
  have addends : equation.addends.length ≤ 4 := by cases equation <;> decide
  exact most.trans addends

/-- The addends of a balanced equation are not much greater than their sum. -/
theorem addend_small {t : Totals} {equation : Equation} {total : ℚ}
    (value : t equation.sum = some total) (room : total < 10 ^ 60 - 3)
    (balanced : equation.Balanced t) : ∀ v ∈ equation.terms t, v < max total 0 + 2 := by
  intro v member
  rw [Equation.Balanced, value, Option.map_some, Option.getD_some] at balanced
  have few : ((equation.terms t).length : ℚ) ≤ 4 := by exact_mod_cast length_terms_le t equation
  have own := (abs_le.mp (abs_rounding_le total)).2
  have sum := (abs_le.mp balanced).1
  rw [printedValue_of_fits (fits_of_small (by linarith))] at sum
  have among : printedValue v ≤ ((equation.terms t).map printedValue).sum := by
    refine List.single_le_sum ?_ _ (List.mem_map_of_mem member)
    intro addend member
    obtain ⟨v, -, rfl⟩ := List.mem_map.mp member
    exact printedValue_nonneg v
  have low := printedValue_ge v
  have clamped : max total 0 < 10 ^ 60 - 3 := max_lt room (by norm_num)
  rcases le_total v (10 ^ 60) with within | beyond
  · rw [min_eq_left within] at low
    linarith
  · rw [min_eq_right beyond] at low
    linarith

/-- When the equations in force are balanced, every amount in them has room, if
those that no other equation bounds are not huge. -/
theorem fits_of_balanced {rfce : Summary} (valid : validateRfce rfce = [])
    (bounded : ∀ total ∈ [Total.totalITBIS, .montoPeriodo], ∀ v, given rfce total = some v →
      v < 10 ^ 60 - 3)
    (balanced : ∀ equation : Equation, equation.InForce (given rfce) →
      equation.Balanced (given rfce))
    (equation : Equation) (inForce : equation.InForce (given rfce)) :
    ∀ v ∈ equation.amounts (given rfce), Fits v := by
  have montoTotal : rfce.montoTotal < 250000 := by
    simp only [validateRfce, List.append_eq_nil_iff] at valid
    exact not_le.mp (failure_eq_nil.mp valid.1.1.1.1.2)
  have whole {v : ℚ} (value : given rfce .montoTotal = some v) : v < 10 ^ 60 - 3 := by
    obtain rfl : rfce.montoTotal = v := Option.some.inj value
    linarith
  obtain ⟨total, value⟩ := sum_of_inForce inForce
  have room : total < 10 ^ 60 - 3 := by
    cases equation with
    | total => exact whole value
    | gravado =>
      have sum : Equation.total.InForce (given rfce) := .inl inForce.1
      have addend : total ∈ Equation.total.terms (given rfce) :=
        List.mem_filterMap.mpr ⟨_, List.mem_cons_self, value⟩
      have small := addend_small rfl (whole rfl) (balanced .total sum) total addend
      have low : max rfce.montoTotal 0 < 250001 := max_lt (by linarith) (by norm_num)
      linarith
    | itbis => exact bounded _ (by decide) total value
    | periodo => exact bounded _ (by decide) total value
  have addends := addend_small value room (balanced equation inForce)
  have clamped : max total 0 < 10 ^ 60 - 3 := max_lt room (by norm_num)
  rw [Equation.amounts, value, Option.toList_some, List.singleton_append, List.forall_mem_cons]
  exact ⟨fits_of_small (by linarith), fun v member =>
    fits_of_small (by linarith [addends v member])⟩

section

variable {rfce : Summary} {equation : Equation}
  (inForce : equation.InForce (given rfce)) (checked : Checked (given rfce) equation)
  (fits : ∀ v ∈ equation.amounts (given rfce), Fits v)

include inForce checked fits

/-- With amounts below zero the printed sum is not too great. -/
theorem balanced_of_negative (negative : ∃ v ∈ equation.amounts (given rfce), v < 0) :
    equation.Balanced (given rfce) ↔
      equation.lost (given rfce) ≤ equation.leeway (given rfce) := by
  obtain ⟨total, value⟩ := sum_of_inForce inForce
  have close := checked inForce
  have difference := printed_difference value fits
  have own := abs_le.mp (abs_rounding_le total)
  obtain ⟨all, some⟩ := sum_rounding_ge (equation.terms (given rfce))
  have others : 0 ≤ ((equation.terms (given rfce)).map fun v => max 0 (-v)).sum := by
    apply List.sum_nonneg
    intro addend member
    obtain ⟨v, -, rfl⟩ := List.mem_map.mp member
    exact le_max_left 0 _
  rw [value, Option.getD_some] at close
  have bounds := abs_le.mp close
  have lower : equation.leeway (given rfce) - equation.lost (given rfce) ≤
      2 * (1 / 100 + (equation.terms (given rfce)).length / 200) := by
    rcases lt_or_ge total 0 with below | above
    · -- The sum is printed as nothing, and the addends as no less.
      have nothing : printedValue total = 0 := by
        rw [printedValue_of_fits (fits_of_nonpos below.le), rounding_of_neg below,
          max_eq_right below.le, add_zero]
      have printed : 0 ≤ ((equation.terms (given rfce)).map printedValue).sum := by
        apply List.sum_nonneg
        intro addend member
        obtain ⟨v, -, rfl⟩ := List.mem_map.mp member
        exact printedValue_nonneg v
      have count : (0 : ℚ) ≤ (equation.terms (given rfce)).length := Nat.cast_nonneg _
      linarith
    · -- One of the addends is below zero, and not rounded.
      obtain ⟨v, member, neg⟩ := negative
      rw [Equation.amounts, value, Option.toList_some, List.singleton_append, List.mem_cons]
        at member
      have among := member.resolve_left fun same => absurd above (not_le.mpr (same ▸ neg))
      have rounded := some ⟨v, among, neg⟩
      rw [Equation.leeway, Equation.lost, value, Option.getD_some,
        max_eq_left (neg_nonpos.mpr above)]
      linarith
  rw [Equation.Balanced, value, Option.map_some, Option.getD_some, abs_le]
  constructor
  · rintro ⟨least, -⟩
    linarith
  · intro enough
    constructor <;> linarith

/-- Without amounts below zero, two amounts that stand half a cent off are all that
can go wrong. -/
theorem balanced_of_nonneg (nonneg : ¬∃ v ∈ equation.amounts (given rfce), v < 0) :
    equation.Balanced (given rfce) ↔ ∀ v, equation.terms (given rfce) = [v] →
      ¬ HalfCents v ((given rfce equation.sum).getD 0) ∧
        ¬ HalfCents ((given rfce equation.sum).getD 0) v := by
  obtain ⟨total, value⟩ := sum_of_inForce inForce
  have close := checked inForce
  rw [value, Option.getD_some] at close
  have scaled := close_inCents close
  have low : ∀ v ∈ equation.amounts (given rfce), 0 ≤ v := fun v member =>
    not_lt.mp fun neg => nonneg ⟨v, member, neg⟩
  have few := length_terms_le (given rfce) equation
  rw [balanced_inCents value fits low, value, Option.getD_some]
  constructor
  · intro enough v only
    rw [only] at enough scaled
    simp only [List.map_cons, List.map_nil, List.sum_cons, List.sum_nil, add_zero,
      List.length_singleton, Nat.cast_one] at enough scaled
    rw [← not_or, ← printed_apart_iff scaled]
    omega
  · intro whole
    have sum := halfEven_sum_close scaled
    simp only [List.length_map, Nat.cast_one, mul_one] at sum
    refine sum.resolve_right ?_
    rintro ⟨far, even⟩
    -- The difference is even, so that there is a single addend, two cents apart.
    have single : (equation.terms (given rfce)).length = 1 := by
      rcases abs_choice (halfEven (total * 100) -
        (((equation.terms (given rfce)).map (· * (100 : ℚ))).map halfEven).sum) with own | mirrored
      · rw [own] at far
        omega
      · rw [mirrored] at far
        omega
    obtain ⟨v, only⟩ := List.length_eq_one_iff.mp single
    rw [only] at far scaled
    simp only [List.map_cons, List.map_nil, List.sum_cons, List.sum_nil, add_zero,
      List.length_singleton, Nat.cast_one] at far scaled
    have apart := (printed_apart_iff scaled).mp (by omega)
    exact apart.elim (whole v only).1 (whole v only).2

end

/-- A summary of taxed and exempt amounts without their breakdown. -/
def receipt (montoTotal montoGravadoTotal totalITBIS : ℚ) (montoExento : Option ℚ) : Summary where
  eNcf := "E320000000001"
  rncEmisor := "101000000"
  montoTotal := montoTotal
  totalITBIS := some totalITBIS
  content := {
    fechaEmision := "01-06-2025", montoGravadoTotal := some montoGravadoTotal
    montoExento := montoExento }

theorem receipt_valid {montoTotal gravado itbis : ℚ} {exento : Option ℚ} (nonneg : 0 ≤ montoTotal)
    (below : montoTotal < 250000)
    (sums : |montoTotal - (gravado + itbis + exento.getD 0)| ≤ 1 / 100) :
    validateRfce (receipt montoTotal gravado itbis exento) = [] := by
  have rnc : isRnc "101000000" = true := by decide
  have length : "E320000000001".utf8ByteSize = 13 := by decide
  have fecha : tryParseDate "01-06-2025" = true := by decide
  simp only [validateRfce, List.append_eq_nil_iff, failure_eq_nil]
  simpa [receipt, rnc, length, fecha, kRfceThreshold, validateTotalesConsistency, totalFailures,
    partFailures, failure_eq_nil, Apart, nonneg, below] using sums

/-- The equation of a receipt. -/
theorem receipt_inForce {montoTotal gravado itbis : ℚ} {exento : Option ℚ} {equation : Equation}
    (inForce : equation.InForce (given (receipt montoTotal gravado itbis exento))) :
    equation = .total := by
  cases equation <;> simp [Equation.InForce, given, receipt] at inForce ⊢

end EcfDgii.SummaryTotals
