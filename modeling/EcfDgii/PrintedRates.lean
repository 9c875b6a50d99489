import EcfDgii.NormalizedLines
import EcfDgii.IdentifiedBuyers
import EcfDgii.RfceTotals

/-!
The exchange rate of an accepted document.

A currency is resolved before anything else is looked at: pesos, or a code of
DGII's list with its rate.  The rate is compared with 0 and 1000 first and
rounded to four decimals afterwards, and the rounded rate is the one that is
printed and multiplied with.  `tiposCambio_documentLines` says that a document
in another currency prints that rate and no other, `atPrintedRate` that the
amounts come from what is printed, and `printable_iff` which accepted rates
leave the interval when they are rounded.
-/

set_option autoImplicit false

namespace EcfDgii.PrintedRates

open EcfDgii.Documents EcfDgii.Markup EcfDgii.XmlFormats EcfDgii.CanonicalXml
open EcfDgii.CanonicalLines EcfDgii.CanonicalTotals EcfDgii.CanonicalBuilder EcfDgii.Submission
open EcfDgii.SubmissionFollows EcfDgii.Rounding EcfDgii.PrintedAmounts EcfDgii.NormalizedLines
open EcfDgii.AlikeDocuments EcfDgii.CallerStrings EcfDgii.RfceTotals

/-! ## The printed rate -/

/-- What a line says of the exchange rate. -/
def tipoCambio : Line → Option ℚ
  | .element _ name (.verbatim content) =>
    if name = "TipoCambio" then some (decimalValue content.toList) else none
  | _ => none

/-- The exchange rates that some lines print. -/
def tiposCambio (lines : List Line) : List ℚ := lines.filterMap tipoCambio

@[simp] theorem tiposCambio_nil : tiposCambio [] = [] := rfl

@[simp] theorem tiposCambio_append (first second : List Line) :
    tiposCambio (first ++ second) = tiposCambio first ++ tiposCambio second :=
  List.filterMap_append

@[simp] theorem tiposCambio_cons (line : Line) (lines : List Line) :
    tiposCambio (line :: lines) = (tipoCambio line).toList ++ tiposCambio lines := by
  cases rate : tipoCambio line <;> simp [tiposCambio, rate]

@[simp] theorem tiposCambio_block (indent : ℕ) (name : String) (inner : List Line) :
    tiposCambio (block indent name inner) = tiposCambio inner := by
  simp [block, tipoCambio]

@[simp] theorem tiposCambio_ite (condition : Prop) [Decidable condition]
    (first second : List Line) :
    tiposCambio (if condition then first else second) =
      if condition then tiposCambio first else tiposCambio second :=
  apply_ite tiposCambio condition first second

/-- Totals are no rates. -/
theorem tiposCambio_totals {lines : List TotalLine} (known : Known lines) :
    tiposCambio (lines.map TotalLine.line) = [] := by
  have others : "TipoCambio" ∉ totalNames := by decide
  apply List.filterMap_eq_nil_iff.mpr
  intro line member
  obtain ⟨total, own, rfl⟩ := List.mem_map.mp member
  have other : total.name ≠ "TipoCambio" := fun same => others (same ▸ known total own)
  cases total with
  | amount name value => exact if_neg other
  | rate name value => exact if_neg other

section

variable (now : ℕ) (dto : CanonicalDocumentDto) (eNcf emisorRnc razonSocial : String)

theorem tiposCambio_idDoc : tiposCambio (idDoc now dto eNcf) = [] := by
  simp [idDoc, idDocIn, tipoCambio]

theorem tiposCambio_emisor : tiposCambio (emisor now dto emisorRnc razonSocial) = [] := by
  simp [emisor, tipoCambio]

theorem tiposCambio_comprador : tiposCambio (comprador dto) = [] := by
  simp [comprador, compradorId, identificadorExtranjero, tipoCambio]

theorem tiposCambio_totalesBlock : tiposCambio (totalesBlock dto) = [] := by
  simp [totalesBlock, tiposCambio_totals (known_totales dto).1]

theorem tiposCambio_itemLines (retention : Option CanonicalRetentionDto)
    (item : ProcessedLineItem) : tiposCambio (itemLines dto retention item) = [] := by
  cases retention <;>
    simp [itemLines, lineRetencion, descuento, otraMonedaDetalle, CanonicalBuilder.money,
      tipoCambio]

theorem tiposCambio_detallesItems : tiposCambio (detallesItems dto) = [] := by
  rw [detallesItems, tiposCambio_block]
  apply List.filterMap_eq_nil_iff.mpr
  intro line member
  obtain ⟨item, -, own⟩ := List.mem_flatMap.mp member
  exact List.filterMap_eq_nil_iff.mp (tiposCambio_itemLines dto _ item) line own

theorem tiposCambio_informacionReferencia :
    tiposCambio (informacionReferencia now dto) = [] := by
  cases codigo : dto.references.codigoModificacion <;>
    simp [informacionReferencia, codigo, tipoCambio]

theorem exchangeRate_printed : nearest .even 10000 (exchangeRate dto) = exchangeRate dto := by
  apply OnGrid.nearest (by decide)
  unfold exchangeRate
  split
  · next foreign =>
    simp only [isForeignCurrency, Bool.and_eq_true, decide_eq_true_eq] at foreign
    obtain ⟨currency, -, -, -, rate⟩ := rate_of_resolved foreign.1 foreign.2
    rw [rate, roundHalfAway_eq]
    exact onGrid_nearest .away 10000 _
  · exact ⟨10000, by norm_num⟩

/-- **The printed rate.** A document in another currency prints the rate it
multiplies with, once; a document in pesos prints none. -/
theorem tiposCambio_documentLines :
    tiposCambio (documentLines now dto eNcf emisorRnc razonSocial) =
      if isForeignCurrency dto then [exchangeRate dto] else [] := by
  have moneda : tiposCambio (otraMoneda dto) =
      if isForeignCurrency dto then [exchangeRate dto] else [] := by
    simp [otraMoneda, tipoCambio, tiposCambio_totals (known_totales dto).2,
      decimalValue_formatPrice4, exchangeRate_printed]
  simp [documentLines_eq, encabezadoBlock_eq, tiposCambio_idDoc, tiposCambio_emisor,
    tiposCambio_comprador, tiposCambio_totalesBlock, tiposCambio_detallesItems,
    tiposCambio_informacionReferencia, moneda, tipoCambio]

end

/-! ## The amounts come from it -/

/-- The document, given with another rate. -/
def atRate (rate : ℚ) (dto : CanonicalDocumentDto) : CanonicalDocumentDto :=
  { dto with currency := dto.currency.map fun currency => { currency with exchangeRate := rate } }

section

variable {rate : ℚ} {dto : CanonicalDocumentDto}
  (foreign : isForeignCurrency (atRate rate dto) = isForeignCurrency dto)
  (factor : exchangeRate (atRate rate dto) = exchangeRate dto)

include foreign factor

theorem alike_atRate : Alike (atRate rate dto) dto where
  tipoComprobante := rfl
  totals := rfl
  retention := rfl
  lines := List.forall₂_same.mpr fun _ _ => ⟨rfl, Iff.rfl⟩
  isForeignCurrency := foreign
  exchangeRate := factor
  tipoPago := rfl
  fechaLimitePago := Iff.rfl
  identificadorExtranjero := Iff.rfl
  rncComprador := Iff.rfl
  rncAlpha := rfl
  rncDigits := rfl
  correoComprador := rfl
  correctsENcf := Iff.rfl
  referenceKind := fun _ _ => rfl
  codigoModificacion := rfl
  razonModificacion := Iff.rfl
  rncOtroContribuyente := Iff.rfl

theorem processedItems_atRate : processedItems (atRate rate dto) = processedItems dto := by
  have convert := (alike_atRate foreign factor).convertItem
  have fallback := (alike_atRate foreign factor).fallbackLineDefault
  rw [processedItems, processedItems, convert, fallback]
  rfl

/-- The rate is all that the builder takes of a currency, apart from its code. -/
theorem documentLines_atRate
    (code : (resolveCanonicalCurrency (atRate rate dto).currency).code =
      (resolveCanonicalCurrency dto.currency).code)
    (now : ℕ) (eNcf emisorRnc razonSocial : String) :
    documentLines now (atRate rate dto) eNcf emisorRnc razonSocial =
      documentLines now dto eNcf emisorRnc razonSocial := by
  have totals := (alike_atRate foreign factor).totales
  have items := processedItems_atRate foreign factor
  have item : itemLines (atRate rate dto) = itemLines dto := by
    funext retention item
    unfold itemLines
    rw [foreign]
    rfl
  have moneda : otraMoneda (atRate rate dto) = otraMoneda dto := by
    rw [otraMoneda, otraMoneda, foreign, factor, code, totals]
  have totales : totalesBlock (atRate rate dto) = totalesBlock dto := by
    rw [totalesBlock, totalesBlock, totals]
  have detalles : detallesItems (atRate rate dto) = detallesItems dto := by
    rw [detallesItems, detallesItems, totals, items, item]
  have encabezado : encabezadoBlock now (atRate rate dto) eNcf emisorRnc razonSocial =
      encabezadoBlock now dto eNcf emisorRnc razonSocial := by
    rw [encabezadoBlock_eq, encabezadoBlock_eq, totales, moneda]
    rfl
  rw [documentLines_eq, documentLines_eq, encabezado, detalles]
  rfl

end

/-! ## The property -/

/-- A rate that `TipoCambio` admits. -/
def Admitted (rate : ℚ) : Prop := 0 < rate ∧ rate < 1000

/-- The rate of a document: pesos are multiplied with 1 and print no rate; any
other currency prints one rate, an admitted one, and the document is the one
that this printed rate gives. -/
structure RatePrinted (now : ℕ) (dto : CanonicalDocumentDto)
    (eNcf emisorRnc razonSocial : String) : Prop where
  pesos : (resolveCanonicalCurrency dto.currency).isForeign = false →
    exchangeRate dto = 1 ∧
      tiposCambio (documentLines now dto eNcf emisorRnc razonSocial) = []
  foreign : (resolveCanonicalCurrency dto.currency).isForeign = true →
    ∃ rate, tiposCambio (documentLines now dto eNcf emisorRnc razonSocial) = [rate] ∧
      Admitted rate ∧ exchangeRate dto = rate ∧
      documentText now (atRate rate dto) eNcf emisorRnc razonSocial =
        documentText now dto eNcf emisorRnc razonSocial ∧
      totales (atRate rate dto) = totales dto

/-- A currency that can be printed, by itself and in every document that is
accepted with it. -/
structure Printable (given : Option CanonicalCurrencyDto) : Prop where
  resolved : ((resolveCanonicalCurrency given).isForeign = false ∧
      (resolveCanonicalCurrency given).exchangeRate = 1) ∨
    ((resolveCanonicalCurrency given).isForeign = true ∧
      (resolveCanonicalCurrency given).code ∈ validDgiiForeignCurrencyCodes ∧
      Admitted (resolveCanonicalCurrency given).exchangeRate)
  documents : ∀ submitted dto, submitted.currency = given → checkDocument submitted = .ok dto →
    ∀ now eNcf emisorRnc razonSocial, RatePrinted now dto eNcf emisorRnc razonSocial

/-- A rate keeps clear of both ends by more than rounding moves it. -/
def ClearOfEnds (rate : ℚ) : Prop := 1 / 20000 ≤ rate ∧ rate < 1000 - 1 / 20000

theorem admitted_round4_iff {rate : ℚ} (pos : 0 < rate) :
    Admitted (round4 rate) ↔ ClearOfEnds rate := by
  have rounded : round4 rate = (⌊rate * 10000 + 1 / 2⌋ : ℤ) / 10000 := by
    have low : 0 ≤ rate * (10000 : ℕ) := by positivity
    rw [round4_eq, nearest_away, halfAway, if_pos low]
    push_cast
    rfl
  have bottom : 0 < round4 rate ↔ 1 / 20000 ≤ rate := by
    rw [rounded, div_pos_iff_of_pos_right (by norm_num), Int.cast_pos, Int.floor_pos]
    constructor <;> intro h <;> linarith
  have top : round4 rate < 1000 ↔ rate < 1000 - 1 / 20000 := by
    have whole : (1000 : ℚ) * 10000 = (10000000 : ℤ) := by norm_num
    rw [rounded, div_lt_iff₀ (by norm_num), whole, Int.cast_lt, Int.floor_lt]
    push_cast
    constructor <;> intro h <;> linarith
  rw [Admitted, ClearOfEnds, bottom, top]

/-! ## What is accepted -/

theorem accepted_currency {submitted dto : CanonicalDocumentDto}
    (accepted : checkDocument submitted = .ok dto) :
    (resolveCanonicalCurrency dto.currency).validationError = "" := by
  unfold checkDocument at accepted
  simp only [bind, Except.bind, pure, Except.pure] at accepted
  repeat' split at accepted
  all_goals cases accepted
  next currency _ _ _ _ _ _ _ _ _ _ _ _ _ _ => exact Classical.not_not.mp currency

/-- The documents of a currency that keeps clear of both ends. -/
theorem ratePrinted_of_clear {dto : CanonicalDocumentDto}
    (valid : (resolveCanonicalCurrency dto.currency).validationError = "")
    (clear : ∀ currency, dto.currency = some currency →
      (resolveCanonicalCurrency dto.currency).isForeign = true →
        ClearOfEnds currency.exchangeRate)
    (now : ℕ) (eNcf emisorRnc razonSocial : String) :
    RatePrinted now dto eNcf emisorRnc razonSocial := by
  have rates := tiposCambio_documentLines now dto eNcf emisorRnc razonSocial
  constructor
  · intro pesos
    have domestic : isForeignCurrency dto = false := by
      rw [isForeignCurrency, pesos, Bool.false_and]
    have one : exchangeRate dto = 1 := if_neg (by simp [domestic])
    exact ⟨one, by rw [rates, domestic, if_neg Bool.false_ne_true]⟩
  · intro foreign
    rcases resolved_cases valid with pesos | ⟨currency, code, given, -, pos, small, resolved⟩
    · rw [pesos] at foreign
      cases foreign
    · have admitted := (admitted_round4_iff pos).mpr (clear currency given foreign)
      have own := resolved currency.exchangeRate pos small
      have again := resolved (round4 currency.exchangeRate) admitted.1 admitted.2
      have grid : roundHalfAway 10000 (round4 currency.exchangeRate) =
          round4 currency.exchangeRate := by
        rw [roundHalfAway_eq, round4_eq]
        exact (onGrid_nearest .away 10000 _).nearest (by decide)
      have another : isForeignCurrency dto = true := by simp [isForeignCurrency, foreign, valid]
      have rate : exchangeRate dto = round4 currency.exchangeRate := by
        rw [exchangeRate, if_pos another, given]
        exact congrArg (·.exchangeRate) own
      have currencyAgain : (atRate (round4 currency.exchangeRate) dto).currency =
          some { currency with exchangeRate := round4 currency.exchangeRate } := by
        rw [atRate, given]
        rfl
      have foreignAgain : isForeignCurrency (atRate (round4 currency.exchangeRate) dto) = true := by
        simp [isForeignCurrency, currencyAgain, again]
      have rateAgain : exchangeRate (atRate (round4 currency.exchangeRate) dto) =
          exchangeRate dto := by
        rw [exchangeRate, if_pos foreignAgain, currencyAgain, again, rate]
        exact grid
      have codeAgain : (resolveCanonicalCurrency
          (atRate (round4 currency.exchangeRate) dto).currency).code =
          (resolveCanonicalCurrency dto.currency).code := by
        rw [currencyAgain, again, given]
        exact (congrArg (·.code) own).symm
      have same := foreignAgain.trans another.symm
      refine ⟨round4 currency.exchangeRate, ?_, admitted, rate, ?_, ?_⟩
      · rw [rates, another, if_pos rfl, rate]
      · rw [documentText, documentText, documentLines_atRate same rateAgain codeAgain]
      · exact (alike_atRate same rateAgain).totales

/-- **Accepted rates.** A currency that is accepted can be printed exactly when
it is pesos or its rate keeps clear of 0 and 1000 by what rounding to four
decimals takes it. -/
theorem printable_iff {given : Option CanonicalCurrencyDto}
    (valid : (resolveCanonicalCurrency given).validationError = "") :
    Printable given ↔
      ∀ currency, given = some currency → (resolveCanonicalCurrency given).isForeign = true →
        ClearOfEnds currency.exchangeRate := by
  constructor
  · rintro ⟨resolved, -⟩ currency same foreign
    rcases resolved with ⟨pesos, -⟩ | ⟨-, -, admitted⟩
    · rw [pesos] at foreign
      cases foreign
    · obtain ⟨own, given', pos, -, rate⟩ := rate_of_resolved foreign valid
      obtain rfl : own = currency := Option.some.inj (given'.symm.trans same)
      rw [rate] at admitted
      exact (admitted_round4_iff pos).mp admitted
  · intro clear
    constructor
    · rcases resolved_cases valid with pesos | ⟨currency, code, rfl, listed, pos, small, resolved⟩
      · rw [pesos]
        exact .inl ⟨rfl, rfl⟩
      · have own : resolveCanonicalCurrency (some currency) = _ := resolved _ pos small
        have foreign : (resolveCanonicalCurrency (some currency)).isForeign = true := by rw [own]
        have admitted := (admitted_round4_iff pos).mpr (clear currency rfl foreign)
        rw [own]
        exact .inr ⟨rfl, listed, admitted⟩
    · intro submitted dto same accepted now eNcf emisorRnc razonSocial
      have currency : dto.currency = given := by
        rw [(checkDocument_ok accepted).1]
        exact same
      apply ratePrinted_of_clear (accepted_currency accepted)
      rwa [currency]

/-! ## Dollars -/

/-- Dollars at sixty pesos. -/
theorem dollars_printable : Printable (some { code := " usd ", exchangeRate := 60 }) := by
  refine (printable_iff (by decide +kernel)).mpr ?_
  intro currency same _
  obtain rfl := Option.some.inj same
  constructor <;> norm_num

/-- Dollars at a thousandth of a centavo: accepted, and printed as `0.00`. -/
theorem tiny_rate_unprintable :
    ¬ ∀ given : Option CanonicalCurrencyDto,
      (resolveCanonicalCurrency given).validationError = "" → Printable given := by
  intro all
  have printable := all (some { code := "USD", exchangeRate := 1 / 100000 }) (by decide +kernel)
  have admitted : Admitted (resolveCanonicalCurrency
      (some { code := "USD", exchangeRate := 1 / 100000 })).exchangeRate := by
    rcases printable.resolved with ⟨pesos, -⟩ | ⟨-, -, admitted⟩
    · exact absurd pesos (by decide +kernel)
    · exact admitted
  revert admitted
  rw [Admitted]
  decide +kernel

end EcfDgii.PrintedRates
