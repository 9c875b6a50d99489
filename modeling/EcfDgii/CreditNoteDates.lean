import EcfDgii.DocumentFields
import EcfDgii.IsoStamps
import EcfDgii.NormalizedDates

/-!
The thirty days of a credit note, and the dates it prints.

`IndicadorNotaCredito` is worked out from day numbers that `mktime` gives in the
server's time zone, with zero for a date that is missing; the dates themselves
are printed by `normalizeFechaDgii`, which puts today's date for a missing one.
Between two dates that are given the zone does not matter (`parseDateToDays_given`),
and `indicador_iff` says when the printed indicator is the one that the printed
dates call for: not where a missing date and the other are more than thirty days
apart.
-/

set_option autoImplicit false

namespace EcfDgii.CreditNoteDates

open EcfDgii.Text EcfDgii.Calendar EcfDgii.Timestamps EcfDgii.Trimming EcfDgii.Documents
open EcfDgii.Markup EcfDgii.XmlFormats EcfDgii.CanonicalXml EcfDgii.CanonicalLines
open EcfDgii.CanonicalTotals EcfDgii.CanonicalBuilder EcfDgii.NormalizedDates EcfDgii.DocumentFields
open EcfDgii.PrintedAmounts

/-! ## The dates that are printed -/

/-- The date a content shows, day first. -/
def shownDate : Content → Option CivilDate
  | .verbatim s =>
    match s.toList with
    | d :: d' :: '-' :: m :: m' :: '-' :: year =>
      some ⟨Nat.ofDigitChars 10 year 0, Nat.ofDigitChars 10 [m, m'] 0,
        Nat.ofDigitChars 10 [d, d'] 0⟩
    | _ => none
  | .escaped _ => none

/-- The dates that the elements of a name show. -/
def shownDates (name : String) (lines : List Line) : List CivilDate :=
  (fields name lines).filterMap shownDate

/-- The document shows a date of issue more than thirty days after the date of
the document it modifies. -/
def ShownLate (lines : List Line) : Prop :=
  ∃ issued ∈ shownDates "FechaEmision" lines, ∃ modified ∈ shownDates "FechaNCFModificado" lines,
    daysFromCivil modified + 30 < daysFromCivil issued

/-- The document says that it comes late. -/
def SaysLate (lines : List Line) : Prop :=
  fields "IndicadorNotaCredito" lines = [.verbatim "1"]

theorem shownDate_dateDigits {date : CivilDate} (day : date.day < 100) (month : date.month < 100) :
    shownDate (.verbatim (String.ofList (dateDigits date))) = some date := by
  obtain ⟨d, d', dayText, -⟩ := padded_two day
  obtain ⟨m, m', monthText, -⟩ := padded_two month
  have dayValue := padded_value 2 date.day
  have monthValue := padded_value 2 date.month
  rw [dayText] at dayValue
  rw [monthText] at monthValue
  simp only [shownDate, String.toList_ofList, dateDigits, dayText, monthText, List.cons_append,
    List.nil_append, dayValue, monthValue, Nat.ofDigitChars_ten_toDigits]

/-! ## The dates that are given -/

/-- A date of the calendar after 1970 that the layouts can show. -/
structure Recent (date : CivilDate) : Prop where
  valid : IsoStamps.ValidDate date
  late : 1970 < date.year
  year : date.year < 10000

/-- What a caller can give for a date: nothing, which stands for today, or a date
in one of the layouts, between blanks. -/
inductive Dated (now : ℕ) : String → CivilDate → Prop
  | empty : Dated now "" (dominicanDate now)
  | given (layout : Layout) {before after : List Char} {date : CivilDate} (recent : Recent date)
      (blanks : Blanks isspace before) (blanks' : Blanks isspace after) :
      Dated now (String.ofList (before ++ (layout.text date ++ after))) date

theorem Recent.day_lt {date : CivilDate} (recent : Recent date) : date.day < 100 := by
  have short := daysInMonth_le date.month date.year
  have last := recent.valid.day.2
  omega

theorem Recent.month_lt {date : CivilDate} (recent : Recent date) : date.month < 100 := by
  have last := recent.valid.month.2
  omega

theorem Recent.fits {date : CivilDate} (recent : Recent date) : Fits date :=
  ⟨recent.day_lt, recent.month_lt, recent.year⟩

/-- A year of four digits needs no zeros. -/
theorem padded_year {year : ℕ} (low : 1000 ≤ year) : padded 4 year = Nat.toDigits 10 year := by
  have long : ¬ (Nat.toDigits 10 year).length ≤ 3 := by
    rw [Nat.length_toDigits_le_iff (by decide) (by decide)]
    omega
  have none : 4 - (Nat.toDigits 10 year).length = 0 := by omega
  rw [padded, none]
  rfl

/-- A date in a layout, with nothing around it. -/
theorem dated_text (now : ℕ) {s : String} (layout : Layout) {date : CivilDate} (recent : Recent date)
    (text : s.toList = layout.text date) : Dated now s date := by
  have none : Blanks isspace [] := nofun
  have alone : Dated now (String.ofList ([] ++ (layout.text date ++ []))) date :=
    .given layout recent none none
  rwa [List.nil_append, List.append_nil, ← text, String.ofList_toList] at alone

/-- What is printed for a date that is given. -/
theorem Dated.printed {now : ℕ} {s : String} {date : CivilDate} (dated : Dated now s date) :
    normalizeFechaDgii now s = String.ofList (dateDigits date) := by
  cases dated with
  | empty => exact if_pos rfl
  | given layout recent blanks blanks' =>
    have late := recent.late
    rw [normalizeFechaDgii_layout now recent.fits layout blanks blanks', dateDigits,
      ← padded_year (show 1000 ≤ date.year by omega)]
    rfl

theorem Dated.shown {now : ℕ} {s : String} {date : CivilDate} (dated : Dated now s date) :
    shownDate (.verbatim (normalizeFechaDgii now s)) = some date := by
  rw [dated.printed]
  cases dated with
  | empty =>
    have range := civilFromDays_range (dominicanSeconds now / 86400)
    apply shownDate_dateDigits
    · exact lt_of_le_of_lt range.2.2.2.2 (by decide)
    · exact lt_of_le_of_lt range.2.2.1 (by decide)
  | given layout recent => exact shownDate_dateDigits recent.day_lt recent.month_lt

/-! ## Day numbers -/

/-- No zone is more than a week away from UTC. -/
def IsZone (zone : ℤ) : Prop := -604800 ≤ zone ∧ zone ≤ 604800

/-- A recent date that is printed is counted in whole days. -/
theorem parseDateToDays_recent {zone : ℤ} (small : IsZone zone) {now : ℕ} {s : String}
    (given : s ≠ "") {date : CivilDate} (recent : Recent date)
    (printed : normalizeFechaDgii now s = String.ofList (dateDigits date)) :
    parseDateToDays zone now s = (86400 * daysFromCivil date - zone) / 86400 := by
  obtain ⟨west, east⟩ := small
  have late := recent.late
  have later := daysFromCivil_late late recent.valid.month
  obtain ⟨d, d', dayText, digit, digit'⟩ := padded_two recent.day_lt
  obtain ⟨m, m', monthText, digit₁, digit₁'⟩ := padded_two recent.month_lt
  obtain ⟨y, y', y₂, y₃, yearText, digit₂, digit₃, digit₄, digit₅⟩ := padded_four recent.year
  have day : Nat.ofDigitChars 10 [d, d'] 0 = date.day := dayText ▸ padded_value 2 date.day
  have month : Nat.ofDigitChars 10 [m, m'] 0 = date.month := monthText ▸ padded_value 2 date.month
  have year : Nat.ofDigitChars 10 [y, y', y₂, y₃] 0 = date.year :=
    yearText ▸ padded_value 4 date.year
  have text : dateDigits date = [d, d', '-', m, m', '-', y, y', y₂, y₃] := by
    rw [dateDigits, ← padded_year (show 1000 ≤ date.year by omega), dayText, monthText, yearText]
    rfl
  have midnight : mktime zone date.year date.month date.day =
      86400 * daysFromCivil date - zone := by
    rw [mktime, firstOfMonth_eq (by omega) recent.valid.month recent.valid.day.1]
  have valid : ¬ (86400 * (daysFromCivil date : ℤ) - zone = -1) := by omega
  have positive : 0 ≤ 86400 * (daysFromCivil date : ℤ) - zone := by omega
  rw [parseDateToDays, if_neg given, printed, String.toList_ofList, text]
  simp only [List.all_cons, List.all_nil, digit, digit', digit₁, digit₁', digit₂, digit₃, digit₄,
    digit₅, Bool.and_self, and_self, ↓reduceIte, day, month, year, midnight, valid, ne_eq,
    not_false_eq_true, Int.tdiv_eq_ediv_of_nonneg positive]

/-- **The day number of a date that is given.** Every date is moved by the same
number of days. -/
theorem parseDateToDays_given {zone : ℤ} (small : IsZone zone) {now : ℕ} {s : String}
    {date : CivilDate} (dated : Dated now s date) (given : s ≠ "") :
    parseDateToDays zone now s = daysFromCivil date + -zone / 86400 ∧
      0 < parseDateToDays zone now s := by
  have printed := dated.printed
  have recent : Recent date := by
    cases dated with
    | empty => exact absurd rfl given
    | given layout recent => exact recent
  have later := daysFromCivil_late recent.late recent.valid.month
  have count := parseDateToDays_recent small given recent printed
  have east := small.2
  omega

/-! ## The indicator -/

/-- The dates of a document, as it prints them. -/
structure NoteDates (now : ℕ) (dto : CanonicalDocumentDto) (issued modified : CivilDate) : Prop where
  issued : Dated now dto.header.fechaEmision issued
  modified : Dated now (dto.references.fechaNcfModificado.getD "") modified

/-- Both dates are given. -/
def BothGiven (dto : CanonicalDocumentDto) : Prop :=
  dto.header.fechaEmision ≠ "" ∧ dto.references.fechaNcfModificado.getD "" ≠ ""

/-- The indicator asks for two dates, thirty days apart. -/
theorem indicadorNotaCredito_eq {zone : ℤ} (small : IsZone zone) {now : ℕ}
    {dto : CanonicalDocumentDto} (own : dto.references.indicadorNotaCredito = none)
    {issued modified : CivilDate} (dates : NoteDates now dto issued modified) :
    indicadorNotaCredito zone now dto = 1 ↔
      BothGiven dto ∧ daysFromCivil modified + 30 < daysFromCivil issued := by
  have chosen : indicadorNotaCredito zone now dto = 1 ↔
      dto.references.fechaNcfModificado.getD "" ≠ "" ∧
        0 < parseDateToDays zone now dto.header.fechaEmision ∧
        0 < parseDateToDays zone now (dto.references.fechaNcfModificado.getD "") ∧
        30 < parseDateToDays zone now dto.header.fechaEmision -
          parseDateToDays zone now (dto.references.fechaNcfModificado.getD "") := by
    unfold indicadorNotaCredito
    rw [own]
    dsimp only
    split_ifs with late
    · exact iff_of_true rfl late
    · exact iff_of_false (by decide) late
  rw [chosen]
  by_cases missing : dto.header.fechaEmision = ""
  · have none : parseDateToDays zone now dto.header.fechaEmision = 0 := by
      rw [missing, parseDateToDays, if_pos rfl]
    rw [none]
    exact iff_of_false (fun late => absurd late.2.1 (by decide)) fun late => late.1.1 missing
  by_cases missing' : dto.references.fechaNcfModificado.getD "" = ""
  · exact iff_of_false (fun late => late.1 missing') fun late => late.1.2 missing'
  obtain ⟨days, first⟩ := parseDateToDays_given small dates.issued missing
  obtain ⟨days', first'⟩ := parseDateToDays_given small dates.modified missing'
  have both : BothGiven dto := ⟨missing, missing'⟩
  constructor
  · rintro ⟨-, -, -, late⟩
    exact ⟨both, by omega⟩
  · rintro ⟨-, late⟩
    exact ⟨missing', first, first', by omega⟩

/-- A credit note is a reference whenever it has one. -/
theorem shownLate_iff {zone : ℤ} {now : ℕ} {dto : CanonicalDocumentDto} {issued modified : CivilDate}
    (dates : NoteDates now dto issued modified) (eNcf emisorRnc razonSocial : String) :
    ShownLate (documentLinesIn zone now dto eNcf emisorRnc razonSocial) ↔
      printsReferencia dto = true ∧ daysFromCivil modified + 30 < daysFromCivil issued := by
  have emision : shownDates "FechaEmision"
      (documentLinesIn zone now dto eNcf emisorRnc razonSocial) = [issued] := by
    rw [shownDates, fields_fechaEmision]
    simp [dates.issued.shown]
  have modificado : shownDates "FechaNCFModificado"
      (documentLinesIn zone now dto eNcf emisorRnc razonSocial) =
        if printsReferencia dto then [modified] else [] := by
    rw [shownDates, fields_fechaNcfModificado]
    split <;> simp [dates.modified.shown]
  rw [ShownLate, emision, modificado]
  split <;> simp [*]

theorem saysLate_iff {zone : ℤ} {now : ℕ} {dto : CanonicalDocumentDto} (nota : tipo dto = "34")
    (eNcf emisorRnc razonSocial : String) :
    SaysLate (documentLinesIn zone now dto eNcf emisorRnc razonSocial) ↔
      indicadorNotaCredito zone now dto = 1 := by
  rw [SaysLate, fields_indicador, if_pos nota]
  constructor
  · intro printed
    simp only [List.cons.injEq, Content.verbatim.injEq, and_true] at printed
    have one : decimalInt (indicadorNotaCredito zone now dto) = decimalInt 1 := printed
    have value := decimalValue_decimalInt (indicadorNotaCredito zone now dto)
    rw [one, decimalValue_decimalInt] at value
    exact_mod_cast value.symm
  · intro late
    rw [late]
    rfl

/-- **The thirty days of a credit note.** The indicator is the one that the printed
dates call for, except where these are more than thirty days apart and one of
them was missing in a document with a reference, or none in a document without. -/
theorem indicador_iff {zone : ℤ} (small : IsZone zone) {now : ℕ} {dto : CanonicalDocumentDto}
    (nota : tipo dto = "34") (own : dto.references.indicadorNotaCredito = none)
    {issued modified : CivilDate} (dates : NoteDates now dto issued modified)
    (eNcf emisorRnc razonSocial : String) :
    (SaysLate (documentLinesIn zone now dto eNcf emisorRnc razonSocial) ↔
      ShownLate (documentLinesIn zone now dto eNcf emisorRnc razonSocial)) ↔
    (daysFromCivil modified + 30 < daysFromCivil issued →
      (BothGiven dto ↔ printsReferencia dto = true)) := by
  rw [saysLate_iff nota, indicadorNotaCredito_eq small own dates, shownLate_iff dates]
  by_cases late : daysFromCivil modified + 30 < daysFromCivil issued
  · simp [late]
  · simp [late]

/-- A credit note of the sixth of August for a document of the first. -/
def august : CanonicalDocumentDto where
  tipoComprobante := "E34"
  header := { fechaEmision := "2026-08-06" }
  references := { correctsENcf := "E310000000001", fechaNcfModificado := some "01/08/2026" }

theorem august_dates : NoteDates 0 august ⟨2026, 8, 6⟩ ⟨2026, 8, 1⟩ where
  issued := dated_text 0 .iso ⟨⟨by decide, by decide, by decide⟩, by decide, by decide⟩ (by decide)
  modified := dated_text 0 .slashes ⟨⟨by decide, by decide, by decide⟩, by decide, by decide⟩
    (by decide)

theorem august_indicador :
    (SaysLate (documentLinesIn (-14400) 0 august "E340000000001" "101672919" "EMISOR") ↔
      ShownLate (documentLinesIn (-14400) 0 august "E340000000001" "101672919" "EMISOR")) ↔
    (daysFromCivil ⟨2026, 8, 1⟩ + 30 < daysFromCivil ⟨2026, 8, 6⟩ →
      (BothGiven august ↔ printsReferencia august = true)) :=
  indicador_iff ⟨by decide, by decide⟩ (by decide) rfl august_dates _ _ _

/-- A credit note that leaves its own date to the builder. -/
def undated : CanonicalDocumentDto where
  tipoComprobante := "E34"
  references := { correctsENcf := "E310000000001", fechaNcfModificado := some "2026-01-15" }

/-- The seventh of August 2026, at noon. -/
def noon : ℕ := 1786104000000000000

theorem undated_dates : NoteDates noon undated (dominicanDate noon) ⟨2026, 1, 15⟩ where
  issued := .empty
  modified := dated_text noon .iso ⟨⟨by decide, by decide, by decide⟩, by decide, by decide⟩
    (by decide)

/-- A credit note without its date prints today's, and says it is not late however
old the document is. -/
theorem undated_not_late :
    ¬ ∀ (zone : ℤ) (now : ℕ) (dto : CanonicalDocumentDto) (issued modified : CivilDate)
      (eNcf emisorRnc razonSocial : String), IsZone zone → tipo dto = "34" →
      dto.references.indicadorNotaCredito = none → NoteDates now dto issued modified →
      (SaysLate (documentLinesIn zone now dto eNcf emisorRnc razonSocial) ↔
        ShownLate (documentLinesIn zone now dto eNcf emisorRnc razonSocial)) := by
  intro agrees
  have small : IsZone 0 := ⟨by decide, by decide⟩
  have nota : tipo undated = "34" := by decide
  have late : daysFromCivil ⟨2026, 1, 15⟩ + 30 < daysFromCivil (dominicanDate noon) := by
    rw [dominicanDate, daysFromCivil_civilFromDays]
    decide
  have here := agrees 0 noon undated _ _ "E340000000001" "101672919" "EMISOR" small nota rfl
    undated_dates
  rw [saysLate_iff nota, indicadorNotaCredito_eq small rfl undated_dates,
    shownLate_iff undated_dates] at here
  have shown : printsReferencia undated = true := by decide
  exact (here.mpr ⟨shown, late⟩).1.1 rfl

end EcfDgii.CreditNoteDates
