import EcfDgii.CallerStrings
import EcfDgii.PrintedTotals

/-!
The buyer's number in an accepted document.

The checks of a submission and the builder of the e-CF decide on their own
whether a document has to name its buyer: the checks take the total of the
request and any identification that is not empty, the builder prints the total
it has worked out again and leaves out an identification that is blank, or that
its escaping and cutting make blank.  `identified_iff` says that an E31, an E41
and an E45 always have the number, and which consumer invoices lack it.
-/

set_option autoImplicit false

namespace EcfDgii.IdentifiedBuyers

open EcfDgii.Text EcfDgii.Documents EcfDgii.Engine EcfDgii.Submission EcfDgii.SubmissionFollows
open EcfDgii.Markup EcfDgii.XmlFormats EcfDgii.CanonicalXml EcfDgii.CanonicalLines
open EcfDgii.CanonicalTotals EcfDgii.CanonicalBuilder EcfDgii.CallerStrings EcfDgii.PrintedTotals

/-! ## The elements of the buyer's number -/

/-- The two elements a buyer's number is written in. -/
def buyerNames : List String := ["RNCComprador", "IdentificadorExtranjero"]

/-- Lines that hold neither. -/
def NoBuyer (lines : List Line) : Prop := ∀ line ∈ lines, line.name ∉ buyerNames

@[simp] theorem noBuyer_nil : NoBuyer [] := fun _ member => absurd member List.not_mem_nil

@[simp] theorem noBuyer_cons (line : Line) (lines : List Line) :
    NoBuyer (line :: lines) ↔ line.name ∉ buyerNames ∧ NoBuyer lines := List.forall_mem_cons

@[simp] theorem noBuyer_append (first second : List Line) :
    NoBuyer (first ++ second) ↔ NoBuyer first ∧ NoBuyer second := List.forall_mem_append

@[simp] theorem noBuyer_block (indent : ℕ) (name : String) (inner : List Line) :
    NoBuyer (block indent name inner) ↔ name ∉ buyerNames ∧ NoBuyer inner := by
  simp only [block, noBuyer_cons, noBuyer_append, noBuyer_nil, Line.name, and_true]
  exact ⟨fun h => ⟨h.1, h.2.1⟩, fun h => ⟨h.1, h.2, h.1⟩⟩

@[simp] theorem noBuyer_ite (condition : Prop) [Decidable condition] (first second : List Line) :
    NoBuyer (if condition then first else second) ↔
      (condition → NoBuyer first) ∧ (¬ condition → NoBuyer second) := by
  split <;> simp [*]

/-- The names of the totals are others. -/
theorem noBuyer_totals {lines : List TotalLine} (known : Known lines) :
    NoBuyer (lines.map TotalLine.line) := by
  have others : ∀ name ∈ totalNames, name ∉ buyerNames := by decide
  intro line member
  obtain ⟨total, own, rfl⟩ := List.mem_map.mp member
  have name : total.line.name = total.name := by cases total <;> rfl
  rw [name]
  exact others _ (known total own)

section

variable (now : ℕ) (dto : CanonicalDocumentDto) (eNcf emisorRnc razonSocial : String)

theorem noBuyer_idDoc : NoBuyer (idDoc now dto eNcf) := by
  simp [idDoc, idDocIn, Line.name, buyerNames]

theorem noBuyer_emisor : NoBuyer (emisor now dto emisorRnc razonSocial) := by
  simp [emisor, Line.name, buyerNames]

theorem noBuyer_totalesBlock : NoBuyer (totalesBlock dto) := by
  simp [totalesBlock, noBuyer_totals (known_totales dto).1, buyerNames]

theorem noBuyer_otraMoneda : NoBuyer (otraMoneda dto) := by
  simp [otraMoneda, noBuyer_totals (known_totales dto).2, Line.name, buyerNames]

theorem noBuyer_itemLines (retention : Option CanonicalRetentionDto) (item : ProcessedLineItem) :
    NoBuyer (itemLines dto retention item) := by
  cases retention <;>
    simp [itemLines, lineRetencion, descuento, otraMonedaDetalle, CanonicalBuilder.money, Line.name,
      buyerNames]

theorem noBuyer_detallesItems : NoBuyer (detallesItems dto) := by
  rw [detallesItems, noBuyer_block]
  refine ⟨by decide, fun line member => ?_⟩
  obtain ⟨item, -, own⟩ := List.mem_flatMap.mp member
  exact noBuyer_itemLines dto _ item line own

theorem noBuyer_informacionReferencia : NoBuyer (informacionReferencia now dto) := by
  cases codigo : dto.references.codigoModificacion <;>
    simp [informacionReferencia, codigo, Line.name, buyerNames]

/-- A block of another name holds what is in it. -/
theorem mem_block {line : Line} (own : line.name ∈ buyerNames) (indent : ℕ) {name : String}
    (other : name ∉ buyerNames) (inner : List Line) :
    line ∈ block indent name inner ↔ line ∈ inner := by
  have opens : line ≠ .opening indent name := by
    rintro rfl
    exact other own
  have closes : line ≠ .closing indent name := by
    rintro rfl
    exact other own
  simp [block, opens, closes]

/-- **Where the number stands.** In the buyer's block, and nowhere else. -/
theorem mem_documentLines {line : Line} (own : line.name ∈ buyerNames) :
    line ∈ documentLines now dto eNcf emisorRnc razonSocial ↔
      (tipo dto ≠ "43" ∧ modifiesGastosMenores dto = false) ∧ line ∈ compradorId dto := by
  have absent {lines : List Line} (none : NoBuyer lines) : line ∉ lines :=
    fun member => none line member own
  have version : NoBuyer [.element 4 "Version" (.verbatim "1.0")] := by
    simp [Line.name, buyerNames]
  have firma : NoBuyer [.element 2 "FechaHoraFirma" (.verbatim (dominicanDateTime now))] := by
    simp [Line.name, buyerNames]
  have name : NoBuyer [.element 6 "RazonSocialComprador"
      (.escaped (truncateUtf8 (rawComprador dto) 150))] := by
    simp [Line.name, buyerNames]
  have mail : NoBuyer (if printsCorreo dto then [.element 6 "CorreoComprador"
      (.escaped (primaryEmail (dto.header.correoComprador.getD "")))] else []) := by
    simp [Line.name, buyerNames]
  have inComprador : line ∈ comprador dto ↔
      (tipo dto ≠ "43" ∧ modifiesGastosMenores dto = false) ∧ line ∈ compradorId dto := by
    unfold comprador
    by_cases printed : tipo dto ≠ "43" ∧ (!modifiesGastosMenores dto) = true
    · rw [if_pos printed, mem_block own 4 (by decide), List.mem_append, List.mem_append]
      have printed' : tipo dto ≠ "43" ∧ modifiesGastosMenores dto = false := by simpa using printed
      simp only [absent name, absent mail, or_false]
      exact (and_iff_right printed').symm
    · rw [if_neg printed]
      have hidden : ¬ (tipo dto ≠ "43" ∧ modifiesGastosMenores dto = false) := by
        simpa using printed
      simp only [hidden, false_and, List.not_mem_nil]
  rw [documentLines_eq, mem_block own 0 (by decide), List.mem_append, List.mem_append,
    List.mem_append, encabezadoBlock_eq, mem_block own 2 (by decide)]
  simp only [List.mem_append, absent version, absent firma, absent (noBuyer_idDoc now dto eNcf),
    absent (noBuyer_emisor now dto emisorRnc razonSocial), absent (noBuyer_totalesBlock dto),
    absent (noBuyer_otraMoneda dto), absent (noBuyer_detallesItems dto),
    absent (noBuyer_informacionReferencia now dto), or_false, false_or]
  exact inComprador

end

/-! ## What a reader finds -/

/-- The document has an RNC or a cédula: nine or eleven digits. -/
def PrintsRnc (lines : List Line) : Prop :=
  ∃ indent content, .element indent "RNCComprador" content ∈ lines ∧
    ((content.written escapeXml).length = 9 ∨ (content.written escapeXml).length = 11) ∧
    ∀ c ∈ content.written escapeXml, c.isDigit = true

/-- The document has a foreign identification that is not blank. -/
def PrintsForeignId (lines : List Line) : Prop :=
  ∃ indent content, .element indent "IdentificadorExtranjero" content ∈ lines ∧
    ∃ c ∈ content.written escapeXml, isspace c = false

/-- What is left of an identification in its twenty characters is not blank. -/
def Visible (s : String) : Prop :=
  ∃ c ∈ truncateBytes 20 s.toList, isspace c = false ∧ isIllegal c = false
  deriving Decidable

/-- A character that is written and is no blank. -/
theorem visible_escapeChar (c : Char) :
    (∃ d ∈ escapeChar c, isspace d = false) ↔ isspace c = false ∧ isIllegal c = false := by
  unfold escapeChar
  by_cases illegal : isIllegal c = true
  · simp [illegal]
  · rw [if_neg illegal]
    split_ifs with amp less greater quote apos
    · subst amp
      exact iff_of_true ⟨'&', by simp, rfl⟩ ⟨rfl, rfl⟩
    · subst less
      exact iff_of_true ⟨'&', by simp, rfl⟩ ⟨rfl, rfl⟩
    · subst greater
      exact iff_of_true ⟨'&', by simp, rfl⟩ ⟨rfl, rfl⟩
    · subst quote
      exact iff_of_true ⟨'&', by simp, rfl⟩ ⟨rfl, rfl⟩
    · subst apos
      exact iff_of_true ⟨'&', by simp, rfl⟩ ⟨rfl, rfl⟩
    · simp [illegal]

/-- Escaping shows and hides nothing but control characters. -/
theorem visible_escapeXml (cs : List Char) :
    (∃ c ∈ escapeXml cs, isspace c = false) ↔ ∃ c ∈ cs, isspace c = false ∧ isIllegal c = false := by
  fun_induction escapeXml cs with
  | case1 rest ih => exact iff_of_true ⟨'&', by simp, rfl⟩ ⟨'\xc2', by simp, rfl, rfl⟩
  | case2 rest ih => exact iff_of_true ⟨'&', by simp, rfl⟩ ⟨'\xc2', by simp, rfl, rfl⟩
  | case3 rest ih => exact iff_of_true ⟨'&', by simp, rfl⟩ ⟨'\xe2', by simp, rfl, rfl⟩
  | case4 c rest _ _ _ ih =>
    simp only [List.mem_append, List.mem_cons, or_and_right, exists_or, ih, exists_eq_left,
      visible_escapeChar]
  | case5 => simp

theorem visible_written (s : String) :
    (∃ c ∈ (Content.escaped (truncateUtf8 s 20)).written escapeXml, isspace c = false) ↔
      Visible s := by
  rw [Content.written, visible_escapeXml, truncateUtf8, String.toList_ofList]
  rfl

theorem rnc_named (indent : ℕ) (content : Content) :
    (Line.element indent "RNCComprador" content).name ∈ buyerNames := by
  simp [Line.name, buyerNames]

theorem foreign_named (indent : ℕ) (content : Content) :
    (Line.element indent "IdentificadorExtranjero" content).name ∈ buyerNames := by
  simp [Line.name, buyerNames]

/-- A document that prints its buyer shows the number it has worked out. -/
theorem prints_iff (now : ℕ) (dto : CanonicalDocumentDto) (eNcf emisorRnc razonSocial : String)
    (printed : tipo dto ≠ "43" ∧ modifiesGastosMenores dto = false) :
    (PrintsRnc (documentLines now dto eNcf emisorRnc razonSocial) ↔
      PrintsRnc (compradorId dto)) ∧
    (PrintsForeignId (documentLines now dto eNcf emisorRnc razonSocial) ↔
      PrintsForeignId (compradorId dto)) := by
  simp only [PrintsRnc, PrintsForeignId, mem_documentLines _ _ _ _ _ (rnc_named _ _),
    mem_documentLines _ _ _ _ _ (foreign_named _ _), and_iff_right printed, and_self]

/-! ## What the checks let through -/

variable {submitted dto : CanonicalDocumentDto}

/-- The checks of the buyer have passed. -/
theorem accepted_buyer (accepted : checkDocument submitted = .ok dto) :
    checkBuyer (resolveCanonicalCurrency dto.currency).exchangeRate dto = .ok () := by
  obtain ⟨same, -⟩ := checkDocument_ok accepted
  cases checked : checkBuyer (resolveCanonicalCurrency dto.currency).exchangeRate dto with
  | ok passed => rfl
  | error what =>
    exfalso
    have currency : dto.currency = submitted.currency := by rw [same]
    rw [currency, same] at checked
    simp only [checkDocument, checked, bind, Except.bind] at accepted
    repeat' split at accepted
    all_goals cases accepted

/-- A type that has to name its buyer has a number of the right length. -/
theorem accepted_rnc (accepted : checkDocument submitted = .ok dto)
    (fiscal : dto.tipoComprobante ∈ ["E31", "E41", "E45"]) :
    dto.header.rncComprador ≠ "" ∧ rncLength dto.header.rncComprador = true := by
  have checked := accepted_buyer accepted
  simp only [List.mem_cons, List.not_mem_nil, or_false] at fiscal
  by_cases empty : dto.header.rncComprador = ""
  · rcases fiscal with tipo | tipo | tipo <;> simp [checkBuyer, tipo, empty] at checked
  · by_cases length : rncLength dto.header.rncComprador = true
    · exact ⟨empty, length⟩
    · rcases fiscal with tipo | tipo | tipo <;> simp [checkBuyer, tipo, empty, length] at checked

/-! ## What the builder prints -/

/-- The number of a type that has to name its buyer. -/
theorem compradorId_fiscal (fiscal : dto.tipoComprobante ∈ ["E31", "E41", "E45"])
    (given : dto.header.rncComprador ≠ "") :
    compradorId dto =
      [.element 6 "RNCComprador" (.verbatim (cleanDigits dto.header.rncComprador))] := by
  have types : tipo dto ∈ ["31", "41", "45"] := by
    have all : ∀ t ∈ ["E31", "E41", "E45"], tipoEcf t ∈ ["31", "41", "45"] := by decide
    exact all _ fiscal
  simp only [List.mem_cons, List.not_mem_nil, or_false] at types
  rcases types with same | same | same <;> simp [compradorId, same, given]

/-- The number on a consumer invoice. -/
theorem compradorId_consumer (consumer : dto.tipoComprobante = "E32") :
    compradorId dto =
      if explicitForeignId dto ≠ "" then identificadorExtranjero (explicitForeignId dto)
      else if hasAlpha dto.header.rncComprador then
        identificadorExtranjero dto.header.rncComprador
      else if rncLength dto.header.rncComprador then
        [.element 6 "RNCComprador" (.verbatim (cleanDigits dto.header.rncComprador))]
      else [] := by
  have same : tipo dto = "32" := by
    rw [tipo, consumer]
    decide
  have none : modifiesExport dto = false := by simp [modifiesExport, isNota, same]
  by_cases given : dto.header.rncComprador = ""
  · have letters : hasAlpha "" = false := by decide
    have digits : rncLength "" = false := by decide
    simp [compradorId, same, none, given, letters, digits]
  · simp [compradorId, same, given, rncLength]

theorem cleanDigits_digits (s : String) : ∀ c ∈ (cleanDigits s).toList, c.isDigit = true := by
  intro c member
  rw [cleanDigits, String.toList_ofList] at member
  exact List.of_mem_filter member

/-- A line with the digits of an RNC. -/
theorem printsRnc_of_mem {lines : List Line} {rnc : String} (length : rncLength rnc = true)
    (member : .element 6 "RNCComprador" (.verbatim (cleanDigits rnc)) ∈ lines) :
    PrintsRnc lines := by
  refine ⟨6, _, member, ?_, cleanDigits_digits rnc⟩
  rw [Content.written]
  simpa [rncLength] using length

theorem not_printsRnc_foreign (id : String) : ¬ PrintsRnc (identificadorExtranjero id) := by
  rintro ⟨indent, content, member, -⟩
  rw [identificadorExtranjero, List.mem_singleton, Line.element.injEq] at member
  exact absurd member.2.1 (by decide)

theorem printsForeignId_foreign (id : String) :
    PrintsForeignId (identificadorExtranjero id) ↔ Visible id := by
  rw [← visible_written]
  constructor
  · rintro ⟨indent, content, member, seen⟩
    rw [identificadorExtranjero, List.mem_singleton, Line.element.injEq] at member
    rwa [member.2.2] at seen
  · exact fun seen => ⟨6, _, List.mem_singleton_self _, seen⟩

/-! ## The property -/

/-- The total that the e-CF prints, in pesos. -/
def printedTotal (dto : CanonicalDocumentDto) : ℚ := valueOf .even "MontoTotal" (totales dto).lines

/-- **An identified buyer.** -/
structure BuyerIdentified (now : ℕ) (dto : CanonicalDocumentDto)
    (eNcf emisorRnc razonSocial : String) : Prop where
  fiscal : dto.tipoComprobante ∈ ["E31", "E41", "E45"] →
    PrintsRnc (documentLines now dto eNcf emisorRnc razonSocial)
  consumer : dto.tipoComprobante = "E32" → 250000 ≤ printedTotal dto →
    PrintsRnc (documentLines now dto eNcf emisorRnc razonSocial) ∨
      PrintsForeignId (documentLines now dto eNcf emisorRnc razonSocial)

/-- The header of a consumer invoice gives a number that can be printed: a
foreign identification that does not come out blank, or else an RNC with letters
that does not, or else nine or eleven digits. -/
def Identifies (dto : CanonicalDocumentDto) : Prop :=
  if explicitForeignId dto ≠ "" then Visible (explicitForeignId dto)
  else if hasAlpha dto.header.rncComprador then Visible dto.header.rncComprador
  else rncLength dto.header.rncComprador = true
  deriving Decidable

/-- What the buyer's number of a consumer invoice amounts to. -/
theorem consumer_printed_iff (consumer : dto.tipoComprobante = "E32") (now : ℕ)
    (eNcf emisorRnc razonSocial : String) :
    (PrintsRnc (documentLines now dto eNcf emisorRnc razonSocial) ∨
      PrintsForeignId (documentLines now dto eNcf emisorRnc razonSocial)) ↔ Identifies dto := by
  have same : tipo dto = "32" := by
    rw [tipo, consumer]
    decide
  have printed : tipo dto ≠ "43" ∧ modifiesGastosMenores dto = false := by
    simp [modifiesGastosMenores, isNota, same]
  obtain ⟨rnc, foreign⟩ := prints_iff now dto eNcf emisorRnc razonSocial printed
  rw [rnc, foreign, compradorId_consumer consumer]
  unfold Identifies
  split_ifs with given letters digits
  · simp only [not_printsRnc_foreign, false_or, printsForeignId_foreign]
  · simp only [not_printsRnc_foreign, false_or, printsForeignId_foreign]
  · exact iff_of_true (.inl (printsRnc_of_mem digits (List.mem_singleton_self _))) digits
  · refine iff_of_false ?_ digits
    rintro (⟨_, _, member, -⟩ | ⟨_, _, member, -⟩) <;> exact absurd member List.not_mem_nil

/-- **The buyer's number.** An accepted document identifies its buyer exactly when
it is no consumer invoice, or one whose printed total is small, or one whose
header gives a number that can be printed. -/
theorem identified_iff (accepted : checkDocument submitted = .ok dto) (now : ℕ)
    (eNcf emisorRnc razonSocial : String) :
    BuyerIdentified now dto eNcf emisorRnc razonSocial ↔
      (dto.tipoComprobante = "E32" → 250000 ≤ printedTotal dto → Identifies dto) := by
  constructor
  · intro identified consumer large
    exact (consumer_printed_iff consumer now eNcf emisorRnc razonSocial).mp
      (identified.consumer consumer large)
  · intro identifies
    constructor
    · intro fiscal
      obtain ⟨given, length⟩ := accepted_rnc accepted fiscal
      have types : ∀ t ∈ ["E31", "E41", "E45"], tipoEcf t ≠ "43" ∧ isNota (tipoEcf t) = false := by
        decide
      have printed : tipo dto ≠ "43" ∧ modifiesGastosMenores dto = false := by
        refine ⟨(types _ fiscal).1, ?_⟩
        rw [modifiesGastosMenores, tipo, (types _ fiscal).2, Bool.false_and]
      rw [(prints_iff now dto eNcf emisorRnc razonSocial printed).1, compradorId_fiscal fiscal given]
      exact printsRnc_of_mem length (List.mem_singleton_self _)
    · intro consumer large
      exact (consumer_printed_iff consumer now eNcf emisorRnc razonSocial).mpr
        (identifies consumer large)

/-! ## Two invoices without a buyer -/

/-- A consumer invoice of three hundred thousand pesos, to a blank passport. -/
def blankPassport : CanonicalDocumentDto where
  sourceReference := { txnId := "T1" }
  tipoComprobante := "E32"
  header :=
    { fechaEmision := "15-07-2026"
      identificadorExtranjero := some "  " }
  lines := [{ itemName := "Servicio", quantity := 1, unitPrice := 300000, amount := 300000 }]
  totals := { montoSubtotal := 300000, montoItbis := 0, montoTotal := 300000 }

/-- The same invoice with a passport that can be printed. -/
def passport : CanonicalDocumentDto :=
  { blankPassport with
    header := { blankPassport.header with identificadorExtranjero := some "PA123456" } }

/-- A consumer invoice in dollars, whose total is less than its line. -/
def understated : CanonicalDocumentDto where
  sourceReference := { txnId := "T2" }
  tipoComprobante := "E32"
  currency := some { code := "USD", exchangeRate := 60 }
  header := { fechaEmision := "15-07-2026" }
  lines := [{ itemName := "Servicio", quantity := 1, unitPrice := 5000, amount := 5000 }]
  totals := { montoSubtotal := 100, montoItbis := 0, montoTotal := 100 }

theorem blankPassport_accepted : checkDocument blankPassport = .ok blankPassport :=
  accepted_of_isOk (by decide +kernel) (by decide)

theorem understated_accepted : checkDocument understated = .ok understated :=
  accepted_of_isOk (by decide +kernel) (by decide)

theorem passport_accepted : checkDocument passport = .ok passport :=
  accepted_of_isOk (by decide +kernel) (by decide)

/-- The passport that can be printed identifies the buyer. -/
theorem passport_identified : BuyerIdentified 0 passport "E320000000001" "101672919" "EMISOR" := by
  refine (identified_iff passport_accepted 0 "E320000000001" "101672919" "EMISOR").mpr
    fun _ _ => ?_
  have given : explicitForeignId passport ≠ "" := by decide +kernel
  unfold Identifies
  rw [if_pos given]
  exact ⟨'P', by decide +kernel, by decide, by decide⟩

/-- A blank passport, and a total that grows when it is worked out again, pass the
checks and leave a large invoice without a buyer. -/
theorem large_invoices_unidentified :
    (checkDocument blankPassport = .ok blankPassport ∧
      ¬ BuyerIdentified 0 blankPassport "E320000000001" "101672919" "EMISOR") ∧
    (checkDocument understated = .ok understated ∧
      ¬ BuyerIdentified 0 understated "E320000000001" "101672919" "EMISOR") := by
  have unidentified {dto : CanonicalDocumentDto} (consumer : dto.tipoComprobante = "E32")
      (large : 250000 ≤ printedTotal dto) (unnamed : ¬ Identifies dto) :
      ¬ BuyerIdentified 0 dto "E320000000001" "101672919" "EMISOR" := fun identified =>
    unnamed ((consumer_printed_iff consumer 0 _ _ _).mp (identified.consumer consumer large))
  constructor
  · exact ⟨blankPassport_accepted, unidentified rfl (by decide +kernel) (by decide +kernel)⟩
  · exact ⟨understated_accepted, unidentified rfl (by decide +kernel) (by decide +kernel)⟩

end EcfDgii.IdentifiedBuyers
