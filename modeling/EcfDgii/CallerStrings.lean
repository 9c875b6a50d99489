import EcfDgii.AlikeDocuments
import EcfDgii.SubmissionFollows

/-!
What a caller's strings can do to the e-CF.

Most strings of a submission are escaped on their way into the document; seven
are written as they are, among them the dates, which `normalizeFechaDgii`
passes on when it does not know their format.  `unshaped_iff` says which
documents are the ones the builder means: exactly those whose seven strings,
where they are printed, hold no markup.
-/

set_option autoImplicit false

namespace EcfDgii.CallerStrings

open EcfDgii.Text EcfDgii.Documents EcfDgii.Engine EcfDgii.Submission EcfDgii.SubmissionFollows
open EcfDgii.Markup EcfDgii.XmlFormats EcfDgii.CanonicalXml EcfDgii.CanonicalLines
open EcfDgii.CanonicalTotals EcfDgii.CanonicalBuilder EcfDgii.AlikeDocuments

/-- A text without markup: no `<`, no `&`, no `]]>`. -/
def Harmless (s : String) : Prop :=
  '<' ∉ s.toList ∧ '&' ∉ s.toList ∧ ¬ cdataEnd <:+: s.toList

theorem harmless_iff (s : String) : Harmless s ↔ Plain s.toList := (plain_iff s.toList).symm

/-! ## Every element is closed -/

/-- Lines of totals whose names are names. -/
def Named (lines : List TotalLine) : Prop := ∀ line ∈ lines, isName line.name.toList = true

/-- The elements of the totals, in pesos and in the other currency. -/
def totalNames : List String :=
  ["MontoGravadoTotal", "MontoGravadoI1", "MontoGravadoI2", "MontoGravadoI3", "MontoExento",
    "ITBIS1", "ITBIS2", "ITBIS3", "TotalITBIS", "TotalITBIS1", "TotalITBIS2", "TotalITBIS3",
    "MontoTotal", "TotalITBISRetenido", "TotalISRRetencion", "MontoGravadoTotalOtraMoneda",
    "MontoGravado1OtraMoneda", "MontoGravado2OtraMoneda", "MontoGravado3OtraMoneda",
    "MontoExentoOtraMoneda", "TotalITBISOtraMoneda", "TotalITBIS1OtraMoneda",
    "TotalITBIS2OtraMoneda", "TotalITBIS3OtraMoneda", "MontoTotalOtraMoneda"]

/-- Lines of totals, each of one of these elements. -/
def Known (lines : List TotalLine) : Prop := ∀ line ∈ lines, line.name ∈ totalNames

theorem known_append {first second : List TotalLine} (left : Known first) (right : Known second) :
    Known (first ++ second) :=
  List.forall_mem_append.mpr ⟨left, right⟩

theorem known_amountIf (condition : Bool) {name : String} (value : ℚ)
    (known : name ∈ totalNames) : Known (amountIf condition name value) := by
  cases condition <;> simp [Known, amountIf, TotalLine.name, known]

theorem known_amountOf {name : String} (value : Option ℚ) (known : name ∈ totalNames) :
    Known (amountOf name value) := by
  cases value <;> simp [Known, amountOf, TotalLine.name, known]

theorem known_slots {lines : Slot → List TotalLine} (each : ∀ slot, Known (lines slot)) :
    Known (slots.flatMap lines) := by
  intro line member
  obtain ⟨slot, -, own⟩ := List.mem_flatMap.mp member
  exact each slot line own

theorem known_slotLines (gravado exento total : ℚ) (tramos : Tramos) (itbis : Option ℚ) :
    Known (slotLines gravado exento total tramos itbis) := by
  refine known_append (known_append (known_append (known_append (known_append (known_append
    ?_ ?_) ?_) ?_) ?_) ?_) ?_
  · exact known_amountIf _ _ (by simp [totalNames])
  · exact known_slots fun slot => known_amountOf _ (by cases slot <;> simp [totalNames, Slot.number])
  · exact known_amountIf _ _ (by simp [totalNames])
  · refine known_slots fun slot => ?_
    split
    · intro line member
      rw [List.mem_singleton.mp member]
      cases slot <;> decide
    · nofun
  · exact known_amountOf _ (by simp [totalNames])
  · exact known_slots fun slot => known_amountOf _ (by cases slot <;> simp [totalNames, Slot.number])
  · exact known_amountIf true _ (by simp [totalNames])

theorem known_slotLinesOtra (gravado exento total itbis : ℚ) (tramos : Tramos) :
    Known (slotLinesOtra gravado exento total itbis tramos) := by
  refine known_append (known_append (known_append (known_append (known_append
    ?_ ?_) ?_) ?_) ?_) ?_
  · exact known_amountIf _ _ (by simp [totalNames])
  · exact known_slots fun slot => known_amountOf _ (by cases slot <;> simp [totalNames, Slot.number])
  · exact known_amountIf _ _ (by simp [totalNames])
  · exact known_amountIf _ _ (by simp [totalNames])
  · exact known_slots fun slot => known_amountOf _ (by cases slot <;> simp [totalNames, Slot.number])
  · exact known_amountIf true _ (by simp [totalNames])

theorem known_exemptLines (total : ℚ) : Known (exemptLines total) :=
  known_append (known_amountIf _ _ (by simp [totalNames])) (known_amountIf true _ (by simp [totalNames]))

theorem known_exportLines (total : ℚ) : Known (exportLines total) := by
  refine known_append ?_ (known_amountIf true _ (by simp [totalNames]))
  split
  · simp only [Known, List.forall_mem_cons, TotalLine.name]
    decide
  · nofun

theorem known_isrLines (retention : CanonicalRetentionDto) :
    Known (retentionLines.isrLines retention) :=
  known_amountIf _ _ (by simp [totalNames])

theorem known_isrLines_elim (retention : Option CanonicalRetentionDto) :
    Known (retention.elim [] retentionLines.isrLines) := by
  cases retention with
  | none => nofun
  | some retention => exact known_isrLines retention

theorem known_retentionLines (tipo : String) (retention : Option CanonicalRetentionDto) :
    Known (retentionLines tipo retention) := by
  unfold retentionLines
  split
  · nofun
  · split
    · exact known_append (known_amountIf _ _ (by simp [totalNames])) (known_isrLines _)
    · nofun

theorem known_totales (dto : CanonicalDocumentDto) :
    Known (totales dto).lines ∧ Known (totales dto).otraMoneda := by
  unfold totales foreignTotales domesticTotales
  dsimp only
  split
  · split
    · refine ⟨known_append (known_exemptLines _) ?_,
        known_append (known_amountIf _ _ (by simp [totalNames])) (known_amountIf true _ (by simp [totalNames]))⟩
      split
      · exact known_isrLines_elim _
      · nofun
    · split
      · refine ⟨known_exportLines _, known_append ?_ (known_amountIf true _ (by simp [totalNames]))⟩
        split
        · simp only [Known, List.forall_mem_cons, TotalLine.name]
          decide
        · nofun
      · exact ⟨known_append (known_slotLines _ _ _ _ _) (known_retentionLines _ _),
          known_slotLinesOtra _ _ _ _ _⟩
  · split
    · exact ⟨known_exemptLines _, nofun⟩
    · split
      · exact ⟨known_append (known_exemptLines _) (known_isrLines_elim _), nofun⟩
      · split
        · exact ⟨known_exportLines _, nofun⟩
        · exact ⟨known_append (known_slotLines _ _ _ _ _) (known_retentionLines _ _), nofun⟩

theorem named_totales (dto : CanonicalDocumentDto) :
    Named (totales dto).lines ∧ Named (totales dto).otraMoneda := by
  have names : ∀ name ∈ totalNames, isName name.toList = true := by simp [totalNames, isName]
  obtain ⟨lines, otraMoneda⟩ := known_totales dto
  exact ⟨fun line member => names _ (lines line member),
    fun line member => names _ (otraMoneda line member)⟩

theorem nested_totalLines {lines : List TotalLine} (named : Named lines) :
    Nested (lines.map TotalLine.line) := by
  induction lines with
  | nil => exact .nil
  | cons line lines ih =>
    have first : Nested [line.line] := by
      have name := named line List.mem_cons_self
      cases line with
      | amount name value => exact .element 6 _ name
      | rate name value => exact .element 6 _ name
    exact .append first (ih fun l member => named l (List.mem_cons_of_mem _ member))

theorem nested_cons {indent : ℕ} {name : String} (content : Content) {rest : List Line}
    (named : isName name.toList = true) (nested : Nested rest) :
    Nested (.element indent name content :: rest) :=
  .append (.element indent content named) nested

theorem nested_idDoc (now : ℕ) (dto : CanonicalDocumentDto) (eNcf : String) :
    Nested (idDoc now dto eNcf) := by
  refine .block 4 (by simp [isName]) (.append (.append (.append (.append (.append ?_ ?_) ?_) ?_) ?_) ?_)
  · exact nested_cons _ (by simp [isName]) (.element 6 _ (by simp [isName]))
  · exact .ite (.element 6 _ (by simp [isName])) (.ite (.element 6 _ (by simp [isName])) .nil)
  · exact .ite (.element 6 _ (by simp [isName])) .nil
  · exact .ite (.element 6 _ (by simp [isName])) .nil
  · exact .element 6 _ (by simp [isName])
  · exact .ite (.element 6 _ (by simp [isName])) .nil

theorem nested_emisor (now : ℕ) (dto : CanonicalDocumentDto) (rnc razonSocial : String) :
    Nested (emisor now dto rnc razonSocial) :=
  .block 4 (by simp [isName]) (nested_cons _ (by simp [isName]) (nested_cons _ (by simp [isName])
    (nested_cons _ (by simp [isName]) (.element 6 _ (by simp [isName])))))

theorem nested_compradorId (dto : CanonicalDocumentDto) : Nested (compradorId dto) := by
  have rnc (content : Content) : Nested [.element 6 "RNCComprador" content] :=
    .element 6 _ (by simp [isName])
  have foreign (content : Content) : Nested [.element 6 "IdentificadorExtranjero" content] :=
    .element 6 _ (by simp [isName])
  refine .ite (.ite (foreign _) .nil) (.ite (.ite (foreign _) (.ite (.ite (foreign _)
    (.ite (rnc _) (foreign _))) (foreign _))) (.ite (foreign _) (.ite ?_ ?_)))
  · exact .ite (foreign _) (.ite (rnc _) .nil)
  · exact .ite (foreign _) .nil

theorem nested_comprador (dto : CanonicalDocumentDto) : Nested (comprador dto) :=
  .ite (.block 4 (by simp [isName]) (.append (.append (nested_compradorId dto)
    (.element 6 _ (by simp [isName]))) (.ite (.element 6 _ (by simp [isName])) .nil))) .nil

theorem nested_totalesBlock (dto : CanonicalDocumentDto) : Nested (totalesBlock dto) :=
  .block 4 (by simp [isName]) (nested_totalLines (named_totales dto).1)

theorem nested_otraMoneda (dto : CanonicalDocumentDto) : Nested (otraMoneda dto) :=
  .ite (.block 4 (by simp [isName]) (nested_cons _ (by simp [isName]) (nested_cons _ (by simp [isName])
    (nested_totalLines (named_totales dto).2)))) .nil

theorem nested_encabezadoBlock (now : ℕ) (dto : CanonicalDocumentDto)
    (eNcf emisorRnc razonSocial : String) :
    Nested (encabezadoBlock now dto eNcf emisorRnc razonSocial) :=
  .block 2 (by simp [isName]) (.append (.append (.append (.append (nested_cons _ (by simp [isName])
    (nested_idDoc now dto eNcf)) (nested_emisor now dto emisorRnc razonSocial))
    (nested_comprador dto)) (nested_totalesBlock dto)) (nested_otraMoneda dto))

theorem nested_money (indent : ℕ) {name : String} (amount : ℚ)
    (named : isName name.toList = true) : Nested [money indent name amount] :=
  .element indent _ named

theorem nested_lineRetencion (tipo : String) (agente : ℤ) (item : ProcessedLineItem) :
    Nested (lineRetencion tipo agente item) := by
  have itbis := nested_money 8 (item.montoItbisRetenido.getD 0)
    (by decide : isName "MontoITBISRetenido".toList = true)
  have isr := nested_money 8 (item.montoIsrRetenido.getD 0)
    (by decide : isName "MontoISRRetenido".toList = true)
  have retencion {amounts : List Line} (inner : Nested amounts) : Nested (block 6 "Retencion"
      (.element 8 "IndicadorAgenteRetencionoPercepcion" (.verbatim (decimalInt agente)) ::
        amounts)) :=
    .block 6 (by simp [isName]) (nested_cons _ (by simp [isName]) inner)
  exact .ite (retencion isr) (.ite (retencion (.append itbis (.ite isr .nil)))
    (.ite (.ite (retencion (.append (.ite itbis .nil) (.ite isr .nil))) .nil) .nil))

theorem nested_descuento (amount : ℚ) : Nested (descuento amount) :=
  nested_cons _ (by simp [isName]) (.block 6 (by simp [isName]) (.block 8 (by simp [isName])
    (nested_cons _ (by simp [isName]) (nested_money 10 amount (by simp [isName])))))

theorem nested_otraMonedaDetalle (dto : CanonicalDocumentDto) (item : ProcessedLineItem) :
    Nested (otraMonedaDetalle dto item) :=
  .block 6 (by simp [isName]) (.append (.append (.element 8 _ (by simp [isName]))
    (.ite (nested_money 8 _ (by simp [isName])) .nil)) (nested_money 8 _ (by simp [isName])))

theorem nested_itemLines (dto : CanonicalDocumentDto) (retention : Option CanonicalRetentionDto)
    (item : ProcessedLineItem) : Nested (itemLines dto retention item) := by
  refine .block 4 (by simp [isName]) (.append (.append (.append (.append (.append (.append (.append
    ?_ ?_) ?_) ?_) ?_) ?_) ?_) ?_)
  · exact nested_cons _ (by simp [isName]) (.element 6 _ (by simp [isName]))
  · cases retention with
    | none => exact .nil
    | some retention => exact nested_lineRetencion _ _ _
  · exact nested_cons _ (by simp [isName]) (.element 6 _ (by simp [isName]))
  · exact .ite (.element 6 _ (by simp [isName])) .nil
  · exact nested_cons _ (by simp [isName]) (.element 6 _ (by simp [isName]))
  · exact .ite (nested_descuento _) .nil
  · exact .ite (nested_otraMonedaDetalle dto item) .nil
  · exact nested_money 6 _ (by simp [isName])

theorem nested_detallesItems (dto : CanonicalDocumentDto) : Nested (detallesItems dto) :=
  .block 2 (by simp [isName]) (.flatMap fun item _ => nested_itemLines dto _ item)

theorem nested_informacionReferencia (now : ℕ) (dto : CanonicalDocumentDto) :
    Nested (informacionReferencia now dto) := by
  refine .ite (.block 2 (by simp [isName]) (.append (.append (.append (.append ?_ ?_) ?_) ?_) ?_)) .nil
  · exact .element 4 _ (by simp [isName])
  · exact .ite (.element 4 _ (by simp [isName])) .nil
  · exact .element 4 _ (by simp [isName])
  · split
    · exact .element 4 _ (by simp [isName])
    · exact .ite (.element 4 _ (by simp [isName])) .nil
  · exact .ite (.element 4 _ (by simp [isName])) .nil

/-- **Every element of the document is closed.** -/
theorem nested_documentLines (now : ℕ) (dto : CanonicalDocumentDto)
    (eNcf emisorRnc razonSocial : String) :
    Nested (documentLines now dto eNcf emisorRnc razonSocial) :=
  .block 0 (by simp [isName]) (.append (.append (.append
    (nested_encabezadoBlock now dto eNcf emisorRnc razonSocial) (nested_detallesItems dto))
    (nested_informacionReferencia now dto)) (.element 2 _ (by simp [isName])))

/-! ## What is written as it is -/

/-- The expiry date of the sequence that the document gives. -/
def givenVencimiento (dto : CanonicalDocumentDto) : String :=
  if dto.fechaVencimientoSecuencia.getD "" ≠ "" then dto.fechaVencimientoSecuencia.getD ""
  else dto.header.fechaVencimientoSecuencia.getD ""

/-- The strings that are written unescaped hold no markup, where they are
printed. -/
structure RawStringsHarmless (dto : CanonicalDocumentDto) (eNcf emisorRnc : String) : Prop where
  eNcf : Harmless eNcf
  emisorRnc : Harmless emisorRnc
  fechaEmision : Harmless dto.header.fechaEmision
  tipoIngresos : printsTipoIngresos dto = true → Harmless (dto.header.tipoIngresos.getD "")
  fechaLimitePago : printsFechaLimitePago dto = true →
    Harmless (dto.header.fechaLimitePago.getD "")
  fechaVencimientoSecuencia : tipo dto ≠ "34" → tipo dto ≠ "32" → Harmless (givenVencimiento dto)
  fechaNcfModificado : printsReferencia dto = true →
    Harmless (dto.references.fechaNcfModificado.getD "")

theorem plain_cons_zero (cs : List Char) : Plain ('0' :: cs) ↔ Plain cs := by
  simp [Plain, plainFrom]

theorem plain_tipoIngresoVal (dto : CanonicalDocumentDto) :
    Plain (tipoIngresoVal dto).toList ↔ Plain (dto.header.tipoIngresos.getD "").toList := by
  unfold tipoIngresoVal
  by_cases given : dto.header.tipoIngresos.getD "" = ""
  · simp only [given, ne_eq, not_true_eq_false, if_false]
    refine iff_of_true ?_ (by decide)
    split <;> decide
  · simp only [given, ne_eq, not_false_eq_true, if_true]
    split
    · rw [String.toList_append]
      exact plain_cons_zero _
    · exact Iff.rfl

theorem plain_fechaVenc (now : ℕ) (dto : CanonicalDocumentDto) :
    Plain (fechaVenc now dto).toList ↔ Plain (givenVencimiento dto).toList := by
  unfold fechaVenc givenVencimiento
  dsimp only
  by_cases own : dto.fechaVencimientoSecuencia.getD "" = ""
  · by_cases header : dto.header.fechaVencimientoSecuencia.getD "" = ""
    · simp only [own, header, ne_eq, not_true_eq_false, if_false]
      refine iff_of_true ?_ (by decide)
      rw [String.toList_append, decimal, String.toList_ofList]
      refine plain_of_numerals ?_
      rw [List.all_append, String.toList_ofList, numerals_toDigits]
      decide
    · simp only [own, header, ne_eq, not_true_eq_false, not_false_eq_true, if_true, if_false]
      exact plain_normalizeFechaDgii now _
  · simp only [own, ne_eq, not_false_eq_true, if_true]
    exact plain_normalizeFechaDgii now _

theorem plain_tipo {dto : CanonicalDocumentDto} (typed : dto.tipoComprobante ∈ validTipoEcfSet) :
    Plain (tipo dto).toList := by
  have all : ∀ t ∈ validTipoEcfSet, Plain (tipoEcf t).toList := by decide
  exact all _ typed

theorem plain_ite {condition : Prop} [Decidable condition] (first second : List Line) :
    PlainLines (if condition then first else second) ↔
      (condition → PlainLines first) ∧ (¬ condition → PlainLines second) := by
  split <;> simp [*]

theorem plain_idDoc (now : ℕ) (dto : CanonicalDocumentDto) (eNcf : String)
    (typed : Plain (tipo dto).toList) :
    PlainLines (idDoc now dto eNcf) ↔
      Harmless eNcf ∧
      (tipo dto ≠ "34" → tipo dto ≠ "32" → Harmless (givenVencimiento dto)) ∧
      (printsTipoIngresos dto = true → Harmless (dto.header.tipoIngresos.getD "")) ∧
      (printsFechaLimitePago dto = true → Harmless (dto.header.fechaLimitePago.getD "")) := by
  have zero : Plain "0".toList := by decide
  simp only [idDoc, idDocIn, plainLines_block, plainLines_append, plainLines_cons, plainLines_nil,
    plain_ite, plain_verbatim, plain_decimalInt, plain_tipoIngresoVal, plain_fechaVenc, zero, typed,
    plain_normalizeFechaDgii, harmless_iff, ne_eq, and_true, true_and, implies_true, and_assoc]

theorem plain_emisor (now : ℕ) (dto : CanonicalDocumentDto) (rnc razonSocial : String) :
    PlainLines (emisor now dto rnc razonSocial) ↔
      Harmless rnc ∧ Harmless dto.header.fechaEmision := by
  simp [emisor, plain_normalizeFechaDgii, harmless_iff]

theorem plain_comprador (dto : CanonicalDocumentDto) : PlainLines (comprador dto) := by
  have id : PlainLines (compradorId dto) := by
    have extranjero : Plain "EXTRANJERO".toList := by decide
    simp only [compradorId, identificadorExtranjero, plain_ite, plainLines_cons, plainLines_nil,
      plain_escaped, plain_verbatim, plain_cleanDigits, extranjero, and_true, implies_true]
  simp [comprador, plain_ite, id]

theorem plain_totalLines (lines : List TotalLine) : PlainLines (lines.map TotalLine.line) := by
  intro line member
  obtain ⟨total, -, rfl⟩ := List.mem_map.mp member
  cases total with
  | amount name value => exact plain_formatMoney2 value
  | rate name value => exact plain_decimalInt value

theorem plain_otraMoneda (dto : CanonicalDocumentDto) : PlainLines (otraMoneda dto) := by
  simp [otraMoneda, plain_ite, plain_totalLines, plain_formatPrice4]

theorem plain_money (indent : ℕ) (name : String) (amount : ℚ) :
    (money indent name amount).Plain :=
  plain_formatMoney2 amount

theorem plain_itemLines (dto : CanonicalDocumentDto) (retention : Option CanonicalRetentionDto)
    (item : ProcessedLineItem) : PlainLines (itemLines dto retention item) := by
  have retencion (agente : ℤ) : PlainLines (lineRetencion (tipo dto) agente item) := by
    simp [lineRetencion, plain_ite, plain_money, plain_decimalInt]
  have bien : Plain (indicadorBienoServicio dto).toList := by
    unfold indicadorBienoServicio
    split_ifs <;> decide
  have dollar : Plain ['$'] := by decide
  have number (n : ℕ) : Plain (decimal n).toList := plain_decimalInt n
  cases retention <;>
    simp [itemLines, descuento, otraMonedaDetalle, plain_ite, plain_money, plain_decimalInt,
      plain_formatQty2, plain_formatPrice4, retencion, bien, dollar, number]

theorem plain_detallesItems (dto : CanonicalDocumentDto) : PlainLines (detallesItems dto) := by
  rw [detallesItems, plainLines_block]
  intro line member
  obtain ⟨item, -, own⟩ := List.mem_flatMap.mp member
  exact plain_itemLines dto _ item line own

theorem plain_informacionReferencia (now : ℕ) (dto : CanonicalDocumentDto) :
    PlainLines (informacionReferencia now dto) ↔
      (printsReferencia dto = true → Harmless (dto.references.fechaNcfModificado.getD "")) := by
  have one : Plain ['1'] := by decide
  cases codigo : dto.references.codigoModificacion <;>
    simp [informacionReferencia, codigo, plain_ite, plain_normalizeFechaDgii, harmless_iff,
      plain_decimalInt, one]

/-- The whole document is plain exactly when its raw strings are. -/
theorem plain_documentLines {dto : CanonicalDocumentDto}
    (typed : dto.tipoComprobante ∈ validTipoEcfSet) (now : ℕ)
    (eNcf emisorRnc razonSocial : String) :
    PlainLines (documentLines now dto eNcf emisorRnc razonSocial) ↔
      RawStringsHarmless dto eNcf emisorRnc := by
  have version : Plain "1.0".toList := by decide
  simp only [documentLines_eq, encabezadoBlock_eq, totalesBlock, plainLines_block,
    plainLines_append, plainLines_cons, plainLines_nil, plain_verbatim, version, plain_idDoc now dto eNcf
    (plain_tipo typed), plain_emisor, plain_comprador, plain_totalLines, plain_otraMoneda,
    plain_detallesItems, plain_informacionReferencia, plain_dominicanDateTime, and_true, true_and]
  constructor
  · rintro ⟨⟨⟨number, vencimiento, ingresos, limite⟩, rnc, emision⟩, modificado⟩
    exact ⟨number, rnc, emision, ingresos, limite, vencimiento, modificado⟩
  · rintro ⟨number, rnc, emision, ingresos, limite, vencimiento, modificado⟩
    exact ⟨⟨⟨number, vencimiento, ingresos, limite⟩, rnc, emision⟩, modificado⟩

/-! ## The document that is read -/

/-- A document read: its declaration, then markup. -/
def readDocument (document : List Char) : Option (List Token) :=
  if declaration <+: document then read entity (document.drop declaration.length) else none

theorem readDocument_documentText (now : ℕ) (dto : CanonicalDocumentDto)
    (eNcf emisorRnc razonSocial : String) :
    readDocument (documentText now dto eNcf emisorRnc razonSocial) =
      read entity (text escapeXml (documentLines now dto eNcf emisorRnc razonSocial)) := by
  rw [readDocument, documentText, if_pos (List.prefix_append _ _), List.drop_left]

/-- No string of the caller's has shaped the document: it is read, every element
is closed, each content is character data of its own element, and the elements
are those of every harmless document like it. -/
structure Unshaped (now : ℕ) (dto : CanonicalDocumentDto)
    (eNcf emisorRnc razonSocial : String) : Prop where
  contents : readDocument (documentText now dto eNcf emisorRnc razonSocial) =
    some (tokens legal (documentLines now dto eNcf emisorRnc razonSocial))
  closed : ∀ seen, readDocument (documentText now dto eNcf emisorRnc razonSocial) = some seen →
    WellNested seen
  elements : ∀ (harmless : CanonicalDocumentDto) (eNcf' emisorRnc' razonSocial' : String),
    Alike dto harmless → harmless.tipoComprobante ∈ validTipoEcfSet →
    RawStringsHarmless harmless eNcf' emisorRnc' →
    (readDocument (documentText now dto eNcf emisorRnc razonSocial)).map tags =
      (readDocument (documentText now harmless eNcf' emisorRnc' razonSocial')).map tags

theorem read_documentText (now : ℕ) (dto : CanonicalDocumentDto)
    (eNcf emisorRnc razonSocial : String) :
    readDocument (documentText now dto eNcf emisorRnc razonSocial) =
        some (tokens legal (documentLines now dto eNcf emisorRnc razonSocial)) ↔
      PlainLines (documentLines now dto eNcf emisorRnc razonSocial) := by
  rw [readDocument_documentText]
  exact read_iff reads_escapeXml entity_short
    (nested_documentLines now dto eNcf emisorRnc razonSocial).names

/-- **Strings and shape.**  The strings of an accepted document leave its shape
alone exactly when those that are written unescaped hold no markup. -/
theorem unshaped_iff {submitted dto : CanonicalDocumentDto}
    (accepted : checkDocument submitted = .ok dto) (now : ℕ)
    (eNcf emisorRnc razonSocial : String) :
    Unshaped now dto eNcf emisorRnc razonSocial ↔ RawStringsHarmless dto eNcf emisorRnc := by
  have typed := (checkDocument_ok accepted).2
  constructor
  · intro unshaped
    exact (plain_documentLines typed now eNcf emisorRnc razonSocial).mp
      ((read_documentText now dto eNcf emisorRnc razonSocial).mp unshaped.contents)
  · intro harmless
    have contents := (read_documentText now dto eNcf emisorRnc razonSocial).mpr
      ((plain_documentLines typed now eNcf emisorRnc razonSocial).mpr harmless)
    refine ⟨contents, ?_, ?_⟩
    · intro seen read
      rw [contents] at read
      obtain rfl := Option.some.inj read
      exact (nested_documentLines now dto eNcf emisorRnc razonSocial).wellNested legal
    · intro other eNcf' emisorRnc' razonSocial' alike typed' harmless'
      have contents' := (read_documentText now other eNcf' emisorRnc' razonSocial').mpr
        ((plain_documentLines typed' now eNcf' emisorRnc' razonSocial').mpr harmless')
      rw [contents, contents', Option.map_some, Option.map_some, tags_tokens, tags_tokens]
      exact congrArg some
        (alike.documentLines now eNcf eNcf' emisorRnc emisorRnc' razonSocial razonSocial')

/-- An invoice with a kind of income. -/
def plainIncome : CanonicalDocumentDto where
  sourceReference := { txnId := "T1" }
  tipoComprobante := "E31"
  header :=
    { rncComprador := "101672919"
      fechaEmision := "15-07-2026"
      tipoIngresos := some "01" }
  lines := [{ itemName := "Servicio", quantity := 1, unitPrice := 100, amount := 100 }]
  totals := { montoSubtotal := 100, montoItbis := 18, montoTotal := 118 }

/-- A kind of income that closes its element and writes another payment. -/
def forgedTipoIngresos : String :=
  "01</TipoIngresos>\n      <TipoPago>2</TipoPago>\n      <TipoIngresos>01"

def forgedIncome : CanonicalDocumentDto :=
  { plainIncome with
    header := { plainIncome.header with tipoIngresos := some forgedTipoIngresos } }

theorem accepted_of_isOk {dto : CanonicalDocumentDto} (passes : (checkDocument dto).isOk = true)
    (typed : normalizedTipo dto.tipoComprobante = dto.tipoComprobante) :
    checkDocument dto = .ok dto := by
  cases checked : checkDocument dto with
  | error message =>
    rw [checked] at passes
    cases passes
  | ok accepted =>
    rw [(checkDocument_ok checked).1, typed]

theorem plainIncome_accepted : checkDocument plainIncome = .ok plainIncome :=
  accepted_of_isOk (by decide +kernel) (by decide)

theorem forgedIncome_accepted : checkDocument forgedIncome = .ok forgedIncome :=
  accepted_of_isOk (by decide +kernel) (by decide)

theorem plainIncome_harmless :
    RawStringsHarmless plainIncome "E310000000001" "101672919" := by
  constructor <;> simp only [harmless_iff] <;> decide

/-- The plain invoice is read as it was meant. -/
theorem plain_income_unshaped : Unshaped 0 plainIncome "E310000000001" "101672919" "EMISOR" :=
  (unshaped_iff plainIncome_accepted 0 "E310000000001" "101672919" "EMISOR").mpr
    plainIncome_harmless

theorem forged_alike : Alike forgedIncome plainIncome where
  tipoComprobante := rfl
  totals := rfl
  retention := rfl
  lines := .cons ⟨rfl, Iff.rfl⟩ .nil
  isForeignCurrency := rfl
  exchangeRate := rfl
  tipoPago := rfl
  fechaLimitePago := Iff.rfl
  identificadorExtranjero := Iff.rfl
  rncComprador := Iff.rfl
  rncAlpha := rfl
  rncDigits := rfl
  correoComprador := rfl
  correctsENcf := Iff.rfl
  referenceKind := fun _ _ => rfl
  codigoModificacion := rfl
  razonModificacion := Iff.rfl
  rncOtroContribuyente := Iff.rfl

/-- The lines of the plain invoice, and what a reader takes the forged kind of
income for. -/
def plainLines : List Line := documentLines 0 plainIncome "E310000000001" "101672919" "EMISOR"

def forgedLines : List Line :=
  [.element 6 "TipoIngresos" (.verbatim "01"), .element 6 "TipoPago" (.verbatim "2"),
    .element 6 "TipoIngresos" (.verbatim "01")]

theorem forged_text :
    text escapeXml (documentLines 0 forgedIncome "E310000000001" "101672919" "EMISOR") =
      text escapeXml (plainLines.take 8 ++ (forgedLines ++ plainLines.drop 9)) := by
  have lines : documentLines 0 forgedIncome "E310000000001" "101672919" "EMISOR" =
      plainLines.take 8 ++ ([.element 6 "TipoIngresos" (.verbatim forgedTipoIngresos)] ++
        plainLines.drop 9) := by
    decide +kernel
  have taken : text escapeXml [.element 6 "TipoIngresos" (.verbatim forgedTipoIngresos)] =
      text escapeXml forgedLines := by
    decide +kernel
  rw [lines]
  simp only [text, List.flatMap_append] at taken ⊢
  rw [taken]

/-- The forged invoice has a payment the builder did not write. -/
theorem forged_income_shapes :
    ¬ ∀ (submitted dto : CanonicalDocumentDto) (now : ℕ) (eNcf emisorRnc razonSocial : String),
      checkDocument submitted = .ok dto → Unshaped now dto eNcf emisorRnc razonSocial := by
  intro unshaped
  have same := (unshaped forgedIncome forgedIncome 0 "E310000000001" "101672919" "EMISOR"
    forgedIncome_accepted).elements plainIncome "E310000000001" "101672919" "EMISOR" forged_alike
    (checkDocument_ok plainIncome_accepted).2 plainIncome_harmless
  have typed := (checkDocument_ok plainIncome_accepted).2
  have plain : PlainLines plainLines :=
    (plain_documentLines typed 0 "E310000000001" "101672919" "EMISOR").mpr plainIncome_harmless
  have nested : Nested plainLines := nested_documentLines 0 plainIncome _ _ _
  have forged : ∀ line ∈ plainLines.take 8 ++ (forgedLines ++ plainLines.drop 9),
      line ∈ plainLines ∨ line ∈ forgedLines := by
    intro line member
    rcases List.mem_append.mp member with first | later
    · exact .inl (List.mem_of_mem_take first)
    · rcases List.mem_append.mp later with second | third
      · exact .inr second
      · exact .inl (List.mem_of_mem_drop third)
  have forged_named : ∀ line ∈ forgedLines, isName line.name.toList = true := by decide
  have forged_plain : ∀ line ∈ forgedLines, line.Plain := by decide
  have seen : read entity (text escapeXml
      (plainLines.take 8 ++ (forgedLines ++ plainLines.drop 9))) =
      some (tokens legal (plainLines.take 8 ++ (forgedLines ++ plainLines.drop 9))) := by
    refine (read_iff reads_escapeXml entity_short fun line member => ?_).mpr fun line member => ?_
    · exact (forged line member).elim (nested.names line) (forged_named line)
    · exact (forged line member).elim (plain line) (forged_plain line)
  have meant := (read_documentText 0 plainIncome "E310000000001" "101672919" "EMISOR").mpr plain
  rw [meant, readDocument_documentText, forged_text, seen, Option.map_some, Option.map_some,
    tags_tokens, tags_tokens] at same
  have lengths := congrArg List.length (Option.some.inj same)
  revert lengths
  decide +kernel

end EcfDgii.CallerStrings
