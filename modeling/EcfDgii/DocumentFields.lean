import EcfDgii.CallerStrings

/-!
What the elements of a name hold, over a whole document.

`fields name lines` lists the contents of the elements of that name, in the
order of the document.  The four names of `headerNames` stand in `IdDoc`, in
`Emisor` and in `InformacionReferencia` and nowhere else, so that the lists are
as long as these blocks make them: the indicator of a credit note, the date of
issue, and the number and the date of the document it refers to.
-/

set_option autoImplicit false

namespace EcfDgii.DocumentFields

open EcfDgii.Text EcfDgii.Documents EcfDgii.Engine EcfDgii.Markup EcfDgii.XmlFormats
open EcfDgii.CanonicalXml EcfDgii.CanonicalLines EcfDgii.CanonicalTotals EcfDgii.CanonicalBuilder
open EcfDgii.CallerStrings

/-! ## Elements of a name -/

/-- What a line holds under a name. -/
def field (name : String) : Line → Option Content
  | .element _ n content => if n = name then some content else none
  | _ => none

/-- The contents of the elements of a name. -/
def fields (name : String) (lines : List Line) : List Content := lines.filterMap (field name)

variable (name : String)

@[simp] theorem fields_nil : fields name [] = [] := rfl

@[simp] theorem fields_append (first second : List Line) :
    fields name (first ++ second) = fields name first ++ fields name second :=
  List.filterMap_append

@[simp] theorem fields_cons (indent : ℕ) (n : String) (content : Content) (rest : List Line) :
    fields name (.element indent n content :: rest) =
      (if n = name then [content] else []) ++ fields name rest := by
  by_cases same : n = name <;> simp [fields, field, same]

@[simp] theorem fields_block (indent : ℕ) (n : String) (inner : List Line) :
    fields name (block indent n inner) = fields name inner := by
  simp [fields, block, List.filterMap_cons, field]

@[simp] theorem fields_ite (condition : Prop) [Decidable condition] (first second : List Line) :
    fields name (if condition then first else second) =
      if condition then fields name first else fields name second :=
  apply_ite (fields name) condition first second

/-! ## Where the names of the header stand -/

/-- The names that the lists below are about. -/
def headerNames : List String :=
  ["IndicadorNotaCredito", "FechaEmision", "NCFModificado", "FechaNCFModificado"]

variable {name}

/-- Totals have other names. -/
theorem fields_totals (own : name ∈ headerNames) {lines : List TotalLine} (known : Known lines) :
    fields name (lines.map TotalLine.line) = [] := by
  have others : ∀ n ∈ headerNames, n ∉ totalNames := by decide
  apply List.filterMap_eq_nil_iff.mpr
  intro line member
  obtain ⟨total, inside, rfl⟩ := List.mem_map.mp member
  have other : total.name ≠ name := fun same => others name own (same ▸ known total inside)
  cases total with
  | amount n value => exact if_neg other
  | rate n value => exact if_neg other

section

variable (zone : ℤ) (now : ℕ) (dto : CanonicalDocumentDto) (eNcf emisorRnc razonSocial : String)

theorem fields_comprador (own : name ∈ headerNames) : fields name (comprador dto) = [] := by
  simp only [headerNames, List.mem_cons, List.not_mem_nil, or_false] at own
  rcases own with rfl | rfl | rfl | rfl <;> simp [comprador, compradorId, identificadorExtranjero]

theorem fields_totalesBlock (own : name ∈ headerNames) : fields name (totalesBlock dto) = [] := by
  rw [totalesBlock, fields_block, fields_totals own (known_totales dto).1]

theorem fields_otraMoneda (own : name ∈ headerNames) : fields name (otraMoneda dto) = [] := by
  have totals := fields_totals own (known_totales dto).2
  simp only [headerNames, List.mem_cons, List.not_mem_nil, or_false] at own
  rcases own with rfl | rfl | rfl | rfl <;> simp [otraMoneda, totals]

theorem fields_itemLines (own : name ∈ headerNames) (retention : Option CanonicalRetentionDto)
    (item : ProcessedLineItem) : fields name (itemLines dto retention item) = [] := by
  simp only [headerNames, List.mem_cons, List.not_mem_nil, or_false] at own
  rcases own with rfl | rfl | rfl | rfl <;>
    cases retention <;>
      simp [itemLines, lineRetencion, descuento, otraMonedaDetalle, CanonicalBuilder.money]

theorem fields_detallesItems (own : name ∈ headerNames) : fields name (detallesItems dto) = [] := by
  rw [detallesItems, fields_block]
  apply List.filterMap_eq_nil_iff.mpr
  intro line member
  obtain ⟨item, -, inside⟩ := List.mem_flatMap.mp member
  exact List.filterMap_eq_nil_iff.mp (fields_itemLines dto own _ item) line inside

/-- **Where they stand.** -/
theorem fields_documentLinesIn (own : name ∈ headerNames) :
    fields name (documentLinesIn zone now dto eNcf emisorRnc razonSocial) =
      fields name (idDocIn zone now dto eNcf) ++
        fields name (emisor now dto emisorRnc razonSocial) ++
        fields name (informacionReferencia now dto) := by
  have version : ("Version" ∉ headerNames) ∧ "FechaHoraFirma" ∉ headerNames := by decide
  have other {n : String} (absent : n ∉ headerNames) : n ≠ name := fun same => absent (same ▸ own)
  simp [documentLinesIn, encabezadoIn, fields_comprador dto own, fields_totalesBlock dto own,
    fields_otraMoneda dto own, fields_detallesItems dto own, other version.1, other version.2]

/-! ## What they hold -/

/-- The indicator of a credit note. -/
theorem fields_indicador :
    fields "IndicadorNotaCredito" (documentLinesIn zone now dto eNcf emisorRnc razonSocial) =
      if tipo dto = "34" then [.verbatim (decimalInt (indicadorNotaCredito zone now dto))]
      else [] := by
  have reference : fields "IndicadorNotaCredito" (informacionReferencia now dto) = [] := by
    cases codigo : dto.references.codigoModificacion <;> simp [informacionReferencia, codigo]
  rw [fields_documentLinesIn zone now dto eNcf emisorRnc razonSocial (by decide), reference]
  simp [idDocIn, emisor]

/-- The date of issue. -/
theorem fields_fechaEmision :
    fields "FechaEmision" (documentLinesIn zone now dto eNcf emisorRnc razonSocial) =
      [.verbatim (normalizeFechaDgii now dto.header.fechaEmision)] := by
  have reference : fields "FechaEmision" (informacionReferencia now dto) = [] := by
    cases codigo : dto.references.codigoModificacion <;> simp [informacionReferencia, codigo]
  rw [fields_documentLinesIn zone now dto eNcf emisorRnc razonSocial (by decide), reference]
  simp [idDocIn, emisor]

/-- The number of the document that the reference is to. -/
theorem fields_ncfModificado :
    fields "NCFModificado" (documentLinesIn zone now dto eNcf emisorRnc razonSocial) =
      if printsReferencia dto then [.escaped (normalizedRefEncf dto)] else [] := by
  rw [fields_documentLinesIn zone now dto eNcf emisorRnc razonSocial (by decide)]
  cases codigo : dto.references.codigoModificacion <;>
    simp [idDocIn, emisor, informacionReferencia, codigo]

/-- The date of the document that the reference is to. -/
theorem fields_fechaNcfModificado :
    fields "FechaNCFModificado" (documentLinesIn zone now dto eNcf emisorRnc razonSocial) =
      if printsReferencia dto then
        [.verbatim (normalizeFechaDgii now (dto.references.fechaNcfModificado.getD ""))]
      else [] := by
  rw [fields_documentLinesIn zone now dto eNcf emisorRnc razonSocial (by decide)]
  cases codigo : dto.references.codigoModificacion <;>
    simp [idDocIn, emisor, informacionReferencia, codigo]

end

end EcfDgii.DocumentFields
