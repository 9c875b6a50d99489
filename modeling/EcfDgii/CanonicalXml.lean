import EcfDgii.Engine

/-!
The documents the engine writes (`CanonicalXmlBuilder.cpp`, and
`applyCanonicalContent` of `DocumentsController.cpp`).

Both builders open with the type and the eNCF of the document; what follows
does not matter to the operations and is a parameter (`Externals.cuerpoEcf`,
`Externals.cuerpoRfce`), any text and any totals at all.
-/

set_option autoImplicit false

namespace EcfDgii.CanonicalXml

open EcfDgii.Text EcfDgii.Documents EcfDgii.Engine

/-- `tipoEcf` of `buildXmlFromCanonical`: the type without its letter. -/
def tipoEcf (tipoComprobante : String) : String :=
  match tipoComprobante.toList with
  | [] => "31"
  | c :: rest => if c = 'E' ∨ c = 'e' then String.ofList rest else tipoComprobante

/-- Digits 2 and 3 of an eNCF. -/
def tipoDigits (eNcf : String) : String := String.ofList ((eNcf.toList.drop 1).take 2)

/-- An eNCF that starts with a letter and two digits has these. -/
theorem tipoDigits_of_opens {eNcf : String} (tipo : String) (letter : Char) (rest : List Char)
    (two : tipo.toList.length = 2) (opens : eNcf.toList = letter :: (tipo.toList ++ rest)) :
    tipoDigits eNcf = tipo := by
  have digits : (eNcf.toList.drop 1).take 2 = tipo.toList := by
    rw [opens, List.drop_one, List.tail_cons, List.take_left' two]
  rw [tipoDigits, digits, String.ofList_toList]

/-- The opening of a document: its root element, its type and its eNCF. -/
def encabezado (root tipo eNcf : String) : String :=
  "<?xml version=\"1.0\" encoding=\"utf-8\"?>\n<" ++ root ++
    ">\n  <Encabezado>\n    <Version>1.0</Version>\n    <IdDoc>\n      <TipoeCF>" ++ tipo ++
    "</TipoeCF>\n      <eNCF>" ++ eNcf ++ "</eNCF>\n"

variable (ext : Externals)

/-- `buildXmlFromCanonical`: the text, and the totals it prints. -/
def buildXmlFromCanonical (now : ℕ) (dto : CanonicalDocumentDto)
    (eNcf emisorRnc emisorRazonSocial : String) : String × ℚ × ℚ :=
  let (cuerpo, total, itbis) := ext.cuerpoEcf dto eNcf emisorRnc emisorRazonSocial now
  (encabezado "ECF" (tipoEcf dto.tipoComprobante) eNcf ++ cuerpo, total, itbis)

/-- `buildRfceXml`: a consumer invoice's summary, always of type 32. -/
def buildRfceXml (now : ℕ) (doc : EcfDocument) (dto : CanonicalDocumentDto)
    (emisorRazonSocial : String) : String :=
  encabezado "RFCE" "32" doc.eNcf ++ ext.cuerpoRfce doc dto emisorRazonSocial now

/-- `applyCanonicalContent`: the row takes over the submitted content. -/
def applyCanonicalContent (now : ℕ) (doc : EcfDocument) (dto : CanonicalDocumentDto)
    (editSequence emisorRnc emisorRazonSocial : String) : EcfDocument :=
  let (xml, total, itbis) := buildXmlFromCanonical ext now dto doc.eNcf emisorRnc emisorRazonSocial
  { doc with
    editSequence := editSequence
    documentKind := if dto.documentKind = "" then "Invoice" else dto.documentKind
    ncf := dto.ncf.or doc.ncf
    rncEmisor := emisorRnc
    rncComprador := some dto.header.rncComprador
    xmlContent := xml
    totalAmount := total
    itbisAmount := itbis
    state := "SequenceAllocated" }

end EcfDgii.CanonicalXml
