import EcfDgii.CallerStrings
import EcfDgii.DocumentInvariants
import EcfDgii.Elements
import EcfDgii.PrintedTotals

/-!
Rows and the documents they hold.

A row keeps the XML of a document next to the number, the issuer and the amounts that
the rest of the system goes by.  `lineNamed` is what a search among printed totals
comes to: `total_totales` and `itbis_totales` find what the row stores in the totals
of every kind of document, and `read_documentText` in the whole document, read back.
`sourced_lawful` follows every row to the document that was submitted for it, and
`rows_say_their_documents` puts the two together.
-/

set_option autoImplicit false

namespace EcfDgii.PrintedRows

open EcfDgii.Text EcfDgii.Documents EcfDgii.Tables EcfDgii.Programs EcfDgii.Execution
open EcfDgii.Engine EcfDgii.Transmission EcfDgii.Submission EcfDgii.Traces
open EcfDgii.SubmissionTrace EcfDgii.SubmissionFollows EcfDgii.StatusTrace
open EcfDgii.DocumentInvariants EcfDgii.Markup EcfDgii.XmlFormats EcfDgii.CanonicalXml
open EcfDgii.CanonicalLines EcfDgii.CanonicalTotals EcfDgii.CanonicalBuilder
open EcfDgii.CallerStrings EcfDgii.Elements EcfDgii.PrintedAmounts EcfDgii.Rounding

/-! ## Printed totals -/

/-- The first line of a name. -/
def lineNamed (name : String) (lines : List TotalLine) : Option TotalLine :=
  lines.find? fun line => line.name = name

theorem lineNamed_append (name : String) (first second : List TotalLine) :
    lineNamed name (first ++ second) = (lineNamed name first).or (lineNamed name second) :=
  List.find?_append

theorem lineNamed_amountIf {name own : String} (other : own ≠ name) (condition : Bool) (value : ℚ) :
    lineNamed name (amountIf condition own value) = none := by
  cases condition <;> simp [lineNamed, amountIf, TotalLine.name, other]

theorem lineNamed_amountOf {name own : String} (other : own ≠ name) (value : Option ℚ) :
    lineNamed name (amountOf own value) = none := by
  cases value <;> simp [lineNamed, amountOf, TotalLine.name, other]

theorem lineNamed_slots {name : String} {lines : Slot → List TotalLine}
    (none : ∀ slot, lineNamed name (lines slot) = none) :
    lineNamed name (slots.flatMap lines) = .none := by
  simp [slots, lineNamed_append, none]

/-- The names of the totals that are looked for, and the lines of slots. -/
theorem slot_names (slot : Slot) :
    ("MontoGravadoI" ++ slot.number ≠ "MontoTotal" ∧ "ITBIS" ++ slot.number ≠ "MontoTotal" ∧
      "TotalITBIS" ++ slot.number ≠ "MontoTotal") ∧
    ("MontoGravadoI" ++ slot.number ≠ "TotalITBIS" ∧ "ITBIS" ++ slot.number ≠ "TotalITBIS" ∧
      "TotalITBIS" ++ slot.number ≠ "TotalITBIS") := by
  cases slot <;> decide

theorem lineNamed_rates (name : String) (tramos : Tramos)
    (other : ∀ slot : Slot, "ITBIS" ++ slot.number ≠ name) :
    lineNamed name (slots.flatMap fun slot =>
      if (tramos slot).isSome then [.rate ("ITBIS" ++ slot.number) slot.rate] else []) = none := by
  refine lineNamed_slots fun slot => ?_
  split
  · simp [lineNamed, TotalLine.name, other slot]
  · rfl

theorem total_slotLines (gravado exento total : ℚ) (tramos : Tramos) (itbis : Option ℚ)
    (rest : List TotalLine) :
    lineNamed "MontoTotal" (slotLines gravado exento total tramos itbis ++ rest) =
      some (.amount "MontoTotal" total) := by
  have bases := lineNamed_slots fun slot =>
    lineNamed_amountOf (slot_names slot).1.1 (bases tramos slot)
  have rates := lineNamed_rates "MontoTotal" tramos fun slot => (slot_names slot).1.2.1
  have taxes := lineNamed_slots fun slot =>
    lineNamed_amountOf (slot_names slot).1.2.2 (taxes tramos slot)
  have taxed := fun c v => lineNamed_amountIf (by decide : "MontoGravadoTotal" ≠ "MontoTotal") c v
  have exempt := fun c v => lineNamed_amountIf (by decide : "MontoExento" ≠ "MontoTotal") c v
  have tax := fun v => lineNamed_amountOf (by decide : "TotalITBIS" ≠ "MontoTotal") v
  simp only [slotLines, lineNamed_append, bases, rates, taxes, taxed, exempt, tax, Option.none_or]
  rfl

theorem itbis_retentionLines (tipo : String) (retention : Option CanonicalRetentionDto) :
    lineNamed "TotalITBIS" (retentionLines tipo retention) = none := by
  have retained := fun c v =>
    lineNamed_amountIf (by decide : "TotalITBISRetenido" ≠ "TotalITBIS") c v
  have income := fun c v => lineNamed_amountIf (by decide : "TotalISRRetencion" ≠ "TotalITBIS") c v
  unfold retentionLines
  split
  · rfl
  · split
    · rw [retentionLines.isrLines, lineNamed_append, retained, income, Option.none_or]
    · rfl

theorem itbis_slotLines (gravado exento total : ℚ) (tramos : Tramos) (itbis : Option ℚ)
    {rest : List TotalLine} (other : lineNamed "TotalITBIS" rest = none) :
    lineNamed "TotalITBIS" (slotLines gravado exento total tramos itbis ++ rest) =
      itbis.map (.amount "TotalITBIS") := by
  have bases := lineNamed_slots fun slot =>
    lineNamed_amountOf (slot_names slot).2.1 (bases tramos slot)
  have rates := lineNamed_rates "TotalITBIS" tramos fun slot => (slot_names slot).2.2.1
  have taxes := lineNamed_slots fun slot =>
    lineNamed_amountOf (slot_names slot).2.2.2 (taxes tramos slot)
  have taxed := fun c v => lineNamed_amountIf (by decide : "MontoGravadoTotal" ≠ "TotalITBIS") c v
  have exempt := fun c v => lineNamed_amountIf (by decide : "MontoExento" ≠ "TotalITBIS") c v
  have last : lineNamed "TotalITBIS" [.amount "MontoTotal" total] = none := rfl
  simp only [slotLines, lineNamed_append, bases, rates, taxes, taxed, exempt, last, other,
    Option.none_or, Option.or_none]
  cases itbis <;> rfl

theorem total_exemptLines (total : ℚ) (rest : List TotalLine) :
    lineNamed "MontoTotal" (exemptLines total ++ rest) = some (.amount "MontoTotal" total) := by
  have exempt := fun c v => lineNamed_amountIf (by decide : "MontoExento" ≠ "MontoTotal") c v
  simp only [exemptLines, lineNamed_append, exempt, Option.none_or]
  rfl

theorem itbis_exemptLines (total : ℚ) {rest : List TotalLine}
    (other : lineNamed "TotalITBIS" rest = none) :
    lineNamed "TotalITBIS" (exemptLines total ++ rest) = none := by
  have exempt := fun c v => lineNamed_amountIf (by decide : "MontoExento" ≠ "TotalITBIS") c v
  simp only [exemptLines, lineNamed_append, exempt, other, Option.none_or, Option.or_none]
  rfl

theorem total_exportLines (total : ℚ) :
    lineNamed "MontoTotal" (exportLines total) = some (.amount "MontoTotal" total) := by
  unfold exportLines
  split <;> rfl

theorem itbis_exportLines (total : ℚ) :
    lineNamed "TotalITBIS" (exportLines total) = some (.amount "TotalITBIS" 0) ∨
      lineNamed "TotalITBIS" (exportLines total) = none := by
  unfold exportLines
  split
  · exact .inl rfl
  · exact .inr rfl

/-- The income tax of an export of services is no ITBIS. -/
theorem itbis_isrLines (retention : Option CanonicalRetentionDto) :
    lineNamed "TotalITBIS" (retention.elim [] retentionLines.isrLines) = none := by
  cases retention with
  | none => rfl
  | some retention =>
    exact lineNamed_amountIf (by decide : "TotalISRRetencion" ≠ "TotalITBIS") _ _

/-- The total that a document prints is the one its row stores. -/
theorem total_totales (dto : CanonicalDocumentDto) :
    lineNamed "MontoTotal" (totales dto).lines =
      some (.amount "MontoTotal" (totales dto).totalDop) := by
  have exempt : ∀ total, lineNamed "MontoTotal" (exemptLines total) =
      some (.amount "MontoTotal" total) := fun total => by
    have whole := total_exemptLines total []
    rwa [List.append_nil] at whole
  rw [totales]
  split
  · unfold foreignTotales
    dsimp only
    split
    · exact total_exemptLines _ _
    · split
      · exact total_exportLines _
      · exact total_slotLines _ _ _ _ _ _
  · unfold domesticTotales
    dsimp only
    split
    · exact exempt _
    · split
      · exact total_exemptLines _ _
      · split
        · exact total_exportLines _
        · exact total_slotLines _ _ _ _ _ _

/-- Slots that are not in use hold no tax. -/
theorem taxes_unused {tramos : Tramos} (unused : ∀ slot ∈ slots, tramos slot = none) :
    sumSlots (taxes tramos) = 0 := by
  have none : ∀ slot, taxes tramos slot = none := fun slot => by
    rw [taxes, unused slot (by cases slot <;> decide), Option.map_none]
  simp [sumSlots, none]

/-- So is its ITBIS, what is not printed counting as nothing. -/
theorem itbis_totales (dto : CanonicalDocumentDto) :
    lineNamed "TotalITBIS" (totales dto).lines =
        some (.amount "TotalITBIS" (totales dto).itbisDop) ∨
      lineNamed "TotalITBIS" (totales dto).lines = none ∧ (totales dto).itbisDop = 0 := by
  rw [totales]
  split
  · unfold foreignTotales
    dsimp only
    split
    · refine .inr ⟨itbis_exemptLines _ ?_, rfl⟩
      split
      · exact itbis_isrLines _
      · rfl
    · split
      · exact (itbis_exportLines _).imp id fun none => ⟨none, rfl⟩
      · rw [itbis_slotLines _ _ _ _ _ (itbis_retentionLines _ _)]
        split
        · exact .inl rfl
        · next unused =>
          refine .inr ⟨rfl, ?_⟩
          rw [taxes_unused (by simpa using unused), EcfDgii.PrintedTotals.round2_zero]
  · unfold domesticTotales
    dsimp only
    split
    · have none := itbis_exemptLines dto.totals.montoTotal (rfl : lineNamed "TotalITBIS" [] = none)
      rw [List.append_nil] at none
      exact .inr ⟨none, rfl⟩
    · split
      · exact .inr ⟨itbis_exemptLines _ (itbis_isrLines _), rfl⟩
      · split
        · exact (itbis_exportLines _).imp id fun none => ⟨none, rfl⟩
        · rw [itbis_slotLines _ _ _ _ _ (itbis_retentionLines _ _)]
          split
          · exact .inr ⟨rfl, rfl⟩
          · exact .inl rfl

/-! ## The document that is read -/

/-- The element at a path. -/
def path (root : Node) (names : List String) : Option Node := names.foldlM Node.child root

/-- The text at a path. -/
def textAt (root : Node) (names : List String) : Option (List Char) :=
  (path root names).map Node.text

/-- An amount in a column of type `numeric(18,2)`, halves away from zero. -/
def column (amount : ℚ) : ℚ := round2 amount

/-- A decimal says an amount: rounded, halves to the even centavo, and so as the
column has it, exact halves of a centavo apart. -/
structure Says (printed amount : ℚ) : Prop where
  rounded : printed = cents .even amount
  stored : Int.fract (amount * 100) ≠ 1 / 2 → printed = column amount

/-- What a reader finds in a document is what a row says of it: its number, its
issuer, its total and its ITBIS; an ITBIS that is not printed is none. -/
structure SaysSame (root : Node) (d : EcfDocument) : Prop where
  number : textAt root ["Encabezado", "IdDoc", "eNCF"] = some d.eNcf.toList
  issuer : textAt root ["Encabezado", "Emisor", "RNCEmisor"] = some d.rncEmisor.toList
  total : ∃ text, textAt root ["Encabezado", "Totales", "MontoTotal"] = some text ∧
    Says (decimalValue text) d.totalAmount
  itbis : Says ((textAt root ["Encabezado", "Totales", "TotalITBIS"]).elim 0 decimalValue)
    d.itbisAmount

theorem says_formatMoney2 (amount : ℚ) : Says (decimalValue (formatMoney2 amount).toList) amount where
  rounded := decimalValue_formatMoney2 amount
  stored off := (decimalValue_formatMoney2 amount).trans (cents_even_of_off off)

theorem says_zero : Says 0 0 where
  rounded := (OnGrid.zero.nearest (by decide)).symm
  stored _ := EcfDgii.PrintedTotals.round2_zero.symm

theorem textAt_cons (root : Node) (name : String) (names : List String) :
    textAt root (name :: names) = (root.child name).bind fun node => textAt node names := by
  rw [textAt, path, List.foldlM_cons]
  cases root.child name <;> rfl

/-- What a line of totals prints. -/
def printedText : TotalLine → String
  | .amount _ value => formatMoney2 value
  | .rate _ value => decimalInt value

/-- The nodes of some totals. -/
def totalNodes (lines : List TotalLine) : List Node :=
  lines.flatMap fun line => ownLine 6 line.name ((printedText line).toList.map Node.char)

theorem stands_totals (lines : List TotalLine) :
    Stands legal (lines.map TotalLine.line) (totalNodes lines) := by
  induction lines with
  | nil => exact .nil
  | cons line lines ih =>
    have first : Stands legal [line.line]
        (ownLine 6 line.name ((printedText line).toList.map Node.char)) := by
      cases line <;> exact stands_element 6 _ _
    exact first.append ih

/-- Among the totals a search finds the first line of a name. -/
theorem find_totalNodes (name : String) (lines : List TotalLine) (indent : ℕ) :
    ((totalNodes lines ++ (blanks indent).map Node.char).find? (Node.isNamed name)).map Node.text =
      (lineNamed name lines).map fun line => (printedText line).toList := by
  induction lines with
  | nil =>
    have none := find_skips_data (blanks indent) [] name
    rw [List.append_nil] at none
    exact congrArg (Option.map Node.text) none
  | cons line lines ih =>
    rw [totalNodes, List.flatMap_cons, List.append_assoc]
    by_cases same : line.name = name
    · subst same
      rw [find_ownLine, lineNamed, List.find?_cons_of_pos (by simp)]
      exact congrArg some (text_data _ _)
    · rw [find_ownLine_other same, lineNamed, List.find?_cons_of_neg (by simpa using same)]
      exact ih

/-- Nested lines between the tags of an element stand for nodes in one. -/
theorem exists_block {inner : List Line} (nested : Nested inner) (indent : ℕ) (name : String) :
    ∃ children, Stands legal (block indent name inner) (ownLine indent name children) :=
  ⟨_, (exists_stands legal nested).choose_spec.block indent name⟩

/-- The buyer's part is passed over by a search for the totals. -/
theorem exists_comprador (dto : CanonicalDocumentDto) :
    ∃ nodes, Stands legal (comprador dto) nodes ∧
      ∀ rest, (nodes ++ rest).find? (Node.isNamed "Totales") =
        rest.find? (Node.isNamed "Totales") := by
  unfold comprador
  split
  · refine (exists_block ?_ 4 "Comprador").elim fun children stands =>
      ⟨_, stands, fun rest => find_ownLine_other (by decide) 4 children rest⟩
    exact .append (.append (nested_compradorId dto) (.element 6 _ (by simp [isName])))
      (.ite (.element 6 _ (by simp [isName])) .nil)
  · exact ⟨[], .nil, fun rest => rfl⟩

/-- Lines whose nodes begin with some. -/
def Opens (front : List Node) (lines : List Line) : Prop :=
  ∃ more, Stands legal lines (front ++ more)

theorem Opens.append {front : List Node} {lines rest : List Line} (opens : Opens front lines)
    (nested : Nested rest) : Opens front (lines ++ rest) := by
  obtain ⟨more, stands⟩ := opens
  obtain ⟨nodes, after⟩ := exists_stands legal nested
  exact ⟨more ++ nodes, List.append_assoc .. ▸ stands.append after⟩

theorem Opens.block {front : List Node} {inner : List Line} (opens : Opens front inner)
    (indent : ℕ) (name : String) :
    ∃ more, Stands legal (block indent name inner)
      (ownLine indent name (.char '\n' :: (front ++ more))) := by
  obtain ⟨more, stands⟩ := opens
  refine ⟨more ++ (blanks indent).map .char, ?_⟩
  rw [← List.append_assoc]
  exact stands.block indent name

theorem opens_pair (indent : ℕ) (first second name name' : String) :
    Opens (ownLine indent name (first.toList.map .char) ++
        ownLine indent name' (second.toList.map .char))
      [.element indent name (.verbatim first), .element indent name' (.verbatim second)] :=
  ⟨[], (List.append_nil _).symm ▸
    (stands_element indent name (.verbatim first)).append
      (stands_element indent name' (.verbatim second))⟩

/-- The nodes of `<IdDoc>`. -/
theorem exists_idDoc (now : ℕ) (dto : CanonicalDocumentDto) (eNcf : String) :
    ∃ more, Stands legal (idDoc now dto eNcf) (ownLine 4 "IdDoc" (.char '\n' ::
      ((ownLine 6 "TipoeCF" ((tipo dto).toList.map .char) ++
        ownLine 6 "eNCF" (eNcf.toList.map .char)) ++ more))) := by
  refine Opens.block (Opens.append (Opens.append (Opens.append (Opens.append (Opens.append
    (opens_pair 6 _ _ _ _) ?_) ?_) ?_) ?_) ?_) 4 "IdDoc"
  · exact .ite (.element 6 _ (by simp [isName])) (.ite (.element 6 _ (by simp [isName])) .nil)
  · exact .ite (.element 6 _ (by simp [isName])) .nil
  · exact .ite (.element 6 _ (by simp [isName])) .nil
  · exact .element 6 _ (by simp [isName])
  · exact .ite (.element 6 _ (by simp [isName])) .nil

/-- The nodes of `<Emisor>`. -/
theorem exists_emisor (now : ℕ) (dto : CanonicalDocumentDto) (emisorRnc razonSocial : String) :
    ∃ more, Stands legal (emisor now dto emisorRnc razonSocial) (ownLine 4 "Emisor" (.char '\n' ::
      (ownLine 6 "RNCEmisor" (emisorRnc.toList.map .char) ++ more))) := by
  have first : Opens (ownLine 6 "RNCEmisor" (emisorRnc.toList.map .char))
      [.element 6 "RNCEmisor" (.verbatim emisorRnc)] :=
    ⟨[], (List.append_nil _).symm ▸ stands_element 6 "RNCEmisor" (.verbatim emisorRnc)⟩
  exact (first.append (nested_cons _ (by simp [isName]) (nested_cons _ (by simp [isName])
    (.element 6 _ (by simp [isName]))))).block 4 "Emisor"

/-- The nodes of the header, its parts one after another. -/
def headerNodes (version id issuer buyer totals other last : List Node) : List Node :=
  ownLine 4 "Version" version ++ ownLine 4 "IdDoc" id ++ ownLine 4 "Emisor" issuer ++ buyer ++
    ownLine 4 "Totales" totals ++ other ++ last

section

variable {version id issuer buyer totals other last : List Node}

theorem find_idDoc : (headerNodes version id issuer buyer totals other last).find?
    (Node.isNamed "IdDoc") = some (.element "IdDoc".toList id) := by
  simp only [headerNodes, List.append_assoc]
  rw [find_ownLine_other (by decide), find_ownLine]

theorem find_emisor : (headerNodes version id issuer buyer totals other last).find?
    (Node.isNamed "Emisor") = some (.element "Emisor".toList issuer) := by
  simp only [headerNodes, List.append_assoc]
  rw [find_ownLine_other (by decide), find_ownLine_other (by decide), find_ownLine]

theorem find_totales
    (passed : ∀ rest, (buyer ++ rest).find? (Node.isNamed "Totales") =
      rest.find? (Node.isNamed "Totales")) :
    (headerNodes version id issuer buyer totals other last).find? (Node.isNamed "Totales") =
      some (.element "Totales".toList totals) := by
  simp only [headerNodes, List.append_assoc]
  rw [find_ownLine_other (by decide), find_ownLine_other (by decide),
    find_ownLine_other (by decide), passed, find_ownLine]

end

/-- A path goes on from the element that its first step finds. -/
theorem textAt_found {own : List Char} {name : String} {nodes children : List Node}
    (found : nodes.find? (Node.isNamed name) = some (.element name.toList children))
    (names : List String) :
    textAt (.element own (.char '\n' :: nodes)) (name :: names) =
      textAt (.element name.toList children) names := by
  have child : (Node.element own (.char '\n' :: nodes)).child name =
      some (.element name.toList children) := found
  rw [textAt_cons, child, Option.bind_some]

/-- The first step into a document, to the part it begins with. -/
theorem textAt_first (own : List Char) (indent : ℕ) (name : String)
    (children second third fourth : List Node) (names : List String) :
    textAt (.element own (.char '\n' ::
        (ownLine indent name children ++ second ++ third ++ fourth ++ []))) (name :: names) =
      textAt (.element name.toList children) names := by
  refine textAt_found ?_ names
  simp only [List.append_assoc, find_ownLine]

/-- A last step that finds the text of an element. -/
theorem textAt_last (own : List Char) (nodes : List Node) (name : String) :
    textAt (.element own (.char '\n' :: nodes)) [name] =
      (nodes.find? (Node.isNamed name)).map Node.text := by
  rw [textAt_cons, Option.map_eq_bind]
  rfl

/-- A document with such a header says what a row does whose totals are its own. -/
theorem saysSame_of_header {root : Node} {d : EcfDocument} {dto : CanonicalDocumentDto}
    {version type idMore issuerMore buyer other last : List Node}
    (inside : ∀ names, textAt root ("Encabezado" :: names) =
      textAt (.element "Encabezado".toList (.char '\n' :: headerNodes version
        (.char '\n' :: (ownLine 6 "TipoeCF" type ++
          ownLine 6 "eNCF" (d.eNcf.toList.map .char) ++ idMore))
        (.char '\n' :: (ownLine 6 "RNCEmisor" (d.rncEmisor.toList.map .char) ++ issuerMore))
        buyer (.char '\n' :: (totalNodes (totales dto).lines ++ (blanks 4).map .char)) other
        last)) names)
    (passed : ∀ rest, (buyer ++ rest).find? (Node.isNamed "Totales") =
      rest.find? (Node.isNamed "Totales"))
    (total : d.totalAmount = (totales dto).totalDop)
    (itbis : d.itbisAmount = (totales dto).itbisDop) : SaysSame root d where
  number := by
    rw [inside, textAt_found find_idDoc, textAt_last, List.append_assoc,
      find_ownLine_other (by decide), find_ownLine]
    exact congrArg some (text_data _ _)
  issuer := by
    rw [inside, textAt_found find_emisor, textAt_last, find_ownLine]
    exact congrArg some (text_data _ _)
  total := by
    rw [inside, textAt_found (find_totales passed), textAt_last, find_totalNodes, total_totales,
      total]
    exact ⟨_, rfl, says_formatMoney2 _⟩
  itbis := by
    rw [inside, textAt_found (find_totales passed), textAt_last, find_totalNodes, itbis]
    obtain printed | ⟨none, zero⟩ := itbis_totales dto
    · rw [printed]
      exact says_formatMoney2 _
    · rw [none, zero]
      exact says_zero

/-- **What a document says.** A document whose verbatim strings hold no markup is
read, and says its number, its issuer and its totals. -/
theorem read_documentText (now : ℕ) (dto : CanonicalDocumentDto) {d : EcfDocument}
    (razonSocial : String)
    (plain : PlainLines (documentLines now dto d.eNcf d.rncEmisor razonSocial))
    (total : d.totalAmount = (totales dto).totalDop)
    (itbis : d.itbisAmount = (totales dto).itbisDop) :
    ∃ root, readSpaced entity (documentText now dto d.eNcf d.rncEmisor razonSocial) = some root ∧
      SaysSame root d := by
  -- the nodes of the parts of the header
  have version : Stands legal [.element 4 "Version" (.verbatim "1.0")] _ := stands_element 4 _ _
  obtain ⟨idMore, id⟩ := exists_idDoc now dto d.eNcf
  obtain ⟨issuerMore, issuer⟩ := exists_emisor now dto d.rncEmisor razonSocial
  obtain ⟨buyerNodes, buyer, passed⟩ := exists_comprador dto
  have totals := (stands_totals (totales dto).lines).block 4 "Totales"
  obtain ⟨otherNodes, other⟩ := exists_stands legal (nested_otraMoneda dto)
  have header := (((((version.append id).append issuer).append buyer).append totals).append
    other).block 2 "Encabezado"
  -- what follows the header
  obtain ⟨itemNodes, items⟩ := exists_stands legal (nested_detallesItems dto)
  obtain ⟨referenceNodes, reference⟩ :=
    exists_stands legal (nested_informacionReferencia now dto)
  have signed : Stands legal [.element 2 "FechaHoraFirma" (.verbatim (dominicanDateTime now))] _ :=
    stands_element 2 _ _
  have whole := ((header.append items).append reference).append signed
  have read : readSpaced entity (documentText now dto d.eNcf d.rncEmisor razonSocial) = some _ :=
    readSpaced_block reads_escapeXml
      (nested_documentLines now dto d.eNcf d.rncEmisor razonSocial).names plain whole rfl
  exact ⟨_, read, saysSame_of_header (textAt_first _ _ _ _ _ _ _) passed total itbis⟩

/-! ## The rows of a schedule -/

/-- A document that an operation submits, as it was accepted. -/
def Submitted (operations : ℕ → Operation) (dto : CanonicalDocumentDto) : Prop :=
  ∃ t req submitted, operations t = .submit req ∧ req.body = .document submitted ∧
    checkDocument submitted = .ok dto

/-- The content and the amounts of a document are those of a print. -/
structure Prints (now : ℕ) (dto : CanonicalDocumentDto) (razonSocial : String) (d : EcfDocument) :
    Prop where
  content : d.xmlContent = String.ofList (documentText now dto d.eNcf d.rncEmisor razonSocial)
  total : d.totalAmount = (totales dto).totalDop
  itbis : d.itbisAmount = (totales dto).itbisDop

/-- What of a document is printed: its number, its issuer, its content and its amounts. -/
def printOf (d : EcfDocument) : String × String × String × ℚ × ℚ :=
  (d.eNcf, d.rncEmisor, d.xmlContent, d.totalAmount, d.itbisAmount)

/-- A document is as one of the rows before, or printed from a submitted one. -/
def Sourced (operations : ℕ → Operation) (rows : List EcfDocumentRow) (d : EcfDocument) : Prop :=
  (∃ row ∈ rows, printOf d = printOf row.toEcfDocument) ∨
    ∃ now dto razonSocial, Submitted operations dto ∧ Prints now dto razonSocial d

section

variable {ext : Externals} {services : Services} {operations : ℕ → Operation}
  {rows : List EcfDocumentRow} {d d' : EcfDocument}

theorem Prints.same {now : ℕ} {dto : CanonicalDocumentDto} {razonSocial : String}
    (prints : Prints now dto razonSocial d) (same : printOf d' = printOf d) :
    Prints now dto razonSocial d' := by
  simp only [printOf, Prod.mk.injEq] at same
  obtain ⟨number, issuer, content, total, itbis⟩ := same
  exact ⟨by rw [content, number, issuer]; exact prints.content, total.trans prints.total,
    itbis.trans prints.itbis⟩

theorem Sourced.same (sourced : Sourced operations rows d) (same : printOf d' = printOf d) :
    Sourced operations rows d' := by
  obtain ⟨row, member, before⟩ | ⟨now, dto, razonSocial, submitted, prints⟩ := sourced
  · exact .inl ⟨row, member, same.trans before⟩
  · exact .inr ⟨now, dto, razonSocial, submitted, prints.same same⟩

/-- Content that is built is printed. -/
theorem prints_withContent (t : SubmissionTarget) (time : ℕ) (d : EcfDocument) :
    Prints time t.dto t.emisorRazonSocial (withContent (withBuilder ext) t time d) := by
  have built := build_instance time t.dto ext d.eNcf t.emisorRnc t.emisorRazonSocial
  constructor
  · exact congrArg Prod.fst built
  · exact congrArg (·.2.1) built
  · exact congrArg (·.2.2) built

/-- What a submission writes is printed from what was submitted, or as it was. -/
theorem sourced_of_submitWrite {req : SubmitRequest} {t : SubmissionTarget} {log : Log}
    {write : Write} (runs : ∃ thread, operations thread = .submit req)
    (target : resolveTarget services req = .ok t)
    (read : ∀ row, (progress log).found = some row → Sourced operations rows row.toEcfDocument)
    (last : ∀ d, (progress log).written = some d → Sourced operations rows d)
    (h : SubmitWrite (withBuilder ext) t log write) : Sourced operations rows write.doc := by
  have built : ∀ time d, Sourced operations rows (withContent (withBuilder ext) t time d) := by
    obtain ⟨thread, runs⟩ := runs
    obtain ⟨submitted, body, passed, -⟩ := resolveTarget_ok target
    exact fun time d => .inr ⟨time, t.dto, t.emisorRazonSocial,
      ⟨thread, req, submitted, runs, body, passed⟩, prints_withContent t time d⟩
  cases h with
  | create => exact built _ _
  | refresh => exact built _ _
  | reissue => exact built _ _
  | @reconcile row d answer time found fresh state only =>
    refine (read row found).same ?_
    rw [Write.doc, reconciled_only, only]
    rfl
  | signingFailed written => exact (last _ written).same rfl
  | schemaInvalid written => exact (last _ written).same rfl
  | unsigned written => exact (last _ written).same rfl
  | awaiting written => exact (last _ written).same rfl
  | outcome written _ outcome =>
    refine (last _ written).same ?_
    rw [Write.doc, outcome.only]
    rfl

/-- Being sourced is a law. -/
theorem sourced_lawful : Lawful (withBuilder ext) services (fun op => ∃ t, operations t = op)
    (fun _ _ _ => True) fun _ d => Sourced operations rows d where
  mono _ _ _ law := law
  writes op log history writes write obeys _ h := by
    cases h with
    | submit target h =>
      exact sourced_of_submitWrite obeys.kind target
        (fun row found => obeys.read row (read_of_found found))
        (fun d written => obeys.written List.prefix_rfl written) h
    | @poll _ _ row d _ _ read _ h =>
      refine (obeys.read row read).same ?_
      cases h with
      | resultado _ _ verdict =>
        rw [Write.doc, (afterResultado_some verdict).1]
        rfl
      | estado =>
        rw [Write.doc, reconciled_only]
        rfl
    | status _ read _ _ only =>
      subst only
      exact (obeys.read _ read).same rfl
    | reconcile due h =>
      refine (obeys.read _ due.read).same ?_
      rw [Write.doc, h.only]
      rfl

end

/-- **Rows say what their documents say.** On every schedule of any operations, whatever
fails or dies, a row is as one from before, or its XML is that of a document that one
of the operations submits; and unless a string of that document brought markup with it,
the XML is read back and says the number, the issuer, the total and the ITBIS of the
row. -/
theorem rows_say_their_documents (ext : Externals) (services : Services)
    (operations : ℕ → Operation) (w : World) (moves : List (Move Input)) :
    ∀ row ∈ ((engine (withBuilder ext) services operations w).play (host (withBuilder ext))
        moves).world.documents.rows,
      (∃ old ∈ w.documents.rows, printOf row.toEcfDocument = printOf old.toEcfDocument) ∨
      ∃ now dto razonSocial, Submitted operations dto ∧
        Prints now dto razonSocial row.toEcfDocument ∧
        (RawStringsHarmless dto row.eNcf row.rncEmisor →
          ∃ root, readSpaced entity row.xmlContent.toList = some root ∧
            SaysSame root row.toEcfDocument) := by
  have lawful : Lawful (withBuilder ext) services (fun op => ∃ t, operations t = op)
      (fun _ _ _ => True) fun _ d => Sourced operations w.documents.rows d := sourced_lawful
  have sound := lawful.play_always operations moves (fun t => ⟨t, rfl⟩)
    fun row member => .inl ⟨row, member, rfl⟩
  intro row member
  refine (sound.world row member).imp id ?_
  rintro ⟨now, dto, razonSocial, submitted, prints⟩
  refine ⟨now, dto, razonSocial, submitted, prints, fun harmless => ?_⟩
  obtain ⟨_, _, _, _, _, passed⟩ := submitted
  rw [prints.content, String.toList_ofList]
  exact read_documentText now dto razonSocial
    ((plain_documentLines (checkDocument_ok passed).2 now row.eNcf row.rncEmisor razonSocial).mpr
      harmless) prints.total prints.itbis

/-- An invoice that is submitted, signed and sent. -/
def incomeRun : EnginePool :=
  (engine (withBuilder sampleExternals) sampleServices
    (fun _ => .submit { body := .document plainIncome }) sampleWorld).play
    (host (withBuilder sampleExternals)) (steps 0 18 "trackId")

theorem incomeRun_rows : incomeRun.world.documents.rows.map
    (fun row => (row.eNcf, row.rncEmisor)) = [("E310000000001", "101672919")] := by
  decide +kernel

theorem rows_say_their_documents_income :
    ∃ row ∈ incomeRun.world.documents.rows,
      ∃ root, readSpaced entity row.xmlContent.toList = some root ∧
        SaysSame root row.toEcfDocument := by
  have shown : ("E310000000001", "101672919") ∈ incomeRun.world.documents.rows.map
      (fun row => (row.eNcf, row.rncEmisor)) := incomeRun_rows ▸ List.mem_cons_self
  obtain ⟨row, member, same⟩ := List.mem_map.mp shown
  obtain ⟨number, issuer⟩ := Prod.mk.inj same
  refine ⟨row, member, ?_⟩
  obtain ⟨old, before, -⟩ | ⟨now, dto, razonSocial, submitted, -, reads⟩ :=
    rows_say_their_documents sampleExternals sampleServices _ _ _ row member
  · exact absurd before List.not_mem_nil
  · obtain ⟨t, req, document, runs, body, passed⟩ := submitted
    cases runs
    cases body
    obtain rfl := Except.ok.inj (plainIncome_accepted.symm.trans passed)
    exact reads (by rw [number, issuer]; exact plainIncome_harmless)

end EcfDgii.PrintedRows
