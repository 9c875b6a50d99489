import EcfDgii.Elements
import EcfDgii.EscapedBytes
import EcfDgii.PrintedAmounts
import EcfDgii.Summaries

/-!
What the XML of a summary says.

A reader that knows balanced tags and the five predefined entities finds in the
text of `EcfXmlSerializer::serialize` the elements of the fields that are given,
in their order, whatever the strings are (`readDocument_serialize`).  A string
has lost its control characters.  An amount is clamped, rounded and cut to the 63
characters that `money` has room for.
-/

set_option autoImplicit false

namespace EcfDgii.SummaryDocuments

open EcfDgii.Text EcfDgii.Documents EcfDgii.DirectSending EcfDgii.XmlFormats EcfDgii.Markup
open EcfDgii.Elements EcfDgii.EscapedBytes EcfDgii.PrintedAmounts EcfDgii.Summaries
open EcfDgii.Timestamps EcfDgii.Rounding

/-! ## The document that is meant -/

/-- The characters `xmlEscape` leaves out. -/
def isStripped (c : Char) : Bool := (c.toNat < 0x20 && c ≠ '\t' && c ≠ '\n' && c ≠ '\r') || c.toNat = 0x7F

/-- A string without them. -/
def kept (s : String) : List Char := s.toList.filter fun c => !isStripped c

/-- What an element holds. -/
inductive Field
  | text (content : List Char)
  | amount (value : ℚ)

def Field.amount? : Field → Option ℚ
  | .text _ => none
  | .amount value => some value

/-- The text of an element, amounts being written in some way. -/
def shown (written : ℚ → List Char) : Field → List Char
  | .text content => content
  | .amount value => written value

def text (name value : String) : Outline Field := .leaf name (.text (kept value))

def number (name : String) (value : ℤ) : Outline Field :=
  .leaf name (.text (decimalInt value).toList)

def amount (name : String) (value : ℚ) : Outline Field := .leaf name (.amount value)

def textOpt (name : String) (value : Option String) : List (Outline Field) :=
  (value.map (text name)).toList

def amountOpt (name : String) (value : Option ℚ) : List (Outline Field) :=
  (value.map (amount name)).toList

/-- The items of a table, if it has any. -/
def items {α : Type} (name itemName : String) (item : α → List (Outline Field))
    (entries : List α) : List (Outline Field) :=
  if entries = [] then [] else [.group name (entries.map fun entry => .group itemName (item entry))]

section

variable (rfce : Summary)

def idDoc : Outline Field :=
  let e := rfce.content
  .group "IdDoc" ([text "TipoeCF" e.tipoeCF, text "eNCF" rfce.eNcf,
    .leaf "TipoIngresos" (.text (padded 2 (if 0 < e.tipoIngresos then e.tipoIngresos else 1).toNat)),
    number "TipoPago" e.tipoPago] ++
    items "TablaFormasPago" "FormaDePago" (fun fp =>
      [number "FormaPago" fp.formaPago, amount "MontoPago" fp.montoPago]) e.tablaFormasPago)

def emisor : Outline Field :=
  .group "Emisor" [text "RNCEmisor" rfce.rncEmisor,
    text "RazonSocialEmisor" rfce.content.razonSocialEmisor,
    text "FechaEmision" rfce.content.fechaEmision]

def comprador : Outline Field :=
  .group "Comprador" (textOpt "RNCComprador" rfce.rncComprador ++
    textOpt "IdentificadorExtranjero" rfce.content.identificadorExtranjero ++
    textOpt "RazonSocialComprador" rfce.content.razonSocialComprador)

def impuesto (ia : ImpuestoAdicionalItem) : List (Outline Field) :=
  [text "TipoImpuesto" ia.tipoImpuesto] ++
    amountOpt "MontoImpuestoSelectivoConsumoEspecifico" ia.montoImpuestoSelectivoConsumoEspecifico ++
    amountOpt "MontoImpuestoSelectivoConsumoAdvalorem" ia.montoImpuestoSelectivoConsumoAdvalorem ++
    amountOpt "OtrosImpuestosAdicionales" ia.otrosImpuestosAdicionales

def totales : Outline Field :=
  let t := rfce.content
  .group "Totales" (amountOpt "MontoGravadoTotal" t.montoGravadoTotal ++
    amountOpt "MontoGravadoI1" t.montoGravadoI1 ++ amountOpt "MontoGravadoI2" t.montoGravadoI2 ++
    amountOpt "MontoGravadoI3" t.montoGravadoI3 ++ amountOpt "MontoExento" t.montoExento ++
    amountOpt "TotalITBIS" rfce.totalITBIS ++ amountOpt "TotalITBIS1" t.totalITBIS1 ++
    amountOpt "TotalITBIS2" t.totalITBIS2 ++ amountOpt "TotalITBIS3" t.totalITBIS3 ++
    amountOpt "MontoImpuestoAdicional" t.montoImpuestoAdicional ++
    items "ImpuestosAdicionales" "ImpuestoAdicional" impuesto t.impuestosAdicionales ++
    [amount "MontoTotal" rfce.montoTotal] ++ amountOpt "MontoNoFacturable" t.montoNoFacturable ++
    amountOpt "MontoPeriodo" t.montoPeriodo)

/-- The parts of `Encabezado`. -/
def encabezado : List (Outline Field) :=
  [text "Version" rfce.content.version, idDoc rfce, emisor rfce, comprador rfce, totales rfce] ++
    textOpt "CodigoSeguridadeCF"
      (rfce.codigoSeguridadeCF.orElse fun _ => rfce.codigoSeguridadTotales)

/-- The document of a summary. -/
def outline : Outline Field := .group "RFCE" [.group "Encabezado" (encabezado rfce)]

/-- The amounts of a summary. -/
def amounts : List ℚ := (outline rfce).contents.filterMap Field.amount?

end

/-! ## Strings -/

/-- A reference to one of the predefined entities. -/
def fiveEntities (name : List Char) : Option (List Char) :=
  (predefined.lookup name).map fun c => [c]

/-- A reader of the five entities. -/
def document (xml : String) : Option Node := readDocument fiveEntities xml.toList

theorem sees_entity {name : List Char} {c : Char} (member : (name, c) ∈ predefined) :
    Sees fiveEntities ('&' :: (name ++ [';'])) [.char c] := by
  have known : ∀ pair ∈ predefined, fiveEntities pair.1 = some [pair.2] := by decide
  have inside : ∀ pair ∈ predefined, ∀ d ∈ pair.1, d ≠ ';' ∧ d ≠ '<' ∧ d ≠ '&' := by
    simp [predefined]
  exact Sees.reference (known _ member) (inside _ member)

/-- An escaped character is read as itself, unless it is left out. -/
theorem sees_xmlEscapeChar (c : Char) :
    Sees fiveEntities (xmlEscapeChar c).toList (([c].filter fun c => !isStripped c).map .char) := by
  by_cases stripped : isStripped c = true
  · have illegal : (c.toNat < 0x20 ∧ c ≠ '\t' ∧ c ≠ '\n' ∧ c ≠ '\r') ∨ c.toNat = 0x7F := by
      simpa [isStripped, and_assoc] using stripped
    rw [xmlEscapeChar, if_pos illegal, List.filter_cons_of_neg (by simp [stripped])]
    exact .nil
  · have legal : ¬ ((c.toNat < 0x20 ∧ c ≠ '\t' ∧ c ≠ '\n' ∧ c ≠ '\r') ∨ c.toNat = 0x7F) := by
      simpa [isStripped, and_assoc] using stripped
    rw [xmlEscapeChar, if_neg legal, List.filter_cons_of_pos (by simp [stripped])]
    split_ifs with amp less greater quote apostrophe
    · subst amp
      exact @sees_entity "amp".toList _ (by simp [predefined])
    · subst less
      exact @sees_entity "lt".toList _ (by simp [predefined])
    · subst greater
      exact @sees_entity "gt".toList _ (by simp [predefined])
    · subst quote
      exact @sees_entity "quot".toList _ (by simp [predefined])
    · subst apostrophe
      exact @sees_entity "apos".toList _ (by simp [predefined])
    · rw [String.toList_singleton]
      exact .char less amp greater

theorem sees_xmlEscape (value : String) :
    Sees fiveEntities (xmlEscape value).toList ((kept value).map .char) := by
  have tokens : (kept value).map Token.char =
      value.toList.flatMap fun c => ([c].filter fun c => !isStripped c).map .char := by
    rw [kept]
    induction value.toList with
    | nil => rfl
    | cons c cs ih =>
      rw [List.flatMap_cons, ← ih, ← List.map_append, ← List.filter_append, List.singleton_append]
  rw [xmlEscape, String.toList_join, List.flatMap_map, tokens]
  exact Sees.flatMap fun c _ => sees_xmlEscapeChar c

/-- Digits and signs are kept. -/
theorem kept_numerals {value : String} (numerals : value.toList.all isNumeral = true) :
    kept value = value.toList := by
  rw [kept, List.filter_eq_self]
  intro c member
  have numeral := List.all_eq_true.mp numerals c member
  have low : 0x20 ≤ c.toNat ∧ c.toNat < 0x7F := by
    simp only [isNumeral, Char.isDigit, Bool.or_eq_true, Bool.and_eq_true, decide_eq_true_eq,
      List.mem_cons, List.not_mem_nil, or_false] at numeral
    rcases numeral with ⟨low, high⟩ | rfl | rfl | rfl | rfl
    · have lower : '0'.toNat ≤ c.toNat := low
      have upper : c.toNat ≤ '9'.toNat := high
      have zero : '0'.toNat = 48 := rfl
      have nine : '9'.toNat = 57 := rfl
      omega
    · decide
    · decide
    · decide
    · decide
  have first : ¬ c.toNat < 0x20 := by omega
  have last : c.toNat ≠ 0x7F := by omega
  simp [isStripped, first, last]

theorem kept_decimalInt (n : ℤ) : kept (decimalInt n) = (decimalInt n).toList :=
  kept_numerals (numerals_decimalInt n)

theorem numerals_money (v : ℚ) : (money v).toList.all isNumeral = true := by
  have whole := numerals_fixedDigits 2 (if v < 0 then 0 else v)
  rw [money, takeFirst, formatMoney2, String.toList_ofList, String.toList_ofList]
  rw [List.all_eq_true] at whole ⊢
  exact fun c member => whole c (List.mem_of_mem_take member)

/-! ## Elements -/

/-- How `money` writes an amount. -/
def printed (v : ℚ) : List Char := (money v).toList

/-- A text in which the reader finds some elements. -/
def Gives (xml : String) (parts : List (Outline Field)) : Prop :=
  Writes (shown printed) fiveEntities xml.toList parts

theorem Gives.append {first second : String} {left right : List (Outline Field)}
    (before : Gives first left) (after : Gives second right) :
    Gives (first ++ second) (left ++ right) := by
  rw [Gives, String.toList_append]
  exact Writes.append before after

/-- An element around a text. -/
def within (tag inside : String) : String := "<" ++ tag ++ ">" ++ inside ++ "</" ++ tag ++ ">"

theorem within_toList (tag inside : String) :
    (within tag inside).toList = openTag tag ++ (inside.toList ++ closeTag tag) := by
  simp [within, openTag, closeTag]

theorem gives_leaf {tag value : String} (named : isName tag.toList = true) {field : Field}
    (shows : kept value = shown printed field) : Gives (el tag value) [.leaf tag field] := by
  have text : el tag value = within tag (xmlEscape value) := rfl
  rw [Gives, text, within_toList]
  refine Writes.leaf named ?_
  rw [← shows]
  exact sees_xmlEscape value

theorem gives_text (tag value : String) (named : isName tag.toList = true) :
    Gives (el tag value) [text tag value] := gives_leaf named rfl

theorem gives_number (tag : String) (value : ℤ) (named : isName tag.toList = true) :
    Gives (el tag (toString value)) [number tag value] := by
  have digits : toString value = decimalInt value := by
    cases value <;> rfl
  rw [digits]
  exact gives_leaf named (kept_decimalInt value)

theorem gives_amount (tag : String) (value : ℚ) (named : isName tag.toList = true) :
    Gives (el tag (money value)) [amount tag value] :=
  gives_leaf named (kept_numerals (numerals_money value))

theorem gives_textOpt (tag : String) (value : Option String) (named : isName tag.toList = true) :
    Gives (elOpt tag value) (textOpt tag value) := by
  cases value with
  | none => exact Writes.nil
  | some value => exact gives_text tag value named

theorem gives_amountOpt (tag : String) (value : Option ℚ) (named : isName tag.toList = true) :
    Gives (elMoneyOpt tag value) (amountOpt tag value) := by
  cases value with
  | none => exact Writes.nil
  | some value => exact gives_amount tag value named

theorem gives_group {tag inside : String} {parts : List (Outline Field)}
    (named : isName tag.toList = true) (gives : Gives inside parts) :
    Gives (within tag inside) [.group tag parts] := by
  rw [Gives, within_toList]
  exact Writes.group named gives

theorem gives_table {α : Type} {tag itemTag : String} (named : isName tag.toList = true)
    (itemNamed : isName itemTag.toList = true) {item : α → String}
    {parts : α → List (Outline Field)} (each : ∀ entry, Gives (item entry) (parts entry))
    (entries : List α) : Gives (table tag itemTag item entries) (items tag itemTag parts entries) := by
  unfold table items
  split
  · exact Writes.nil
  · refine gives_group named ?_
    rw [Gives, String.toList_join, List.flatMap_map, List.map_eq_flatMap]
    exact Writes.flatMap fun entry _ => gives_group itemNamed (each entry)

/-! ## The whole document -/

variable (rfce : Summary)

/-- What stands in `IdDoc`. -/
def idDocText : String :=
  let e := rfce.content
  let tipoIngresos := if 0 < e.tipoIngresos then e.tipoIngresos else 1
  el "TipoeCF" e.tipoeCF ++ el "eNCF" rfce.eNcf ++
  el "TipoIngresos" ((if tipoIngresos < 10 then "0" else "") ++ toString tipoIngresos) ++
  el "TipoPago" (toString e.tipoPago) ++
  table "TablaFormasPago" "FormaDePago" (fun fp => el "FormaPago" (toString fp.formaPago) ++
    el "MontoPago" (money fp.montoPago)) e.tablaFormasPago

/-- What stands in `Encabezado`. -/
def encabezadoText : String :=
  el "Version" rfce.content.version ++ within "IdDoc" (idDocText rfce) ++
  within "Emisor" (el "RNCEmisor" rfce.rncEmisor ++
    el "RazonSocialEmisor" rfce.content.razonSocialEmisor ++
    el "FechaEmision" rfce.content.fechaEmision) ++
  within "Comprador" (elOpt "RNCComprador" rfce.rncComprador ++
    elOpt "IdentificadorExtranjero" rfce.content.identificadorExtranjero ++
    elOpt "RazonSocialComprador" rfce.content.razonSocialComprador) ++
  serializeTotales rfce ++
  elOpt "CodigoSeguridadeCF" (rfce.codigoSeguridadeCF.orElse fun _ => rfce.codigoSeguridadTotales)

/-- The XML declaration. -/
def declaration : String := "<?xml version=\"1.0\" encoding=\"utf-8\"?>"

/-- The tags of the document match. -/
theorem serialize_eq :
    serialize rfce = declaration ++ within "RFCE" (within "Encabezado" (encabezadoText rfce)) := by
  have tags : "<?xml version=\"1.0\" encoding=\"utf-8\"?><RFCE><Encabezado>" =
        declaration ++ "<" ++ "RFCE" ++ ">" ++ "<" ++ "Encabezado" ++ ">" ∧
      "</Encabezado></RFCE>" = "</" ++ "Encabezado" ++ ">" ++ "</" ++ "RFCE" ++ ">" ∧
      "<IdDoc>" = "<" ++ "IdDoc" ++ ">" ∧ "</IdDoc>" = "</" ++ "IdDoc" ++ ">" ∧
      "<Emisor>" = "<" ++ "Emisor" ++ ">" ∧ "</Emisor>" = "</" ++ "Emisor" ++ ">" ∧
      "<Comprador>" = "<" ++ "Comprador" ++ ">" ∧ "</Comprador>" = "</" ++ "Comprador" ++ ">" := by
    decide +kernel
  obtain ⟨opening, closing, idDoc, idDoc', emisor, emisor', comprador, comprador'⟩ := tags
  delta serialize serializeHead serializeTail
  rw [opening, closing, idDoc, idDoc', emisor, emisor', comprador, comprador']
  simp only [within, encabezadoText, idDocText, String.append_assoc, -String.reduceAppend]

/-- Two digits at least. -/
theorem padded_two {n : ℤ} (pos : 0 < n) :
    ((if n < 10 then "0" else "") ++ toString n : String).toList = padded 2 n.toNat := by
  obtain ⟨m, rfl⟩ := Int.eq_ofNat_of_zero_le pos.le
  have digits : (toString (m : ℤ)).toList = Nat.toDigits 10 m := String.toList_ofList
  have one := Nat.length_toDigits_le_iff (b := 10) (n := m) (by decide) (by decide : 0 < 1)
  have few : 0 < (Nat.toDigits 10 m).length := List.length_pos_iff.mpr Nat.toDigits_ne_nil
  rw [String.toList_append, digits, Int.toNat_natCast, padded]
  by_cases small : (m : ℤ) < 10
  · have length : (Nat.toDigits 10 m).length = 1 := by omega
    rw [if_pos small, length]
    rfl
  · have length : 2 - (Nat.toDigits 10 m).length = 0 := by omega
    rw [if_neg small, length]
    rfl

theorem gives_idDoc : Gives (within "IdDoc" (idDocText rfce)) [idDoc rfce] := by
  refine gives_group (by decide) ?_
  have pos : 0 < (if 0 < rfce.content.tipoIngresos then rfce.content.tipoIngresos else 1) := by
    split <;> omega
  have tipo := padded_two pos
  have ingresos := @gives_leaf "TipoIngresos" _ (by decide) (.text _)
    ((kept_numerals (tipo ▸ numerals_padded 2 _)).trans tipo)
  have formas := @gives_table _ "TablaFormasPago" "FormaDePago" (by decide) (by decide) _ _
    (fun fp : FormaDePagoItem => (gives_number "FormaPago" fp.formaPago (by decide)).append
      (gives_amount "MontoPago" fp.montoPago (by decide))) rfce.content.tablaFormasPago
  exact ((((gives_text "TipoeCF" rfce.content.tipoeCF (by decide)).append
    (gives_text "eNCF" rfce.eNcf (by decide))).append ingresos).append
    (gives_number "TipoPago" rfce.content.tipoPago (by decide))).append formas

theorem gives_impuesto (ia : ImpuestoAdicionalItem) :
    Gives (el "TipoImpuesto" ia.tipoImpuesto ++
      elMoneyOpt "MontoImpuestoSelectivoConsumoEspecifico"
        ia.montoImpuestoSelectivoConsumoEspecifico ++
      elMoneyOpt "MontoImpuestoSelectivoConsumoAdvalorem"
        ia.montoImpuestoSelectivoConsumoAdvalorem ++
      elMoneyOpt "OtrosImpuestosAdicionales" ia.otrosImpuestosAdicionales)
      (impuesto ia) :=
  (((gives_text "TipoImpuesto" ia.tipoImpuesto (by decide)).append
    (gives_amountOpt "MontoImpuestoSelectivoConsumoEspecifico" _ (by decide))).append
    (gives_amountOpt "MontoImpuestoSelectivoConsumoAdvalorem" _ (by decide))).append
    (gives_amountOpt "OtrosImpuestosAdicionales" _ (by decide))

theorem gives_totales : Gives (serializeTotales rfce) [totales rfce] := by
  have before := ((((((((((gives_amountOpt "MontoGravadoTotal" rfce.content.montoGravadoTotal
    (by decide)).append
    (gives_amountOpt "MontoGravadoI1" rfce.content.montoGravadoI1 (by decide))).append
    (gives_amountOpt "MontoGravadoI2" rfce.content.montoGravadoI2 (by decide))).append
    (gives_amountOpt "MontoGravadoI3" rfce.content.montoGravadoI3 (by decide))).append
    (gives_amountOpt "MontoExento" rfce.content.montoExento (by decide))).append
    (gives_amountOpt "TotalITBIS" rfce.totalITBIS (by decide))).append
    (gives_amountOpt "TotalITBIS1" rfce.content.totalITBIS1 (by decide))).append
    (gives_amountOpt "TotalITBIS2" rfce.content.totalITBIS2 (by decide))).append
    (gives_amountOpt "TotalITBIS3" rfce.content.totalITBIS3 (by decide))).append
    (gives_amountOpt "MontoImpuestoAdicional" rfce.content.montoImpuestoAdicional
      (by decide))).append
    (@gives_table _ "ImpuestosAdicionales" "ImpuestoAdicional" (by decide) (by decide) _ _
      gives_impuesto rfce.content.impuestosAdicionales)
  have whole := ((before.append (gives_amount "MontoTotal" rfce.montoTotal (by decide))).append
    (gives_amountOpt "MontoNoFacturable" rfce.content.montoNoFacturable (by decide))).append
    (gives_amountOpt "MontoPeriodo" rfce.content.montoPeriodo (by decide))
  have tags : "<Totales>" = "<" ++ "Totales" ++ ">" ∧ "</Totales>" = "</" ++ "Totales" ++ ">" := by
    decide +kernel
  refine Eq.subst (motive := fun xml => Gives xml [totales rfce]) ?_
    (@gives_group "Totales" _ _ (by decide) whole)
  delta serializeTotales
  rw [tags.1, tags.2]
  simp only [within, String.append_assoc, -String.reduceAppend]

theorem gives_encabezado : Gives (encabezadoText rfce) (encabezado rfce) := by
  have emisor := @gives_group "Emisor" _ _ (by decide)
    (((gives_text "RNCEmisor" rfce.rncEmisor (by decide)).append
      (gives_text "RazonSocialEmisor" rfce.content.razonSocialEmisor (by decide))).append
      (gives_text "FechaEmision" rfce.content.fechaEmision (by decide)))
  have comprador := @gives_group "Comprador" _ _ (by decide)
    (((gives_textOpt "RNCComprador" rfce.rncComprador (by decide)).append
      (gives_textOpt "IdentificadorExtranjero" rfce.content.identificadorExtranjero
        (by decide))).append
      (gives_textOpt "RazonSocialComprador" rfce.content.razonSocialComprador (by decide)))
  exact (((((gives_text "Version" rfce.content.version (by decide)).append
    (gives_idDoc rfce)).append emisor).append comprador).append (gives_totales rfce)).append
    (gives_textOpt "CodigoSeguridadeCF" _ (by decide))

/-- **A summary is read back**, with its amounts as they are printed. -/
theorem document_serialize : document (serialize rfce) = some ((outline rfce).node (shown printed)) := by
  have writes := @gives_group "RFCE" _ _ (by decide)
    (@gives_group "Encabezado" _ _ (by decide) (gives_encabezado rfce))
  rw [document, serialize_eq, String.toList_append]
  exact readDocument_of_writes writes

/-! ## Amounts -/

/-- How many digits stand before the point. -/
def wholeDigits (r : ℚ) : ℕ := (Nat.toDigits 10 ⌊r⌋.toNat).length

/-- What the buffer leaves of an amount with two decimals: its last decimals go
first, and then its last digits. -/
def cut (r : ℚ) : ℚ :=
  if wholeDigits r ≤ 60 then r
  else if wholeDigits r = 61 then ⌊r * 10⌋ / 10
  else ⌊r / 10 ^ (wholeDigits r - 63)⌋

/-- An amount with no more digits than the buffer has room for. -/
def Fits (v : ℚ) : Prop :=
  cents .even v < 10 ^ 60 ∨ (cents .even v < 10 ^ 61 ∧ OnGrid 10 (cents .even v)) ∨
    (cents .even v < 10 ^ 63 ∧ OnGrid 1 (cents .even v))

/-- An amount that is not negative, in cents. -/
theorem printed_inCents {v : ℚ} (nonneg : 0 ≤ v) :
    ∃ s : ℕ, cents .even v = s / 100 ∧
      printed v = (Nat.toDigits 10 (s / 100) ++ '.' :: padded 2 (s % 100)).take 63 := by
  obtain ⟨s, -, text⟩ := fixedDigits_eq 2 v
  rw [if_neg (not_lt.mpr nonneg), List.nil_append] at text
  have value := decimalValue_formatMoney2 v
  rw [formatMoney2, String.toList_ofList, text, decimalValue_unsigned (digits_unsigned _ _),
    unsignedValue_fixed (by decide)] at value
  refine ⟨s, by rw [← value]; norm_num, ?_⟩
  rw [printed, money, if_neg (not_lt.mpr nonneg), takeFirst, formatMoney2, String.toList_ofList,
    String.toList_ofList, text]
  rfl

theorem floor_div (s d : ℕ) : ⌊(s : ℚ) / d⌋ = ((s / d : ℕ) : ℤ) :=
  Rat.floor_natCast_div_natCast s d

theorem floor_cents (s : ℕ) : ⌊(s : ℚ) / 100⌋ = ((s / 100 : ℕ) : ℤ) := by
  simpa using floor_div s 100

theorem wholeDigits_cents (s : ℕ) :
    wholeDigits (s / 100) = (Nat.toDigits 10 (s / 100)).length := by
  rw [wholeDigits, floor_cents, Int.toNat_natCast]

theorem wholeDigits_le_iff (s : ℕ) {k : ℕ} (pos : 0 < k) :
    wholeDigits (s / 100) ≤ k ↔ (s : ℚ) / 100 < 10 ^ k := by
  rw [wholeDigits_cents, Nat.length_toDigits_le_iff (by decide) pos, Nat.div_lt_iff_lt_mul (by decide),
    div_lt_iff₀ (by norm_num)]
  norm_cast

/-- What stands in the buffer, in cents. -/
def bufferValue (s : ℕ) : ℚ :=
  if 63 ≤ wholeDigits (s / 100) then ((s / 100 / 10 ^ (wholeDigits (s / 100) - 63) : ℕ) : ℚ)
  else ((s / 10 ^ (2 - (63 - wholeDigits (s / 100) - 1)) : ℕ) : ℚ) /
    10 ^ min (63 - wholeDigits (s / 100) - 1) 2

theorem decimalValue_buffer (s : ℕ) :
    decimalValue ((Nat.toDigits 10 (s / 100) ++ '.' :: padded 2 (s % 100)).take 63) =
      bufferValue s := by
  have fits : s % 100 < 10 ^ 2 := Nat.mod_lt _ (by decide)
  have digits : ∀ c ∈ Nat.toDigits 10 (s / 100) ++ padded 2 (s % 100), c.isDigit = true := by
    intro c member
    rcases List.mem_append.mp member with whole | fraction
    · exact Nat.isDigit_of_mem_toDigits (by decide) (by decide) whole
    · exact padded_digits fraction
  have value : Nat.ofDigitChars 10 (Nat.toDigits 10 (s / 100) ++ padded 2 (s % 100)) 0 = s := by
    rw [Nat.ofDigitChars_append, Nat.ofDigitChars_ten_toDigits,
      Nat.ofDigitChars_eq_ofDigitChars_zero, padded_value, length_padded (by decide) fits]
    exact Nat.div_add_mod _ _
  have unsigned :
      ((Nat.toDigits 10 (s / 100) ++ '.' :: padded 2 (s % 100)).take 63).head? ≠ some '-' := by
    rw [List.head?_take, if_neg (by decide)]
    exact digits_unsigned _ _
  rw [decimalValue_unsigned unsigned, unsignedValue_take digits, value,
    Nat.ofDigitChars_ten_toDigits, length_padded (by decide) fits, ← wholeDigits_cents]
  rfl

theorem floor_shift (s k : ℕ) : ⌊(s : ℚ) / 100 / 10 ^ k⌋ = ((s / 100 / 10 ^ k : ℕ) : ℤ) := by
  have cast : (s : ℚ) / 100 / 10 ^ k = (s : ℚ) / ((100 * 10 ^ k : ℕ) : ℚ) := by
    rw [div_div, Nat.cast_mul, Nat.cast_pow, Nat.cast_ofNat, Nat.cast_ofNat]
  rw [cast, floor_div, Nat.div_div_eq_div_mul]

theorem floor_tenths (s : ℕ) : ⌊(s : ℚ) / 100 * 10⌋ = ((s / 10 : ℕ) : ℤ) := by
  have cast : (s : ℚ) / 100 * 10 = (s : ℚ) / ((10 : ℕ) : ℚ) := by
    rw [Nat.cast_ofNat]
    ring
  rw [cast, floor_div]

theorem bufferValue_eq (s : ℕ) : bufferValue s = cut (s / 100) := by
  unfold bufferValue cut
  generalize wholeDigits ((s : ℚ) / 100) = digits
  by_cases all : digits ≤ 60
  · have enough : ¬ 63 ≤ digits := by omega
    have places : 2 - (63 - digits - 1) = 0 := by omega
    have width : min (63 - digits - 1) 2 = 2 := by omega
    rw [if_neg enough, if_pos all, places, width, pow_zero, Nat.div_one]
    norm_num
  by_cases one : digits = 61
  · subst one
    rw [if_neg (by decide), if_neg (by decide), if_pos rfl, floor_tenths, Int.cast_natCast]
    norm_num
  rw [if_neg all, if_neg one, floor_shift]
  by_cases none : 63 ≤ digits
  · rw [if_pos none, Int.cast_natCast]
  · obtain rfl : digits = 62 := by omega
    rw [if_neg none, Int.cast_natCast]
    norm_num

/-- **Printed amounts.** An amount that is not negative is printed rounded, and
then cut. -/
theorem decimalValue_printed {v : ℚ} (nonneg : 0 ≤ v) :
    decimalValue (printed v) = cut (cents .even v) := by
  obtain ⟨s, inCents, text⟩ := printed_inCents nonneg
  rw [text, decimalValue_buffer, bufferValue_eq, inCents]

theorem floor_eq_iff_onGrid {n : ℕ} (pos : 0 < n) (r : ℚ) : (⌊r * n⌋ : ℚ) / n = r ↔ OnGrid n r := by
  have scale : (n : ℚ) ≠ 0 := by positivity
  constructor
  · intro same
    exact ⟨_, same.symm⟩
  · rintro ⟨k, rfl⟩
    rw [div_mul_cancel₀ _ scale, Int.floor_intCast]

theorem OnGrid.tenfold {r : ℚ} (on : OnGrid 1 r) : OnGrid 10 r := by
  obtain ⟨k, rfl⟩ := on
  exact ⟨10 * k, by push_cast; ring⟩

theorem cut_nonneg {r : ℚ} (nonneg : 0 ≤ r) : 0 ≤ cut r := by
  unfold cut
  split
  · exact nonneg
  split
  · exact div_nonneg (Int.cast_nonneg (Int.floor_nonneg.mpr (by positivity))) (by norm_num)
  · exact Int.cast_nonneg (Int.floor_nonneg.mpr (by positivity))

/-- What does not fit stays large. -/
theorem cut_ge {s : ℕ} (large : (10 : ℚ) ^ 60 ≤ s / 100) : 10 ^ 60 ≤ cut (s / 100) := by
  have many : ¬ wholeDigits (s / 100) ≤ 60 := by
    rw [wholeDigits_le_iff s (by decide)]
    exact not_lt.mpr large
  rw [cut, if_neg many]
  by_cases one : wholeDigits (s / 100) = 61
  · rw [if_pos one, le_div_iff₀ (by norm_num)]
    have floor : (10 ^ 61 : ℤ) ≤ ⌊(s : ℚ) / 100 * 10⌋ := by
      rw [Int.le_floor]
      push_cast
      linarith
    have cast : ((10 ^ 61 : ℤ) : ℚ) ≤ ⌊(s : ℚ) / 100 * 10⌋ := Int.cast_le.mpr floor
    push_cast at cast
    linarith
  · rw [if_neg one]
    have leading : (10 : ℚ) ^ (wholeDigits (s / 100) - 1) ≤ s / 100 := by
      rw [← not_lt, ← wholeDigits_le_iff s (by omega)]
      omega
    have shifted : (10 : ℚ) ^ (60 + (wholeDigits (s / 100) - 63)) ≤ s / 100 :=
      (pow_le_pow_right₀ (by norm_num) (by omega)).trans leading
    have floor : (10 ^ 60 : ℤ) ≤ ⌊(s : ℚ) / 100 / 10 ^ (wholeDigits (s / 100) - 63)⌋ := by
      rw [Int.le_floor, le_div_iff₀ (by positivity), Int.cast_pow, Int.cast_ofNat, ← pow_add]
      exact shifted
    have cast : ((10 ^ 60 : ℤ) : ℚ) ≤ _ := Int.cast_le.mpr floor
    push_cast at cast
    exact cast

/-- **What the buffer has room for.** -/
theorem cut_eq_iff {v : ℚ} (nonneg : 0 ≤ v) : cut (cents .even v) = cents .even v ↔ Fits v := by
  obtain ⟨s, inCents, -⟩ := printed_inCents nonneg
  have size (k : ℕ) (pos : 0 < k) : cents .even v < 10 ^ k ↔ wholeDigits (cents .even v) ≤ k := by
    rw [inCents]
    exact (wholeDigits_le_iff s pos).symm
  have positive : 0 < wholeDigits (cents .even v) := List.length_pos_iff.mpr Nat.toDigits_ne_nil
  rw [Fits, size 60 (by decide), size 61 (by decide), size 63 (by decide), cut]
  have whole := floor_eq_iff_onGrid Nat.one_pos (cents .even v)
  have tenths := floor_eq_iff_onGrid (by decide : 0 < 10) (cents .even v)
  rw [Nat.cast_one, mul_one, div_one] at whole
  rw [Nat.cast_ofNat] at tenths
  by_cases all : wholeDigits (cents .even v) ≤ 60
  · simp only [all, if_true, true_or]
  rw [if_neg all]
  by_cases one : wholeDigits (cents .even v) = 61
  · rw [if_pos one, tenths, one]
    have later := @OnGrid.tenfold (cents .even v)
    norm_num
    exact later
  rw [if_neg one]
  by_cases few : wholeDigits (cents .even v) ≤ 63
  · have none : wholeDigits (cents .even v) - 63 = 0 := by omega
    have many : ¬ wholeDigits (cents .even v) ≤ 61 := by omega
    rw [none, pow_zero, div_one, whole]
    simp only [all, many, few, false_and, true_and, false_or]
  · have many : ¬ wholeDigits (cents .even v) ≤ 61 := by omega
    simp only [all, many, few, false_and, or_false, iff_false]
    have large : 10 ^ 60 ≤ cents .even v := not_lt.mp fun small => all ((size 60 (by decide)).mp small)
    have low : 0 < cents .even v := lt_of_lt_of_le (by norm_num) large
    obtain ⟨more, excess⟩ : ∃ more, wholeDigits (cents .even v) - 63 = more + 1 :=
      ⟨wholeDigits (cents .even v) - 64, by omega⟩
    have divided : cents .even v / 10 ^ (more + 1) < cents .even v :=
      div_lt_self low (one_lt_pow₀ (by norm_num) (Nat.succ_ne_zero more))
    rw [excess]
    exact ((Int.floor_le _).trans_lt divided).ne

/-! ## Summaries -/

/-- **A document says what the summary says**: the elements of the fields that are
given, strings without their control characters, amounts rounded to two decimals as
they are printed, halves to the even one. -/
def Faithful : Prop :=
  ∃ written : ℚ → List Char, (∀ v ∈ amounts rfce, decimalValue (written v) = cents .even v) ∧
    document (serialize rfce) = some ((outline rfce).node (shown written))

theorem amount_mem {v : ℚ} : v ∈ amounts rfce ↔ .amount v ∈ (outline rfce).contents := by
  rw [amounts, List.mem_filterMap]
  constructor
  · rintro ⟨field, member, value⟩
    cases field with
    | text content => cases value
    | amount w =>
      cases value
      exact member
  · intro member
    exact ⟨_, member, rfl⟩

theorem faithful_iff_printed :
    Faithful rfce ↔ ∀ v ∈ amounts rfce, decimalValue (printed v) = cents .even v := by
  constructor
  · rintro ⟨written, values, whole⟩ v member
    rw [document_serialize, Option.some.injEq, node_inj] at whole
    have same : printed v = written v := whole (.amount v) ((amount_mem rfce).mp member)
    rw [same, values v member]
  · intro values
    exact ⟨printed, values, document_serialize rfce⟩

variable {rfce}

/-- **Faithful summaries.** The XML of a summary without negative amounts says
what the summary says exactly when every amount fits the buffer. -/
theorem faithful_iff (nonneg : ∀ v ∈ amounts rfce, 0 ≤ v) :
    Faithful rfce ↔ ∀ v ∈ amounts rfce, Fits v := by
  rw [faithful_iff_printed]
  refine forall₂_congr fun v member => ?_
  rw [decimalValue_printed (nonneg v member), cut_eq_iff (nonneg v member)]

/-- A receipt with markup in the name of the issuer. -/
def quotedIssuer : Summary where
  eNcf := "E320000000001"
  rncEmisor := "101000000"
  rncComprador := some "</RNCComprador>"
  montoTotal := 1005 / 8
  content := {
    razonSocialEmisor := "</RazonSocialEmisor>&<\x00"
    tablaFormasPago := [{ formaPago := 1, montoPago := 1005 / 8 }] }

theorem quotedIssuer_faithful : Faithful quotedIssuer := by
  have values : amounts quotedIssuer = [1005 / 8, 1005 / 8] := rfl
  have fits : Fits (1005 / 8) := by
    refine .inl ?_
    have same : cents .even (1005 / 8) = 12562 / 100 := by decide +kernel
    rw [same]
    norm_num
  refine (faithful_iff ?_).mpr ?_
  · rw [values]
    norm_num
  · rw [values]
    simp [fits]

/-- A payment of 64 digits. -/
def hugePayment : Summary where
  eNcf := "E320000000001"
  rncEmisor := "101000000"
  content := { tablaFormasPago := [{ formaPago := 1, montoPago := 2 ^ 210 }] }

/-- Of 64 digits the first 63 are printed. -/
theorem huge_payment_cut : ¬ Faithful hugePayment := by
  have member : (2 ^ 210 : ℚ) ∈ amounts hugePayment := List.mem_cons_self
  have nonneg : (0 : ℚ) ≤ 2 ^ 210 := by positivity
  have same : cents .even (2 ^ 210) = 2 ^ 210 :=
    OnGrid.nearest (by decide) ⟨2 ^ 210 * 100, by norm_num⟩
  intro faithful
  have value := (faithful_iff_printed hugePayment).mp faithful _ member
  rw [decimalValue_printed nonneg, cut_eq_iff nonneg, Fits, same] at value
  norm_num at value

end EcfDgii.SummaryDocuments
