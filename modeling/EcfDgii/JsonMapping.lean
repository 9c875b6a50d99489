import EcfDgii.DirectSending

/-!
Canonical documents as JSON (`JsonMapping.cpp`).

`toJson` writes a document and `canonicalDocumentFromJson` reads one; each lists
the fields on its own.  A field that is written is read back under the same name
and nothing else is (`read_toJson`), but the tenant and the environment, which
the reader knows, are never written: `round_trip_iff` says that the documents
without them are the ones that come back whole.
-/

set_option autoImplicit false

namespace EcfDgii.JsonMapping

open EcfDgii.Text EcfDgii.Timestamps EcfDgii.Documents EcfDgii.DgiiReplies EcfDgii.Submission
open EcfDgii.DirectSending

/-! ## Values -/

/-- `Json::Value::minInt` and `maxInt`. -/
def IsInt (n : ℤ) : Prop := -2147483648 ≤ n ∧ n ≤ 2147483647
  deriving Decidable

/-- The texts of what the library throws. -/
def outOfRange : String := "out of Int range"

def notAnObject : String := "requires objectValue or nullValue"

/-- `Json::Value::asInt`: towards zero. -/
def asInt (value : ℚ) : Except String ℤ :=
  if -2147483648 ≤ value ∧ value ≤ 2147483647 then
    .ok (if 0 ≤ value then ⌊value⌋ else ⌈value⌉)
  else .error outOfRange

/-- The member of an object. -/
def field : Json → String → Option Json
  | .object fields, key => member fields key
  | _, _ => none

/-- `operator[]`. -/
def item (j : Json) (key : String) : Json := (field j key).getD .null

/-- `isMember`. -/
def isMember (j : Json) (key : String) : Except String Bool :=
  match j with
  | .object fields => .ok (member fields key).isSome
  | .null => .ok false
  | _ => .error notAnObject

/-- A member that is a string, and one that is a number. -/
def asText : Option Json → Option String
  | some (.string s) => some s
  | _ => none

def asNumber : Option Json → Option ℚ
  | some (.number q) => some q
  | _ => none

/-- The elements of an array. -/
def asArray : Json → List Json
  | .array items => items
  | _ => []

/-- `has`. -/
def has (j : Json) (key : String) : Bool :=
  match field j key with
  | none | some .null => false
  | some _ => true

/-- `jstr`. -/
def jstr (j : Json) (key : String) (default : String) : String := (asText (field j key)).getD default

/-- `jdbl`. -/
def jdbl (j : Json) (key : String) : ℚ := (asNumber (field j key)).getD 0

/-- `jint`. -/
def jint (j : Json) (key : String) (default : ℤ) : Except String ℤ :=
  match asNumber (field j key) with
  | some value => asInt value
  | none => .ok default

/-- `optStr`. -/
def optStr (j : Json) (key : String) : Option String := asText (field j key)

/-- `optDbl`. -/
def optDbl (j : Json) (key : String) : Option ℚ := asNumber (field j key)

/-- `optInt`. -/
def optInt (j : Json) (key : String) : Except String (Option ℤ) :=
  match asNumber (field j key) with
  | some value => (asInt value).map some
  | none => .ok none

/-- The array under a key, when there is one. -/
def elements (j : Json) (key : String) : Except String (List Json) := do
  if ← isMember j key then return asArray (item j key) else return []

/-- `std::stoi`, with its exceptions swallowed. -/
def stoi (s : String) : Option ℤ := ((scanInt s.toList).map Prod.fst).filter fun n => decide (IsInt n)

/-! ## Reading -/

def readCertificate (c : Json) : CanonicalCertificateDto where
  certificateBase64 := optStr c "certificateBase64"
  password := optStr c "password"
  certificatePath := optStr c "certificatePath"

def readSourceReference (sr : Json) : SourceReferenceDto where
  provider := jstr sr "provider" "QuickBooksDesktop"
  txnId := jstr sr "txnId" ""
  editSequence := jstr sr "editSequence" ""

def readHeader (h : Json) : Except String CanonicalHeaderDto := do
  let tipoPago ← optInt h "tipoPago"
  return {
    rncEmisor := jstr h "rncEmisor" ""
    razonSocialEmisor := jstr h "razonSocialEmisor" ""
    rncComprador := jstr h "rncComprador" ""
    identificadorExtranjero := optStr h "identificadorExtranjero"
    razonSocialComprador := jstr h "razonSocialComprador" ""
    correoComprador := optStr h "correoComprador"
    fechaEmision := jstr h "fechaEmision" ""
    fechaVencimientoSecuencia := optStr h "fechaVencimientoSecuencia"
    direccionEmisor := optStr h "direccionEmisor"
    tipoPago := tipoPago
    fechaLimitePago := optStr h "fechaLimitePago"
    tipoIngresos := optStr h "tipoIngresos" }

/-- An integer, or else the one at the top of the document. -/
def orTop (own : Option ℤ) (j : Json) (key : String) : Except String (Option ℤ) :=
  match own with
  | some n => .ok (some n)
  | none => optInt j key

/-- The fields of the header that may stand at the top of the document. -/
def completeHeader (j : Json) (h : CanonicalHeaderDto) : Except String CanonicalHeaderDto := do
  let tipoPago ← orTop h.tipoPago j "tipoPago"
  return { h with
    direccionEmisor := h.direccionEmisor.or (optStr j "direccionEmisor")
    tipoPago := tipoPago
    fechaLimitePago := h.fechaLimitePago.or (optStr j "fechaLimitePago")
    tipoIngresos := h.tipoIngresos.or (optStr j "tipoIngresos") }

def readCurrency (c : Json) : CanonicalCurrencyDto where
  code := jstr c "code" "DOP"
  exchangeRate := (optDbl c "exchangeRate").getD 1

def readLine (l : Json) : Except String CanonicalLineDto := do
  let lineNumber ← jint l "lineNumber" 0
  let indicadorFacturacion ← optInt l "indicadorFacturacion"
  return {
    lineNumber := lineNumber
    itemName := jstr l "itemName" ""
    quantity := jdbl l "quantity"
    unitPrice := jdbl l "unitPrice"
    amount := jdbl l "amount"
    discountAmount := (optDbl l "discountAmount").getD 0
    indicadorFacturacion := indicadorFacturacion.or
      ((asText (field l "indicadorFacturacion")).bind stoi)
    taxRate := optDbl l "taxRate"
    taxAmount := optDbl l "taxAmount"
    montoItbisRetenido := optDbl l "montoItbisRetenido"
    montoIsrRetenido := optDbl l "montoIsrRetenido" }

def readBucket (tb : Json) : Except String CanonicalTaxBucketDto := do
  let rate ← jint tb "rate" 18
  return { rate := rate, base := jdbl tb "base", tax := jdbl tb "tax" }

def readTotals (t : Json) : Except String CanonicalTotalsDto := do
  let taxBuckets ← (← elements t "taxBuckets").mapM readBucket
  return {
    montoSubtotal := jdbl t "montoSubtotal"
    montoGravadoTotal := optDbl t "montoGravadoTotal"
    montoExento := optDbl t "montoExento"
    taxBuckets := taxBuckets
    montoItbis := jdbl t "montoItbis"
    montoTotal := jdbl t "montoTotal" }

def readReferences (r : Json) : Except String CanonicalReferencesDto := do
  let codigoModificacion ← optInt r "codigoModificacion"
  let indicadorNotaCredito ← optInt r "indicadorNotaCredito"
  return {
    correctsTxnId := jstr r "correctsTxnId" ""
    correctsENcf := jstr r "correctsENcf" ""
    codigoModificacion := codigoModificacion
    razonModificacion := optStr r "razonModificacion"
    fechaNcfModificado := optStr r "fechaNcfModificado"
    rncOtroContribuyente := optStr r "rncOtroContribuyente"
    indicadorNotaCredito := indicadorNotaCredito }

/-- `indicadorNotaCredito` may stand at the top of the document. -/
def completeReferences (j : Json) (r : CanonicalReferencesDto) :
    Except String CanonicalReferencesDto := do
  let indicadorNotaCredito ← orTop r.indicadorNotaCredito j "indicadorNotaCredito"
  return { r with indicadorNotaCredito := indicadorNotaCredito }

def readRetention (ret : Json) : Except String CanonicalRetentionDto := do
  let agente ← jint ret "indicadorAgenteRetencionoPercepcion" 1
  return {
    indicadorAgenteRetencionoPercepcion := agente
    montoItbisRetenido := jdbl ret "montoItbisRetenido"
    montoIsrRetenido := optDbl ret "montoIsrRetenido" }

/-- A part of the document, or what stands for it when it is missing. -/
def part {α : Type} (j : Json) (key : String) (missing : α) (read : Json → Except String α) :
    Except String α :=
  if has j key then read (item j key) else .ok missing

/-- Whether the currency is an object. -/
def isObject : Json → Bool
  | .object _ => true
  | _ => false

/-- `canonicalDocumentFromJson`. -/
def canonicalDocumentFromJson (j : Json) : Except String CanonicalDocumentDto := do
  let sourceReference ← part j "sourceReference" {} fun sr => .ok (readSourceReference sr)
  let ownHeader ← part j "header" {} readHeader
  let header ← completeHeader j ownHeader
  let lines ← (← elements j "lines").mapM readLine
  let totals ← part j "totals" {} readTotals
  let ownReferences ← part j "references" {} readReferences
  let references ← completeReferences j ownReferences
  let retention ← part j "retention" none fun ret => (readRetention ret).map some
  return {
    tenantId := optStr j "tenantId"
    environment := optStr j "environment"
    certificate := if has j "certificate" then some (readCertificate (item j "certificate")) else none
    ncf := optStr j "ncf"
    documentKind := jstr j "documentKind" "Invoice"
    tipoComprobante := jstr j "tipoComprobante" "E31"
    sourceReference := sourceReference
    header := header
    currency := if isObject (item j "currency") then some (readCurrency (item j "currency")) else none
    lines := lines
    totals := totals
    references := references
    retention := retention
    fechaVencimientoSecuencia := optStr j "fechaVencimientoSecuencia" }

/-! ## Writing -/

/-- A field that is written when it has a value. -/
def given {α : Type} (key : String) (write : α → Json) (value : Option α) : JsonFields :=
  (value.map fun v => (key, write v)).toList

def text (s : String) : Json := .string s

def number (q : ℚ) : Json := .number q

def int (n : ℤ) : Json := .number n

def writeSourceReference (sr : SourceReferenceDto) : Json :=
  .object [("provider", text sr.provider), ("txnId", text sr.txnId),
    ("editSequence", text sr.editSequence)]

def writeHeader (h : CanonicalHeaderDto) : Json :=
  .object (
    [("rncEmisor", text h.rncEmisor), ("razonSocialEmisor", text h.razonSocialEmisor),
      ("rncComprador", text h.rncComprador)] ++
    given "identificadorExtranjero" text h.identificadorExtranjero ++
    [("razonSocialComprador", text h.razonSocialComprador)] ++
    given "correoComprador" text h.correoComprador ++
    [("fechaEmision", text h.fechaEmision)] ++
    given "fechaVencimientoSecuencia" text h.fechaVencimientoSecuencia ++
    given "direccionEmisor" text h.direccionEmisor ++ given "tipoPago" int h.tipoPago ++
    given "fechaLimitePago" text h.fechaLimitePago ++ given "tipoIngresos" text h.tipoIngresos)

def writeCurrency (c : CanonicalCurrencyDto) : Json :=
  .object [("code", text c.code), ("exchangeRate", number c.exchangeRate)]

def writeLine (l : CanonicalLineDto) : Json :=
  .object (
    [("lineNumber", int l.lineNumber), ("itemName", text l.itemName),
      ("quantity", number l.quantity), ("unitPrice", number l.unitPrice),
      ("amount", number l.amount), ("discountAmount", number l.discountAmount)] ++
    given "indicadorFacturacion" int l.indicadorFacturacion ++
    given "taxRate" number l.taxRate ++ given "taxAmount" number l.taxAmount ++
    given "montoItbisRetenido" number l.montoItbisRetenido ++
    given "montoIsrRetenido" number l.montoIsrRetenido)

def writeBucket (b : CanonicalTaxBucketDto) : Json :=
  .object [("rate", int b.rate), ("base", number b.base), ("tax", number b.tax)]

def writeTotals (t : CanonicalTotalsDto) : Json :=
  .object (
    [("montoSubtotal", number t.montoSubtotal)] ++
    given "montoGravadoTotal" number t.montoGravadoTotal ++
    given "montoExento" number t.montoExento ++
    (if t.taxBuckets = [] then [] else [("taxBuckets", .array (t.taxBuckets.map writeBucket))]) ++
    [("montoItbis", number t.montoItbis), ("montoTotal", number t.montoTotal)])

def writeReferences (r : CanonicalReferencesDto) : Json :=
  .object (
    [("correctsTxnId", text r.correctsTxnId), ("correctsENcf", text r.correctsENcf)] ++
    given "codigoModificacion" int r.codigoModificacion ++
    given "razonModificacion" text r.razonModificacion ++
    given "fechaNcfModificado" text r.fechaNcfModificado ++
    given "rncOtroContribuyente" text r.rncOtroContribuyente ++
    given "indicadorNotaCredito" int r.indicadorNotaCredito)

def writeRetention (ret : CanonicalRetentionDto) : Json :=
  .object (
    [("indicadorAgenteRetencionoPercepcion", int ret.indicadorAgenteRetencionoPercepcion),
      ("montoItbisRetenido", number ret.montoItbisRetenido)] ++
    given "montoIsrRetenido" number ret.montoIsrRetenido)

/-- `toJson(const CanonicalDocumentDto&)`. -/
def toJson (d : CanonicalDocumentDto) : Json :=
  .object (
    given "ncf" text d.ncf ++
    [("documentKind", text d.documentKind), ("tipoComprobante", text d.tipoComprobante),
      ("sourceReference", writeSourceReference d.sourceReference),
      ("header", writeHeader d.header)] ++
    given "currency" writeCurrency d.currency ++
    [("lines", .array (d.lines.map writeLine)), ("totals", writeTotals d.totals),
      ("references", writeReferences d.references)] ++
    given "retention" writeRetention d.retention ++
    given "fechaVencimientoSecuencia" text d.fechaVencimientoSecuencia)

/-! ## Looking up what was written -/

section

variable (key k : String)

@[simp] theorem member_nil : member [] key = none := rfl

@[simp] theorem member_cons (value : Json) (rest : JsonFields) :
    member ((k, value) :: rest) key = if k = key then some value else member rest key := by
  unfold member
  by_cases same : k = key <;> simp [same]

@[simp] theorem member_append (first second : JsonFields) :
    member (first ++ second) key = (member first key).or (member second key) := by
  induction first with
  | nil => rfl
  | cons pair rest ih =>
    rw [List.cons_append, member_cons, member_cons, ih]
    split <;> rfl

@[simp] theorem member_given {α : Type} (write : α → Json) (value : Option α) :
    member (given k write value) key = if k = key then value.map write else none := by
  cases value with
  | none => simp [given]
  | some v => simp [given]

@[simp] theorem field_object (fields : JsonFields) : field (.object fields) key = member fields key :=
  rfl

end

@[simp] theorem asText_text (s : String) : asText (some (text s)) = some s := rfl

@[simp] theorem asText_map (value : Option String) : asText (value.map text) = value := by
  cases value <;> rfl

@[simp] theorem asNumber_number (q : ℚ) : asNumber (some (number q)) = some q := rfl

@[simp] theorem asNumber_map (value : Option ℚ) : asNumber (value.map number) = value := by
  cases value <;> rfl

@[simp] theorem asNumber_int (n : ℤ) : asNumber (some (int n)) = some (n : ℚ) := rfl

@[simp] theorem asNumber_mapInt (value : Option ℤ) :
    asNumber (value.map int) = value.map fun n => (n : ℚ) := by
  cases value <;> rfl

/-- An integer of 32 bits is read back. -/
theorem asInt_cast {n : ℤ} (fits : IsInt n) : asInt n = .ok n := by
  have bounds : (-2147483648 : ℚ) ≤ n ∧ (n : ℚ) ≤ 2147483647 := by
    constructor
    · exact_mod_cast fits.1
    · exact_mod_cast fits.2
  rw [asInt, if_pos bounds, Int.floor_intCast, Int.ceil_intCast, ite_self]

theorem jint_written {j : Json} {key : String} {n default : ℤ} (fits : IsInt n)
    (written : asNumber (field j key) = some (n : ℚ)) : jint j key default = .ok n := by
  rw [jint, written]
  exact asInt_cast fits

theorem optInt_written {j : Json} {key : String} {value : Option ℤ}
    (fits : ∀ n ∈ value, IsInt n)
    (written : asNumber (field j key) = value.map fun n => (n : ℚ)) :
    optInt j key = .ok value := by
  rw [optInt, written]
  cases value with
  | none => rfl
  | some n =>
    show (asInt n).map some = _
    rw [asInt_cast (fits n rfl)]
    rfl

/-! ## Part by part -/

theorem readSourceReference_write (sr : SourceReferenceDto) :
    readSourceReference (writeSourceReference sr) = sr := by
  simp [readSourceReference, writeSourceReference, jstr]

theorem readHeader_write {h : CanonicalHeaderDto} (fits : ∀ n ∈ h.tipoPago, IsInt n) :
    readHeader (writeHeader h) = .ok h := by
  have tipoPago : optInt (writeHeader h) "tipoPago" = .ok h.tipoPago := by
    apply optInt_written fits
    simp [writeHeader]
  rw [readHeader, tipoPago]
  simp [writeHeader, jstr, optStr, bind, Except.bind, pure, Except.pure]

theorem readCurrency_write (c : CanonicalCurrencyDto) : readCurrency (writeCurrency c) = c := by
  simp [readCurrency, writeCurrency, jstr, optDbl]

theorem readLine_write {l : CanonicalLineDto} (fits : IsInt l.lineNumber)
    (fits' : ∀ n ∈ l.indicadorFacturacion, IsInt n) : readLine (writeLine l) = .ok l := by
  have lineNumber : jint (writeLine l) "lineNumber" 0 = .ok l.lineNumber := by
    apply jint_written fits
    simp [writeLine]
  have indicador : optInt (writeLine l) "indicadorFacturacion" = .ok l.indicadorFacturacion := by
    apply optInt_written fits'
    simp [writeLine]
  have noText : asText (l.indicadorFacturacion.map int) = none := by
    cases l.indicadorFacturacion <;> rfl
  rw [readLine, lineNumber, indicador]
  simp [writeLine, jstr, jdbl, optDbl, noText, bind, Except.bind, pure, Except.pure]

/-- An array of items that are read back one by one. -/
theorem mapM_write {α : Type} {read : Json → Except String α} {write : α → Json} {items : List α}
    (each : ∀ x ∈ items, read (write x) = .ok x) : (items.map write).mapM read = .ok items := by
  induction items with
  | nil => rfl
  | cons x rest ih =>
    rw [List.map_cons, List.mapM_cons, each x List.mem_cons_self,
      ih fun y member => each y (List.mem_cons_of_mem x member)]
    rfl

theorem readBucket_write {b : CanonicalTaxBucketDto} (fits : IsInt b.rate) :
    readBucket (writeBucket b) = .ok b := by
  have rate : jint (writeBucket b) "rate" 18 = .ok b.rate := by
    apply jint_written fits
    simp [writeBucket]
  rw [readBucket, rate]
  simp [writeBucket, jdbl, bind, Except.bind, pure, Except.pure]

/-- No buckets are read where none are written. -/
theorem elements_totals (t : CanonicalTotalsDto) :
    elements (writeTotals t) "taxBuckets" = .ok (t.taxBuckets.map writeBucket) := by
  by_cases none : t.taxBuckets = []
  · simp [elements, isMember, writeTotals, none, bind, Except.bind, pure, Except.pure]
  · simp [elements, isMember, writeTotals, none, item, asArray, bind, Except.bind, pure,
      Except.pure]

theorem readTotals_write {t : CanonicalTotalsDto} (fits : ∀ b ∈ t.taxBuckets, IsInt b.rate) :
    readTotals (writeTotals t) = .ok t := by
  rw [readTotals, elements_totals]
  have buckets := mapM_write fun b member => readBucket_write (fits b member)
  have others (key : String) (other : "taxBuckets" ≠ key) :
      member (if t.taxBuckets = [] then []
        else [("taxBuckets", Json.array (t.taxBuckets.map writeBucket))]) key = none := by
    split
    · rfl
    · simp [other]
  simp [buckets, writeTotals, others, jdbl, optDbl, bind, Except.bind, pure, Except.pure]

theorem readReferences_write {r : CanonicalReferencesDto}
    (fits : ∀ n ∈ r.codigoModificacion, IsInt n) (fits' : ∀ n ∈ r.indicadorNotaCredito, IsInt n) :
    readReferences (writeReferences r) = .ok r := by
  have codigo : optInt (writeReferences r) "codigoModificacion" = .ok r.codigoModificacion := by
    apply optInt_written fits
    simp [writeReferences]
  have indicador : optInt (writeReferences r) "indicadorNotaCredito" =
      .ok r.indicadorNotaCredito := by
    apply optInt_written fits'
    simp [writeReferences]
  rw [readReferences, codigo, indicador]
  simp [writeReferences, jstr, optStr, bind, Except.bind, pure, Except.pure]

theorem readRetention_write {ret : CanonicalRetentionDto}
    (fits : IsInt ret.indicadorAgenteRetencionoPercepcion) :
    readRetention (writeRetention ret) = .ok ret := by
  have agente : jint (writeRetention ret) "indicadorAgenteRetencionoPercepcion" 1 =
      .ok ret.indicadorAgenteRetencionoPercepcion := by
    apply jint_written fits
    simp [writeRetention]
  rw [readRetention, agente]
  simp [writeRetention, jdbl, optDbl, bind, Except.bind, pure, Except.pure]

/-! ## The whole document -/

/-- The `int` fields of a document are integers of 32 bits. -/
structure Representable (d : CanonicalDocumentDto) : Prop where
  tipoPago : ∀ n ∈ d.header.tipoPago, IsInt n
  lineNumber : ∀ l ∈ d.lines, IsInt l.lineNumber
  indicadorFacturacion : ∀ l ∈ d.lines, ∀ n ∈ l.indicadorFacturacion, IsInt n
  rate : ∀ b ∈ d.totals.taxBuckets, IsInt b.rate
  codigoModificacion : ∀ n ∈ d.references.codigoModificacion, IsInt n
  indicadorNotaCredito : ∀ n ∈ d.references.indicadorNotaCredito, IsInt n
  agente : ∀ ret ∈ d.retention, IsInt ret.indicadorAgenteRetencionoPercepcion

/-- A value of the type of the source. -/
abbrev Document := { d : CanonicalDocumentDto // Representable d }

/-- A part that is written is read. -/
theorem part_write {α : Type} {j written : Json} {key : String} {missing value : α}
    {read : Json → Except String α} (holds : field j key = some written)
    (object : isObject written = true) (reads : read written = .ok value) :
    part j key missing read = .ok value := by
  have present : has j key = true := by
    rw [has, holds]
    cases written <;> simp_all [isObject]
  rw [part, present, if_pos rfl, item, holds]
  exact reads

/-- An integer is not looked for where there is none. -/
theorem orTop_absent {own : Option ℤ} {j : Json} {key : String}
    (absent : asNumber (field j key) = none) : orTop own j key = .ok own := by
  cases own with
  | some n => rfl
  | none => rw [orTop, optInt, absent]

theorem completeHeader_write (d : CanonicalDocumentDto) :
    completeHeader (toJson d) d.header = .ok d.header := by
  rw [completeHeader, orTop_absent (by simp [toJson, asNumber])]
  simp [toJson, optStr, asText, bind, Except.bind, pure, Except.pure]

theorem completeReferences_write (d : CanonicalDocumentDto) :
    completeReferences (toJson d) d.references = .ok d.references := by
  rw [completeReferences, orTop_absent (by simp [toJson, asNumber])]
  rfl

/-- The lines are read back. -/
theorem elements_lines (d : CanonicalDocumentDto) :
    elements (toJson d) "lines" = .ok (d.lines.map writeLine) := by
  simp [elements, isMember, toJson, item, asArray, bind, Except.bind, pure, Except.pure]

theorem part_retention {d : CanonicalDocumentDto}
    (fits : ∀ ret ∈ d.retention, IsInt ret.indicadorAgenteRetencionoPercepcion) :
    part (toJson d) "retention" none (fun ret => (readRetention ret).map some) =
      .ok d.retention := by
  cases written : d.retention with
  | none => simp [part, has, toJson, written]
  | some ret =>
    refine part_write (by simp [toJson, written]; rfl) rfl ?_
    rw [readRetention_write (fits ret written)]
    rfl

theorem currency_write (d : CanonicalDocumentDto) :
    (if isObject (item (toJson d) "currency") then
      some (readCurrency (item (toJson d) "currency")) else none) = d.currency := by
  cases written : d.currency with
  | none => simp [toJson, item, written, isObject]
  | some c =>
    have own : item (toJson d) "currency" = writeCurrency c := by simp [toJson, item, written]
    rw [own, readCurrency_write]
    rfl

section

variable (d : CanonicalDocumentDto)

theorem part_sourceReference : part (toJson d) "sourceReference" {}
    (fun sr => .ok (readSourceReference sr)) = .ok d.sourceReference := by
  have written : field (toJson d) "sourceReference" =
      some (writeSourceReference d.sourceReference) := by simp [toJson]
  refine part_write written rfl ?_
  rw [readSourceReference_write]

theorem part_header (fits : Representable d) :
    part (toJson d) "header" {} readHeader = .ok d.header :=
  part_write (by simp [toJson]) rfl (readHeader_write fits.tipoPago)

theorem part_totals (fits : Representable d) :
    part (toJson d) "totals" {} readTotals = .ok d.totals :=
  part_write (by simp [toJson]) rfl (readTotals_write fits.rate)

theorem part_references (fits : Representable d) :
    part (toJson d) "references" {} readReferences = .ok d.references :=
  part_write (by simp [toJson]) rfl
    (readReferences_write fits.codigoModificacion fits.indicadorNotaCredito)

theorem lines_write (fits : Representable d) :
    (d.lines.map writeLine).mapM readLine = .ok d.lines :=
  mapM_write fun l member =>
    readLine_write (fits.lineNumber l member) (fits.indicadorFacturacion l member)

end

/-- **What comes back.** The document without its tenant, its environment and its
certificate. -/
theorem read_toJson (d : Document) :
    canonicalDocumentFromJson (toJson d.1) =
      .ok { d.1 with tenantId := none, environment := none, certificate := none } := by
  obtain ⟨d, fits⟩ := d
  have tenant : optStr (toJson d) "tenantId" = none := by simp [optStr, toJson, asText]
  have environment : optStr (toJson d) "environment" = none := by simp [optStr, toJson, asText]
  have certificate : has (toJson d) "certificate" = false := by simp [has, toJson]
  have ncf : optStr (toJson d) "ncf" = d.ncf := by simp [optStr, toJson]
  have kind : jstr (toJson d) "documentKind" "Invoice" = d.documentKind := by simp [jstr, toJson]
  have tipo : jstr (toJson d) "tipoComprobante" "E31" = d.tipoComprobante := by simp [jstr, toJson]
  have vencimiento : optStr (toJson d) "fechaVencimientoSecuencia" =
      d.fechaVencimientoSecuencia := by simp [optStr, toJson]
  simp only [canonicalDocumentFromJson, part_sourceReference, part_header d fits,
    completeHeader_write, elements_lines, lines_write d fits, part_totals d fits,
    part_references d fits, completeReferences_write, part_retention fits.agente, currency_write,
    tenant, environment, certificate, ncf, kind, tipo, vencimiento, bind, Except.bind, pure,
    Except.pure, Bool.false_eq_true, if_false]

/-- The body of a submission, as `submit` reads it. -/
def submittedBody : Option Json → SubmittedBody
  | none => .invalid
  | some body =>
    match canonicalDocumentFromJson body with
    | .error what => .unreadable what
    | .ok dto => .document dto

/-- A document that is submitted as JSON arrives without its tenant. -/
theorem submittedBody_toJson (d : Document) :
    submittedBody (some (toJson d.1)) =
      .document { d.1 with tenantId := none, environment := none, certificate := none } := by
  rw [submittedBody, read_toJson]

/-- **The round trip.** A document without a certificate is read back as it was
exactly when it names neither a tenant nor an environment. -/
theorem round_trip_iff (d : Document) (plain : d.1.certificate = none) :
    canonicalDocumentFromJson (toJson d.1) = .ok d.1 ↔
      d.1.tenantId = none ∧ d.1.environment = none := by
  rw [read_toJson]
  constructor
  · intro same
    have whole := Except.ok.inj same
    exact ⟨(congrArg CanonicalDocumentDto.tenantId whole).symm,
      (congrArg CanonicalDocumentDto.environment whole).symm⟩
  · rintro ⟨tenant, environment⟩
    obtain ⟨d, fits⟩ := d
    cases d
    dsimp only at plain tenant environment
    subst plain tenant environment
    rfl

/-- A document of a tenant. -/
def tenantDocument : Document where
  val := { tenantId := some "acme" }
  property := by constructor <;> simp [IsInt]

/-- A line with an indicator and a rate. -/
def ratedLine : CanonicalLineDto where
  itemName := "Servicio"
  quantity := 1
  unitPrice := 100
  amount := 100
  indicadorFacturacion := some 1
  taxRate := some 18

/-- A document with optional fields of every kind. -/
def fullDocument : Document where
  val :=
    { ncf := some "B0100000001"
      header := { tipoPago := some 2, fechaLimitePago := some "15-08-2026" }
      currency := some { code := "USD", exchangeRate := 60 }
      lines := [ratedLine, {}]
      totals := { montoTotal := 118, taxBuckets := [{ base := 100, tax := 18 }, { rate := 0 }] }
      references := { codigoModificacion := some 3 }
      retention := some { montoItbisRetenido := 18 } }
  property := by constructor <;> simp [IsInt, ratedLine]

/-- It comes back whole. -/
theorem full_document_returns :
    canonicalDocumentFromJson (toJson fullDocument.1) = .ok fullDocument.1 :=
  (round_trip_iff fullDocument rfl).mpr ⟨rfl, rfl⟩

/-- The tenant is lost on the way. -/
theorem tenant_lost :
    ¬ ∀ d : Document, d.1.certificate = none →
      canonicalDocumentFromJson (toJson d.1) = .ok d.1 := by
  intro returns
  have same := returns tenantDocument rfl
  rw [read_toJson] at same
  exact absurd (congrArg CanonicalDocumentDto.tenantId (Except.ok.inj same)) (by decide)

end EcfDgii.JsonMapping
