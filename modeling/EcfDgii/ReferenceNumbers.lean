import EcfDgii.DocumentFields
import EcfDgii.NormalizedDates

/-!
The number of the document that a note refers to.

An old NCF can be given with its letter or as its digits alone, and
`normalizeNcfReference` puts the letter back.  Normalising again changes nothing
(`normalizeNcfReference_idempotent`).  The table of the ten-digit numbers holds
two of the four types that the builder tells apart: `reference_iff` says that a
note for a B16 or a B17 is the same document either way, and a note for a B11 or
a B13 is not.
-/

set_option autoImplicit false

namespace EcfDgii.ReferenceNumbers

open EcfDgii.Text EcfDgii.Trimming EcfDgii.Documents EcfDgii.Markup EcfDgii.XmlFormats
open EcfDgii.CanonicalXml EcfDgii.CanonicalLines EcfDgii.CanonicalBuilder EcfDgii.NormalizedDates
open EcfDgii.DocumentFields

/-! ## Capitals -/

/-- A character is its own capital, or a small letter with a capital of its own. -/
theorem toUpper_cases (c : Char) :
    c.toUpper = c ∨ (97 ≤ c.toNat ∧ c.toNat ≤ 122 ∧ c.toUpper.toNat = c.toNat - 32) := by
  unfold Char.toUpper
  split
  · next lower =>
    obtain ⟨low, high⟩ := lower
    have low : 97 ≤ c.val.toNat := UInt32.le_iff_toNat_le.mp low
    have high : c.val.toNat ≤ 122 := UInt32.le_iff_toNat_le.mp high
    refine .inr ⟨low, high, ?_⟩
    have offset : ('A'.val - 'a'.val).toNat = 4294967264 := rfl
    simp only [Char.toNat, UInt32.toNat_add, offset]
    omega
  · exact .inl rfl

theorem toUpper_toUpper (c : Char) : c.toUpper.toUpper = c.toUpper := by
  rcases toUpper_cases c with same | ⟨low, high, capital⟩
  · rw [same, same]
  · rcases toUpper_cases c.toUpper with same | ⟨low', -, -⟩
    · exact same
    · omega

theorem toNat_of_isspace {c : Char} (blank : isspace c = true) : c.toNat ≤ 32 := by
  have cases : ((((c = ' ' ∨ c = '\t') ∨ c = '\n') ∨ c = '\x0b') ∨ c = '\x0c') ∨ c = '\r' := by
    simpa [isspace] using blank
  rcases cases with ((((rfl | rfl) | rfl) | rfl) | rfl) | rfl <;> decide

theorem isspace_toUpper (c : Char) : isspace c.toUpper = isspace c := by
  rcases toUpper_cases c with same | ⟨low, high, capital⟩
  · rw [same]
  · have plain : isspace c = false := by
      by_contra blank
      have small := toNat_of_isspace (Bool.eq_true_of_not_eq_false blank)
      omega
    have plain' : isspace c.toUpper = false := by
      by_contra blank
      have small := toNat_of_isspace (Bool.eq_true_of_not_eq_false blank)
      omega
    rw [plain, plain']

theorem toNat_of_isDigit {c : Char} (digit : c.isDigit = true) : 48 ≤ c.toNat ∧ c.toNat ≤ 57 := by
  simp only [Char.isDigit, Bool.and_eq_true, decide_eq_true_eq] at digit
  exact ⟨UInt32.le_iff_toNat_le.mp digit.1, UInt32.le_iff_toNat_le.mp digit.2⟩

theorem toUpper_digit {c : Char} (digit : c.isDigit = true) : c.toUpper = c := by
  have range := toNat_of_isDigit digit
  rcases toUpper_cases c with same | ⟨low, -, -⟩
  · exact same
  · omega

/-! ## The normal form -/

/-- A text that is trimmed and in capitals. -/
structure Normal (cs : List Char) : Prop where
  clean : Clean isspace cs
  capital : cs.map Char.toUpper = cs

theorem normal_toUpper {cs : List Char} (clean : Clean isspace cs) :
    Normal (cs.map Char.toUpper) where
  clean := clean.map isspace_toUpper
  capital := by
    rw [List.map_map]
    exact List.map_congr_left fun c _ => toUpper_toUpper c

/-- Digits, and any `B` among them. -/
theorem normal_of_digits {cs : List Char} (digits : ∀ c ∈ cs, c.isDigit = true ∨ c = 'B') :
    Normal cs := by
  constructor
  · refine clean_of_notBlank fun c member => ?_
    rcases digits c member with digit | rfl
    · exact isspace_of_digit digit
    · decide
  · have same : ∀ c ∈ cs, c.toUpper = c := by
      intro c member
      rcases digits c member with digit | rfl
      · exact toUpper_digit digit
      · decide
    exact (List.map_congr_left same).trans (List.map_id cs)

theorem Normal.toupper_trim {cs : List Char} (normal : Normal cs) :
    toupper (trim (String.ofList cs)) = String.ofList cs := by
  rw [trim_eq, String.toList_ofList, stripped_of_clean normal.clean, toupper, String.toList_ofList,
    normal.capital]

/-- Only what is left of a reference in capitals counts. -/
theorem normalizeNcfReference_congr {raw raw' : String}
    (same : toupper (trim raw) = toupper (trim raw')) :
    normalizeNcfReference raw = normalizeNcfReference raw' := by
  rw [normalizeNcfReference, normalizeNcfReference, same]

theorem normalizeNcfReference_stripped (raw : String) :
    normalizeNcfReference raw =
      normalizeNcfReference (String.ofList ((stripped isspace raw.toList).map Char.toUpper)) := by
  apply normalizeNcfReference_congr
  rw [(normal_toUpper (stripped_clean raw.toList)).toupper_trim, toupper, trim_eq,
    String.toList_ofList]

/-- A text with a letter in it is passed on. -/
theorem normalizeNcfReference_lettered {cs : List Char} (normal : Normal cs)
    (letter : cs.all Char.isDigit = false) :
    normalizeNcfReference (String.ofList cs) = String.ofList cs := by
  simp [normalizeNcfReference, normal.toupper_trim, letter, -List.all_eq_true, -List.all_eq_false]

/-- Digits get a `B` and the digits of a type, or stay as they are. -/
theorem normalizeNcfReference_digits {cs : List Char} (normal : Normal cs)
    (digits : cs.all Char.isDigit = true) :
    normalizeNcfReference (String.ofList cs) = String.ofList cs ∨
      ∃ start ∈ ["B", "B0", "B1", "B02"],
        normalizeNcfReference (String.ofList cs) = start ++ String.ofList cs := by
  simp only [normalizeNcfReference, normal.toupper_trim, digits, String.toList_ofList]
  split_ifs <;> simp

/-- **Normalising again changes nothing.** -/
theorem normalizeNcfReference_idempotent (raw : String) :
    normalizeNcfReference (normalizeNcfReference raw) = normalizeNcfReference raw := by
  rw [normalizeNcfReference_stripped raw]
  generalize capitals : (stripped isspace raw.toList).map Char.toUpper = cs
  have normal : Normal cs := capitals ▸ normal_toUpper (stripped_clean raw.toList)
  cases digits : cs.all Char.isDigit with
  | false => rw [normalizeNcfReference_lettered normal digits,
      normalizeNcfReference_lettered normal digits]
  | true =>
    rcases normalizeNcfReference_digits normal digits with same | ⟨start, known, added⟩
    · rw [same, same]
    have letters : ∀ s ∈ ["B", "B0", "B1", "B02"],
        s.toList.all Char.isDigit = false ∧ ∀ c ∈ s.toList, c.isDigit = true ∨ c = 'B' := by
      simp
    obtain ⟨letter, shape⟩ := letters start known
    have whole : start ++ String.ofList cs = String.ofList (start.toList ++ cs) := by
      rw [String.ofList_append, String.ofList_toList]
    have own : ∀ c ∈ start.toList ++ cs, c.isDigit = true ∨ c = 'B' := by
      intro c member
      rcases List.mem_append.mp member with first | rest
      · exact shape c first
      · exact .inl (List.all_eq_true.mp digits c rest)
    have lettered : (start.toList ++ cs).all Char.isDigit = false := by
      rw [List.all_append, letter, Bool.false_and]
    rw [added, whole, normalizeNcfReference_lettered (normal_of_digits own) lettered]

/-! ## Numbers with and without their letter -/

/-- The types of the B series that the builder tells apart. -/
inductive BType
  | b11
  | b13
  | b16
  | b17
  deriving DecidableEq

/-- The digits of a type. -/
def BType.digits : BType → List Char
  | .b11 => ['1', '1']
  | .b13 => ['1', '3']
  | .b16 => ['1', '6']
  | .b17 => ['1', '7']

/-- Eight digits. -/
structure Serial where
  chars : List Char
  eight : chars.length = 8
  digits : ∀ c ∈ chars, c.isDigit = true

/-- Ten digits: a number without its letter. -/
def number (type : BType) (serial : Serial) : List Char := type.digits ++ serial.chars

theorem number_digits (type : BType) (serial : Serial) :
    ∀ c ∈ number type serial, c.isDigit = true := by
  have own : ∀ c ∈ type.digits, c.isDigit = true := by
    cases type <;> simp [BType.digits]
  exact List.forall_mem_append.mpr ⟨own, serial.digits⟩

/-- A reference to a B11, B13, B16 or B17: a number, perhaps with its letter, large
or small, between blanks. -/
structure Written (type : BType) (serial : Serial) (letter : List Char) (raw : String) : Prop where
  shape : ∃ before after, Blanks isspace before ∧ Blanks isspace after ∧
    raw = String.ofList (before ++ ((letter ++ number type serial) ++ after))

variable {type : BType} {serial : Serial} {raw raw' : String}

/-- What is left of a reference in capitals. -/
theorem Written.toupper_trim {letter : List Char} (plain : letter ∈ [[], ['b'], ['B']])
    (written : Written type serial letter raw) :
    toupper (trim raw) = String.ofList (letter.map Char.toUpper ++ number type serial) := by
  obtain ⟨before, after, blanks, blanks', rfl⟩ := written.shape
  have digits := number_digits type serial
  have clear : ∀ c ∈ letter ++ number type serial, isspace c = false := by
    have own : ∀ l ∈ [[], ['b'], ['B']], ∀ c ∈ l, isspace c = false := by
      simp [isspace]
    exact List.forall_mem_append.mpr ⟨own letter plain, fun c member =>
      isspace_of_digit (digits c member)⟩
  have same : (number type serial).map Char.toUpper = number type serial :=
    (normal_of_digits fun c member => .inl (digits c member)).capital
  rw [toupper, trim_eq, String.toList_ofList, String.toList_ofList,
    stripped_surrounded blanks (clean_of_notBlank clear) blanks', List.map_append, same]

/-- With its letter, a number is passed on. -/
theorem Written.normalize_lettered {letter : List Char} (known : letter ∈ [['b'], ['B']])
    (written : Written type serial letter raw) :
    normalizeNcfReference raw = String.ofList ('B' :: number type serial) := by
  have capitals : ∀ l ∈ [['b'], ['B']], l.map Char.toUpper = ['B'] := by decide
  have capital := capitals letter known
  have own : ∀ c ∈ 'B' :: number type serial, c.isDigit = true ∨ c = 'B' :=
    List.forall_mem_cons.mpr ⟨.inr rfl, fun c member => .inl (number_digits type serial c member)⟩
  have normal := normal_of_digits own
  have trimmed := written.toupper_trim (List.mem_cons_of_mem _ known)
  rw [capital, List.singleton_append] at trimmed
  rw [normalizeNcfReference_congr (trimmed.trans normal.toupper_trim.symm)]
  exact normalizeNcfReference_lettered normal rfl

/-- Without it, two of the four types are known. -/
theorem Written.normalize_bare (written : Written type serial [] raw) :
    normalizeNcfReference raw =
      if type = .b16 ∨ type = .b17 then String.ofList ('B' :: number type serial)
      else String.ofList (number type serial) := by
  have digits := number_digits type serial
  have normal : Normal (number type serial) := normal_of_digits fun c member => .inl (digits c member)
  have trimmed := written.toupper_trim List.mem_cons_self
  rw [List.map_nil, List.nil_append] at trimmed
  have all : (number type serial).all Char.isDigit = true := List.all_eq_true.mpr digits
  have ten : (number type serial).length = 10 := by
    have two : type.digits.length = 2 := by cases type <;> rfl
    rw [number, List.length_append, two, serial.eight]
  have some : number type serial ≠ [] := List.ne_nil_of_length_pos (by omega)
  have first : (number type serial).take 2 = type.digits := by
    have two : type.digits.length = 2 := by cases type <;> rfl
    rw [number, List.take_left' two]
  rw [normalizeNcfReference_congr (trimmed.trans normal.toupper_trim.symm), normalizeNcfReference,
    normal.toupper_trim, String.toList_ofList]
  simp only [some, ne_eq, not_false_eq_true, all, ten, first, and_self, ↓reduceIte]
  have lettered : "B" ++ String.ofList (number type serial) =
      String.ofList ('B' :: number type serial) := by
    rw [← List.singleton_append, String.ofList_append]
  rw [lettered]
  cases type <;> rfl

/-! ## Notes -/

/-- A document with another reference. -/
def referring (dto : CanonicalDocumentDto) (reference : String) : CanonicalDocumentDto :=
  { dto with references := { dto.references with correctsENcf := reference } }

/-- A note that is the same document with either reference: it prints the same
`NCFModificado` and modifies the same kinds of documents. -/
structure SameNote (dto : CanonicalDocumentDto) (a b : String) : Prop where
  ncfModificado : ∀ (zone : ℤ) (now : ℕ) (eNcf emisorRnc razonSocial : String),
    fields "NCFModificado"
        (documentLinesIn zone now (referring dto a) eNcf emisorRnc razonSocial) =
      fields "NCFModificado"
        (documentLinesIn zone now (referring dto b) eNcf emisorRnc razonSocial)
  gastosMenores : modifiesGastosMenores (referring dto a) = modifiesGastosMenores (referring dto b)
  exports : modifiesExport (referring dto a) = modifiesExport (referring dto b)
  expenses : modifiesExpenseEcf (referring dto a) = modifiesExpenseEcf (referring dto b)

/-- A blank reference is normalised to none. -/
theorem normalizedRefEncf_eq (dto : CanonicalDocumentDto) :
    normalizedRefEncf dto = normalizeNcfReference dto.references.correctsENcf := by
  have again : normalizeNcfReference (trim dto.references.correctsENcf) =
      normalizeNcfReference dto.references.correctsENcf :=
    normalizeNcfReference_congr (congrArg toupper (trim_trim _))
  rw [normalizedRefEncf, rawRefEncf, ← again]
  split
  · next blank =>
    rw [blank]
    decide
  · rfl

/-- A reference to the B series does not start like an eNCF. -/
theorem Written.not_eNcf {letter : List Char} (plain : letter ∈ [[], ['b'], ['B']])
    (written : Written type serial letter raw) {eNcf : String}
    (known : eNcf ∈ ["E41", "E43", "E46", "E47"]) :
    startsWithIgnoreCase (trim raw) eNcf = false := by
  have upper := written.toupper_trim plain
  have start : ∀ e ∈ ["E41", "E43", "E46", "E47"], (toupper e).toList.head? = some 'E' := by decide
  have first : (letter.map Char.toUpper ++ number type serial).head? ≠ some 'E' := by
    have own : ∀ l ∈ [[], ['b'], ['B']],
        (l.map Char.toUpper ++ type.digits).head? ≠ some 'E' ∧
          l.map Char.toUpper ++ type.digits ≠ [] := by cases type <;> decide
    obtain ⟨other, some⟩ := own letter plain
    rwa [number, ← List.append_assoc, List.head?_append_of_ne_nil _ some]
  rw [startsWithIgnoreCase, startsWith, upper, String.toList_ofList]
  generalize letter.map Char.toUpper ++ number type serial = cs at first
  have head := start eNcf known
  cases wanted : (toupper eNcf).toList with
  | nil => simp [wanted] at head
  | cons e es =>
    cases cs with
    | nil => rfl
    | cons c cs =>
      simp only [wanted, List.head?_cons, Option.some.injEq] at head
      have other : (e == c) = false :=
        beq_eq_false_iff_ne.mpr fun same => first (by rw [List.head?_cons, ← same, head])
      rw [List.isPrefixOf_cons_cons, other, Bool.false_and]

/-- Two references to the same number, one with its letter, are the same where they
are normalised to the same. -/
theorem sameNote {letter : List Char} (known : letter ∈ [['b'], ['B']])
    (bare : Written type serial [] raw) (full : Written type serial letter raw')
    (same : normalizeNcfReference raw = normalizeNcfReference raw') (dto : CanonicalDocumentDto) :
    SameNote dto raw raw' := by
  have number : normalizedRefEncf (referring dto raw) = normalizedRefEncf (referring dto raw') := by
    rw [normalizedRefEncf_eq, normalizedRefEncf_eq]
    exact same
  have refers {eNcf : String} (listed : eNcf ∈ ["E41", "E43", "E46", "E47"]) (ncf : String) :
      refersTo (referring dto raw) eNcf ncf = refersTo (referring dto raw') eNcf ncf := by
    have left : startsWithIgnoreCase (rawRefEncf (referring dto raw)) eNcf = false :=
      bare.not_eNcf List.mem_cons_self listed
    have right : startsWithIgnoreCase (rawRefEncf (referring dto raw')) eNcf = false :=
      full.not_eNcf (List.mem_cons_of_mem _ known) listed
    rw [refersTo, refersTo, left, right, number]
  have gastosMenores : modifiesGastosMenores (referring dto raw) =
      modifiesGastosMenores (referring dto raw') := by
    rw [modifiesGastosMenores, modifiesGastosMenores, refers (by decide)]
    rfl
  refine ⟨fun zone now eNcf emisorRnc razonSocial => ?_, gastosMenores, ?_, ?_⟩
  · rw [fields_ncfModificado, fields_ncfModificado, printsReferencia, printsReferencia, number]
    rfl
  · rw [modifiesExport, modifiesExport, refers (by decide)]
    rfl
  · rw [modifiesExpenseEcf, modifiesExpenseEcf, gastosMenores, refers (by decide),
      refers (by decide)]
    rfl

/-- **References without their letter.** The number of a B16 or a B17 without its
letter is the same reference as with it, the number of a B11 or a B13 is not;
and a reference is normalised once and for all. -/
theorem reference_iff {letter : List Char} (known : letter ∈ [['b'], ['B']])
    (bare : Written type serial [] raw) (full : Written type serial letter raw') :
    ((normalizeNcfReference raw = normalizeNcfReference raw' ∧
      ∀ dto : CanonicalDocumentDto, isNota (tipo dto) = true → SameNote dto raw raw') ↔
    type = .b16 ∨ type = .b17) ∧
    ∀ reference : String, normalizeNcfReference (normalizeNcfReference reference) =
      normalizeNcfReference reference := by
  refine ⟨⟨?_, fun listed => ?_⟩, normalizeNcfReference_idempotent⟩
  · rintro ⟨same, -⟩
    rw [bare.normalize_bare, full.normalize_lettered known] at same
    by_contra other
    rw [if_neg other] at same
    have length := congrArg (fun s => s.toList.length) same
    simp at length
  · have same : normalizeNcfReference raw = normalizeNcfReference raw' := by
      rw [bare.normalize_bare, full.normalize_lettered known, if_pos listed]
    exact ⟨same, fun dto _ => sameNote known bare full same dto⟩

/-- Seven, in eight digits. -/
def seven : Serial := ⟨"00000007".toList, rfl, by simp⟩

theorem written_alone (type : BType) (serial : Serial) (letter : List Char) :
    Written type serial letter (String.ofList (letter ++ number type serial)) :=
  ⟨⟨[], [], nofun, nofun, by rw [List.nil_append, List.append_nil]⟩⟩

theorem b17_seven :
    ((normalizeNcfReference "1700000007" = normalizeNcfReference "b1700000007" ∧
      ∀ dto : CanonicalDocumentDto, isNota (tipo dto) = true →
        SameNote dto "1700000007" "b1700000007") ↔ BType.b17 = .b16 ∨ BType.b17 = .b17) ∧
    ∀ reference : String, normalizeNcfReference (normalizeNcfReference reference) =
      normalizeNcfReference reference :=
  reference_iff (by decide) (written_alone .b17 seven []) (written_alone .b17 seven ['b'])

/-- The number of a B13 keeps its ten digits. -/
theorem b13_bare :
    ¬ ∀ (type : BType) (serial : Serial) (letter : List Char) (raw raw' : String),
      letter ∈ [['b'], ['B']] → Written type serial [] raw → Written type serial letter raw' →
      normalizeNcfReference raw = normalizeNcfReference raw' := by
  intro same
  have here := same .b13 seven ['B'] "1300000007" "B1300000007" (by decide)
    (written_alone .b13 seven []) (written_alone .b13 seven ['B'])
  revert here
  decide +kernel

end EcfDgii.ReferenceNumbers
