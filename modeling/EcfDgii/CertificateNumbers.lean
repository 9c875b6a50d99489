import EcfDgii.Patterns
import EcfDgii.Text

/-!
Whom a certificate may sign for (`EcfXmlSigner::validateCertificateSn`).

A certificate of an authority is accepted for an identifier that stands in its
subject or its alternative names as a run of nine to eleven digits, and under
further conditions for a company that its holder represents.  The pattern for the
runs does not look at what surrounds them: it cuts a longer run into pieces, and
`exact_iff` says that this is the only way in which more is accepted.
-/

set_option autoImplicit false

namespace EcfDgii.CertificateNumbers

open EcfDgii.Text EcfDgii.Patterns

/-! ## The check -/

/-- What `EcfXmlSigner` keeps of its certificate. -/
structure Certificate where
  certSubject : String
  certIssuer : String
  certSan : String := ""
  usesFallbackCertificate : Bool := false
  isSelfSigned : Bool := false

/-- `(\d{9,11})`. -/
def kDigitRunRegex : Pattern := .group (between 9 11 (.char Char.isDigit))

/-- `[-:\s=]`. -/
def isSeparator (c : Char) : Bool := c ∈ ['-', ':', '='] || isspace c

/-- A tag, `[-:\s=]?(\d{n})(?!\d)`. -/
def identified (tags : List String) (n : ℕ) : Pattern :=
  .seq (oneOf tags) (.seq (optional (.char isSeparator))
    (.seq (.group (exactly n (.char Char.isDigit))) (.notAhead (.char Char.isDigit))))

def corporateTags : List String := ["VATDO", "RNC"]

def personalTags : List String := ["IDCDO", "SERIALNUMBER", "2.5.4.5", "CEDULA"]

def kCorpRncRegex : Pattern := identified corporateTags 9

def kPersonalCedulaRegex : Pattern := identified personalTags 11

/-- The certification authorities of the country. -/
def dominicanCas : List String := ["VIAFIRMA", "AVANSI", "CAMARA", "DIGIFIRMA", "INDOTEL", "OPTIC"]

def taxProcedures : List String := ["TAX PROCEDURES", "PROCEDIMIENTOS TRIBUTARIOS"]

def naturalPersons : List String := ["NATURAL PERSON", "PERSONA FISICA"]

/-- Whether a pattern finds the identifier. -/
def finds (regex : Pattern) (text : String) (cleanSn : List Char) : Bool :=
  (regex.all 0 text.toList).any fun m => m.group = cleanSn

/-- `EcfXmlSigner::validateCertificateSn`. -/
def validateCertificateSn (certificate : Certificate) (rncOCedula : String) : Bool :=
  if rncOCedula = "" then false
  else
    let cleanSn := (cleanDigits rncOCedula).toList
    if cleanSn = [] then false
    else if certificate.usesFallbackCertificate || certificate.isSelfSigned then true
    else
      let subjectUpper := toupper certificate.certSubject
      let issuerUpper := toupper certificate.certIssuer
      if finds kDigitRunRegex certificate.certSubject cleanSn then true
      else if certificate.certSan ≠ "" && finds kDigitRunRegex certificate.certSan cleanSn then true
      else
        let isTaxProcedures := taxProcedures.any (contains subjectUpper)
        let isNaturalPerson := naturalPersons.any (contains subjectUpper)
        let isDominicanCa := dominicanCas.any (contains issuerUpper)
        if (isTaxProcedures || isNaturalPerson) && isDominicanCa then
          if finds kCorpRncRegex subjectUpper cleanSn then true
          else
            let hasExplicitOtherCorporateRnc := !(kCorpRncRegex.all 0 subjectUpper.toList).isEmpty
            !hasExplicitOtherCorporateRnc && kPersonalCedulaRegex.search subjectUpper.toList
        else false

/-! ## What is to be authorised -/

/-- The identifier is a whole run of nine to eleven digits. -/
def Whole (text : String) (cleanSn : List Char) : Prop :=
  MaximalRun Char.isDigit text.toList cleanSn ∧ 9 ≤ cleanSn.length ∧ cleanSn.length ≤ 11

/-- A text with so many digits behind a tag, and perhaps a separator. -/
def Carries (tags : List String) (n : ℕ) (text : String) (digits : List Char) : Prop :=
  ∃ before tag gap after, tag ∈ tags ∧ (gap = [] ∨ ∃ c, gap = [c] ∧ isSeparator c = true) ∧
    digits.length = n ∧ (∀ c ∈ digits, c.isDigit = true) ∧
    (∀ c ∈ after.head?, c.isDigit = false) ∧
    text.toList = before ++ (tag.toList ++ (gap ++ (digits ++ after)))

/-- A subject that may act for the company of the identifier. -/
def Represents (subjectUpper : String) (cleanSn : List Char) : Prop :=
  Carries corporateTags 9 subjectUpper cleanSn ∨
    ((∃ digits, Carries personalTags 11 subjectUpper digits) ∧
      ∀ digits, ¬ Carries corporateTags 9 subjectUpper digits)

/-- **Whom a certificate of an authority authorises.** -/
def Authorised (certificate : Certificate) (cleanSn : List Char) : Prop :=
  Whole certificate.certSubject cleanSn ∨ Whole certificate.certSan cleanSn ∨
    ((∃ ca ∈ dominicanCas, contains (toupper certificate.certIssuer) ca = true) ∧
      (∃ kind ∈ taxProcedures ++ naturalPersons,
        contains (toupper certificate.certSubject) kind = true) ∧
      Represents (toupper certificate.certSubject) cleanSn)

/-- The identifier is a piece of a longer run: eleven digits, counted from its
beginning eleven at a time, or the nine or ten that are left. -/
def CutOut (text : String) (cleanSn : List Char) : Prop :=
  ∃ run, MaximalRun Char.isDigit text.toList run ∧ 12 ≤ run.length ∧ Piece 9 11 run cleanSn

/-- The certificate is accepted exactly for those it authorises. -/
def Exact (certificate : Certificate) (rncOCedula : String) : Prop :=
  validateCertificateSn certificate rncOCedula = true ↔
    Authorised certificate (cleanDigits rncOCedula).toList

/-! ## Runs of digits -/

theorem finds_digitRun (text : String) (cleanSn : List Char) :
    finds kDigitRunRegex text cleanSn = true ↔ Whole text cleanSn ∨ CutOut text cleanSn := by
  have found : finds kDigitRunRegex text cleanSn = true ↔
      ∃ run, MaximalRun Char.isDigit text.toList run ∧ Piece 9 11 run cleanSn := by
    rw [← mem_all_between (by decide) (by decide), finds, kDigitRunRegex, all_group,
      List.any_map, List.any_eq_true, List.mem_map]
    simp
  rw [found]
  constructor
  · rintro ⟨run, maximal, piece⟩
    by_cases long : 12 ≤ run.length
    · exact .inr ⟨run, maximal, long, piece⟩
    · obtain ⟨k, rfl, enough⟩ := piece
      rw [List.length_take, List.length_drop] at enough
      have first : k = 0 := by omega
      subst first
      rw [Nat.mul_zero, List.drop_zero, List.take_of_length_le (by omega)]
      exact .inl ⟨maximal, by omega, by omega⟩
  · rintro (⟨maximal, low, high⟩ | ⟨run, maximal, -, piece⟩)
    · refine ⟨cleanSn, maximal, 0, ?_, low⟩
      rw [Nat.mul_zero, List.drop_zero, List.take_of_length_le high]
    · exact ⟨run, maximal, piece⟩

/-! ## Tags -/

theorem mem_run_identified {tags : List String} {n : ℕ} {cs text group rest : List Char} :
    ⟨text, group, rest⟩ ∈ (identified tags n).run cs ↔
      ∃ tag gap, tag ∈ tags ∧ (gap = [] ∨ ∃ c, gap = [c] ∧ isSeparator c = true) ∧
        group.length = n ∧ (∀ c ∈ group, c.isDigit = true) ∧
        (∀ c ∈ rest.head?, c.isDigit = false) ∧ text = tag.toList ++ (gap ++ group) ∧
        cs = tag.toList ++ (gap ++ (group ++ rest)) := by
  simp only [identified, mem_run_seq, mem_run_oneOf, mem_run_optional, mem_run_group_exactly,
    mem_run_notAhead, Match.mk.injEq]
  constructor
  · rintro ⟨_, _, _, _, _, ⟨tag, member, rfl, rfl, rfl, -⟩, ⟨gap, _, _, _, _,
      ⟨separator, rfl, rfl⟩, ⟨_, digits, _, _, _, ⟨length, all, rfl, rfl⟩, ⟨⟨rfl, rfl, rfl⟩, stop⟩,
        rfl, rfl⟩, rfl, rfl⟩, rfl, rfl⟩
    refine ⟨tag, gap, member, separator, ?_⟩
    rw [List.nil_append, List.nil_append, List.append_nil]
    exact ⟨length, all, stop, rfl, rfl⟩
  · rintro ⟨tag, gap, member, separator, length, all, stop, rfl, rfl⟩
    exact ⟨_, _, _, _, _, ⟨tag, member, rfl, rfl, rfl, trivial⟩, ⟨gap, [], _, _, _,
      ⟨separator, rfl, rfl⟩, ⟨group, group, _, [], [], ⟨length, all, rfl, rfl⟩,
        ⟨⟨rfl, rfl, rfl⟩, stop⟩, (List.append_nil _).symm, (List.append_nil _).symm⟩, rfl,
      (List.nil_append _).symm⟩, rfl, rfl⟩

/-- A text carries an identifier where the pattern matches. -/
theorem carries_iff {tags : List String} {n : ℕ} {text : String} {digits : List Char} :
    Carries tags n text digits ↔
      ∃ t m, t <:+ text.toList ∧ m ∈ (identified tags n).run t ∧ m.group = digits := by
  constructor
  · rintro ⟨before, tag, gap, after, member, separator, length, all, stop, split⟩
    refine ⟨tag.toList ++ (gap ++ (digits ++ after)), ⟨_, digits, after⟩, ⟨before, split.symm⟩,
      mem_run_identified.mpr ⟨tag, gap, member, separator, length, all, stop, rfl, rfl⟩, rfl⟩
  · rintro ⟨t, ⟨matched, group, rest⟩, ⟨before, split⟩, found, rfl⟩
    obtain ⟨tag, gap, member, separator, length, all, stop, -, rfl⟩ := mem_run_identified.mp found
    exact ⟨before, tag, gap, rest, member, separator, length, all, stop, split.symm⟩

/-- The personal identifiers of a text. -/
theorem search_personal (text : String) :
    kPersonalCedulaRegex.search text.toList = true ↔
      ∃ digits, Carries personalTags 11 text digits := by
  rw [search_iff]
  constructor
  · rintro ⟨t, suffix, found⟩
    obtain ⟨m, first⟩ := Option.isSome_iff_exists.mp found
    exact ⟨m.group, carries_iff.mpr ⟨t, m, suffix, List.mem_of_mem_head? first, rfl⟩⟩
  · rintro ⟨digits, carries⟩
    obtain ⟨t, m, suffix, member, -⟩ := carries_iff.mp carries
    exact ⟨t, suffix, List.isSome_head?.mpr (List.ne_nil_of_mem member)⟩

/-- The characters that a corporate tag begins with. -/
def isInitial (c : Char) : Bool := c = 'V' || c = 'R'

theorem corporate_initial : ∀ tag ∈ corporateTags, ∃ c cs, tag.toList = c :: cs ∧
    isInitial c = true ∧ (∀ d ∈ cs, isInitial d = false) ∧ ∀ d ∈ c :: cs, d.isDigit = false := by
  intro tag member
  simp only [corporateTags, List.mem_cons, List.not_mem_nil, or_false] at member
  rcases member with rfl | rfl
  · exact ⟨'V', ['A', 'T', 'D', 'O'], rfl, rfl, by simp [isInitial], by simp [Char.isDigit]⟩
  · exact ⟨'R', ['N', 'C'], rfl, rfl, by simp [isInitial], by simp [Char.isDigit]⟩

theorem separator_other {gap : List Char}
    (separator : gap = [] ∨ ∃ c, gap = [c] ∧ isSeparator c = true) :
    ∀ d ∈ gap, isInitial d = false ∧ d.isDigit = false := by
  rcases separator with rfl | ⟨c, rfl, separates⟩
  · simp
  intro d member
  rw [List.mem_singleton] at member
  subst member
  simp only [isSeparator, isspace, List.mem_cons, List.not_mem_nil, or_false, Bool.or_eq_true,
    decide_eq_true_eq] at separates
  rcases separates with (rfl | rfl | rfl) | ((((rfl | rfl) | rfl) | rfl) | rfl) | rfl <;>
    exact ⟨by decide, by decide⟩

theorem digit_not_initial {c : Char} (digit : c.isDigit = true) : isInitial c = false := by
  rw [isInitial, Bool.or_eq_false_iff, decide_eq_false_iff_not, decide_eq_false_iff_not]
  constructor <;>
    · rintro rfl
      revert digit
      decide

/-- No corporate identifier begins inside another. -/
theorem corporate_apart {t : List Char} {m : Match} (first : kCorpRncRegex.first t = some m)
    (k : ℕ) (pos : 0 < k) (inside : k < m.text.length) : kCorpRncRegex.first (t.drop k) = none := by
  obtain ⟨text, group, rest⟩ := m
  obtain ⟨tag, gap, member, separator, -, all, -, rfl, rfl⟩ :=
    mem_run_identified.mp (List.mem_of_mem_head? first)
  obtain ⟨c, cs, name, -, others, -⟩ := corporate_initial tag member
  obtain ⟨j, rfl⟩ := Nat.exists_eq_add_one.mpr pos
  rw [name] at inside ⊢
  have quiet : ∀ d ∈ cs ++ (gap ++ group), isInitial d = false := by
    intro d here
    rcases List.mem_append.mp here with tagged | later
    · exact others d tagged
    rcases List.mem_append.mp later with between | digit
    · exact (separator_other separator d between).1
    · exact digit_not_initial (all d digit)
  rw [Option.eq_none_iff_forall_ne_some]
  rintro ⟨text', group', rest'⟩ second
  obtain ⟨tag', gap', member', -, -, -, -, -, split⟩ :=
    mem_run_identified.mp (List.mem_of_mem_head? second)
  obtain ⟨c', cs', name', initial, -, -⟩ := corporate_initial tag' member'
  have whole : cs ++ (gap ++ (group ++ rest)) = cs ++ (gap ++ group) ++ rest := by simp
  have bound : j < (cs ++ (gap ++ group)).length := by
    simpa using inside
  rw [List.cons_append, List.drop_succ_cons, whole, List.drop_append_of_le_length bound.le,
    List.drop_eq_getElem_cons bound, name', List.cons_append, List.cons_append] at split
  have same := (List.cons.inj split).1
  have none := quiet _ (List.getElem_mem bound)
  rw [same, initial] at none
  cases none

/-- The digits behind a corporate tag are the first digits there are. -/
theorem corporate_digits {t text group rest : List Char}
    (member : ⟨text, group, rest⟩ ∈ kCorpRncRegex.run t) :
    group = (t.dropWhile fun c => !c.isDigit).take 9 := by
  obtain ⟨tag, gap, known, separator, length, all, -, -, rfl⟩ := mem_run_identified.mp member
  obtain ⟨c, cs, name, -, -, letters⟩ := corporate_initial tag known
  have before : ∀ d ∈ tag.toList ++ gap, (!d.isDigit) = true := by
    intro d here
    rw [Bool.not_eq_true']
    rcases List.mem_append.mp here with tagged | between
    · exact letters d (name ▸ tagged)
    · exact (separator_other separator d between).2
  have stops : (group ++ rest).dropWhile (fun c => !c.isDigit) = group ++ rest := by
    cases group with
    | nil => cases length
    | cons d group =>
      rw [List.cons_append, List.dropWhile_cons, all d List.mem_cons_self]
      rfl
  rw [← List.append_assoc, List.dropWhile_append_of_pos before, stops, ← length, List.take_left]

/-- The corporate identifiers of a text. -/
theorem mem_all_corporate {text : String} {digits : List Char} :
    (∃ m ∈ kCorpRncRegex.all 0 text.toList, m.group = digits) ↔
      Carries corporateTags 9 text digits := by
  rw [carries_iff]
  constructor
  · rintro ⟨m, member, rfl⟩
    obtain ⟨t, suffix, first⟩ := first_of_mem_all member
    exact ⟨t, m, suffix, List.mem_of_mem_head? first, rfl⟩
  · rintro ⟨t, m, suffix, member, rfl⟩
    obtain ⟨first, found⟩ := Option.isSome_iff_exists.mp
      (List.isSome_head?.mpr (List.ne_nil_of_mem member))
    have nonempty : t ≠ [] := by
      rintro rfl
      cases member
    refine ⟨first, all_complete (fun _ _ => corporate_apart) found nonempty suffix, ?_⟩
    exact (corporate_digits (List.mem_of_mem_head? found)).trans (corporate_digits member).symm

/-! ## Exactness -/

/-- The rule for those who act for a company. -/
theorem represents_iff (text : String) (cleanSn : List Char) :
    (if finds kCorpRncRegex text cleanSn then true
      else !(!(kCorpRncRegex.all 0 text.toList).isEmpty) &&
        kPersonalCedulaRegex.search text.toList) = true ↔ Represents text cleanSn := by
  have own : finds kCorpRncRegex text cleanSn = true ↔ Carries corporateTags 9 text cleanSn := by
    rw [← mem_all_corporate, finds, List.any_eq_true]
    simp only [decide_eq_true_eq]
  have others : (kCorpRncRegex.all 0 text.toList).isEmpty = true ↔
      ∀ digits, ¬ Carries corporateTags 9 text digits := by
    rw [List.isEmpty_iff, List.eq_nil_iff_forall_not_mem]
    constructor
    · intro empty digits carries
      obtain ⟨m, member, -⟩ := mem_all_corporate.mpr carries
      exact empty m member
    · intro empty m member
      exact empty m.group (mem_all_corporate.mp ⟨m, member, rfl⟩)
  rw [Bool.not_not, Bool.if_true_left, Bool.or_eq_true, decide_eq_true_eq, own, Bool.and_eq_true,
    others, search_personal, Represents, and_comm]

theorem finds_san (text : String) (cleanSn : List Char) :
    (text ≠ "" && finds kDigitRunRegex text cleanSn) = true ↔
      Whole text cleanSn ∨ CutOut text cleanSn := by
  rw [← finds_digitRun, Bool.and_eq_true, decide_eq_true_eq]
  constructor
  · exact And.right
  · intro found
    refine ⟨?_, found⟩
    rintro rfl
    cases found

theorem regroup {a b c d e : Prop} : (a ∨ b) ∨ (c ∨ d) ∨ e ↔ (a ∨ c ∨ e) ∨ b ∨ d := by
  tauto

/-- What is accepted: what is to be authorised, and pieces of longer runs. -/
theorem accepted_iff {certificate : Certificate} {rncOCedula : String}
    (issued : certificate.usesFallbackCertificate = false ∧ certificate.isSelfSigned = false)
    (digits : cleanDigits rncOCedula ≠ "") :
    validateCertificateSn certificate rncOCedula = true ↔
      Authorised certificate (cleanDigits rncOCedula).toList ∨
        CutOut certificate.certSubject (cleanDigits rncOCedula).toList ∨
        CutOut certificate.certSan (cleanDigits rncOCedula).toList := by
  have given : rncOCedula ≠ "" := by
    rintro rfl
    exact digits rfl
  have some_digit : (cleanDigits rncOCedula).toList ≠ [] := by
    rw [Ne, String.toList_eq_nil_iff]
    exact digits
  rw [validateCertificateSn, if_neg given]
  dsimp only
  rw [if_neg some_digit, issued.1, issued.2, Bool.or_self, if_neg Bool.false_ne_true]
  generalize (cleanDigits rncOCedula).toList = cleanSn
  have kinds : ((taxProcedures.any (contains (toupper certificate.certSubject)) ||
        naturalPersons.any (contains (toupper certificate.certSubject))) &&
        dominicanCas.any (contains (toupper certificate.certIssuer))) = true ↔
      (∃ ca ∈ dominicanCas, contains (toupper certificate.certIssuer) ca = true) ∧
        ∃ kind ∈ taxProcedures ++ naturalPersons,
          contains (toupper certificate.certSubject) kind = true := by
    rw [← List.any_append, Bool.and_eq_true, List.any_eq_true, List.any_eq_true, and_comm]
  rw [Bool.if_true_left, Bool.or_eq_true, decide_eq_true_eq, finds_digitRun, Bool.if_true_left,
    Bool.or_eq_true, decide_eq_true_eq, finds_san, Bool.if_false_right, Bool.and_eq_true,
    decide_eq_true_eq, kinds, represents_iff, and_assoc]
  exact regroup

/-- **Exact authorisation.** A certificate of an authority is accepted exactly for
those it authorises, unless the identifier is cut out of a longer run. -/
theorem exact_iff {certificate : Certificate} {rncOCedula : String}
    (issued : certificate.usesFallbackCertificate = false ∧ certificate.isSelfSigned = false)
    (digits : cleanDigits rncOCedula ≠ "") :
    Exact certificate rncOCedula ↔
      (CutOut certificate.certSubject (cleanDigits rncOCedula).toList ∨
        CutOut certificate.certSan (cleanDigits rncOCedula).toList →
        Authorised certificate (cleanDigits rncOCedula).toList) := by
  rw [Exact, accepted_iff issued digits]
  constructor
  · intro same cut
    exact same.mp (.inr cut)
  · intro enough
    constructor
    · rintro (authorised | cut)
      · exact authorised
      · exact enough cut
    · exact .inl

/-- A text without digits, and digits behind it. -/
theorem maximalRun_last {before digits run : List Char}
    (letters : ∀ c ∈ before, c.isDigit = false) (nonempty : digits ≠ [])
    (all : ∀ c ∈ digits, c.isDigit = true) :
    MaximalRun Char.isDigit (before ++ digits) run ↔ run = digits := by
  have last := @maximalRun_append Char.isDigit digits [] run nonempty all nofun
  rw [List.append_nil, or_iff_left not_maximalRun_nil] at last
  rw [maximalRun_skip letters, last]

/-- A certificate that names one number and no authority of the country. -/
def numbered (digits : String) : Certificate where
  certSubject := "serialNumber=" ++ digits
  certIssuer := "CN=ANOTHER AUTHORITY"

theorem numbered_run {digits : String} {run : List Char} (nonempty : digits ≠ "")
    (all : ∀ c ∈ digits.toList, c.isDigit = true) :
    MaximalRun Char.isDigit (numbered digits).certSubject.toList run ↔ run = digits.toList := by
  have text : (numbered digits).certSubject.toList = "serialNumber=".toList ++ digits.toList :=
    String.toList_append
  rw [text, maximalRun_last (by simp [Char.isDigit]) (mt String.toList_eq_nil_iff.mp nonempty) all]

theorem company_exact : Exact (numbered "101999888") "1-01-99988-8" := by
  have digits : (cleanDigits "1-01-99988-8").toList = "101999888".toList := by decide +kernel
  refine (exact_iff ⟨rfl, rfl⟩ (by decide)).mpr fun _ => .inl ?_
  rw [digits]
  exact ⟨(numbered_run (by decide) (by simp [Char.isDigit])).mpr rfl, by decide, by decide⟩

/-- The first eleven of twelve digits are accepted. -/
theorem first_digits_accepted : ¬ Exact (numbered "001123456789") "00112345678" := by
  have accepted : validateCertificateSn (numbered "001123456789") "00112345678" = true := by
    decide +kernel
  have foreign : dominicanCas.any (contains (toupper "CN=ANOTHER AUTHORITY")) = false := by
    decide +kernel
  have digits : (cleanDigits "00112345678").toList = "00112345678".toList := by decide +kernel
  intro exact
  rcases exact.mp accepted with ⟨whole, -⟩ | ⟨whole, -⟩ | ⟨⟨ca, known, named⟩, -⟩
  · rw [numbered_run (by decide) (by simp [Char.isDigit]), digits] at whole
    revert whole
    decide
  · exact not_maximalRun_nil whole
  · exact List.any_eq_false.mp foreign ca known named

end EcfDgii.CertificateNumbers
