import EcfDgii.XmlFormats

/-!
The dates of a document after `normalizeFechaDgii`.

A date that a caller gives in any of the known layouts, with blanks around it,
is printed day first with dashes (`normalizeFechaDgii_layout`), and what the
function returns it returns again when it is given it (`normalizeFechaDgii_stable`).
The exception is a string of blanks only: it is normalised to the empty string,
and the empty string stands for today.
-/

set_option autoImplicit false

namespace EcfDgii.NormalizedDates

open EcfDgii.Text EcfDgii.Calendar EcfDgii.Timestamps EcfDgii.Trimming EcfDgii.XmlFormats

/-! ## Layouts -/

/-- The layouts of a date: `dd-MM-yyyy`, `yyyy-MM-dd`, `yyyy/MM/dd`, `dd/MM/yyyy` and
`yyyyMMdd`. -/
inductive Layout
  | dashes
  | iso
  | isoSlashes
  | slashes
  | compact

/-- A date in a layout. -/
def Layout.text (layout : Layout) (date : CivilDate) : List Char :=
  let day := padded 2 date.day
  let month := padded 2 date.month
  let year := padded 4 date.year
  match layout with
  | .dashes => day ++ '-' :: (month ++ '-' :: year)
  | .iso => year ++ '-' :: (month ++ '-' :: day)
  | .isoSlashes => year ++ '/' :: (month ++ '/' :: day)
  | .slashes => day ++ '/' :: (month ++ '/' :: year)
  | .compact => year ++ (month ++ day)

/-- A date whose fields have the digits that the layouts give them. -/
structure Fits (date : CivilDate) : Prop where
  day : date.day < 100
  month : date.month < 100
  year : date.year < 10000

theorem padded_two {n : ℕ} (fits : n < 100) :
    ∃ a b, padded 2 n = [a, b] ∧ a.isDigit = true ∧ b.isDigit = true := by
  obtain ⟨a, b, digits⟩ := List.length_eq_two.mp (length_padded (by decide : 0 < 2) fits)
  have digit : ∀ c ∈ padded 2 n, c.isDigit = true := fun c member => padded_digits member
  rw [digits] at digit
  exact ⟨a, b, digits, digit a (by simp), digit b (by simp)⟩

theorem padded_four {n : ℕ} (fits : n < 10000) :
    ∃ a b c d, padded 4 n = [a, b, c, d] ∧ a.isDigit = true ∧ b.isDigit = true ∧
      c.isDigit = true ∧ d.isDigit = true := by
  have four := length_padded (by decide : 0 < 4) fits
  have digit : ∀ c ∈ padded 4 n, c.isDigit = true := fun c member => padded_digits member
  match digits : padded 4 n with
  | [a, b, c, d] =>
    rw [digits] at digit
    exact ⟨a, b, c, d, rfl, digit a (by simp), digit b (by simp), digit c (by simp),
      digit d (by simp)⟩
  | [] | [_] | [_, _] | [_, _, _] | _ :: _ :: _ :: _ :: _ :: _ => simp [digits] at four

/-- Every layout is known, and printed day first with dashes. -/
theorem knownFecha_layout {date : CivilDate} (fits : Fits date) (layout : Layout) :
    knownFecha (layout.text date) = some (Layout.dashes.text date) := by
  obtain ⟨d, d', day, digit, digit'⟩ := padded_two fits.day
  obtain ⟨m, m', month, digit₁, digit₁'⟩ := padded_two fits.month
  obtain ⟨y, y', y₂, y₃, year, digit₂, digit₃, digit₄, digit₅⟩ := padded_four fits.year
  have dash : ('-').isDigit = false := by decide
  have slash : ('/').isDigit = false := by decide
  cases layout <;>
    simp [Layout.text, knownFecha, isDash, day, month, year, digit, digit', digit₁, digit₁', digit₂,
      digit₃, digit₄, digit₅, dash, slash]

/-! ## What is known stays as it is -/

theorem isspace_of_digit {c : Char} (digit : c.isDigit = true) : isspace c = false := by
  refine Bool.eq_false_iff.mpr fun blank => ?_
  have cases : ((((c = ' ' ∨ c = '\t') ∨ c = '\n') ∨ c = '\x0b') ∨ c = '\x0c') ∨ c = '\r' := by
    simpa [isspace] using blank
  rcases cases with ((((rfl | rfl) | rfl) | rfl) | rfl) | rfl <;> revert digit <;> decide

/-- A date in a known format becomes one that is passed on, without blanks. -/
theorem knownFecha_stable {cs ds : List Char} (known : knownFecha cs = some ds) :
    knownFecha ds = some ds ∧ Clean isspace ds := by
  have dash : isspace '-' = false := by decide
  unfold knownFecha at known
  split at known
  · split_ifs at known with dmy ymd slashes
    · cases known
      obtain ⟨digits, rfl, rfl⟩ := dmy
      simp only [List.all_cons, List.all_nil, Bool.and_eq_true, Bool.and_true] at digits
      refine ⟨by simp [knownFecha, digits], clean_of_notBlank ?_⟩
      simp [isspace_of_digit, digits, dash]
    · cases known
      obtain ⟨digits, -, -⟩ := ymd
      simp only [List.all_cons, List.all_nil, Bool.and_eq_true, Bool.and_true] at digits
      refine ⟨by simp [knownFecha, digits], clean_of_notBlank ?_⟩
      simp [isspace_of_digit, digits, dash]
    · cases known
      obtain ⟨digits, -, -⟩ := slashes
      simp only [List.all_cons, List.all_nil, Bool.and_eq_true, Bool.and_true] at digits
      refine ⟨by simp [knownFecha, digits], clean_of_notBlank ?_⟩
      simp [isspace_of_digit, digits, dash]
  · split_ifs at known with digits
    cases known
    simp only [List.all_cons, List.all_nil, Bool.and_eq_true, Bool.and_true] at digits
    refine ⟨by simp [knownFecha, digits], clean_of_notBlank ?_⟩
    simp [isspace_of_digit, digits, dash]
  · cases known

/-- `std::replace`, one character. -/
def dash (c : Char) : Char := if c = '/' then '-' else c

theorem dashes_eq (cs : List Char) : dashes cs = cs.map dash := rfl

@[simp] theorem dash_ne_slash (c : Char) : dash c ≠ '/' := by
  unfold dash
  split
  · decide
  · assumption

@[simp] theorem isDigit_dash (c : Char) : (dash c).isDigit = c.isDigit := by
  unfold dash
  split_ifs with slash
  · subst slash
    decide
  · rfl

@[simp] theorem isDash_dash (c : Char) : isDash (dash c) = isDash c := by
  unfold dash
  split_ifs with slash
  · subst slash
    decide
  · rfl

theorem isspace_dash (c : Char) : isspace (dash c) = isspace c := by
  unfold dash
  split_ifs with slash
  · subst slash
    decide
  · rfl

/-- What is not known before the slashes are replaced is passed on afterwards:
only `dd-MM-yyyy` with one slash gains by it. -/
theorem knownFecha_dashes {cs ds : List Char} (unknown : knownFecha cs = none)
    (known : knownFecha (dashes cs) = some ds) : ds = dashes cs := by
  generalize replaced : dashes cs = es at known ⊢
  unfold knownFecha at known
  split at known
  · simp only [dashes_eq, List.map_eq_cons_iff, List.map_eq_nil_iff] at replaced
    obtain ⟨a, _, rfl, rfl, b, _, rfl, rfl, c, _, rfl, rfl, d, _, rfl, rfl, e, _, rfl, rfl, f, _, rfl,
      rfl, g, _, rfl, rfl, h, _, rfl, rfl, i, _, rfl, rfl, j, _, rfl, rfl, rfl⟩ := replaced
    split_ifs at known with dmy ymd slashes
    · exact (Option.some.inj known).symm
    · rw [knownFecha] at unknown
      split_ifs at unknown with _ other
      exact absurd (by simpa using ymd) other
    · exact absurd slashes.2.1 (dash_ne_slash c)
  · simp only [dashes_eq, List.map_eq_cons_iff, List.map_eq_nil_iff] at replaced
    obtain ⟨a, _, rfl, rfl, b, _, rfl, rfl, c, _, rfl, rfl, d, _, rfl, rfl, e, _, rfl, rfl, f, _, rfl,
      rfl, g, _, rfl, rfl, h, _, rfl, rfl, rfl⟩ := replaced
    split_ifs at known with digits
    rw [knownFecha] at unknown
    split_ifs at unknown with other
    exact absurd (by simpa using digits) other
  · cases known

/-! ## Normalising twice -/

theorem normalizeFechaDgii_given (now : ℕ) {value : String} (given : value ≠ "") :
    normalizeFechaDgii now value =
      String.ofList ((knownFecha (stripped isspace value.toList)).getD
        (dashes (stripped isspace value.toList))) := by
  rw [normalizeFechaDgii, if_neg given, trim_eq, String.toList_ofList]

/-- A clean text that is known as itself, or is not known and has no slash, is passed on. -/
theorem normalizeFechaDgii_clean (now : ℕ) {ds : List Char} (given : ds ≠ [])
    (clean : Clean isspace ds) (own : (knownFecha ds).getD (dashes ds) = ds) :
    normalizeFechaDgii now (String.ofList ds) = String.ofList ds := by
  have given' : String.ofList ds ≠ "" := by simpa using given
  rw [normalizeFechaDgii_given now given', String.toList_ofList, stripped_of_clean clean, own]

theorem dashes_dashes (cs : List Char) : dashes (dashes cs) = dashes cs := by
  rw [dashes_eq, dashes_eq, List.map_map]
  exact List.map_congr_left fun c _ => if_neg (dash_ne_slash c)

/-- A text with anything in it is normalised to a text that is passed on. -/
theorem normalizeFechaDgii_stable (now : ℕ) {s : String} (visible : ∃ c ∈ s.toList, isspace c = false) :
    normalizeFechaDgii now (normalizeFechaDgii now s) = normalizeFechaDgii now s := by
  obtain ⟨c, member, shown⟩ := visible
  have given : s ≠ "" := by
    rintro rfl
    cases member
  rw [normalizeFechaDgii_given now given]
  generalize rest : stripped isspace s.toList = cs
  have clean : Clean isspace cs := rest ▸ stripped_clean _
  have some : cs ≠ [] := by
    rintro rfl
    have blanks := stripped_eq_nil.mp rest c member
    rw [shown] at blanks
    cases blanks
  cases known : knownFecha cs with
  | some ds =>
    obtain ⟨stable, clean'⟩ := knownFecha_stable known
    have some' : ds ≠ [] := by
      rintro rfl
      cases stable
    rw [Option.getD_some]
    exact normalizeFechaDgii_clean now some' clean' (by rw [stable, Option.getD_some])
  | none =>
    have clean' : Clean isspace (dashes cs) := clean.map isspace_dash
    have some' : dashes cs ≠ [] := by simpa [dashes_eq] using some
    have own : (knownFecha (dashes cs)).getD (dashes (dashes cs)) = dashes cs := by
      cases again : knownFecha (dashes cs) with
      | none => rw [Option.getD_none, dashes_dashes]
      | some ds => rw [Option.getD_some, knownFecha_dashes known again]
    rw [Option.getD_none]
    exact normalizeFechaDgii_clean now some' clean' own

/-- Blanks are normalised to nothing, and nothing to today. -/
theorem normalizeFechaDgii_blank (now : ℕ) {s : String} (given : s ≠ "")
    (blanks : Blanks isspace s.toList) :
    normalizeFechaDgii now s = "" ∧ normalizeFechaDgii now "" ≠ "" := by
  constructor
  · rw [normalizeFechaDgii_given now given, stripped_eq_nil.mpr blanks]
    rfl
  · rw [normalizeFechaDgii, if_pos rfl, dateDigits]
    simp [padded_ne_nil]

theorem isspace_padded {width n : ℕ} {c : Char} (member : c ∈ padded width n) : isspace c = false :=
  isspace_of_digit (padded_digits member)

theorem clean_layout (layout : Layout) (date : CivilDate) : Clean isspace (layout.text date) := by
  have dash : isspace '-' = false := by decide
  have slash : isspace '/' = false := by decide
  refine clean_of_notBlank fun c member => ?_
  cases layout <;> grind [Layout.text, isspace_padded]

/-- A date in a layout, between blanks, is printed day first with dashes. -/
theorem normalizeFechaDgii_layout (now : ℕ) {date : CivilDate} (fits : Fits date) (layout : Layout)
    {before after : List Char} (blanks : Blanks isspace before) (blanks' : Blanks isspace after) :
    normalizeFechaDgii now (String.ofList (before ++ (layout.text date ++ after))) =
      String.ofList (Layout.dashes.text date) := by
  have clean := clean_layout layout date
  have given : String.ofList (before ++ (layout.text date ++ after)) ≠ "" := by
    have some : layout.text date ≠ [] := by
      cases layout <;> simp [Layout.text, padded_ne_nil]
    simp [some]
  rw [normalizeFechaDgii_given now given, String.toList_ofList,
    stripped_surrounded blanks clean blanks', knownFecha_layout fits, Option.getD_some]

/-- **Dates are normalised once and for all.** A text that is not empty is normalised to
one that stays as it is, unless it is blank; and every layout of a date gives
the same text. -/
theorem normalizeFechaDgii_canonical (now : ℕ) :
    (∀ s : String, s ≠ "" →
      (normalizeFechaDgii now (normalizeFechaDgii now s) = normalizeFechaDgii now s ↔
        ∃ c ∈ s.toList, isspace c = false)) ∧
    ∀ date : CivilDate, Fits date → ∀ (layout : Layout) (before after : List Char),
      Blanks isspace before → Blanks isspace after →
        normalizeFechaDgii now (String.ofList (before ++ (layout.text date ++ after))) =
          String.ofList (Layout.dashes.text date) := by
  refine ⟨fun s given => ⟨fun stable => ?_, normalizeFechaDgii_stable now⟩,
    fun date fits layout before after blanks blanks' =>
      normalizeFechaDgii_layout now fits layout blanks blanks'⟩
  by_contra hidden
  have blanks : Blanks isspace s.toList := by simpa [Blanks] using hidden
  obtain ⟨empty, today⟩ := normalizeFechaDgii_blank now given blanks
  rw [empty] at stable
  exact today stable

/-- The fifteenth of July, with slashes and between blanks. -/
theorem july_canonical :
    normalizeFechaDgii 0 (normalizeFechaDgii 0 " x ") = normalizeFechaDgii 0 " x " ∧
    normalizeFechaDgii 0 (String.ofList ([' '] ++ (Layout.isoSlashes.text ⟨2026, 7, 15⟩ ++ ['\n']))) =
      String.ofList (Layout.dashes.text ⟨2026, 7, 15⟩) :=
  ⟨((normalizeFechaDgii_canonical 0).1 " x " (by decide)).mpr ⟨'x', by decide, by decide⟩,
    (normalizeFechaDgii_canonical 0).2 ⟨2026, 7, 15⟩ ⟨by decide, by decide, by decide⟩ .isoSlashes
      [' '] ['\n'] (by simp [Blanks, isspace]) (by simp [Blanks, isspace])⟩

/-- A blank is normalised to the empty string, and that to the day of the clock. -/
theorem blank_unstable :
    ¬ ∀ (now : ℕ) (s : String), s ≠ "" →
      normalizeFechaDgii now (normalizeFechaDgii now s) = normalizeFechaDgii now s := by
  intro stable
  have given : " " ≠ "" := by decide
  obtain ⟨empty, today⟩ := normalizeFechaDgii_blank 0 given (by simp [Blanks, isspace])
  have twice := stable 0 " " given
  rw [empty] at twice
  exact today twice

end EcfDgii.NormalizedDates
