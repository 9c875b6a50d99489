import EcfDgii.Markup
import EcfDgii.Documents
import EcfDgii.Timestamps
import EcfDgii.Rounding
import Mathlib.Data.Rat.Floor
import Mathlib.Algebra.Order.Ring.Rat

/-!
The text helpers of the document builder (`CanonicalXmlBuilder.cpp`): amounts,
dates, references, and the escaping of what a caller sent.

A string of the source is a sequence of bytes; a character stands for one byte
here, so that `escapeXml` and `truncateUtf8`, which look at UTF-8 sequences
byte by byte, can be followed.  `reads_escapeXml` says that an escaped string
is read back as the string without its control characters, and
`plain_normalizeFechaDgii` that a date is free of markup after its
normalisation exactly when it was before.
-/

set_option autoImplicit false

namespace EcfDgii.XmlFormats

open EcfDgii.Text EcfDgii.Trimming EcfDgii.Calendar EcfDgii.Timestamps EcfDgii.Documents
open EcfDgii.Markup EcfDgii.Rounding

/-! ## Amounts -/

/-- `std::fixed << std::setprecision(places)`, and `printf` with so many places.
Unlike `std::round`, on which `round2` and `round4` rest, they take a value that
lies half way to the even digit. -/
def fixedDigits (places : ℕ) (value : ℚ) : List Char :=
  let scaled := (halfEven (|value| * 10 ^ places)).toNat
  (if value < 0 then ['-'] else []) ++
    (Nat.toDigits 10 (scaled / 10 ^ places) ++ '.' :: padded places (scaled % 10 ^ places))

/-- `formatMoney2`. -/
def formatMoney2 (value : ℚ) : String := String.ofList (fixedDigits 2 value)

/-- `formatPrice4`: at most two of the four decimals are dropped when they are
zeros. -/
def formatPrice4 (value : ℚ) : String :=
  String.ofList (match (fixedDigits 4 value).reverse with
    | '0' :: '0' :: rest => rest.reverse
    | '0' :: rest => rest.reverse
    | rest => rest.reverse)

/-- `formatQty2`: no zeros at the end, and no point before nothing. -/
def formatQty2 (value : ℚ) : String :=
  String.ofList (match (fixedDigits 2 value).reverse with
    | '0' :: '0' :: '.' :: rest => rest.reverse
    | '0' :: rest => rest.reverse
    | rest => rest.reverse)

/-- `round2`. -/
def round2 (value : ℚ) : ℚ := roundHalfAway 100 value

/-- `round4`. -/
def round4 (value : ℚ) : ℚ := roundHalfAway 10000 value

/-! ## Strings -/

/-- Control characters that XML 1.0 does not allow. -/
def isIllegal (c : Char) : Bool := c.toNat < 0x20 && c ≠ '\t' && c ≠ '\n' && c ≠ '\r'

/-- `escapeXml`, one byte. -/
def escapeChar (c : Char) : List Char :=
  if isIllegal c then []
  else if c = '&' then "&amp;".toList
  else if c = '<' then "&lt;".toList
  else if c = '>' then "&gt;".toList
  else if c = '"' then "&quot;".toList
  else if c = '\'' then "&apos;".toList
  else [c]

/-- `escapeXml`. -/
def escapeXml : List Char → List Char
  | '\xc2' :: '\xa9' :: rest => "&#169;".toList ++ escapeXml rest
  | '\xc2' :: '\xae' :: rest => "&#174;".toList ++ escapeXml rest
  | '\xe2' :: '\x82' :: '\xac' :: rest => "&#8364;".toList ++ escapeXml rest
  | c :: rest => escapeChar c ++ escapeXml rest
  | [] => []

/-- The bytes a UTF-8 sequence has by its first one; a byte that begins none
stands alone. -/
def utf8Length (c : Char) : ℕ :=
  if 0xc0 ≤ c.toNat ∧ c.toNat < 0xe0 then 2
  else if 0xe0 ≤ c.toNat ∧ c.toNat < 0xf0 then 3
  else if 0xf0 ≤ c.toNat ∧ c.toNat < 0xf8 then 4
  else 1

def isContinuation (c : Char) : Bool := 0x80 ≤ c.toNat && c.toNat < 0xc0

/-- The loop of `truncateUtf8`. -/
def truncateBytes : ℕ → List Char → List Char
  | 0, _ => []
  | _ + 1, [] => []
  | n + 1, c :: cs =>
    if (c :: cs).length < utf8Length c then []
    else if (cs.take (utf8Length c - 1)).all isContinuation then
      c :: cs.take (utf8Length c - 1) ++ truncateBytes n (cs.drop (utf8Length c - 1))
    else c :: truncateBytes n cs

/-- `truncateUtf8`. -/
def truncateUtf8 (s : String) (maxChars : ℕ) : String :=
  String.ofList (truncateBytes maxChars s.toList)

/-- `startsWithIgnoreCase`. -/
def startsWithIgnoreCase (s start : String) : Bool := startsWith (toupper s) (toupper start)

/-- `normalizeNcfReference`: an old NCF given without its letter gets it back. -/
def normalizeNcfReference (raw : String) : String :=
  let upper := toupper (trim raw)
  let cs := upper.toList
  if cs ≠ [] ∧ cs.all Char.isDigit then
    if cs.length = 9 then
      if cs.take 1 ∈ ["1", "2", "3", "4"].map String.toList then "B0" ++ upper
      else if cs.take 1 ∈ ["5", "6", "7"].map String.toList then "B1" ++ upper
      else upper
    else if cs.length = 10 then
      if cs.take 2 ∈ ["01", "02", "03", "04", "14", "15", "16", "17"].map String.toList then
        "B" ++ upper
      else upper
    else if cs.length = 8 then "B02" ++ upper
    else upper
  else upper

/-- `\w`. -/
def isWord (c : Char) : Bool := c.isAlphanum || c = '_'

/-- `\w+(s\w+)*` for the separators `s` of a class: words, none of them empty. -/
def isWords (separator : Char → Bool) (cs : List Char) : Bool :=
  (cs.splitOnP separator).all fun word => word ≠ [] && word.all isWord

/-- `^\w+([-+.]\w+)*@\w+([-.]\w+)*\.\w+([-.]\w+)*$`. -/
def emailRegex (s : String) : Bool :=
  match s.toList.splitOnP (· = '@') with
  | [user, domain] =>
    isWords (fun c => c = '-' || c = '+' || c = '.') user &&
      isWords (fun c => c = '-' || c = '.') domain && domain.contains '.'
  | _ => false

/-- `primaryEmail`: the first address of a list, cut to eighty characters. -/
def primaryEmail (s : String) : String :=
  let first := trim (String.ofList (s.toList.takeWhile fun c => c ≠ ';' && c ≠ ','))
  if 80 < first.toList.length then truncateUtf8 first 80 else first

/-! ## Dates -/

/-- Seconds since 1970 in the Dominican Republic, four hours behind. -/
def dominicanSeconds (now : ℕ) : ℕ := now / second - 4 * 3600

/-- `%d-%m-%Y`. -/
def dateDigits (date : CivilDate) : List Char :=
  padded 2 date.day ++ '-' :: (padded 2 date.month ++ '-' :: Nat.toDigits 10 date.year)

/-- `%H:%M:%S`. -/
def timeDigits (inDay : ℕ) : List Char :=
  padded 2 (inDay / 3600) ++ ':' :: (padded 2 (inDay % 3600 / 60) ++ ':' :: padded 2 (inDay % 60))

/-- The date of `getDominicanTm`. -/
def dominicanDate (now : ℕ) : CivilDate := civilFromDays (dominicanSeconds now / 86400)

/-- `%d-%m-%Y %H:%M:%S` of `getDominicanTm`. -/
def dominicanDateTime (now : ℕ) : String :=
  String.ofList (dateDigits (dominicanDate now) ++
    ' ' :: timeDigits (dominicanSeconds now % 86400))

def isDash (c : Char) : Bool := c = '-' || c = '/'

/-- The formats `normalizeFechaDgii` knows, and what it makes of each:
`dd-MM-yyyy`, `yyyy-MM-dd` and `yyyy/MM/dd`, `dd/MM/yyyy`, `yyyyMMdd`. -/
def knownFecha : List Char → Option (List Char)
  | [a, b, c, d, e, f, g, h, i, j] =>
    if [a, b, d, e, g, h, i, j].all Char.isDigit ∧ c = '-' ∧ f = '-' then
      some [a, b, c, d, e, f, g, h, i, j]
    else if [a, b, c, d, f, g, i, j].all Char.isDigit ∧ isDash e ∧ isDash h then
      some [i, j, '-', f, g, '-', a, b, c, d]
    else if [a, b, d, e, g, h, i, j].all Char.isDigit ∧ c = '/' ∧ f = '/' then
      some [a, b, '-', d, e, '-', g, h, i, j]
    else none
  | [a, b, c, d, e, f, g, h] =>
    if [a, b, c, d, e, f, g, h].all Char.isDigit then some [g, h, '-', e, f, '-', a, b, c, d]
    else none
  | _ => none

/-- `std::replace(.., '/', '-')`. -/
def dashes (cs : List Char) : List Char := cs.map fun c => if c = '/' then '-' else c

/-- `normalizeFechaDgii`: a date in no known format is passed on. -/
def normalizeFechaDgii (now : ℕ) (value : String) : String :=
  if value = "" then String.ofList (dateDigits (dominicanDate now))
  else
    let trimmed := (trim value).toList
    String.ofList ((knownFecha trimmed).getD (dashes trimmed))

/-- `std::mktime` of a midnight, on a server `zone` seconds ahead of UTC; a month or
a day past its end is carried into the next year or month. -/
def mktime (zone : ℤ) (year month day : ℕ) : ℤ :=
  86400 * (firstOfMonth (12 * year + month - 1) + day - 1) - zone

/-- `parseDateToDays`; the division truncates. -/
def parseDateToDays (zone : ℤ) (now : ℕ) (raw : String) : ℤ :=
  if raw = "" then 0
  else match (normalizeFechaDgii now raw).toList with
    | [a, b, c, d, e, f, g, h, i, j] =>
      if [a, b, d, e, g, h, i, j].all Char.isDigit ∧ c = '-' ∧ f = '-' then
        let t := mktime zone (Nat.ofDigitChars 10 [g, h, i, j] 0) (Nat.ofDigitChars 10 [d, e] 0)
          (Nat.ofDigitChars 10 [a, b] 0)
        if t ≠ -1 then t.tdiv 86400 else 0
      else 0
    | _ => 0

example : normalizeFechaDgii 0 " 2026/07/15 " = "15-07-2026" := by decide +kernel

/-! ## Escaped strings are read back -/

/-- The predefined entities. -/
def predefined : List (List Char × Char) :=
  [("amp".toList, '&'), ("lt".toList, '<'), ("gt".toList, '>'), ("quot".toList, '"'),
    ("apos".toList, '\'')]

/-- The references an escaped string can hold, the numeric ones in UTF-8. -/
def references : List (List Char × List Char) :=
  predefined.map (fun pair => (pair.1, [pair.2])) ++
    [("#169".toList, ['\xc2', '\xa9']), ("#174".toList, ['\xc2', '\xae']),
      ("#8364".toList, ['\xe2', '\x82', '\xac'])]

/-- What a reference stands for. -/
def entity (name : List Char) : Option (List Char) := references.lookup name

/-- A reference stands for no more than its name and one. -/
theorem entity_short (name cs : List Char) (known : entity name = some cs) :
    cs.length ≤ name.length + 1 := by
  have short : ∀ pair ∈ references, pair.2.length ≤ pair.1.length + 1 := by decide
  have member : (name, cs) ∈ references := by
    obtain ⟨before, after, split, -⟩ := List.lookup_eq_some_iff.mp known
    rw [split]
    simp
  exact short _ member

/-- A string as XML can hold it: without the control characters. -/
def legal (cs : List Char) : List Char := cs.filter fun c => !isIllegal c

/-- One escaped byte is read as the byte, if XML allows it. -/
theorem run_escapeChar (c : Char) (seen : List Token) (brackets : ℕ) (rest : List Char) :
    ∃ brackets', run entity ⟨seen, .data brackets⟩ (escapeChar c ++ rest) =
      run entity ⟨seen ++ (legal [c]).map .char, .data brackets'⟩ rest := by
  by_cases illegal : isIllegal c = true
  · exact ⟨brackets, by simp [escapeChar, legal, illegal]⟩
  have kept : legal [c] = [c] := by simp [legal, illegal]
  rw [kept]
  by_cases markup : c = '&' ∨ c = '<' ∨ c = '>' ∨ c = '"' ∨ c = '\''
  · refine ⟨0, ?_⟩
    rcases markup with rfl | rfl | rfl | rfl | rfl
    · exact run_reference seen brackets "amp".toList rest (by decide) (by simp)
    · exact run_reference seen brackets "lt".toList rest (by decide) (by simp)
    · exact run_reference seen brackets "gt".toList rest (by decide) (by simp)
    · exact run_reference seen brackets "quot".toList rest (by decide) (by simp)
    · exact run_reference seen brackets "apos".toList rest (by decide) (by simp)
  · simp only [not_or] at markup
    obtain ⟨amp, less, greater, quote, apostrophe⟩ := markup
    refine ⟨if c = ']' then brackets + 1 else 0, ?_⟩
    simp [escapeChar, illegal, amp, less, greater, quote, apostrophe, run, step]

/-- **Escaped strings are read back.** -/
theorem reads_escapeXml (cs : List Char) : Reads entity (escapeXml cs) (legal cs) := by
  have anywhere : ∀ (seen : List Token) (brackets : ℕ),
      ∃ brackets', run entity ⟨seen, .data brackets⟩ (escapeXml cs) =
        some ⟨seen ++ (legal cs).map .char, .data brackets'⟩ := by
    fun_induction escapeXml cs with
    | case1 rest ih =>
      intro seen brackets
      obtain ⟨brackets', later⟩ := ih (seen ++ [.char '\xc2', .char '\xa9']) 0
      have known : entity "#169".toList = some ['\xc2', '\xa9'] := rfl
      have sign := run_reference seen brackets "#169".toList (escapeXml rest) known (by simp)
      exact ⟨brackets', (sign.trans later).trans (by simp [legal, isIllegal])⟩
    | case2 rest ih =>
      intro seen brackets
      obtain ⟨brackets', later⟩ := ih (seen ++ [.char '\xc2', .char '\xae']) 0
      have known : entity "#174".toList = some ['\xc2', '\xae'] := rfl
      have sign := run_reference seen brackets "#174".toList (escapeXml rest) known (by simp)
      exact ⟨brackets', (sign.trans later).trans (by simp [legal, isIllegal])⟩
    | case3 rest ih =>
      intro seen brackets
      obtain ⟨brackets', later⟩ := ih (seen ++ [.char '\xe2', .char '\x82', .char '\xac']) 0
      have known : entity "#8364".toList = some ['\xe2', '\x82', '\xac'] := rfl
      have sign := run_reference seen brackets "#8364".toList (escapeXml rest) known (by simp)
      exact ⟨brackets', (sign.trans later).trans (by simp [legal, isIllegal])⟩
    | case4 c rest _ _ _ ih =>
      intro seen brackets
      obtain ⟨middle, first⟩ := run_escapeChar c seen brackets (escapeXml rest)
      obtain ⟨brackets', later⟩ := ih (seen ++ (legal [c]).map .char) middle
      refine ⟨brackets', ?_⟩
      rw [first, later, List.append_assoc, ← List.map_append, legal, legal, ← List.filter_append]
      rfl
    | case5 => exact fun seen brackets => ⟨brackets, by simp [legal]⟩
  exact fun seen => anywhere seen 0

/-! ## What the builder writes itself is plain -/

/-- Digits, and the signs of numbers and dates. -/
def isNumeral (c : Char) : Bool := c.isDigit || c ∈ ['-', '.', ':', ' ']

theorem plain_of_numerals {cs : List Char} (numerals : cs.all isNumeral = true) : Plain cs := by
  refine plain_of_harmless fun c member => ?_
  have numeral := List.all_eq_true.mp numerals c member
  refine ⟨?_, ?_, ?_⟩ <;>
    · rintro rfl
      revert numeral
      decide

theorem numerals_digits {cs : List Char} (digits : ∀ c ∈ cs, c.isDigit = true) :
    cs.all isNumeral = true := by
  rw [List.all_eq_true]
  intro c member
  simp [isNumeral, digits c member]

theorem numerals_toDigits (n : ℕ) : (Nat.toDigits 10 n).all isNumeral = true :=
  numerals_digits fun _ member => Nat.isDigit_of_mem_toDigits (by decide) (by decide) member

theorem numerals_padded (width n : ℕ) : (padded width n).all isNumeral = true :=
  numerals_digits fun _ member => padded_digits member

theorem numerals_fixedDigits (places : ℕ) (value : ℚ) :
    (fixedDigits places value).all isNumeral = true := by
  unfold fixedDigits
  simp only [List.all_append, List.all_cons, numerals_toDigits, numerals_padded, Bool.and_true]
  split <;> decide

theorem plain_formatMoney2 (value : ℚ) : Plain (formatMoney2 value).toList := by
  rw [formatMoney2, String.toList_ofList]
  exact plain_of_numerals (numerals_fixedDigits 2 value)

theorem plain_formatPrice4 (value : ℚ) : Plain (formatPrice4 value).toList := by
  have numerals := numerals_fixedDigits 4 value
  rw [← List.all_reverse] at numerals
  rw [formatPrice4, String.toList_ofList]
  refine plain_of_numerals ?_
  split <;> simp_all

theorem plain_formatQty2 (value : ℚ) : Plain (formatQty2 value).toList := by
  have numerals := numerals_fixedDigits 2 value
  rw [← List.all_reverse] at numerals
  rw [formatQty2, String.toList_ofList]
  refine plain_of_numerals ?_
  split <;> simp_all

theorem numerals_decimalInt (n : ℤ) : (decimalInt n).toList.all isNumeral = true := by
  cases n with
  | ofNat n =>
    rw [decimalInt, decimal, String.toList_ofList]
    exact numerals_toDigits n
  | negSucc n =>
    rw [decimalInt, decimal, String.toList_append, List.all_append, String.toList_ofList,
      String.toList_ofList, numerals_toDigits, Bool.and_true]
    decide

theorem plain_decimalInt (n : ℤ) : Plain (decimalInt n).toList :=
  plain_of_numerals (numerals_decimalInt n)

theorem plain_cleanDigits (s : String) : Plain (cleanDigits s).toList := by
  rw [cleanDigits, String.toList_ofList]
  exact plain_of_numerals (numerals_digits fun _ member => (List.mem_filter.mp member).2)

theorem numerals_dateDigits (date : CivilDate) : (dateDigits date).all isNumeral = true := by
  have dash : isNumeral '-' = true := by decide
  simp [dateDigits, numerals_toDigits, numerals_padded, -List.all_eq_true, dash]

theorem numerals_timeDigits (inDay : ℕ) : (timeDigits inDay).all isNumeral = true := by
  have colon : isNumeral ':' = true := by decide
  simp [timeDigits, numerals_padded, -List.all_eq_true, colon]

theorem plain_dominicanDateTime (now : ℕ) : Plain (dominicanDateTime now).toList := by
  rw [dominicanDateTime, String.toList_ofList]
  refine plain_of_numerals ?_
  rw [List.all_append, numerals_dateDigits, List.all_cons, numerals_timeDigits]
  decide

/-! ## Dates pass their markup on -/

theorem plainFrom_blank {brackets : ℕ} {c : Char} {cs : List Char} (blank : isspace c = true) :
    plainFrom brackets (c :: cs) = plainFrom 0 cs := by
  have other : c ≠ '<' ∧ c ≠ '&' ∧ c ≠ '>' ∧ c ≠ ']' := by
    refine ⟨?_, ?_, ?_, ?_⟩ <;>
      · rintro rfl
        revert blank
        decide
  simp [plainFrom, other]

theorem plainFrom_dropWhile (cs : List Char) :
    plainFrom 0 (cs.dropWhile isspace) = plainFrom 0 cs := by
  induction cs with
  | nil => rfl
  | cons c cs ih =>
    by_cases blank : isspace c = true
    · rw [List.dropWhile_cons_of_pos blank, ih, plainFrom_blank blank]
    · rw [List.dropWhile_cons_of_neg blank]

theorem plainFrom_append_blanks (brackets : ℕ) (cs : List Char) {after : List Char}
    (blanks : ∀ c ∈ after, isspace c = true) :
    plainFrom brackets (cs ++ after) = plainFrom brackets cs := by
  induction cs generalizing brackets with
  | cons c cs ih => simp only [List.cons_append, plainFrom, ih]
  | nil =>
    induction after generalizing brackets with
    | nil => rfl
    | cons c after ih =>
      rw [List.nil_append, plainFrom_blank (blanks c List.mem_cons_self)]
      exact ih (fun d h => blanks d (List.mem_cons_of_mem c h)) 0

theorem plain_trim (s : String) : Plain (trim s).toList ↔ Plain s.toList := by
  obtain ⟨before, after, blanks, blanks', whole⟩ := stripped_between isspace s.toList
  rw [trim_eq, String.toList_ofList]
  generalize stripped isspace s.toList = rest at whole ⊢
  rw [whole, Plain, Plain, ← plainFrom_dropWhile (before ++ (rest ++ after)),
    blanks.dropWhile_append, plainFrom_dropWhile, plainFrom_append_blanks 0 rest blanks']

theorem plain_dashes (cs : List Char) : Plain (dashes cs) ↔ Plain cs := by
  have any : ∀ brackets, plainFrom brackets (dashes cs) = plainFrom brackets cs := by
    induction cs with
    | nil => intro brackets; rfl
    | cons c cs ih =>
      intro brackets
      have tail := ih (if c = ']' then brackets + 1 else 0)
      by_cases slash : c = '/'
      · subst slash
        exact tail
      · have first : dashes (c :: cs) = c :: dashes cs := by simp [dashes, slash]
        rw [first, plainFrom, plainFrom, tail]
  rw [Plain, Plain, any]

/-- A date in a known format is made of digits and dashes, before and after. -/
theorem plain_knownFecha {cs ds : List Char} (known : knownFecha cs = some ds) :
    Plain cs ∧ Plain ds := by
  have numeral : ∀ c : Char, c.isDigit = true → c ≠ '<' ∧ c ≠ '&' ∧ c ≠ '>' := by
    intro c digit
    refine ⟨?_, ?_, ?_⟩ <;>
      · rintro rfl
        revert digit
        decide
  have dash : ∀ c : Char, isDash c = true → c ≠ '<' ∧ c ≠ '&' ∧ c ≠ '>' := by
    intro c dash
    refine ⟨?_, ?_, ?_⟩ <;>
      · rintro rfl
        revert dash
        decide
  unfold knownFecha at known
  split at known
  · split_ifs at known with dmy ymd slashes
    · cases known
      obtain ⟨digits, rfl, rfl⟩ := dmy
      simp only [List.all_cons, List.all_nil, Bool.and_eq_true, Bool.and_true] at digits
      constructor <;>
        · refine plain_of_harmless ?_
          simp [numeral, digits]
    · cases known
      obtain ⟨digits, first, second⟩ := ymd
      simp only [List.all_cons, List.all_nil, Bool.and_eq_true, Bool.and_true] at digits
      constructor <;>
        · refine plain_of_harmless ?_
          simp [numeral, digits, dash, first, second]
    · cases known
      obtain ⟨digits, rfl, rfl⟩ := slashes
      simp only [List.all_cons, List.all_nil, Bool.and_eq_true, Bool.and_true] at digits
      constructor <;>
        · refine plain_of_harmless ?_
          simp [numeral, digits]
  · split_ifs at known with digits
    cases known
    simp only [List.all_cons, List.all_nil, Bool.and_eq_true, Bool.and_true] at digits
    constructor <;>
      · refine plain_of_harmless ?_
        simp [numeral, digits]
  · cases known

/-- **Dates pass their markup on.** -/
theorem plain_normalizeFechaDgii (now : ℕ) (value : String) :
    Plain (normalizeFechaDgii now value).toList ↔ Plain value.toList := by
  unfold normalizeFechaDgii
  split
  · next empty =>
    rw [empty, String.toList_ofList]
    have today := plain_of_numerals (numerals_dateDigits (dominicanDate now))
    exact ⟨fun _ => rfl, fun _ => today⟩
  · rw [← plain_trim value]
    dsimp only
    rw [String.toList_ofList]
    cases known : knownFecha (trim value).toList with
    | none => exact plain_dashes _
    | some date =>
      obtain ⟨before, after⟩ := plain_knownFecha known
      exact ⟨fun _ => before, fun _ => after⟩


end EcfDgii.XmlFormats
