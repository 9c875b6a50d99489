import Mathlib.Algebra.Order.Group.Int
import Mathlib.Algebra.Order.Group.Unbundled.Int
import Mathlib.Data.List.TakeWhile
import EcfDgii.Calendar
import EcfDgii.Text

/-!
The clock and its texts (`Shared/Common/Sys.cpp`).

A time point is a number of nanoseconds since 1970-01-01 00:00:00 UTC, as
`std::chrono::system_clock` counts it.  `toIsoUtc` prints whole seconds;
`pgTimestamptz` is the text PostgreSQL gives back for a `timestamptz` column in
a session whose time zone is UTC, which is how a stored `updated_at` reaches
`parseIsoUtc`.  `parseIsoUtc` follows `sscanf`: a `%d` skips blanks and takes a
sign, a `%c` takes any character, and a text that does not match gives the
epoch, the value the callers take for "no time".  A time point has 64 bits, so
that the nanoseconds of an instant after 2262-04-11T23:47:16.854775807Z wrap
around; `parseIsoSeconds` is the instant before they are counted, which is what
the engine goes by: its stamps are times of its own clock.

`parseIsoSeconds_pgTimestamptz` and `parseIsoSeconds_toIsoUtc` say that what the engine
or the database wrote is read back as the second it was written in.
-/

set_option autoImplicit false

namespace EcfDgii.Timestamps

open EcfDgii.Calendar EcfDgii.Text

/-- Nanoseconds in a second. -/
def second : ℕ := 1000000000

/-- Date, separator and time of day, the latter given in seconds. -/
def fieldsText (separator : Char) (date : CivilDate) (inDay : ℕ) : List Char :=
  Nat.toDigits 10 date.year ++ '-' :: (padded 2 date.month ++ '-' :: (padded 2 date.day ++
    separator :: (padded 2 (inDay / 3600) ++ ':' :: (padded 2 (inDay % 3600 / 60) ++
      ':' :: padded 2 (inDay % 60)))))

/-- A time point to the second. -/
def dateTimeText (separator : Char) (time : ℕ) : List Char :=
  fieldsText separator (civilFromDays (time / second / 86400)) (time / second % 86400)

/-- `sys::toIsoUtc`: `%Y-%m-%dT%H:%M:%SZ`. -/
def toIsoUtc (time : ℕ) : String := String.ofList (dateTimeText 'T' time ++ ['Z'])

/-- The text of a `timestamptz` column holding a time point given to the second. -/
def pgTimestamptz (time : ℕ) : String := String.ofList (dateTimeText ' ' time ++ "+00".toList)

/-! ## Scanning -/

/-- `%d`: blanks, an optional sign, at least one digit. -/
def scanInt (cs : List Char) : Option (ℤ × List Char) :=
  let unsigned (sign : ℤ) (cs : List Char) : Option (ℤ × List Char) :=
    match cs.takeWhile Char.isDigit with
    | [] => none
    | ds => some (sign * Nat.ofDigitChars 10 ds 0, cs.dropWhile Char.isDigit)
  match cs.dropWhile isspace with
  | '-' :: rest => unsigned (-1) rest
  | '+' :: rest => unsigned 1 rest
  | rest => unsigned 1 rest

/-- A literal character of a `scanf` format. -/
def literal (c : Char) : List Char → Option (List Char)
  | d :: rest => if d = c then some rest else none
  | [] => none

/-- The seven conversions of `"%d-%d-%d%c%d:%d:%d%n"`. -/
structure ScannedTime where
  year : ℤ
  month : ℤ
  day : ℤ
  separator : Char
  hour : ℤ
  minute : ℤ
  second : ℤ

/-- The `sscanf` call: all seven conversions, and the text after them. -/
def scanDateTime (cs : List Char) : Option (ScannedTime × List Char) := do
  let (year, cs) ← scanInt cs
  let (month, cs) ← scanInt (← literal '-' cs)
  let (day, cs) ← scanInt (← literal '-' cs)
  let (separator, cs) ← match cs with
    | c :: rest => some (c, rest)
    | [] => none
  let (hour, cs) ← scanInt cs
  let (minute, cs) ← scanInt (← literal ':' cs)
  let (second, cs) ← scanInt (← literal ':' cs)
  some (⟨year, month, day, separator, hour, minute, second⟩, cs)

/-- The two range checks of `parseIsoUtc`. -/
def ScannedTime.InRange (t : ScannedTime) : Bool :=
  (t.separator = 'T' || t.separator = 't' || t.separator = ' ') &&
    !(t.year < 1970 || t.month < 1 || t.month > 12 || t.day < 1 || t.day > 31 || t.hour < 0 ||
      t.hour > 23 || t.minute < 0 || t.minute > 59 || t.second < 0 || t.second > 60)

/-- `timegm` on fields in range. -/
def ScannedTime.timegm (t : ScannedTime) : ℤ :=
  86400 * daysFromCivil ⟨t.year.toNat, t.month.toNat, t.day.toNat⟩ + 3600 * t.hour +
    60 * t.minute + t.second

/-- The hours and the minutes of a zone offset.  `"%d:%d"` is tried first and
matches whenever there is a number at all, so the four-digit form is read as hours. -/
def zoneFields (cs : List Char) : ℤ × ℤ :=
  match scanInt cs with
  | none => (0, 0)
  | some (hours, ':' :: rest) => (hours, ((scanInt rest).map Prod.fst).getD 0)
  | some (hours, _) => (hours, 0)

/-- The zone offset in seconds, an `int`. -/
def zoneOffset (cs : List Char) : ℤ :=
  (3600 * (zoneFields cs).1 + 60 * (zoneFields cs).2).bmod (2 ^ 32)

/-- The instant `sys::parseIsoUtc` reads, in seconds; 0 is the default `time_point{}`. -/
def parseIsoSeconds (iso : String) : ℤ :=
  let blank (c : Char) : Bool := c = ' ' || c = '\t' || c = '\r' || c = '\n'
  match scanDateTime ((iso.toList.dropWhile blank).takeWhile (· ≠ '\x00')) with
  | none => 0
  | some (fields, rest) =>
    if fields.InRange then
      let rest := match rest with
        | '.' :: digits => digits.dropWhile Char.isDigit
        | _ => rest
      match rest.dropWhile (· = ' ') with
      | '+' :: zone => fields.timegm - zoneOffset zone
      | '-' :: zone => fields.timegm + zoneOffset zone
      | _ => fields.timegm
    else 0

/-- `system_clock::from_time_t`: nanoseconds, as many as 64 bits hold. -/
def fromTimeT (t : ℤ) : ℤ := (t * second).bmod (2 ^ 64)

/-- `sys::parseIsoUtc`. -/
def parseIsoUtc (iso : String) : ℤ := fromTimeT (parseIsoSeconds iso)

/-- Up to the year 2262 nothing wraps around. -/
theorem fromTimeT_of_lt {t : ℤ} (low : -2 ^ 63 ≤ t * second) (high : t * second < 2 ^ 63) :
    fromTimeT t = t * second :=
  Int.bmod_eq_of_le (by omega) (by omega)

theorem fromTimeT_lt (t : ℤ) : fromTimeT t < 2 ^ 63 := by
  have below : fromTimeT t < ((2 ^ 64 : ℕ) + 1) / 2 := Int.bmod_lt (by decide)
  omega

/-- Numbers that wrap around stay as far apart as they were, when they come out
about as far apart. -/
theorem bmod_sub_bmod {x y : ℤ} {m : ℕ} (below : x - y - (x.bmod m - y.bmod m) < m)
    (above : -(m : ℤ) < x - y - (x.bmod m - y.bmod m)) : x.bmod m - y.bmod m = x - y := by
  have whole : x - y - (x.bmod m - y.bmod m) = (x.bdiv m - y.bdiv m) * m := by
    have first := Int.bdiv_add_bmod' x m
    have second := Int.bdiv_add_bmod' y m
    rw [Int.sub_mul]
    omega
  have none : x - y - (x.bmod m - y.bmod m) = 0 :=
    Int.eq_zero_of_abs_lt_dvd ⟨x.bdiv m - y.bdiv m, whole.trans (Int.mul_comm _ _)⟩
      (abs_lt.mpr ⟨above, below⟩)
  omega

/-- Seconds less than a hundred years apart come out as the same time point only
when they are the same. -/
theorem fromTimeT_inj {t t' : ℤ} (same : fromTimeT t = fromTimeT t') (below : t - t' < 2 ^ 32)
    (above : -2 ^ 32 < t - t') : t = t' := by
  have apart := bmod_sub_bmod (x := t * second) (y := t' * second) (m := 2 ^ 64)
  rw [← fromTimeT, ← fromTimeT, same, ← Int.sub_mul] at apart
  simp only [second] at apart
  omega

/-- What follows the seconds, without a fraction. -/
def afterFraction (cs : List Char) : List Char :=
  match cs with
  | '.' :: digits => digits.dropWhile Char.isDigit
  | _ => cs

theorem afterFraction_point (digits : List Char) :
    afterFraction ('.' :: digits) = digits.dropWhile Char.isDigit := rfl

/-- The seconds that a zone takes off. -/
def readZone : List Char → ℤ
  | '+' :: zone => zoneOffset zone
  | '-' :: zone => -zoneOffset zone
  | _ => 0

/-- The characters skipped at the beginning. -/
def isBlank (c : Char) : Bool := c = ' ' || c = '\t' || c = '\r' || c = '\n'

/-- The zone after the fraction is taken off the fields. -/
theorem parseIsoSeconds_eq (iso : String) :
    parseIsoSeconds iso =
      match scanDateTime ((iso.toList.dropWhile isBlank).takeWhile (· ≠ '\x00')) with
      | none => 0
      | some (fields, rest) =>
        if fields.InRange then
          fields.timegm - readZone ((afterFraction rest).dropWhile (· = ' '))
        else 0 := by
  unfold parseIsoSeconds readZone afterFraction isBlank
  dsimp only
  repeat' split
  all_goals simp_all

/-! ## Reading back what was printed -/

theorem padded_digits {width n : ℕ} {c : Char} (h : c ∈ padded width n) : c.isDigit = true := by
  rcases List.mem_append.mp h with zero | digit
  · rw [(List.mem_replicate.mp zero).2]
    decide
  · exact Nat.isDigit_of_mem_toDigits (by decide) (by decide) digit

theorem padded_ne_nil (width n : ℕ) : padded width n ≠ [] := by
  simp [padded, Nat.toDigits_ne_nil]

theorem length_padded {width n : ℕ} (pos : 0 < width) (fits : n < 10 ^ width) :
    (padded width n).length = width := by
  have short := (Nat.length_toDigits_le_iff (by decide : 1 < 10) pos).mpr fits
  rw [padded, List.length_append, List.length_replicate]
  omega

theorem padded_value (width n : ℕ) : Nat.ofDigitChars 10 (padded width n) 0 = n := by
  rw [padded, Nat.ofDigitChars_append, Nat.ofDigitChars_replicate_zero, Nat.mul_zero,
    Nat.ofDigitChars_ten_toDigits]

theorem padded_one (n : ℕ) : padded 1 n = Nat.toDigits 10 n := by
  have := List.length_pos_iff.mpr (Nat.toDigits_ne_nil (n := n) (b := 10))
  simp [padded, show 1 - (Nat.toDigits 10 n).length = 0 by omega]

theorem digit_not_special {c : Char} (h : c.isDigit = true) :
    isspace c = false ∧ c ≠ '-' ∧ c ≠ '+' ∧ c ≠ '\x00' ∧ c ≠ ' ' ∧ c ≠ '\t' ∧ c ≠ '\r' ∧
      c ≠ '\n' := by
  refine ⟨?_, ?_, ?_, ?_, ?_, ?_, ?_, ?_⟩
  · by_contra blank
    simp only [isspace, Bool.not_eq_false, Bool.or_eq_true, decide_eq_true_eq] at blank
    rcases blank with ((((rfl | rfl) | rfl) | rfl) | rfl) | rfl <;> exact absurd h (by decide)
  all_goals rintro rfl; exact absurd h (by decide)

/-- Digits are read as a number, up to whatever follows them. -/
theorem scanInt_digits {ds rest : List Char} (digits : ∀ c ∈ ds, c.isDigit = true)
    (some_digit : ds ≠ []) (stop : ∀ c ∈ rest.head?, c.isDigit = false) :
    scanInt (ds ++ rest) = some ((Nat.ofDigitChars 10 ds 0 : ℤ), rest) := by
  obtain ⟨d, ds, rfl⟩ := List.exists_cons_of_ne_nil some_digit
  have taken : (d :: ds ++ rest).takeWhile Char.isDigit = d :: ds := by
    rw [List.takeWhile_append_of_pos digits]
    cases rest with
    | nil => simp
    | cons c rest => simp [List.takeWhile, stop c (by simp)]
  have left : (d :: ds ++ rest).dropWhile Char.isDigit = rest := by
    rw [List.dropWhile_append_of_pos digits]
    cases rest with
    | nil => simp
    | cons c rest => simp [List.dropWhile, stop c (by simp)]
  obtain ⟨space, minus, plus, -⟩ := digit_not_special (digits d (by simp))
  have same : (d :: ds ++ rest).dropWhile isspace = d :: ds ++ rest := by
    simp [space]
  rw [scanInt, same]
  split
  · simp_all
  · simp_all
  · simp only [taken, left, one_mul]

/-- A printed number is read back, up to whatever follows it. -/
theorem scanInt_padded (width n : ℕ) {rest : List Char}
    (stop : ∀ c ∈ rest.head?, c.isDigit = false) :
    scanInt (padded width n ++ rest) = some ((n : ℤ), rest) := by
  rw [scanInt_digits (fun _ => padded_digits) (padded_ne_nil width n) stop, padded_value]

/-- The seven fields of a date and a time of day. -/
def fieldsOf (separator : Char) (date : CivilDate) (inDay : ℕ) : ScannedTime :=
  ⟨date.year, date.month, date.day, separator, (inDay / 3600 : ℕ), (inDay % 3600 / 60 : ℕ),
    (inDay % 60 : ℕ)⟩

theorem scanDateTime_fieldsText {separator : Char} (hsep : separator.isDigit = false)
    (date : CivilDate) (inDay : ℕ) {rest : List Char}
    (stop : ∀ c ∈ rest.head?, c.isDigit = false) :
    scanDateTime (fieldsText separator date inDay ++ rest) =
      some (fieldsOf separator date inDay, rest) := by
  have hyphen : ∀ cs : List Char, ∀ c ∈ ('-' :: cs).head?, c.isDigit = false := by simp
  have colon : ∀ cs : List Char, ∀ c ∈ (':' :: cs).head?, c.isDigit = false := by simp
  have split : ∀ cs : List Char, ∀ c ∈ (separator :: cs).head?, c.isDigit = false := by simp [hsep]
  simp only [scanDateTime, fieldsText, ← padded_one, List.append_assoc, List.cons_append,
    scanInt_padded _ _ (hyphen _), scanInt_padded _ _ (colon _), scanInt_padded _ _ (split _),
    scanInt_padded _ _ stop, literal, ↓reduceIte, Option.bind_eq_bind, Option.bind_some,
    fieldsOf]

private theorem fieldsText_clean {separator : Char} (hsep : separator ≠ '\x00')
    (date : CivilDate) (inDay : ℕ) : ∀ c ∈ fieldsText separator date inDay, c ≠ '\x00' := by
  intro c member
  have digit : c.isDigit = true → c ≠ '\x00' := fun h => (digit_not_special h).2.2.2.1
  simp only [fieldsText, ← padded_one, List.mem_append, List.mem_cons] at member
  rcases member with h | rfl | h | rfl | h | rfl | h | rfl | h | rfl | h <;>
    first | exact digit (padded_digits h) | exact hsep | decide

private theorem fieldsText_head (separator : Char) (date : CivilDate) (inDay : ℕ) :
    ∃ d ds, fieldsText separator date inDay = d :: ds ∧ d.isDigit = true := by
  obtain ⟨d, ds, eq⟩ := List.exists_cons_of_ne_nil (padded_ne_nil 1 date.year)
  have digit : d.isDigit = true := padded_digits (eq ▸ List.mem_cons_self : d ∈ padded 1 date.year)
  simp only [fieldsText, ← padded_one, eq, List.cons_append]
  exact ⟨d, _, rfl, digit⟩

/-- A printed time with nothing after it that changes the seconds is read back. -/
theorem parse_fieldsText {separator : Char}
    (hsep : separator = 'T' ∨ separator = 't' ∨ separator = ' ') {date : CivilDate} {inDay : ℕ}
    (valid : (fieldsOf separator date inDay).InRange = true) {rest : List Char}
    (stop : ∀ c ∈ rest.head?, c.isDigit = false) (clean : ∀ c ∈ rest, c ≠ '\x00') :
    parseIsoSeconds (String.ofList (fieldsText separator date inDay ++ rest)) =
      (fieldsOf separator date inDay).timegm -
        readZone ((afterFraction rest).dropWhile (· = ' ')) := by
  have plain : separator.isDigit = false ∧ separator ≠ '\x00' := by
    rcases hsep with rfl | rfl | rfl <;> decide
  obtain ⟨d, ds, head, digit⟩ := fieldsText_head separator date inDay
  have noBlank : (fieldsText separator date inDay ++ rest).dropWhile isBlank =
      fieldsText separator date inDay ++ rest := by
    obtain ⟨-, -, -, -, space, tab, cr, lf⟩ := digit_not_special digit
    simp [isBlank, head, space, tab, cr, lf]
  have whole : (fieldsText separator date inDay ++ rest).takeWhile (· ≠ '\x00') =
      fieldsText separator date inDay ++ rest := by
    refine List.takeWhile_eq_self_iff.mpr fun c member => ?_
    rcases List.mem_append.mp member with h | h
    · simpa using fieldsText_clean plain.2 date inDay c h
    · simpa using clean c h
  simp only [parseIsoSeconds_eq, String.toList_ofList, noBlank, whole,
    scanDateTime_fieldsText plain.1 date inDay stop, valid, ↓reduceIte]

/-- The fields of a day number and a second of the day are in range. -/
theorem fieldsOf_inRange {separator : Char}
    (hsep : separator = 'T' ∨ separator = 't' ∨ separator = ' ') {days inDay : ℕ}
    (h : inDay < 86400) : (fieldsOf separator (civilFromDays days) inDay).InRange = true := by
  have date := civilFromDays_range days
  generalize civilFromDays days = date' at date ⊢
  have known : (separator = 'T' || separator = 't' || separator = ' ') = true := by
    rcases hsep with rfl | rfl | rfl <;> decide
  rw [ScannedTime.InRange, Bool.and_eq_true]
  refine ⟨known, ?_⟩
  simp only [Bool.not_eq_eq_eq_not, Bool.not_true, Bool.or_eq_false_iff,
    decide_eq_false_iff_not]
  simp only [fieldsOf]
  omega

/-- `timegm` undoes `gmtime`. -/
theorem fieldsOf_timegm (separator : Char) (days inDay : ℕ) :
    (fieldsOf separator (civilFromDays days) inDay).timegm = ((86400 * days + inDay : ℕ) : ℤ) := by
  have date := daysFromCivil_civilFromDays days
  generalize civilFromDays days = date' at date ⊢
  obtain ⟨year, month, day⟩ := date'
  simp only [ScannedTime.timegm, fieldsOf, Int.toNat_natCast, date]
  omega

private theorem seconds_of_fields (time : ℕ) :
    86400 * (time / second / 86400) + time / second % 86400 = time / second :=
  Nat.div_add_mod _ _

/-- **Read back.** A `timestamptz` column is read back as the second it holds. -/
theorem parseIsoSeconds_pgTimestamptz (time : ℕ) :
    parseIsoSeconds (pgTimestamptz time) = ((time / second : ℕ) : ℤ) := by
  have zone : zoneOffset ['0', '0'] = 0 := by decide
  have valid : (fieldsOf ' ' (civilFromDays (time / second / 86400))
      (time / second % 86400)).InRange = true :=
    fieldsOf_inRange (by simp) (Nat.mod_lt _ (by decide))
  rw [pgTimestamptz, dateTimeText, parse_fieldsText (by simp) valid (by simp) (by simp),
    fieldsOf_timegm, seconds_of_fields]
  simp [afterFraction, readZone, zone]

/-- A printed time point is read back as the second it lies in. -/
theorem parseIsoSeconds_toIsoUtc (time : ℕ) :
    parseIsoSeconds (toIsoUtc time) = ((time / second : ℕ) : ℤ) := by
  have valid : (fieldsOf 'T' (civilFromDays (time / second / 86400))
      (time / second % 86400)).InRange = true :=
    fieldsOf_inRange (by simp) (Nat.mod_lt _ (by decide))
  rw [toIsoUtc, dateTimeText, parse_fieldsText (by simp) valid (by simp) (by simp),
    fieldsOf_timegm, seconds_of_fields]
  simp [afterFraction, readZone]

example : parseIsoUtc "2024-02-29t23:59:60.125 -04:30" = 1709267400000000000 := by decide

/-- The nanoseconds of the year 2300 do not fit. -/
example : parseIsoUtc "2300-01-01T00:00:00Z" = -8032952073709551616 := by decide

end EcfDgii.Timestamps
