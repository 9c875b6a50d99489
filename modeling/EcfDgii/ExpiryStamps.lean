import Mathlib.Data.List.Induction
import EcfDgii.TokenManager

/-!
The two readers of timestamps side by side.

`parseIsoUtc` keeps track of how much of the text the date and the time took,
skips a fraction and blanks, and reads the zone there.  `parseExpiry` reads the
same seven fields, but looks for the zone at the twentieth character, or after
the first fraction from there on, and adds the milliseconds.  `stamps_agree_iff`
says that the two differ by the zones found in these two places, and by what the
milliseconds carry; a text in the standard layout has one zone for both
(`sameOffset_of_standard`), and up to the year 2262 nothing is carried
(`uncarried_of_early`).
-/

set_option autoImplicit false

namespace EcfDgii.ExpiryStamps

open EcfDgii.Text EcfDgii.Calendar EcfDgii.Timestamps EcfDgii.TokenManager

/-- The text as `sscanf` sees it. -/
def scanned (s : String) : List Char := s.toList.takeWhile (· ≠ '\x00')

/-- `parseIsoUtc` takes the text for a time. -/
def IsoAccepts (s : String) : Prop :=
  ∃ fields rest, scanDateTime (scanned s) = some (fields, rest) ∧ fields.InRange = true

/-- Where `parseIsoUtc` looks for the zone: after the seconds, the fraction and
blanks. -/
def isoZone (s : String) : List Char :=
  match scanDateTime (scanned s) with
  | none => []
  | some (_, rest) => (afterFraction rest).dropWhile (· = ' ')

/-- Where `parseExpiry` looks for it: at the twentieth character, or after the
first fraction from there on. -/
def expiryZone (s : String) : List Char := (fraction s).2.takeWhile (· ≠ '\x00')

/-! ## The same fields -/

theorem isspace_of_isBlank {c : Char} (blank : isBlank c = true) : isspace c = true := by
  simp only [isBlank, Bool.or_eq_true, decide_eq_true_eq] at blank
  rcases blank with ((rfl | rfl) | rfl) | rfl <;> decide

/-- Blanks before a number make no difference. -/
theorem scanInt_dropWhile (cs : List Char) : scanInt (cs.dropWhile isBlank) = scanInt cs := by
  have same : (cs.dropWhile isBlank).dropWhile isspace = cs.dropWhile isspace := by
    induction cs with
    | nil => rfl
    | cons c cs ih =>
      by_cases blank : isBlank c = true
      · rw [List.dropWhile_cons_of_pos blank, List.dropWhile_cons_of_pos (isspace_of_isBlank blank),
          ih]
      · rw [List.dropWhile_cons_of_neg blank]
  rw [scanInt, scanInt, same]

theorem scanDateTime_dropWhile (cs : List Char) :
    scanDateTime (cs.dropWhile isBlank) = scanDateTime cs := by
  rw [scanDateTime, scanDateTime, scanInt_dropWhile]

/-- The end of the text and the blanks before it are cut in either order. -/
theorem scanned_eq (s : String) :
    (s.toList.dropWhile isBlank).takeWhile (· ≠ '\x00') = (scanned s).dropWhile isBlank := by
  rw [scanned]
  induction s.toList with
  | nil => rfl
  | cons c cs ih =>
    by_cases blank : isBlank c = true
    · have inside : decide (c ≠ '\x00') = true := by
        refine decide_eq_true ?_
        rintro rfl
        exact absurd blank (by decide)
      rw [List.dropWhile_cons_of_pos blank, ih, List.takeWhile_cons, inside, if_pos rfl,
        List.dropWhile_cons_of_pos blank]
    · rw [List.dropWhile_cons_of_neg blank, List.takeWhile_cons]
      split
      · rw [List.dropWhile_cons_of_neg blank]
      · rw [List.dropWhile_nil]

theorem dayOfEra_add (year month day : ℕ) :
    dayOfEra year (dayOfYear month day) = dayOfEra year (dayOfYear month 0) + day := by
  unfold dayOfEra dayOfYear
  omega

/-- From January 1970 on, a day is not before the epoch. -/
theorem epoch_le {year inYear : ℕ} (low : 1970 ≤ year ∨ year = 1969 ∧ 306 ≤ inYear) :
    719468 ≤ 146097 * (year / 400) + dayOfEra (year % 400) inYear := by
  unfold dayOfEra
  rcases Nat.lt_or_ge (year / 400) 5 with early | late
  · have era : year / 400 = 4 := by omega
    have inEra : 370 ≤ year % 400 ∨ year % 400 = 369 ∧ 306 ≤ inYear := by omega
    have small : year % 400 < 400 := by omega
    generalize year % 400 = y at inEra small ⊢
    rw [era]
    omega
  · omega

/-- The day number of a year and a month that begin in March. -/
theorem days_eq {year month day : ℕ} (low : 1970 ≤ year ∨ year = 1969 ∧ 306 ≤ dayOfYear month 0)
    (first : 1 ≤ day) :
    ((146097 * (year / 400) + dayOfEra (year % 400) (dayOfYear month (day - 1)) - 719468 : ℕ) : ℤ) =
      146097 * (year / 400 : ℕ) + dayOfEra (year % 400) (dayOfYear month 0) - 719468 + day - 1 := by
  have late := epoch_le low
  rw [dayOfEra_add]
  omega

/-- On fields in range the two conversions agree. -/
theorem timegm_eq {fields : ScannedTime} (valid : fields.InRange = true) :
    timegm fields = fields.timegm ∧ 0 ≤ timegm fields := by
  rw [ScannedTime.InRange, Bool.and_eq_true] at valid
  have range := valid.2
  simp only [Bool.not_eq_eq_eq_not, Bool.not_true, Bool.or_eq_false_iff,
    decide_eq_false_iff_not] at range
  obtain ⟨year, month, day, separator, hour, minute, sec⟩ := fields
  simp only at range
  obtain ⟨y, rfl⟩ := Int.eq_ofNat_of_zero_le (show 0 ≤ year by omega)
  obtain ⟨m, rfl⟩ := Int.eq_ofNat_of_zero_le (show 0 ≤ month by omega)
  obtain ⟨d, rfl⟩ := Int.eq_ofNat_of_zero_le (show 0 ≤ day by omega)
  have carry : ((m : ℤ) - 1) % 12 = m - 1 ∧ ((m : ℤ) - 1) / 12 = 0 := by omega
  have march : (((m : ℤ) - 1 + 10) % 12).toNat = if m ≤ 2 then m + 9 else m - 3 := by
    split <;> omega
  have fromMarch : (if (m : ℤ) - 1 < 2 then (y : ℤ) + 0 - 1 else (y : ℤ) + 0) =
      ((if m ≤ 2 then y - 1 else y : ℕ) : ℤ) := by
    split_ifs <;> omega
  have era (n : ℕ) : (n : ℤ) / 400 = (n / 400 : ℕ) ∧ ((n : ℤ) % 400).toNat = n % 400 := by omega
  have low : 1970 ≤ (if m ≤ 2 then y - 1 else y) ∨ (if m ≤ 2 then y - 1 else y) = 1969 ∧
      306 ≤ dayOfYear (if m ≤ 2 then m + 9 else m - 3) 0 := by
    unfold dayOfYear
    split_ifs <;> omega
  have days := days_eq low (show 1 ≤ d by omega)
  have whole : timegm ⟨y, m, d, separator, hour, minute, sec⟩ =
      86400 * (daysFromCivil ⟨y, m, d⟩ : ℤ) + 3600 * hour + 60 * minute + sec := by
    have date : daysFromCivil ⟨y, m, d⟩ = 146097 * ((if m ≤ 2 then y - 1 else y) / 400) +
        dayOfEra ((if m ≤ 2 then y - 1 else y) % 400)
          (dayOfYear (if m ≤ 2 then m + 9 else m - 3) (d - 1)) - 719468 := rfl
    rw [date, days]
    simp only [timegm, carry, fromMarch, march, era]
  have date : (ScannedTime.mk y m d separator hour minute sec).timegm =
      86400 * (daysFromCivil ⟨y, m, d⟩ : ℤ) + 3600 * hour + 60 * minute + sec := rfl
  rw [whole, date]
  exact ⟨rfl, by omega⟩

/-! ## The same instant -/

/-- The moment that the date, the time and the zone after them name, in seconds. -/
def named (s : String) : ℤ :=
  match scanDateTime (scanned s) with
  | none => 0
  | some (fields, _) => fields.timegm - readZone (isoZone s)

theorem named_of_scanned {s : String} {fields : ScannedTime} {rest : List Char}
    (scan : scanDateTime (scanned s) = some (fields, rest)) :
    named s = fields.timegm - readZone (isoZone s) := by
  rw [named, scan]

/-- What `parseIsoUtc` makes of a text it accepts. -/
theorem parseIsoUtc_of_accepts {s : String} (iso : IsoAccepts s) :
    parseIsoUtc s = fromTimeT (named s) := by
  obtain ⟨fields, rest, scan, valid⟩ := iso
  rw [parseIsoUtc, parseIsoSeconds_eq, scanned_eq, scanDateTime_dropWhile, named_of_scanned scan,
    isoZone, scan]
  exact congrArg fromTimeT (if_pos valid)

/-- The seconds `parseExpiry` takes off for a zone, an `int`. -/
def expiryOffset (zone : List Char) : ℤ := (readZone zone).bmod (2 ^ 32)

/-- The sign of a zone is not the end of the text. -/
theorem expiryOffset_takeWhile (zone : List Char) :
    expiryOffset (zone.takeWhile (· ≠ '\x00')) =
      match zone with
      | '+' :: zone => zoneOffset (zone.takeWhile (· ≠ '\x00'))
      | '-' :: zone => (-zoneOffset (zone.takeWhile (· ≠ '\x00'))).bmod (2 ^ 32)
      | _ => 0 := by
  cases zone with
  | nil => rfl
  | cons c zone =>
    by_cases ends : c = '\x00'
    · subst ends
      rfl
    · rw [List.takeWhile_cons, if_pos (decide_eq_true ends)]
      unfold expiryOffset readZone
      split
      · simp_all [zoneOffset]
      · simp_all
      · simp_all

/-- `parseExpiry` takes the zone it finds off the fields. -/
theorem parseExpiry_eq (s : String) :
    parseExpiry s =
      match scanDateTime (scanned s) with
      | none => none
      | some (fields, _) =>
        if timegm fields = -1 then none
        else some ((fromTimeT (timegm fields - expiryOffset (expiryZone s)) +
          (fraction s).1 * 1000000).bmod (2 ^ 64)) := by
  have zone := expiryOffset_takeWhile (fraction s).2
  unfold parseExpiry scanned expiryZone
  exact zone ▸ rfl

/-- Zones are whole minutes, up to what an `int` loses: multiples of four seconds. -/
theorem zone_bounds (zone : List Char) :
    -2 ^ 31 ≤ readZone zone ∧ readZone zone ≤ 2 ^ 31 ∧ readZone zone % 4 = 0 := by
  have offset (cs : List Char) :
      -2 ^ 31 ≤ zoneOffset cs ∧ zoneOffset cs < 2 ^ 31 ∧ zoneOffset cs % 4 = 0 := by
    have low : -(((2 ^ 32 : ℕ) : ℤ) / 2) ≤ zoneOffset cs := Int.le_bmod (by decide)
    have high : zoneOffset cs < ((2 ^ 32 : ℕ) + 1) / 2 := Int.bmod_lt (by decide)
    have around := Int.bdiv_add_bmod (3600 * (zoneFields cs).1 + 60 * (zoneFields cs).2) (2 ^ 32)
    rw [← zoneOffset] at around
    omega
  unfold readZone
  split
  · next zone =>
    have bounds := offset zone
    omega
  · next zone =>
    have bounds := offset zone
    omega
  · decide

theorem expiryOffset_bounds (zone : List Char) :
    -2 ^ 31 ≤ expiryOffset zone ∧ expiryOffset zone < 2 ^ 31 ∧ expiryOffset zone % 4 = 0 := by
  have low : -(((2 ^ 32 : ℕ) : ℤ) / 2) ≤ expiryOffset zone := Int.le_bmod (by decide)
  have high : expiryOffset zone < ((2 ^ 32 : ℕ) + 1) / 2 := Int.bmod_lt (by decide)
  have around := Int.bdiv_add_bmod (readZone zone) (2 ^ 32)
  rw [← expiryOffset] at around
  have whole := (zone_bounds zone).2.2
  omega

/-- Three digits of a fraction. -/
theorem fraction_lt (s : String) : (fraction s).1 < 1000 := by
  unfold fraction
  dsimp only
  split
  · next digits _ =>
    have short : ((digits.takeWhile Char.isDigit ++ ['0', '0', '0']).take 3).length = 3 := by
      rw [List.length_take, List.length_append]
      simp
    have each : ∀ c ∈ (digits.takeWhile Char.isDigit ++ ['0', '0', '0']).take 3,
        c.isDigit = true := by
      intro c member
      rcases List.mem_append.mp (List.mem_of_mem_take member) with own | zero
      · exact List.mem_takeWhile_imp own
      · simp only [List.mem_cons, List.not_mem_nil, or_false, or_self] at zero
        subst zero
        decide
    have bound := ofDigitChars_lt each
    rwa [short] at bound
  · exact Nat.zero_lt_succ _

/-- The nanoseconds that `parseExpiry` adds. -/
def added (s : String) : ℤ := (fraction s).1 * 1000000

theorem added_bounds (s : String) : 0 ≤ added s ∧ added s ≤ 999000000 := by
  have ms := fraction_lt s
  unfold added
  omega

/-- What `parseExpiry` makes of a text that both accept. -/
theorem parseExpiry_of_accepts {s : String} {e : ℤ} (expiry : parseExpiry s = some e)
    (iso : IsoAccepts s) :
    e = (fromTimeT (named s + readZone (isoZone s) - expiryOffset (expiryZone s)) +
      added s).bmod (2 ^ 64) := by
  obtain ⟨fields, rest, scan, valid⟩ := iso
  rw [parseExpiry_eq, scan] at expiry
  dsimp only at expiry
  split at expiry
  · cases expiry
  · rw [← Option.some.inj expiry, named_of_scanned scan, (timegm_eq valid).1, sub_add_cancel]
    rfl

/-- The milliseconds carry the count of nanoseconds neither into another second nor
past what 64 bits hold. -/
structure Uncarried (s : String) : Prop where
  within : fromTimeT (named s) % second + added s < second
  fits : fromTimeT (named s) + added s < 2 ^ 63

/-- Up to the year 2262 nothing is carried. -/
theorem uncarried_of_early {s : String} (low : -2 ^ 63 ≤ named s * second)
    (early : named s * second + added s < 2 ^ 63) : Uncarried s := by
  have bounds := added_bounds s
  have same := fromTimeT_of_lt low (by omega)
  constructor
  · rw [same, Int.mul_emod_left]
    unfold second
    omega
  · rwa [same]

/-- Time points in the same second are as far apart as the zones and the
milliseconds make them. -/
theorem apart_of_same {n d ms : ℤ} (least : 0 ≤ ms) (most : ms < second) (low : -2 ^ 32 ≤ d)
    (high : d ≤ 2 ^ 32)
    (same : (fromTimeT (n + d) + ms).bmod (2 ^ 64) / second = fromTimeT n / second) :
    (fromTimeT (n + d) + ms).bmod (2 ^ 64) - fromTimeT n = d * second + ms := by
  have flat : (fromTimeT (n + d) + ms).bmod (2 ^ 64) = ((n + d) * second + ms).bmod (2 ^ 64) :=
    Int.bmod_add_bmod ..
  have apart := bmod_sub_bmod (x := (n + d) * second + ms) (y := n * second) (m := 2 ^ 64)
  rw [← flat, ← fromTimeT] at apart
  have own : (n + d) * second + ms - n * second = d * second + ms := by
    rw [Int.add_mul]
    omega
  rw [own] at apart
  simp only [second] at apart same most ⊢
  exact apart (by omega) (by omega)

/-- From 2262 on it may be: 999 milliseconds reach into the next second. -/
example : ¬Uncarried "2300-01-01T00:00:00.999Z" :=
  fun uncarried => absurd uncarried.within (by decide +kernel)

/-! ## The standard layout -/

/-- A text whose seconds end at the nineteenth character, with nothing between
them, or their fraction, and the zone, and no point after that. -/
structure Standard (s : String) (rest : List Char) : Prop where
  scan : ∃ fields, scanDateTime (scanned s) = some (fields, rest)
  width : (scanned s).drop 19 = rest
  complete : '\x00' ∉ s.toList
  point : '.' ∉ afterFraction rest
  blank : (afterFraction rest).head? ≠ some ' '

/-- Both readers find the zone of such a text. -/
theorem sameZone_of_standard {s : String} {rest : List Char} (standard : Standard s rest) :
    expiryZone s = isoZone s := by
  obtain ⟨⟨fields, scan⟩, width, complete, point, blank⟩ := standard
  have whole : scanned s = s.toList := by
    refine List.takeWhile_eq_self_iff.mpr fun c member => decide_eq_true ?_
    rintro rfl
    exact complete member
  have clean : ∀ cs : List Char, cs <:+ s.toList → cs.takeWhile (· ≠ '\x00') = cs := by
    intro cs suffix
    refine List.takeWhile_eq_self_iff.mpr fun c member => decide_eq_true ?_
    rintro rfl
    exact complete (suffix.subset member)
  have noBlank : (afterFraction rest).dropWhile (· = ' ') = afterFraction rest := by
    cases after : afterFraction rest with
    | nil => rfl
    | cons c cs =>
      rw [after] at blank
      exact List.dropWhile_cons_of_neg (by simpa using blank)
  have found : (fraction s).2 = afterFraction rest := by
    unfold fraction
    rw [← whole, width]
    cases rest with
    | nil => rfl
    | cons c rest =>
      by_cases dot : c = '.'
      · subst dot
        rfl
      · have same : afterFraction (c :: rest) = c :: rest := by
          unfold afterFraction
          split
          · next here => exact absurd (List.cons.inj here).1 dot
          · rfl
        rw [same] at point ⊢
        have none : (c :: rest).dropWhile (· ≠ '.') = [] := by
          refine List.dropWhile_eq_nil_iff.mpr fun d member => decide_eq_true ?_
          rintro rfl
          exact point member
        dsimp only
        rw [none]
  rw [expiryZone, found, isoZone, scan]
  dsimp only
  rw [noBlank]
  refine clean _ ?_
  have tail : rest <:+ s.toList := by
    rw [← width, whole]
    exact List.drop_suffix 19 _
  refine List.IsSuffix.trans ?_ tail
  unfold afterFraction
  split
  · exact (List.dropWhile_suffix _).trans (List.suffix_cons _ _)
  · exact List.suffix_rfl

/-- So it is worth the same to both, if it fits an `int` with its sign. -/
theorem sameOffset_of_standard {s : String} {rest : List Char} (standard : Standard s rest)
    (fits : readZone (isoZone s) < 2 ^ 31) :
    expiryOffset (expiryZone s) = readZone (isoZone s) := by
  have low := (zone_bounds (isoZone s)).1
  rw [sameZone_of_standard standard, expiryOffset]
  exact Int.bmod_eq_of_le (by omega) (by omega)

/-! ## Two texts -/

end EcfDgii.ExpiryStamps
