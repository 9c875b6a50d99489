import EcfDgii.Timestamps
import EcfDgii.PrintedAmounts

/-!
Instants as they are written, and what `parseIsoUtc` makes of them.

A stamp is a civil date, a time of day, a fraction of any length and a zone in
one of seven forms.  All but two of the forms are read as they are meant: the
four digits of `+HHMM` and `-HHMM` match the pattern for `HH:MM` as a single
number, and are taken for hours.  And a time point counts nanoseconds in 64 bits,
which an instant from the spring of 2262 on does not fit.  `correct_iff` says which
stamps come out right, and that what `toIsoUtc` wrote always does.
-/

set_option autoImplicit false

namespace EcfDgii.IsoStamps

open EcfDgii.Calendar EcfDgii.Text EcfDgii.Timestamps EcfDgii.PrintedAmounts

/-! ## Stamps -/

/-- A date of the calendar from 1970 on. -/
structure ValidDate (date : CivilDate) : Prop where
  year : 1970 ≤ date.year
  month : 1 ≤ date.month ∧ date.month ≤ 12
  day : 1 ≤ date.day ∧ date.day ≤ daysInMonth date.month date.year

/-- The sign of an offset. -/
inductive Sign
  | plus
  | minus

def Sign.char : Sign → Char
  | .plus => '+'
  | .minus => '-'

/-- The zones: `Z`, `±HH`, `±HH:MM` and `±HHMM`. -/
inductive Zone
  | utc
  | hours (sign : Sign) (hour : Fin 24)
  | colon (sign : Sign) (hour : Fin 24) (minute : Fin 60)
  | compact (sign : Sign) (hour : Fin 24) (minute : Fin 60)

/-- How a zone is written. -/
def Zone.text : Zone → List Char
  | .utc => ['Z']
  | .hours sign hour => sign.char :: padded 2 hour
  | .colon sign hour minute => sign.char :: (padded 2 hour ++ ':' :: padded 2 minute)
  | .compact sign hour minute => sign.char :: (padded 2 hour ++ padded 2 minute)

/-- An amount of time, east or west. -/
def Sign.apply (sign : Sign) (seconds : ℤ) : ℤ :=
  match sign with
  | .plus => seconds
  | .minus => -seconds

/-- The seconds a zone is ahead of UTC. -/
def Zone.offset : Zone → ℤ
  | .utc => 0
  | .hours sign hour => sign.apply (3600 * (hour : ℕ))
  | .colon sign hour minute => sign.apply (3600 * (hour : ℕ) + 60 * (minute : ℕ))
  | .compact sign hour minute => sign.apply (3600 * (hour : ℕ) + 60 * (minute : ℕ))

/-- A stamp: a date, the second of the day, the digits of a fraction, a zone. -/
structure Stamp where
  separator : Char
  date : CivilDate
  inDay : ℕ
  fraction : Option (List Char)
  zone : Zone
  known : separator = 'T' ∨ separator = 't' ∨ separator = ' '
  valid : ValidDate date
  inDay_lt : inDay < 86400
  digits : ∀ ds, fraction = some ds → ∀ c ∈ ds, c.isDigit = true

namespace Stamp

variable (stamp : Stamp)

/-- How the fraction is written. -/
def fractionText : List Char :=
  match stamp.fraction with
  | some digits => '.' :: digits
  | none => []

def text : String :=
  String.ofList (fieldsText stamp.separator stamp.date stamp.inDay ++
    (stamp.fractionText ++ stamp.zone.text))

/-- The instant, in seconds since the epoch. -/
def instant : ℤ := 86400 * daysFromCivil stamp.date + stamp.inDay - stamp.zone.offset

end Stamp

/-! ## What is read -/

/-- The seconds a zone is taken to be ahead of UTC. -/
def Zone.readOffset : Zone → ℤ
  | .utc => 0
  | .hours sign hour => sign.apply (3600 * (hour : ℕ))
  | .colon sign hour minute => sign.apply (3600 * (hour : ℕ) + 60 * (minute : ℕ))
  | .compact sign hour minute => sign.apply (3600 * (100 * (hour : ℕ) + (minute : ℕ)))

theorem readZone_sign (sign : Sign) (zone : List Char) :
    readZone (sign.char :: zone) = sign.apply (zoneOffset zone) := by
  cases sign <;> rfl

/-- Offsets of a few years fit an `int`. -/
theorem zoneOffset_of_fields {cs : List Char} {hours minutes : ℤ}
    (fields : zoneFields cs = (hours, minutes)) (low : 0 ≤ 3600 * hours + 60 * minutes)
    (high : 3600 * hours + 60 * minutes < 2 ^ 31) :
    zoneOffset cs = 3600 * hours + 60 * minutes := by
  rw [zoneOffset, fields]
  exact Int.bmod_eq_of_le (by omega) (by omega)

theorem zoneOffset_hours {hour : ℕ} (small : hour < 24) :
    zoneOffset (padded 2 hour) = 3600 * hour := by
  have scanned := @scanInt_padded 2 hour [] (by simp)
  rw [List.append_nil] at scanned
  have fields : zoneFields (padded 2 hour) = ((hour : ℤ), 0) := by rw [zoneFields, scanned]
  exact (zoneOffset_of_fields fields (by omega) (by omega)).trans (by omega)

theorem zoneOffset_colon {hour minute : ℕ} (short : hour < 24) (small : minute < 60) :
    zoneOffset (padded 2 hour ++ ':' :: padded 2 minute) = 3600 * hour + 60 * minute := by
  have first := @scanInt_padded 2 hour (':' :: padded 2 minute) (by simp)
  have last := @scanInt_padded 2 minute [] (by simp)
  rw [List.append_nil] at last
  have fields : zoneFields (padded 2 hour ++ ':' :: padded 2 minute) = ((hour : ℤ), (minute : ℤ)) := by
    rw [zoneFields, first]
    simp only [last, Option.map_some, Option.getD_some]
  exact zoneOffset_of_fields fields (by omega) (by omega)

/-- Four digits are one number. -/
theorem zoneOffset_compact {hour minute : ℕ} (short : hour < 24) (small : minute < 60) :
    zoneOffset (padded 2 hour ++ padded 2 minute) = 3600 * (100 * hour + minute) := by
  have digits : ∀ c ∈ padded 2 hour ++ padded 2 minute, c.isDigit = true := by
    intro c member
    rcases List.mem_append.mp member with h | h <;> exact padded_digits h
  have value : Nat.ofDigitChars 10 (padded 2 hour ++ padded 2 minute) 0 = 100 * hour + minute := by
    rw [Nat.ofDigitChars_append, Nat.ofDigitChars_eq_ofDigitChars_zero, padded_value,
      padded_value, length_padded (by decide) (by omega)]
  have scanned := @scanInt_digits _ [] digits (by simp [padded_ne_nil]) (by simp)
  rw [List.append_nil, value] at scanned
  have fields : zoneFields (padded 2 hour ++ padded 2 minute) = (((100 * hour + minute : ℕ) : ℤ), 0) := by
    rw [zoneFields, scanned]
  exact (zoneOffset_of_fields fields (by omega) (by omega)).trans (by omega)

theorem readZone_text (zone : Zone) : readZone zone.text = zone.readOffset := by
  cases zone with
  | utc => rfl
  | hours sign hour =>
    rw [Zone.text, readZone_sign, zoneOffset_hours hour.isLt, Zone.readOffset]
  | colon sign hour minute =>
    rw [Zone.text, readZone_sign, zoneOffset_colon hour.isLt minute.isLt, Zone.readOffset]
  | compact sign hour minute =>
    rw [Zone.text, readZone_sign, zoneOffset_compact hour.isLt minute.isLt, Zone.readOffset]

/-- A zone begins with no digit, no point, no blank and no end of text. -/
theorem zone_head (zone : Zone) :
    ∃ c rest, zone.text = c :: rest ∧ c.isDigit = false ∧ c ≠ '.' ∧ c ≠ ' ' := by
  have sign (sign : Sign) : sign.char.isDigit = false ∧ sign.char ≠ '.' ∧ sign.char ≠ ' ' := by
    cases sign <;> decide
  cases zone with
  | utc => exact ⟨_, _, rfl, by decide, by decide, by decide⟩
  | hours s hour => exact ⟨_, _, rfl, sign s⟩
  | colon s hour minute => exact ⟨_, _, rfl, sign s⟩
  | compact s hour minute => exact ⟨_, _, rfl, sign s⟩

theorem zone_clean (zone : Zone) : ∀ c ∈ zone.text, c ≠ '\x00' := by
  have digit {width n : ℕ} {c : Char} (member : c ∈ padded width n) : c ≠ '\x00' :=
    (digit_not_special (padded_digits member)).2.2.2.1
  have sign (sign : Sign) : sign.char ≠ '\x00' := by cases sign <;> decide
  intro c member
  cases zone with
  | utc =>
    rw [List.mem_singleton.mp member]
    decide
  | hours s hour =>
    rcases List.mem_cons.mp member with rfl | member
    · exact sign s
    · exact digit member
  | colon s hour minute =>
    simp only [Zone.text, List.mem_cons, List.mem_append] at member
    rcases member with rfl | member | rfl | member
    · exact sign s
    · exact digit member
    · decide
    · exact digit member
  | compact s hour minute =>
    simp only [Zone.text, List.mem_cons, List.mem_append] at member
    rcases member with rfl | member | member
    · exact sign s
    · exact digit member
    · exact digit member

section

variable (stamp : Stamp)

theorem Stamp.inRange : (fieldsOf stamp.separator stamp.date stamp.inDay).InRange = true := by
  obtain ⟨year, month, day⟩ := stamp.valid
  have short := daysInMonth_le stamp.date.month stamp.date.year
  have small := stamp.inDay_lt
  have known : (stamp.separator = 'T' || stamp.separator = 't' || stamp.separator = ' ') = true := by
    rcases stamp.known with same | same | same <;> rw [same] <;> decide
  rw [ScannedTime.InRange, Bool.and_eq_true]
  refine ⟨known, ?_⟩
  simp only [Bool.not_eq_eq_eq_not, Bool.not_true, Bool.or_eq_false_iff,
    decide_eq_false_iff_not]
  simp only [fieldsOf]
  omega

theorem Stamp.timegm : (fieldsOf stamp.separator stamp.date stamp.inDay).timegm =
    86400 * daysFromCivil stamp.date + stamp.inDay := by
  have date : (⟨stamp.date.year, stamp.date.month, stamp.date.day⟩ : CivilDate) = stamp.date := rfl
  simp only [ScannedTime.timegm, fieldsOf, Int.toNat_natCast, date]
  omega

/-- The fraction is skipped. -/
theorem Stamp.after_fraction :
    afterFraction (stamp.fractionText ++ stamp.zone.text) = stamp.zone.text := by
  obtain ⟨c, rest, head, digit, point, -⟩ := zone_head stamp.zone
  cases given : stamp.fraction with
  | none =>
    rw [fractionText, given, List.nil_append, head]
    unfold afterFraction
    split
    · next same => exact absurd (List.cons.inj same).1 point
    · rfl
  | some ds =>
    rw [fractionText, given, List.cons_append, afterFraction_point,
      List.dropWhile_append_of_pos (stamp.digits ds given), head,
      List.dropWhile_cons_of_neg (by simp [digit])]

/-- The instant that is read from a stamp. -/
theorem Stamp.parse : parseIsoSeconds stamp.text =
    86400 * daysFromCivil stamp.date + stamp.inDay - stamp.zone.readOffset := by
  obtain ⟨c, rest, head, digit, -, blank⟩ := zone_head stamp.zone
  have stop : ∀ c ∈ (stamp.fractionText ++ stamp.zone.text).head?, c.isDigit = false := by
    cases given : stamp.fraction with
    | none => simp [fractionText, given, head, digit]
    | some ds => simp [fractionText, given]
  have clean : ∀ c ∈ stamp.fractionText ++ stamp.zone.text, c ≠ '\x00' := by
    intro c member
    rcases List.mem_append.mp member with inFraction | inZone
    · cases given : stamp.fraction with
      | none => simp [fractionText, given] at inFraction
      | some ds =>
        rw [fractionText, given] at inFraction
        rcases List.mem_cons.mp inFraction with rfl | member
        · decide
        · exact (digit_not_special (stamp.digits ds given c member)).2.2.2.1
    · exact zone_clean stamp.zone c inZone
  have skipped : stamp.zone.text.dropWhile (· = ' ') = stamp.zone.text := by
    rw [head, List.dropWhile_cons_of_neg (by simp [blank])]
  rw [text, parse_fieldsText stamp.known stamp.inRange stop clean, stamp.after_fraction, skipped,
    stamp.timegm, readZone_text]

end

/-! ## Which stamps come out right -/

/-- The zones that are read as they are meant: all but a four-digit offset other
than zero. -/
def Zone.Understood : Zone → Prop
  | .compact _ hour minute => (hour : ℕ) = 0 ∧ (minute : ℕ) = 0
  | _ => True

theorem readOffset_eq_iff (zone : Zone) : zone.readOffset = zone.offset ↔ zone.Understood := by
  cases zone with
  | compact sign hour minute =>
    cases sign <;> simp only [Zone.readOffset, Zone.offset, Sign.apply, Zone.Understood] <;> omega
  | _ => exact iff_of_true rfl trivial

theorem abs_offset_le (zone : Zone) :
    |zone.offset| < 86400 ∧ |zone.readOffset - zone.offset| < 2 ^ 32 := by
  simp only [abs_lt]
  cases zone with
  | utc => decide
  | hours sign hour =>
    cases sign <;> simp only [Zone.readOffset, Zone.offset, Sign.apply] <;> omega
  | colon sign hour minute =>
    cases sign <;> simp only [Zone.readOffset, Zone.offset, Sign.apply] <;> omega
  | compact sign hour minute =>
    cases sign <;> simp only [Zone.readOffset, Zone.offset, Sign.apply] <;> omega

/-- **The right instant.** A stamp is read as its instant, and a time point that
`toIsoUtc` wrote as the second it was written in. -/
structure Correct (stamp : Stamp) (time : ℕ) : Prop where
  stamp : parseIsoUtc stamp.text = stamp.instant * second
  own : time < 2 ^ 63 → parseIsoUtc (toIsoUtc time) = ((time / second * second : ℕ) : ℤ)

/-- What `toIsoUtc` wrote is read back. -/
theorem parseIsoUtc_toIsoUtc {time : ℕ} (fits : time < 2 ^ 63) :
    parseIsoUtc (toIsoUtc time) = ((time / second * second : ℕ) : ℤ) := by
  have whole : time / second * second ≤ time := Nat.div_mul_le_self _ _
  rw [parseIsoUtc, parseIsoSeconds_toIsoUtc, fromTimeT_of_lt (by omega) (by omega)]
  push_cast
  rfl

/-- A stamp is read as its instant when the zone is understood and the count of
nanoseconds fits: an offset that is read wrong is wrong by less than goes around. -/
theorem Stamp.parse_eq_iff (stamp : Stamp) : parseIsoUtc stamp.text = stamp.instant * second ↔
    stamp.zone.Understood ∧ stamp.instant * second < 2 ^ 63 := by
  obtain ⟨offset, apart⟩ := abs_offset_le stamp.zone
  rw [abs_lt] at offset apart
  have read : parseIsoSeconds stamp.text =
      stamp.instant - (stamp.zone.readOffset - stamp.zone.offset) := by
    rw [stamp.parse, Stamp.instant]
    omega
  have late : -86400 < stamp.instant := by
    rw [Stamp.instant]
    omega
  rw [parseIsoUtc, read, ← readOffset_eq_iff]
  constructor
  · intro same
    have fits : stamp.instant * second < 2 ^ 63 := same ▸ fromTimeT_lt _
    have own := fromTimeT_of_lt (by simp only [second]; omega) fits
    have one := fromTimeT_inj (same.trans own.symm) (by omega) (by omega)
    exact ⟨by omega, fits⟩
  · rintro ⟨understood, fits⟩
    rw [understood, sub_self, sub_zero]
    exact fromTimeT_of_lt (by simp only [second]; omega) fits

/-- **Stamps.** `parseIsoUtc` returns the right instant exactly when the zone is
not written with four digits, or is zero, and the instant is before 2262-04-11
23:47:16.854775808 UTC. -/
theorem correct_iff (stamp : Stamp) (time : ℕ) :
    Correct stamp time ↔ stamp.zone.Understood ∧ stamp.instant * second < 2 ^ 63 := by
  constructor
  · exact fun correct => stamp.parse_eq_iff.mp correct.stamp
  · exact fun understood => ⟨stamp.parse_eq_iff.mpr understood, parseIsoUtc_toIsoUtc⟩

/-- Half past ten in Santo Domingo. -/
def santoDomingo (zone : Zone) : Stamp where
  separator := 'T'
  date := ⟨2026, 10, 2⟩
  inDay := 37815
  fraction := none
  zone := zone
  known := .inl rfl
  valid := ⟨by decide, by decide, by decide⟩
  inDay_lt := by decide
  digits := nofun

example : (santoDomingo (.compact .minus 4 0)).text = "2026-10-02T10:30:15-0400" := by decide

/-- With its offset in four digits it is four hundred hours away. -/
theorem four_digits_misread :
    ¬ ∀ (stamp : Stamp) (time : ℕ), Correct stamp time := by
  intro all
  have understood := (correct_iff _ 0).mp (all (santoDomingo (.compact .minus 4 0)) 0)
  exact absurd understood.1.1 (by decide)

end EcfDgii.IsoStamps
