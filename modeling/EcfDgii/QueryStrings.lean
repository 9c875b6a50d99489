import Mathlib.Data.List.Basic
import Mathlib.Data.List.Infix
import Mathlib.Data.List.TakeWhile
import Mathlib.Tactic.Common

/-!
Query strings, written and read.

A query joins parameters with `&`, each of them a name, `=` and a value.  The
reader stops at `#`, splits at every `&` and at the first `=` of each part, takes
`+` for a space and a `%` with two hexadecimal digits for a byte.
`percentDecode_percentEncode` says that an encoded value is read back;
`read_iff` says when a query some of whose values were not encoded is read back:
exactly when none of these holds a byte that means something to the reader.
-/

set_option autoImplicit false

namespace EcfDgii.QueryStrings

abbrev Bytes := List UInt8

/-- The bytes of an ASCII text. -/
def ascii (s : String) : Bytes := s.toList.map Char.toUInt8

@[simp] theorem ascii_empty : ascii "" = [] := rfl

theorem ascii_append (s t : String) : ascii (s ++ t) = ascii s ++ ascii t := by
  rw [ascii, String.toList_append, List.map_append]
  rfl

/-- The bytes with a meaning. -/
def ampersand : UInt8 := '&'.toUInt8
def hash : UInt8 := '#'.toUInt8
def equals : UInt8 := '='.toUInt8
def percent : UInt8 := '%'.toUInt8
def plus : UInt8 := '+'.toUInt8
def space : UInt8 := ' '.toUInt8

/-! ## Percent encoding -/

/-- A hexadecimal digit in capitals. -/
def hexDigit (n : ℕ) : UInt8 := (ascii "0123456789ABCDEF").getD n 0

/-- What a byte is as a hexadecimal digit. -/
def hexValue (b : UInt8) : Option ℕ :=
  if '0'.toUInt8 ≤ b ∧ b ≤ '9'.toUInt8 then some (b.toNat - 48)
  else if 'A'.toUInt8 ≤ b ∧ b ≤ 'F'.toUInt8 then some (b.toNat - 55)
  else if 'a'.toUInt8 ≤ b ∧ b ≤ 'f'.toUInt8 then some (b.toNat - 87)
  else none

/-- A `%` with two digits. -/
def Escape (b high low : UInt8) : Prop :=
  b = percent ∧ (hexValue high).isSome = true ∧ (hexValue low).isSome = true

instance (b high low : UInt8) : Decidable (Escape b high low) :=
  inferInstanceAs (Decidable (_ ∧ _))

/-- The byte of two digits. -/
def hexByte (high low : UInt8) : UInt8 :=
  UInt8.ofNat ((hexValue high).getD 0 * 16 + (hexValue low).getD 0)

/-- What a byte outside an escape is read as. -/
def plusToSpace (b : UInt8) : UInt8 := if b = plus then space else b

/-- The reader of a name or a value. -/
def percentDecode : Bytes → Bytes
  | b :: high :: low :: rest =>
    if Escape b high low then hexByte high low :: percentDecode rest
    else plusToSpace b :: percentDecode (high :: low :: rest)
  | b :: rest => plusToSpace b :: percentDecode rest
  | [] => []

/-- A byte, written as an escape. -/
def escape (b : UInt8) : Bytes := [percent, hexDigit (b.toNat / 16), hexDigit (b.toNat % 16)]

/-- A text with the bytes that are not kept written as escapes. -/
def percentEncode (keep : UInt8 → Bool) (bs : Bytes) : Bytes :=
  bs.flatMap fun b => if keep b then [b] else escape b

theorem hexDigit_read {n : ℕ} (digit : n < 16) : hexValue (hexDigit n) = some n := by
  have each : ∀ n < 16, hexValue (hexDigit n) = some n := by decide
  exact each n digit

theorem percentDecode_escape (b : UInt8) (rest : Bytes) :
    percentDecode (escape b ++ rest) = b :: percentDecode rest := by
  have small : b.toNat < 256 := b.toNat_lt
  have high := hexDigit_read (n := b.toNat / 16) (by omega)
  have low := hexDigit_read (n := b.toNat % 16) (by omega)
  have whole : hexByte (hexDigit (b.toNat / 16)) (hexDigit (b.toNat % 16)) = b := by
    rw [hexByte, high, low, Option.getD_some, Option.getD_some, Nat.div_add_mod']
    exact UInt8.ofNat_toNat
  rw [escape, List.cons_append, List.cons_append, List.cons_append, List.nil_append,
    percentDecode, if_pos ⟨rfl, by rw [high]; rfl, by rw [low]; rfl⟩, whole]

theorem percentDecode_cons {b : UInt8} (other : b ≠ percent) (rest : Bytes) :
    percentDecode (b :: rest) = plusToSpace b :: percentDecode rest := by
  match rest with
  | [] => rfl
  | [_] => rfl
  | high :: low :: rest => rw [percentDecode, if_neg fun escape => other escape.1]

/-- Encoded texts are read back, whatever follows. -/
theorem percentDecode_percentEncode_append {keep : UInt8 → Bool} (kept : keep percent = false)
    (pluses : keep plus = false) (bs rest : Bytes) :
    percentDecode (percentEncode keep bs ++ rest) = bs ++ percentDecode rest := by
  induction bs with
  | nil => rfl
  | cons b bs ih =>
    rw [percentEncode, List.flatMap_cons, List.append_assoc, ← percentEncode]
    by_cases own : keep b = true
    · have other : b ≠ percent := by
        rintro rfl
        exact absurd (own.symm.trans kept) (by decide)
      have single : plusToSpace b = b := by
        refine if_neg ?_
        rintro rfl
        exact absurd (own.symm.trans pluses) (by decide)
      rw [if_pos own, List.singleton_append, percentDecode_cons other, single, ih,
        List.cons_append]
    · rw [if_neg own, percentDecode_escape, ih, List.cons_append]

/-- **Encoded texts are read back.** -/
theorem percentDecode_percentEncode {keep : UInt8 → Bool} (kept : keep percent = false)
    (pluses : keep plus = false) (bs : Bytes) :
    percentDecode (percentEncode keep bs) = bs := by
  have whole := percentDecode_percentEncode_append kept pluses bs []
  rwa [List.append_nil, percentDecode, List.append_nil] at whole

/-- What an encoded text is made of. -/
theorem mem_percentEncode {keep : UInt8 → Bool} {bs : Bytes} {b : UInt8}
    (member : b ∈ percentEncode keep bs) :
    keep b = true ∨ b = percent ∨ ∃ n < 16, b = hexDigit n := by
  obtain ⟨source, -, own⟩ := List.mem_flatMap.mp member
  have small : source.toNat < 256 := source.toNat_lt
  split at own
  · next kept =>
    obtain rfl := List.mem_singleton.mp own
    exact .inl kept
  · simp only [escape, List.mem_cons, List.not_mem_nil, or_false] at own
    rcases own with rfl | rfl | rfl
    · exact .inr (.inl rfl)
    · exact .inr (.inr ⟨_, by omega, rfl⟩)
    · exact .inr (.inr ⟨_, by omega, rfl⟩)

/-- A separator is in no encoded text. -/
theorem separator_notMem {keep : UInt8 → Bool} {b : UInt8}
    (separator : b = ampersand ∨ b = hash) (kept : keep b = false) (bs : Bytes) :
    b ∉ percentEncode keep bs := by
  have digits : ∀ n < 16, hexDigit n ≠ ampersand ∧ hexDigit n ≠ hash := by decide
  intro member
  rcases mem_percentEncode member with own | rfl | ⟨n, small, rfl⟩
  · exact absurd (own.symm.trans kept) (by decide)
  · exact absurd separator (by decide)
  · exact separator.elim (digits n small).1 (digits n small).2

/-! ## Texts that are left alone -/

theorem length_percentDecode_le (bs : Bytes) : (percentDecode bs).length ≤ bs.length := by
  fun_induction percentDecode bs with
  | case1 b high low rest escape ih =>
    simp only [List.length_cons]
    omega
  | case2 b high low rest other ih =>
    simp only [List.length_cons] at ih ⊢
    omega
  | case3 b rest _ ih =>
    simp only [List.length_cons]
    omega
  | case4 => exact le_rfl

/-- No `%` with two digits, and no `+`. -/
structure Unread (bs : Bytes) : Prop where
  plus : plus ∉ bs
  escape : ∀ b high low, Escape b high low → ¬ [b, high, low] <:+: bs

theorem plusToSpace_eq_self_iff (b : UInt8) : plusToSpace b = b ↔ b ≠ plus := by
  unfold plusToSpace
  split
  · next same =>
    subst same
    decide
  · next other => exact iff_of_true rfl other

theorem unread_cons {b : UInt8} {bs : Bytes}
    (other : ∀ high low rest, bs = high :: low :: rest → ¬ Escape b high low) :
    Unread (b :: bs) ↔ b ≠ plus ∧ Unread bs := by
  constructor
  · rintro ⟨noPlus, noEscape⟩
    rw [List.mem_cons, not_or] at noPlus
    refine ⟨Ne.symm noPlus.1, noPlus.2, ?_⟩
    intro b high low escape inside
    exact noEscape b high low escape (inside.trans (List.suffix_cons _ _).isInfix)
  · rintro ⟨first, noPlus, noEscape⟩
    refine ⟨List.not_mem_cons_of_ne_of_not_mem (Ne.symm first) noPlus, ?_⟩
    intro c high low escape inside
    rcases List.infix_cons_iff.mp inside with ⟨rest, start⟩ | later
    · obtain ⟨rfl, tail⟩ := List.cons.inj start
      exact other high low rest tail.symm escape
    · exact noEscape c high low escape later

/-- **Texts that are left alone.** Reading changes every text but those without
`+` and without escapes. -/
theorem percentDecode_eq_self_iff (bs : Bytes) : percentDecode bs = bs ↔ Unread bs := by
  fun_induction percentDecode bs with
  | case1 b high low rest escape ih =>
    refine iff_of_false ?_ ?_
    · intro same
      have short := length_percentDecode_le rest
      have length := congrArg List.length same
      simp only [List.length_cons] at length
      omega
    · intro unread
      exact unread.escape b high low escape ⟨[], rest, rfl⟩
  | case2 b high low rest other ih =>
    rw [List.cons.injEq, plusToSpace_eq_self_iff, ih]
    refine (unread_cons ?_).symm
    rintro _ _ _ ⟨⟩
    exact other
  | case3 b rest short ih =>
    rw [List.cons.injEq, plusToSpace_eq_self_iff, ih, unread_cons]
    rintro high low rest rfl
    exact absurd rfl (short high low rest)
  | case4 =>
    refine iff_of_true rfl ⟨List.not_mem_nil, ?_⟩
    intro b high low _ inside
    exact absurd inside.length_le (by simp)

/-! ## Queries -/

/-- A parameter: its name, its value as it is written, and the value meant. -/
structure Parameter where
  name : Bytes
  written : Bytes
  value : Bytes

def Parameter.part (p : Parameter) : Bytes := p.name ++ equals :: p.written

/-- The writer of a query. -/
def join : List Bytes → Bytes
  | [] => []
  | part :: parts => part ++ parts.flatMap fun part => ampersand :: part

/-- The reader of one part. -/
def parameter (part : Bytes) : Bytes × Bytes :=
  (percentDecode (part.takeWhile (· ≠ equals)),
    percentDecode ((part.dropWhile (· ≠ equals)).drop 1))

/-- The reader of a query. -/
def read (query : Bytes) : List (Bytes × Bytes) :=
  ((query.takeWhile (· ≠ hash)).splitOn ampersand).map parameter

/-- A name that is read as it is written. -/
structure PlainName (name : Bytes) : Prop where
  separators : ∀ b ∈ [ampersand, hash, equals], b ∉ name
  unread : percentDecode name = name

/-- A parameter that is read as it is meant. -/
structure Parameter.Carried (p : Parameter) : Prop where
  ampersand : ampersand ∉ p.written
  hash : hash ∉ p.written
  value : percentDecode p.written = p.value

theorem takeWhile_hash {part : Bytes} (none : hash ∉ part) (rest : Bytes) :
    (part ++ rest).takeWhile (· ≠ hash) = part ++ rest.takeWhile (· ≠ hash) := by
  apply List.takeWhile_append_of_pos
  intro b member
  exact decide_eq_true fun same => none (same ▸ member)

theorem parameter_part {name : Bytes} (plain : PlainName name) (written : Bytes) :
    parameter (name ++ equals :: written) = (name, percentDecode written) := by
  have inside : ∀ b ∈ name, decide (b ≠ equals) = true := fun b member =>
    decide_eq_true fun same => plain.separators equals (by simp) (same ▸ member)
  rw [parameter, List.takeWhile_append_of_pos inside, List.dropWhile_append_of_pos inside]
  simp [plain.unread]

section

variable {part : Bytes} (noAmpersand : ampersand ∉ part) (noHash : hash ∉ part)

include noAmpersand noHash

theorem read_single : read part = [parameter part] := by
  have whole := takeWhile_hash noHash []
  rw [List.append_nil, List.takeWhile_nil, List.append_nil] at whole
  rw [read, whole, List.splitOn_eq_singleton noAmpersand]
  rfl

theorem read_cons (rest : Bytes) :
    read (part ++ ampersand :: rest) = parameter part :: read rest := by
  have other : (ampersand :: rest).takeWhile (· ≠ hash) =
      ampersand :: rest.takeWhile (· ≠ hash) := List.takeWhile_cons_of_pos (by decide)
  rw [read, takeWhile_hash noHash, other, List.splitOn_append_cons_self_of_not_mem noAmpersand]
  rfl

/-- What follows a separator is no part of the first parameter. -/
theorem head_read {b : UInt8} (separator : b = ampersand ∨ b = hash) (rest : Bytes) :
    (read (part ++ b :: rest)).head? = some (parameter part) := by
  rcases separator with rfl | rfl
  · rw [read_cons noAmpersand noHash, List.head?_cons]
  · have cut : (part ++ hash :: rest).takeWhile (· ≠ hash) = part := by
      rw [takeWhile_hash noHash, List.takeWhile_cons_of_neg (by decide), List.append_nil]
    rw [read, cut, List.splitOn_eq_singleton noAmpersand]
    rfl

end

/-- A name and what is written after it hold no separator when the latter does
not. -/
theorem notMem_part {b : UInt8} (separator : b = ampersand ∨ b = hash) {name written : Bytes}
    (plain : PlainName name) (none : b ∉ written) : b ∉ name ++ equals :: written := by
  have other : b ≠ equals := by
    rintro rfl
    exact absurd separator (by decide)
  have inName : b ∉ name := by
    apply plain.separators b
    rcases separator with rfl | rfl <;> simp
  simp [inName, none, other]

/-- A byte that ends no parameter. -/
def inside (b : UInt8) : Bool := decide (b ≠ ampersand ∧ b ≠ hash)

/-- A value with a separator is cut short. -/
theorem head_read_part {name written : Bytes} (plain : PlainName name)
    (separated : ampersand ∈ written ∨ hash ∈ written) (rest : Bytes) :
    ∃ value : Bytes, (read (name ++ equals :: (written ++ rest))).head? = some (name, value) ∧
      value.length < written.length := by
  have front : ∀ b ∈ written.takeWhile inside, b ≠ ampersand ∧ b ≠ hash := by
    intro b member
    have own : inside b = true := List.mem_takeWhile_imp member
    exact of_decide_eq_true own
  have whole : written.takeWhile inside ++ written.dropWhile inside = written :=
    List.takeWhile_append_dropWhile
  cases back : written.dropWhile inside with
  | nil =>
    have all := List.dropWhile_eq_nil_iff.mp back
    rcases separated with member | member
    · exact absurd (all _ member) (by decide)
    · exact absurd (all _ member) (by decide)
  | cons b back' =>
    have separator : b = ampersand ∨ b = hash := by
      have stopped := List.head?_dropWhile_not inside written
      rw [back] at stopped
      simpa [inside, or_iff_not_imp_left] using stopped
    rw [back] at whole
    refine ⟨percentDecode (written.takeWhile inside), ?_, ?_⟩
    · have ampersands := notMem_part (.inl rfl) plain fun member =>
        (front _ member).1 rfl
      have hashes := notMem_part (.inr rfl) plain fun member => (front _ member).2 rfl
      have head := head_read ampersands hashes separator (back' ++ rest)
      rw [parameter_part plain] at head
      rw [← head]
      conv_lhs => rw [← whole]
      simp only [List.append_assoc, List.cons_append]
    · have short := length_percentDecode_le (written.takeWhile inside)
      have length := congrArg List.length whole
      rw [List.length_append, List.length_cons] at length
      omega

/-- **Queries.** A query is read as it is meant exactly when each parameter is;
a value that was not encoded is as long as what is written of it. -/
theorem read_iff {ps : List Parameter} (nonempty : ps ≠ []) (names : ∀ p ∈ ps, PlainName p.name)
    (raw : ∀ p ∈ ps, p.Carried ∨ p.written = p.value) :
    read (join (ps.map Parameter.part)) = ps.map (fun p => (p.name, p.value)) ↔
      ∀ p ∈ ps, p.Carried := by
  induction ps with
  | nil => exact absurd rfl nonempty
  | cons p ps ih =>
    have plain := names p List.mem_cons_self
    have carried_iff (none : ampersand ∉ p.written) (none' : hash ∉ p.written) :
        parameter p.part = (p.name, p.value) ↔ p.Carried := by
      rw [Parameter.part, parameter_part plain, Prod.mk.injEq]
      exact ⟨fun same => ⟨none, none', same.2⟩, fun carried => ⟨rfl, carried.value⟩⟩
    rw [List.forall_mem_cons, List.map_cons, List.map_cons]
    by_cases separated : ampersand ∈ p.written ∨ hash ∈ p.written
    · refine iff_of_false ?_ ?_
      · intro same
        obtain ⟨value, head, short⟩ := head_read_part plain separated
          ((ps.map Parameter.part).flatMap fun part => ampersand :: part)
        have text : join (p.part :: ps.map Parameter.part) =
            p.name ++ equals :: (p.written ++
              (ps.map Parameter.part).flatMap fun part => ampersand :: part) := by
          simp only [join, Parameter.part, List.append_assoc, List.cons_append]
        rw [← text, same, List.head?_cons, Option.some.injEq, Prod.mk.injEq] at head
        rcases raw p List.mem_cons_self with carried | whole
        · exact separated.elim carried.ampersand carried.hash
        · rw [whole, head.2] at short
          exact lt_irrefl _ short
      · rintro ⟨carried, -⟩
        exact separated.elim carried.ampersand carried.hash
    · rw [not_or] at separated
      have ampersands := notMem_part (.inl rfl) plain separated.1
      have hashes := notMem_part (.inr rfl) plain separated.2
      cases ps with
      | nil =>
        have text : join [p.part] = p.name ++ equals :: p.written := List.append_nil _
        rw [List.map_nil, List.map_nil, text, read_single ampersands hashes, List.cons.injEq,
          ← Parameter.part, carried_iff separated.1 separated.2]
        simp
      | cons q ps =>
        have rest := ih (by simp) (fun p member => names p (List.mem_cons_of_mem _ member))
          fun p member => raw p (List.mem_cons_of_mem _ member)
        have text : join (p.part :: (q :: ps).map Parameter.part) =
            p.part ++ ampersand :: join ((q :: ps).map Parameter.part) := by
          simp [join]
        rw [text, Parameter.part, read_cons ampersands hashes, ← Parameter.part, List.cons.injEq,
          carried_iff separated.1 separated.2, rest]

end EcfDgii.QueryStrings
