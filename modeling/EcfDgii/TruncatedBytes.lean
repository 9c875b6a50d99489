import EcfDgii.Utf8
import EcfDgii.XmlFormats

/-!
What `truncateUtf8` keeps.

The loop of the source walks over the bytes with an index and counts the units
it passes: a whole sequence, or a single byte that belongs to none.
`truncateLoop` is that loop, every byte read under a check of its index;
`truncateLoop_eq` says that no check fails and that the loop stops after the
units that `truncateBytes` keeps.  On UTF-8 the units are the code points
(`truncate_encode`).
-/

set_option autoImplicit false

namespace EcfDgii.TruncatedBytes

open EcfDgii.XmlFormats EcfDgii.Utf8

/-! ## The loop -/

/-- `charLen`; nothing for a byte that begins no sequence. -/
def charLen (c : Char) : Option ℕ :=
  if c.toNat < 0x80 then some 1
  else if 0xc0 ≤ c.toNat ∧ c.toNat < 0xe0 then some 2
  else if 0xe0 ≤ c.toNat ∧ c.toNat < 0xf0 then some 3
  else if 0xf0 ≤ c.toNat ∧ c.toNat < 0xf8 then some 4
  else none

/-- `validContinuation`: the loop over some bytes from an index on. -/
def validContinuation (str : List Char) : ℕ → ℕ → Option Bool
  | _, 0 => some true
  | index, k + 1 =>
    match str[index]? with
    | none => none
    | some cont => if isContinuation cont then validContinuation str (index + 1) k else some false

/-- The loop of `truncateUtf8`: `byteIndex` and `charCount` at its end, or nothing
when a byte past the end is read. -/
def truncateLoop (str : List Char) (maxChars byteIndex charCount : ℕ) : Option (ℕ × ℕ) :=
  if byteIndex < str.length ∧ charCount < maxChars then
    match str[byteIndex]? with
    | none => none
    | some c =>
      match charLen c with
      | none => truncateLoop str maxChars (byteIndex + 1) (charCount + 1)
      | some len =>
        if str.length < byteIndex + len then some (byteIndex, charCount)
        else
          match validContinuation str (byteIndex + 1) (len - 1) with
          | none => none
          | some false => truncateLoop str maxChars (byteIndex + 1) (charCount + 1)
          | some true => truncateLoop str maxChars (byteIndex + len) (charCount + 1)
  else some (byteIndex, charCount)
termination_by maxChars - charCount

/-! ## Units -/

/-- The units that are kept. -/
def units : ℕ → List Char → List (List Char)
  | 0, _ => []
  | _ + 1, [] => []
  | n + 1, c :: cs =>
    if (c :: cs).length < utf8Length c then []
    else if (cs.take (utf8Length c - 1)).all isContinuation then
      (c :: cs.take (utf8Length c - 1)) :: units n (cs.drop (utf8Length c - 1))
    else [c] :: units n cs

/-- A byte, or the bytes of a sequence. -/
def IsUnit (unit : List Char) : Prop :=
  ∃ c rest, unit = c :: rest ∧
    (rest = [] ∨ rest.length + 1 = utf8Length c ∧ rest.all isContinuation = true)

theorem truncateBytes_eq (n : ℕ) (s : List Char) : truncateBytes n s = (units n s).flatten := by
  fun_induction units n s with
  | case1 => rfl
  | case2 => rfl
  | case3 n c cs short => rw [truncateBytes, if_pos short, List.flatten_nil]
  | case4 n c cs long whole ih =>
    rw [truncateBytes, if_neg long, if_pos whole, ih, List.flatten_cons]
  | case5 n c cs long broken ih =>
    rw [truncateBytes, if_neg long, if_neg broken, ih, List.flatten_cons, List.singleton_append]

theorem length_units_le (n : ℕ) (s : List Char) : (units n s).length ≤ n := by
  fun_induction units n s with
  | case1 => exact le_rfl
  | case2 => exact Nat.zero_le _
  | case3 => exact Nat.zero_le _
  | case4 n c cs _ _ ih => exact Nat.succ_le_succ ih
  | case5 n c cs _ _ ih => exact Nat.succ_le_succ ih

theorem flatten_units_start (n : ℕ) (s : List Char) : (units n s).flatten <+: s := by
  fun_induction units n s with
  | case1 => exact List.nil_prefix
  | case2 => exact List.nil_prefix
  | case3 => exact List.nil_prefix
  | case4 n c cs _ _ ih =>
    rw [List.flatten_cons, List.cons_append, List.prefix_cons_inj]
    conv_rhs => rw [← List.take_append_drop (utf8Length c - 1) cs]
    exact (List.prefix_append_right_inj _).mpr ih
  | case5 n c cs _ _ ih =>
    rw [List.flatten_cons, List.singleton_append, List.prefix_cons_inj]
    exact ih

theorem utf8Length_pos (c : Char) : 0 < utf8Length c := by
  unfold utf8Length
  split_ifs <;> decide

theorem isUnit_of_mem (n : ℕ) (s : List Char) : ∀ unit ∈ units n s, IsUnit unit := by
  fun_induction units n s with
  | case1 => simp
  | case2 => simp
  | case3 => simp
  | case4 n c cs long whole ih =>
    rw [List.forall_mem_cons]
    refine ⟨⟨c, _, rfl, .inr ⟨?_, whole⟩⟩, ih⟩
    have pos := utf8Length_pos c
    rw [List.length_cons] at long
    rw [List.length_take]
    omega
  | case5 n c cs _ _ ih =>
    rw [List.forall_mem_cons]
    exact ⟨⟨c, [], rfl, .inl rfl⟩, ih⟩

/-! ## The loop passes over the units -/

theorem charLen_eq_none {c : Char} (none : charLen c = none) : utf8Length c = 1 := by
  unfold charLen at none
  unfold utf8Length
  split_ifs at none with one two three four
  rw [if_neg two, if_neg three, if_neg four]

theorem charLen_eq_some {c : Char} {len : ℕ} (known : charLen c = some len) :
    utf8Length c = len := by
  unfold charLen at known
  unfold utf8Length
  split_ifs at known with one two three four <;> obtain rfl := Option.some.inj known
  · rw [if_neg (by omega), if_neg (by omega), if_neg (by omega)]
  · rw [if_pos two]
  · rw [if_neg two, if_pos three]
  · rw [if_neg two, if_neg three, if_pos four]

/-- The inner loop reads inside the text. -/
theorem validContinuation_eq {str : List Char} (k : ℕ) {index : ℕ} (inside : index + k ≤ str.length) :
    validContinuation str index k = some (((str.drop index).take k).all isContinuation) := by
  induction k generalizing index with
  | zero => simp [validContinuation]
  | succ k ih =>
    have here : index < str.length := by omega
    have later := @ih (index + 1) (by omega)
    rw [validContinuation, List.getElem?_eq_getElem here, List.drop_eq_getElem_cons here,
      List.take_succ_cons, List.all_cons]
    dsimp only
    by_cases continues : isContinuation str[index] = true
    · rw [if_pos continues, later, continues, Bool.true_and]
    · rw [if_neg continues, Bool.eq_false_iff.mpr continues, Bool.false_and]

/-- **The loop.** From inside the text on it reads no byte past the end, and stops
after the units that are left to keep. -/
theorem truncateLoop_eq {str : List Char} {maxChars : ℕ} (left : ℕ) {byteIndex charCount : ℕ}
    (inside : byteIndex ≤ str.length) (count : charCount + left = maxChars) :
    truncateLoop str maxChars byteIndex charCount =
      some (byteIndex + (units left (str.drop byteIndex)).flatten.length,
        charCount + (units left (str.drop byteIndex)).length) := by
  induction left generalizing byteIndex charCount with
  | zero =>
    rw [truncateLoop, if_neg (by omega)]
    simp [units]
  | succ left ih =>
    by_cases here : byteIndex < str.length
    · have going : byteIndex < str.length ∧ charCount < maxChars := by omega
      have next := @ih (byteIndex + 1) (charCount + 1) (by omega) (by omega)
      have alone : units (left + 1) (str.drop byteIndex) =
            [str[byteIndex]] :: units left (str.drop (byteIndex + 1)) →
          truncateLoop str maxChars (byteIndex + 1) (charCount + 1) =
            some (byteIndex + (units (left + 1) (str.drop byteIndex)).flatten.length,
              charCount + (units (left + 1) (str.drop byteIndex)).length) := by
        intro kept
        rw [next, kept]
        simp only [List.flatten_cons, List.length_append, List.length_cons, List.length_nil,
          Option.some.injEq, Prod.mk.injEq]
        omega
      have kept : units (left + 1) (str.drop byteIndex) =
          units (left + 1) (str[byteIndex] :: str.drop (byteIndex + 1)) := by
        rw [List.drop_eq_getElem_cons here]
      have length : (str[byteIndex] :: str.drop (byteIndex + 1)).length =
          str.length - byteIndex := by
        rw [List.length_cons, List.length_drop]
        omega
      rw [truncateLoop, if_pos going, List.getElem?_eq_getElem here]
      dsimp only
      cases len : charLen str[byteIndex] with
      | none =>
        have one := charLen_eq_none len
        apply alone
        rw [kept, units, one, if_neg (by omega)]
        simp
      | some len' =>
        have same := charLen_eq_some len
        have pos := utf8Length_pos str[byteIndex]
        dsimp only
        by_cases short : str.length < byteIndex + len'
        · rw [if_pos short, kept, units, if_pos (by omega)]
          simp
        · have valid := @validContinuation_eq str (len' - 1) (byteIndex + 1) (by omega)
          rw [if_neg short, valid]
          cases whole : ((str.drop (byteIndex + 1)).take (len' - 1)).all isContinuation with
          | false =>
            apply alone
            rw [kept, units, if_neg (by omega), same, whole, if_neg Bool.false_ne_true]
          | true =>
            have skip := @ih (byteIndex + len') (charCount + 1) (by omega) (by omega)
            have rest : (str.drop (byteIndex + 1)).drop (len' - 1) =
                str.drop (byteIndex + len') := by
              rw [List.drop_drop]
              congr 1
              omega
            dsimp only
            rw [skip, kept, units, if_neg (by omega), same, whole, if_pos rfl, rest]
            simp only [List.flatten_cons, List.length_append, List.length_cons, List.length_take,
              List.length_drop, Option.some.injEq, Prod.mk.injEq]
            omega
    · rw [truncateLoop, if_neg (by omega), List.drop_eq_nil_of_le (by omega)]
      simp [units]

/-! ## Code points -/

theorem isContinuation_of_follows {c : Char} (follows : Follows c) : isContinuation c = true := by
  rw [isContinuation, Bool.and_eq_true, decide_eq_true_eq, decide_eq_true_eq]
  exact follows

theorem utf8Length_of_leads {c : Char} {n : ℕ} (leads : Leads c n) : utf8Length c = n + 1 := by
  unfold utf8Length
  cases leads with
  | one low => rw [if_neg (by omega), if_neg (by omega), if_neg (by omega)]
  | two range => rw [if_pos range]
  | three range => rw [if_neg (by omega), if_pos range]
  | four range => rw [if_neg (by omega), if_neg (by omega), if_pos range]

/-- **Code points.** Of UTF-8 the first code points are kept. -/
theorem truncate_encode (n : ℕ) (cs : List Char) :
    truncateBytes n (encode cs) = encode (cs.take n) := by
  induction n generalizing cs with
  | zero => rw [truncateBytes, List.take_zero, encode_nil]
  | succ n ih =>
    cases cs with
    | nil => rfl
    | cons c cs =>
      obtain ⟨lead, rest, bytes, leads, follow⟩ := encodeChar_shape c
      have length := utf8Length_of_leads leads
      have continues : rest.all isContinuation = true :=
        List.all_eq_true.mpr fun d member => isContinuation_of_follows (follow d member)
      rw [List.take_succ_cons, encode_cons, encode_cons, bytes, List.cons_append, truncateBytes,
        length, Nat.add_sub_cancel, List.take_left, List.drop_left, if_neg (by simp), continues,
        if_pos rfl, ih, List.cons_append]

/-! ## The property -/

/-- **Cut between code points.** -/
structure CutsOnCodePoints (s : List Char) (n : ℕ) : Prop where
  /-- Of UTF-8, the first code points. -/
  valid : ∀ cs, s = encode cs →
    (truncateUtf8 (String.ofList s) n).toList = encode (cs.take (min n cs.length)) ∧
      ∀ m, truncateUtf8 (truncateUtf8 (String.ofList s) m) n =
        truncateUtf8 (String.ofList s) (min m n)
  /-- Of any bytes, the units that the loop passed. -/
  every : ∃ (byteIndex charCount : ℕ) (kept : List (List Char)),
    truncateLoop s n 0 0 = some (byteIndex, charCount) ∧ byteIndex ≤ s.length ∧ charCount ≤ n ∧
    (truncateUtf8 (String.ofList s) n).toList = s.take byteIndex ∧
    kept.flatten = s.take byteIndex ∧ kept.length = charCount ∧ ∀ unit ∈ kept, IsUnit unit

/-- **Truncation.** The loop ends on every text, inside the text and after at most
`n` units, and cuts no code point. -/
theorem truncateUtf8_cuts (s : List Char) (n : ℕ) : CutsOnCodePoints s n := by
  constructor
  · rintro cs rfl
    have cut (n : ℕ) : (truncateUtf8 (String.ofList (encode cs)) n).toList =
        encode (cs.take n) := by
      rw [truncateUtf8, String.toList_ofList, String.toList_ofList, truncate_encode]
    refine ⟨by rw [cut, ← List.take_eq_take_min], fun m => ?_⟩
    rw [← String.toList_inj, truncateUtf8, cut, String.toList_ofList, truncate_encode, cut,
      List.take_take, Nat.min_comm]
  · have front := List.prefix_iff_eq_take.mp (flatten_units_start n s)
    have loop := @truncateLoop_eq s n n 0 0 (Nat.zero_le _) (Nat.zero_add n)
    rw [List.drop_zero, Nat.zero_add, Nat.zero_add] at loop
    refine ⟨_, _, units n s, loop, (flatten_units_start n s).length_le, length_units_le n s, ?_,
      front, rfl, isUnit_of_mem n s⟩
    rw [truncateUtf8, String.toList_ofList, String.toList_ofList, truncateBytes_eq, ← front]

-- an incomplete sequence at the end, and a stray byte
example : truncateLoop ['a', '\xc3', '\xb3', '\x80', 'b', '\xe2', '\x82'] 9 0 0 = some (5, 4) := by
  decide +kernel

end EcfDgii.TruncatedBytes
