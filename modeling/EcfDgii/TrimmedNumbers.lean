import EcfDgii.PrintedAmounts

/-!
Quantities and prices without the zeros at their end.

`formatPrice4` and `formatQty2` print a fixed number of decimals and then pop
characters from the end of the text in a loop.  `popZeros` and `popDecimals` are
these loops, on any text from its last character on; `Trims` says what they may
do to a decimal: zeros behind the point are removed, the point with them when
nothing is left behind it, and nothing before it.  The formats are the loops on
what was printed (`formatPrice4_eq`, `formatQty2_eq`), so a trimmed number is the
rounded one (`trimmed_numbers_exact`).
-/

set_option autoImplicit false

namespace EcfDgii.TrimmedNumbers

open EcfDgii.Text EcfDgii.Timestamps EcfDgii.XmlFormats EcfDgii.PrintedAmounts EcfDgii.Rounding

/-! ## The loops -/

/-- The loop of `formatPrice4`, from the last character on: zeros are popped while
more characters are there than have to stay. -/
def popZeros (stay : ℕ) : List Char → List Char
  | [] => []
  | c :: rest => if stay < (c :: rest).length ∧ c = '0' then popZeros stay rest else c :: rest

/-- `formatPrice4`, behind the printing: two decimals have to stay. -/
def trimPrice (s : List Char) : List Char :=
  match s.findIdx? (· = '.') with
  | some dot => (popZeros (dot + 3) s.reverse).reverse
  | none => s

/-- The loop of `formatQty2`, from the last character on: it breaks behind the
point. -/
def popDecimals : List Char → List Char
  | [] => []
  | c :: rest =>
    if '.' ∈ c :: rest ∧ (c = '0' ∨ c = '.') then
      if c = '.' then rest else popDecimals rest
    else c :: rest

/-- `formatQty2`, behind the printing. -/
def trimQty (s : List Char) : List Char := (popDecimals s.reverse).reverse

/-! ## What they remove -/

/-- A decimal without the zeros at its end: what stands before the point is kept,
and of the decimals at least so many, no zero last unless it has to stay; the
point goes when no decimal is kept. -/
def Trims (least : ℕ) (full text : List Char) : Prop :=
  ∃ whole kept zeros, '.' ∉ whole ∧ '.' ∉ kept ∧
    full = whole ++ '.' :: (kept ++ List.replicate zeros '0') ∧
    text = (if kept = [] then whole else whole ++ '.' :: kept) ∧
    least ≤ kept.length ∧ (kept.getLast? = some '0' → kept.length = least)

variable {whole fraction : List Char}

/-- The last decimal of a text. -/
theorem reverse_last (whole front : List Char) (c : Char) :
    (whole ++ '.' :: (front ++ [c])).reverse = c :: (whole ++ '.' :: front).reverse := by
  simp

/-- The loop of `formatPrice4` on a decimal. -/
theorem popZeros_decimal (whole : List Char) (long : 2 ≤ fraction.length) :
    ∃ kept zeros, fraction = kept ++ List.replicate zeros '0' ∧ 2 ≤ kept.length ∧
      (kept.getLast? = some '0' → kept.length = 2) ∧
      popZeros (whole.length + 3) (whole ++ '.' :: fraction).reverse =
        (whole ++ '.' :: kept).reverse := by
  induction fraction using List.reverseRecOn with
  | nil => exact absurd long (by decide)
  | append_singleton front c ih =>
    rw [List.length_append, List.length_singleton] at long
    have length : (c :: (whole ++ '.' :: front).reverse).length =
        whole.length + front.length + 2 := by
      simp only [List.length_cons, List.length_reverse, List.length_append]
      omega
    rw [reverse_last, popZeros, length]
    by_cases pops : 2 ≤ front.length ∧ c = '0'
    · obtain ⟨kept, zeros, split, least, last, popped⟩ := ih pops.1
      rw [if_pos ⟨by omega, pops.2⟩]
      refine ⟨kept, zeros + 1, ?_, least, last, popped⟩
      rw [split, pops.2, List.append_assoc, List.replicate_succ']
    · rw [if_neg fun loop => pops ⟨by omega, loop.2⟩]
      refine ⟨front ++ [c], 0, by simp, by simpa using long, fun last => ?_, (reverse_last ..).symm⟩
      have zero : c = '0' := by simpa using last
      have short : ¬ 2 ≤ front.length := fun more => pops ⟨more, zero⟩
      rw [List.length_append, List.length_singleton]
      omega

/-- The loop of `formatQty2` on a decimal. -/
theorem popDecimals_decimal (whole : List Char) (digits : '.' ∉ fraction) :
    ∃ kept zeros, fraction = kept ++ List.replicate zeros '0' ∧ kept.getLast? ≠ some '0' ∧
      popDecimals (whole ++ '.' :: fraction).reverse =
        (if kept = [] then whole else whole ++ '.' :: kept).reverse := by
  induction fraction using List.reverseRecOn with
  | nil =>
    refine ⟨[], 0, rfl, nofun, ?_⟩
    rw [List.reverse_append, List.reverse_singleton, List.singleton_append, popDecimals,
      if_pos ⟨List.mem_cons_self, .inr rfl⟩, if_pos rfl, if_pos rfl]
  | append_singleton front c ih =>
    rw [List.mem_append, List.mem_singleton, not_or] at digits
    have point : '.' ∈ c :: (whole ++ '.' :: front).reverse := by simp
    rw [reverse_last, popDecimals]
    by_cases zero : c = '0'
    · obtain ⟨kept, zeros, split, last, popped⟩ := ih digits.1
      rw [if_pos ⟨point, .inl zero⟩, if_neg fun same => digits.2 same.symm]
      refine ⟨kept, zeros + 1, ?_, last, popped⟩
      rw [split, zero, List.append_assoc, List.replicate_succ']
    · rw [if_neg fun loop => loop.2.elim zero fun same => digits.2 same.symm]
      refine ⟨front ++ [c], 0, by simp, by simpa using zero, ?_⟩
      rw [if_neg (by simp), reverse_last]

/-- The point of a decimal. -/
theorem findIdx_point (first : '.' ∉ whole) (fraction : List Char) :
    (whole ++ '.' :: fraction).findIdx? (· = '.') = some whole.length := by
  have before : whole.findIdx? (· = '.') = none :=
    List.findIdx?_eq_none_iff.mpr fun c member => decide_eq_false fun same =>
      first (same ▸ member)
  rw [List.findIdx?_append, before, List.findIdx?_cons]
  simp

theorem trimPrice_trims (first : '.' ∉ whole) (digits : '.' ∉ fraction)
    (long : 2 ≤ fraction.length) :
    Trims 2 (whole ++ '.' :: fraction) (trimPrice (whole ++ '.' :: fraction)) := by
  obtain ⟨kept, zeros, split, least, last, popped⟩ := popZeros_decimal whole long
  have some_kept : kept ≠ [] := List.ne_nil_of_length_pos (by omega)
  have pointless : '.' ∉ kept := fun member =>
    digits (split ▸ List.mem_append_left _ member)
  refine ⟨whole, kept, zeros, first, pointless, by rw [split], ?_, least, last⟩
  rw [trimPrice, findIdx_point first, if_neg some_kept]
  dsimp only
  rw [popped, List.reverse_reverse]

theorem trimQty_trims (first : '.' ∉ whole) (digits : '.' ∉ fraction) :
    Trims 0 (whole ++ '.' :: fraction) (trimQty (whole ++ '.' :: fraction)) := by
  obtain ⟨kept, zeros, split, last, popped⟩ := popDecimals_decimal whole digits
  have pointless : '.' ∉ kept := fun member =>
    digits (split ▸ List.mem_append_left _ member)
  refine ⟨whole, kept, zeros, first, pointless, by rw [split], ?_, Nat.zero_le _,
    fun zero => absurd zero last⟩
  rw [trimQty, popped, List.reverse_reverse]

/-! ## The formats -/

/-- `formatPrice4` is its loop on what it prints. -/
theorem formatPrice4_eq (value : ℚ) :
    formatPrice4 value = String.ofList (trimPrice (fixedDigits 4 value)) := by
  obtain ⟨whole, fraction, text, first, -, length⟩ :=
    point_fixedDigits (by decide : 0 < 4) value
  obtain ⟨a, b, c, d, rfl⟩ : ∃ a b c d, fraction = [a, b, c, d] :=
    List.length_eq_four.mp length
  have reversed : (whole ++ '.' :: [a, b, c, d]).reverse =
      d :: c :: b :: a :: '.' :: whole.reverse := by simp
  have stays : popZeros (whole.length + 3) (b :: a :: '.' :: whole.reverse) =
      b :: a :: '.' :: whole.reverse := by
    rw [popZeros, if_neg]
    simp
  rw [formatPrice4, trimPrice, text, findIdx_point first, reversed]
  dsimp only
  congr 1
  split
  · next rest two =>
    obtain ⟨last, two⟩ := List.cons.inj two
    obtain ⟨third, rfl⟩ := List.cons.inj two
    rw [popZeros, if_pos ⟨by simp, last⟩, popZeros, if_pos ⟨by simp, third⟩, stays]
  · next rest other one =>
    obtain ⟨last, rfl⟩ := List.cons.inj one
    have kept : c ≠ '0' := fun zero => other _ (by rw [zero])
    rw [popZeros, if_pos ⟨by simp, last⟩, popZeros, if_neg fun loop => kept loop.2]
  · next rest other single =>
    have kept : d ≠ '0' := fun zero => single _ (by rw [zero])
    rw [popZeros, if_neg fun loop => kept loop.2]

/-- `formatQty2` is its loop on what it prints. -/
theorem formatQty2_eq (value : ℚ) :
    formatQty2 value = String.ofList (trimQty (fixedDigits 2 value)) := by
  obtain ⟨whole, fraction, text, -, digits, length⟩ :=
    point_fixedDigits (by decide : 0 < 2) value
  obtain ⟨a, b, rfl⟩ : ∃ a b, fraction = [a, b] := List.length_eq_two.mp length
  have reversed : (whole ++ '.' :: [a, b]).reverse = b :: a :: '.' :: whole.reverse := by simp
  rw [formatQty2, trimQty, text, reversed]
  rw [List.mem_cons, List.mem_singleton, not_or] at digits
  have pops {kept : List Char} (point : '.' ∈ kept) :
      popDecimals ('0' :: kept) = popDecimals kept := by
    rw [popDecimals, if_pos ⟨List.mem_cons_of_mem _ point, .inl rfl⟩, if_neg (by decide)]
  have stops {c : Char} (kept : List Char) (point : '.' ≠ c) (other : c ≠ '0') :
      popDecimals (c :: kept) = c :: kept := by
    rw [popDecimals, if_neg fun loop => loop.2.elim other point.symm]
  congr 1
  split
  · next rest two =>
    obtain ⟨rfl, one⟩ := List.cons.inj two
    obtain ⟨rfl, both⟩ := List.cons.inj one
    obtain ⟨-, rfl⟩ := List.cons.inj both
    rw [pops (by simp), pops (by simp), popDecimals, if_pos (by simp), if_pos rfl]
  · next rest other one =>
    obtain ⟨rfl, rfl⟩ := List.cons.inj one
    have kept : a ≠ '0' := fun zero => other _ (by rw [zero])
    rw [pops (by simp), stops _ digits.1 kept]
  · next rest other single =>
    have kept : b ≠ '0' := fun zero => single _ (by rw [zero])
    rw [stops _ digits.2 kept]

/-- **Trimmed numbers keep their value.** A quantity is printed as the amount
rounded to two decimals and a price as the amount rounded to four; of what was
printed only zeros behind the point are removed, and the point of a quantity with
no decimal left; a price keeps two decimals. -/
theorem trimmed_numbers_exact (value : ℚ) :
    decimalValue (formatQty2 value).toList = cents .even value ∧
      decimalValue (formatPrice4 value).toList = nearest .even 10000 value ∧
      Trims 0 (fixedDigits 2 value) (formatQty2 value).toList ∧
      Trims 2 (fixedDigits 4 value) (formatPrice4 value).toList := by
  refine ⟨decimalValue_formatQty2 value, decimalValue_formatPrice4 value, ?_, ?_⟩
  · obtain ⟨whole, fraction, text, first, digits, -⟩ :=
      point_fixedDigits (by decide : 0 < 2) value
    rw [formatQty2_eq, String.toList_ofList, text]
    exact trimQty_trims first digits
  · obtain ⟨whole, fraction, text, first, digits, length⟩ :=
      point_fixedDigits (by decide : 0 < 4) value
    rw [formatPrice4_eq, String.toList_ofList, text]
    exact trimPrice_trims first digits (by omega)

end EcfDgii.TrimmedNumbers
