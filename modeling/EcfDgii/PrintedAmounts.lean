import EcfDgii.XmlFormats

/-!
The amounts of a document, read back from its text.

What DGII checks are the figures as they are printed.  `decimalValue` reads a
decimal, `printed` adds up the elements of a name among some lines.  The formats
of the builder print a value rounded, halves to the even digit, while the
builder's own `round2` takes them away from zero: `decimalValue_formatMoney2`
and its like.
-/

set_option autoImplicit false

namespace EcfDgii.PrintedAmounts

open EcfDgii.Text EcfDgii.Timestamps EcfDgii.Documents EcfDgii.Markup EcfDgii.XmlFormats
open EcfDgii.Rounding

/-! ## Rounding -/

theorem roundHalfAway_eq (scale : ℕ) (value : ℚ) :
    roundHalfAway scale value = nearest .away scale value := by
  unfold roundHalfAway nearest Ties.integer halfAway
  rfl

theorem round2_eq (value : ℚ) : round2 value = nearest .away 100 value :=
  roundHalfAway_eq 100 value

theorem round4_eq (value : ℚ) : round4 value = nearest .away 10000 value :=
  roundHalfAway_eq 10000 value

/-- An amount in whole centavos: as `round2` rounds it, or as it is printed. -/
def cents (ties : Ties) (value : ℚ) : ℚ := nearest ties 100 value

theorem cents_away (value : ℚ) : cents .away value = round2 value := (round2_eq value).symm

/-- What is printed is what `round2` makes of an amount, exact halves of a centavo apart. -/
theorem cents_even_of_off {value : ℚ} (off : Int.fract (value * 100) ≠ 1 / 2) :
    cents .even value = round2 value := by
  rw [← cents_away, cents, cents, nearest_even, nearest_away]
  exact congrArg (fun whole : ℤ => (whole / (100 : ℕ) : ℚ)) (halfEven_eq_halfAway off)

/-! ## Decimals -/

/-- A decimal without a sign. -/
def unsignedValue (cs : List Char) : ℚ :=
  let whole := cs.takeWhile (· ≠ '.')
  let fraction := (cs.dropWhile (· ≠ '.')).drop 1
  Nat.ofDigitChars 10 (whole ++ fraction) 0 / 10 ^ fraction.length

/-- A decimal. -/
def decimalValue : List Char → ℚ
  | '-' :: cs => -unsignedValue cs
  | cs => unsignedValue cs

theorem decimalValue_unsigned {cs : List Char} (unsigned : cs.head? ≠ some '-') :
    decimalValue cs = unsignedValue cs := by
  unfold decimalValue
  split
  · exact absurd rfl unsigned
  · rfl

theorem takeWhile_point {whole : List Char} (digits : '.' ∉ whole) (fraction : List Char) :
    (whole ++ '.' :: fraction).takeWhile (· ≠ '.') = whole ∧
      (whole ++ '.' :: fraction).dropWhile (· ≠ '.') = '.' :: fraction := by
  have inside : ∀ c ∈ whole, decide (c ≠ '.') = true := fun c member =>
    decide_eq_true fun same => digits (same ▸ member)
  rw [List.takeWhile_append_of_pos inside, List.dropWhile_append_of_pos inside]
  simp

theorem unsignedValue_point {whole : List Char} (digits : '.' ∉ whole) (fraction : List Char) :
    unsignedValue (whole ++ '.' :: fraction) =
      Nat.ofDigitChars 10 (whole ++ fraction) 0 / 10 ^ fraction.length := by
  obtain ⟨before, after⟩ := takeWhile_point digits fraction
  rw [unsignedValue, before, after, List.drop_one, List.tail_cons]

theorem unsignedValue_whole {whole : List Char} (digits : '.' ∉ whole) :
    unsignedValue whole = Nat.ofDigitChars 10 whole 0 := by
  have inside : ∀ c ∈ whole, decide (c ≠ '.') = true := fun c member =>
    decide_eq_true fun same => digits (same ▸ member)
  have before : whole.takeWhile (· ≠ '.') = whole := List.takeWhile_eq_self_iff.mpr inside
  have after : whole.dropWhile (· ≠ '.') = [] := List.dropWhile_eq_nil_iff.mpr inside
  rw [unsignedValue, before, after, List.drop_nil, List.append_nil, List.length_nil, pow_zero,
    div_one]

/-- A zero at the end of a fraction counts for nothing. -/
theorem unsignedValue_zero {cs : List Char} (point : '.' ∈ cs) :
    unsignedValue (cs ++ ['0']) = unsignedValue cs := by
  obtain ⟨whole, fraction, rfl, digits⟩ := List.eq_append_cons_of_mem point
  have appended : whole ++ '.' :: fraction ++ ['0'] = whole ++ '.' :: (fraction ++ ['0']) := by
    simp
  have zero : Nat.ofDigitChars 10 (whole ++ (fraction ++ ['0'])) 0 =
      10 * Nat.ofDigitChars 10 (whole ++ fraction) 0 := by
    rw [← List.append_assoc, Nat.ofDigitChars_append]
    simp [Nat.ofDigitChars_cons]
  rw [appended, unsignedValue_point digits, unsignedValue_point digits, zero, List.length_append,
    List.length_singleton, pow_succ, Nat.cast_mul, Nat.cast_ofNat, mul_comm (10 : ℚ)]
  exact mul_div_mul_right _ _ (by norm_num)

theorem decimalValue_zero {cs : List Char} (point : '.' ∈ cs) :
    decimalValue (cs ++ ['0']) = decimalValue cs := by
  cases cs with
  | nil => cases point
  | cons c cs =>
    by_cases sign : c = '-'
    · subst sign
      have inside : '.' ∈ cs := by simpa using point
      exact congrArg Neg.neg (unsignedValue_zero inside)
    · rw [decimalValue_unsigned (by simpa using sign), decimalValue_unsigned (by simpa using sign),
        unsignedValue_zero point]

/-- Nor does a point with nothing behind it. -/
theorem decimalValue_point {cs : List Char} (digits : '.' ∉ cs) :
    decimalValue (cs ++ ['.']) = decimalValue cs := by
  have unsigned {whole : List Char} (digits : '.' ∉ whole) :
      unsignedValue (whole ++ ['.']) = unsignedValue whole := by
    rw [unsignedValue_point digits, unsignedValue_whole digits, List.append_nil, List.length_nil,
      pow_zero, div_one]
  cases cs with
  | nil => decide +kernel
  | cons c cs =>
    by_cases sign : c = '-'
    · subst sign
      have inside : '.' ∉ cs := fun h => digits (List.mem_cons_of_mem _ h)
      exact congrArg Neg.neg (unsigned inside)
    · rw [decimalValue_unsigned (by simpa using sign), decimalValue_unsigned (by simpa using sign),
        unsigned digits]

/-! ## The formats of the builder -/

theorem point_notMem_digits {cs : List Char} (digits : ∀ c ∈ cs, c.isDigit = true) :
    '.' ∉ cs := by
  intro member
  have digit := digits '.' member
  revert digit
  decide

/-- Digits cut off at the end are divided out. -/
theorem ofDigitChars_take {cs : List Char} (digits : ∀ c ∈ cs, c.isDigit = true) (k : ℕ) :
    Nat.ofDigitChars 10 (cs.take k) 0 = Nat.ofDigitChars 10 cs 0 / 10 ^ (cs.length - k) := by
  have small := ofDigitChars_lt fun c (member : c ∈ cs.drop k) =>
    digits c (List.mem_of_mem_drop member)
  have whole : Nat.ofDigitChars 10 cs 0 =
      10 ^ (cs.length - k) * Nat.ofDigitChars 10 (cs.take k) 0 +
        Nat.ofDigitChars 10 (cs.drop k) 0 := by
    conv_lhs => rw [← List.take_append_drop k cs, Nat.ofDigitChars_append,
      Nat.ofDigitChars_eq_ofDigitChars_zero, List.length_drop]
  rw [List.length_drop] at small
  rw [whole, Nat.mul_add_div (by positivity), Nat.div_eq_of_lt small, Nat.add_zero]

/-- A decimal cut off behind so many characters. -/
theorem unsignedValue_take {whole fraction : List Char}
    (digits : ∀ c ∈ whole ++ fraction, c.isDigit = true) (k : ℕ) :
    unsignedValue ((whole ++ '.' :: fraction).take k) =
      if k ≤ whole.length then ((Nat.ofDigitChars 10 whole 0 / 10 ^ (whole.length - k) : ℕ) : ℚ)
      else ((Nat.ofDigitChars 10 (whole ++ fraction) 0 /
          10 ^ (fraction.length - (k - whole.length - 1)) : ℕ) : ℚ) /
        10 ^ min (k - whole.length - 1) fraction.length := by
  have wholeDigits : ∀ c ∈ whole, c.isDigit = true := fun c member =>
    digits c (List.mem_append_left _ member)
  split
  · next short =>
    have inside : ∀ c ∈ whole.take k, c.isDigit = true := fun c member =>
      wholeDigits c (List.mem_of_mem_take member)
    rw [List.take_append_of_le_length short, unsignedValue_whole (point_notMem_digits inside),
      ofDigitChars_take wholeDigits]
  · next long =>
    obtain ⟨more, rfl⟩ : ∃ more, k = whole.length + (more + 1) := ⟨k - whole.length - 1, by omega⟩
    have left : whole.length + (more + 1) - whole.length - 1 = more := by omega
    have cut : whole ++ fraction.take more = (whole ++ fraction).take (whole.length + more) := by
      rw [List.take_length_add_append]
    have length : (whole ++ fraction).length - (whole.length + more) = fraction.length - more := by
      rw [List.length_append]
      omega
    rw [List.take_length_add_append, List.take_succ_cons,
      unsignedValue_point (point_notMem_digits wholeDigits), cut, ofDigitChars_take digits, length,
      left, List.length_take]

theorem digits_unsigned (n : ℕ) (rest : List Char) :
    (Nat.toDigits 10 n ++ rest).head? ≠ some '-' := by
  cases chars : Nat.toDigits 10 n with
  | nil => exact absurd chars Nat.toDigits_ne_nil
  | cons c cs =>
    have digit : c.isDigit = true := Nat.isDigit_of_mem_toDigits (by decide) (by decide)
      (chars ▸ List.mem_cons_self)
    intro sign
    rw [List.cons_append, List.head?_cons] at sign
    rw [Option.some.inj sign] at digit
    revert digit
    decide

/-- The sign of a fixed decimal, what stands before its point, and behind it. -/
theorem fixedDigits_eq (places : ℕ) (value : ℚ) :
    ∃ scaled : ℕ, nearest .even (10 ^ places) |value| = scaled / 10 ^ places ∧
      fixedDigits places value = (if value < 0 then ['-'] else []) ++
        (Nat.toDigits 10 (scaled / 10 ^ places) ++ '.' :: padded places (scaled % 10 ^ places)) := by
  have zero : halfEven (0 : ℚ) = 0 := integer_intCast .even 0
  have nonneg : 0 ≤ halfEven (|value| * 10 ^ places) := by
    rw [← zero]
    exact integer_mono .even (by positivity)
  have scaled : (((halfEven (|value| * 10 ^ places)).toNat : ℕ) : ℚ) =
      (halfEven (|value| * 10 ^ places) : ℤ) := by
    exact_mod_cast Int.toNat_of_nonneg nonneg
  refine ⟨_, ?_, rfl⟩
  rw [nearest, Ties.integer, scaled]
  push_cast
  rfl

theorem unsignedValue_fixed {places : ℕ} (pos : 0 < places) (scaled : ℕ) :
    unsignedValue (Nat.toDigits 10 (scaled / 10 ^ places) ++
      '.' :: padded places (scaled % 10 ^ places)) = scaled / 10 ^ places := by
  have digits : ∀ c ∈ Nat.toDigits 10 (scaled / 10 ^ places), c.isDigit = true := fun _ member =>
    Nat.isDigit_of_mem_toDigits (by decide) (by decide) member
  have fits : scaled % 10 ^ places < 10 ^ places := Nat.mod_lt _ (by positivity)
  have value : Nat.ofDigitChars 10 (Nat.toDigits 10 (scaled / 10 ^ places) ++
      padded places (scaled % 10 ^ places)) 0 = scaled := by
    rw [Nat.ofDigitChars_append, Nat.ofDigitChars_ten_toDigits,
      Nat.ofDigitChars_eq_ofDigitChars_zero, padded_value, length_padded pos fits]
    exact Nat.div_add_mod _ _
  rw [unsignedValue_point (point_notMem_digits digits), value, length_padded pos fits]

/-- A fixed decimal is read back rounded, halves to the even digit. -/
theorem decimalValue_fixedDigits {places : ℕ} (pos : 0 < places) (value : ℚ) :
    decimalValue (fixedDigits places value) = nearest .even (10 ^ places) value := by
  obtain ⟨scaled, magnitude, text⟩ := fixedDigits_eq places value
  rw [text]
  by_cases neg : value < 0
  · rw [if_pos neg, List.singleton_append, decimalValue, unsignedValue_fixed pos, ← magnitude,
      abs_of_neg neg, nearest_neg, neg_neg]
  · rw [if_neg neg, List.nil_append, decimalValue_unsigned (digits_unsigned _ _),
      unsignedValue_fixed pos,
      ← magnitude, abs_of_nonneg (not_lt.mp neg)]

/-- `formatMoney2` prints a value rounded to two decimals. -/
theorem decimalValue_formatMoney2 (value : ℚ) :
    decimalValue (formatMoney2 value).toList = cents .even value := by
  rw [formatMoney2, String.toList_ofList, decimalValue_fixedDigits (by decide), cents]
  norm_num

/-- A fixed decimal has its point before its decimals. -/
theorem point_fixedDigits {places : ℕ} (pos : 0 < places) (value : ℚ) :
    ∃ before after, fixedDigits places value = before ++ '.' :: after ∧ '.' ∉ before ∧
      '.' ∉ after ∧ after.length = places := by
  obtain ⟨scaled, -, text⟩ := fixedDigits_eq places value
  refine ⟨(if value < 0 then ['-'] else []) ++ Nat.toDigits 10 (scaled / 10 ^ places),
    padded places (scaled % 10 ^ places), by rw [text, List.append_assoc], ?_, ?_, ?_⟩
  · rw [List.mem_append, not_or]
    refine ⟨by split <;> decide, point_notMem_digits fun _ member => ?_⟩
    exact Nat.isDigit_of_mem_toDigits (by decide) (by decide) member
  · exact point_notMem_digits fun _ member => padded_digits member
  · exact length_padded pos (Nat.mod_lt _ (by positivity))

/-- How long an amount is: a sign, the digits before the point, and three more. -/
theorem length_formatMoney2_le_iff (value : ℚ) {width : ℕ} (pos : 0 < width) :
    (formatMoney2 value).toList.length ≤ (if value < 0 then 1 else 0) + width + 3 ↔
      |cents .even value| < 10 ^ width := by
  obtain ⟨scaled, magnitude, text⟩ := fixedDigits_eq 2 value
  have inCents : |cents .even value| = scaled / 100 := by
    rw [cents, abs_nearest (by decide)]
    norm_num at magnitude
    exact magnitude
  have sign : (if value < 0 then ['-'] else []).length = if value < 0 then 1 else 0 := by
    split <;> rfl
  have digits : (Nat.toDigits 10 (scaled / 10 ^ 2)).length ≤ width ↔
      (scaled : ℚ) / 100 < 10 ^ width := by
    rw [Nat.length_toDigits_le_iff (by decide) pos, Nat.div_lt_iff_lt_mul (by decide),
      div_lt_iff₀ (by norm_num)]
    norm_cast
  rw [inCents, ← digits, formatMoney2, String.toList_ofList, text, List.length_append, sign,
    List.length_append, List.length_cons, length_padded (by decide) (Nat.mod_lt _ (by decide))]
  omega

/-- `formatPrice4` prints a value rounded to four decimals. -/
theorem decimalValue_formatPrice4 (value : ℚ) :
    decimalValue (formatPrice4 value).toList = nearest .even 10000 value := by
  have whole : decimalValue (fixedDigits 4 value) = nearest .even 10000 value := by
    rw [decimalValue_fixedDigits (by decide)]
    norm_num
  have point : '.' ∈ fixedDigits 4 value := by
    obtain ⟨before, after, text, -⟩ := point_fixedDigits (by decide : 0 < 4) value
    simp [text]
  rw [formatPrice4, String.toList_ofList, ← whole]
  split
  · next rest reversed =>
    have text : fixedDigits 4 value = rest.reverse ++ ['0'] ++ ['0'] := by
      rw [← List.reverse_reverse (fixedDigits 4 value), reversed]
      simp
    rw [text] at point ⊢
    rw [decimalValue_zero (by simpa using point), decimalValue_zero (by simpa using point)]
  · next rest _ reversed =>
    have text : fixedDigits 4 value = rest.reverse ++ ['0'] := by
      rw [← List.reverse_reverse (fixedDigits 4 value), reversed]
      simp
    rw [text] at point ⊢
    rw [decimalValue_zero (by simpa using point)]
  · rw [List.reverse_reverse]

/-- `formatQty2` prints a value rounded to two decimals. -/
theorem decimalValue_formatQty2 (value : ℚ) :
    decimalValue (formatQty2 value).toList = cents .even value := by
  have whole : decimalValue (fixedDigits 2 value) = cents .even value := by
    rw [decimalValue_fixedDigits (by decide), cents]
    norm_num
  have count : (fixedDigits 2 value).count '.' = 1 := by
    obtain ⟨before, after, text, first, second, -⟩ :=
      point_fixedDigits (by decide : 0 < 2) value
    rw [text, List.count_append, List.count_cons_self, List.count_eq_zero_of_not_mem first,
      List.count_eq_zero_of_not_mem second]
  rw [formatQty2, String.toList_ofList, ← whole]
  split
  · next rest reversed =>
    have text : fixedDigits 2 value = rest.reverse ++ ['.'] ++ ['0'] ++ ['0'] := by
      rw [← List.reverse_reverse (fixedDigits 2 value), reversed]
      simp
    rw [text] at count ⊢
    have digits : '.' ∉ rest.reverse := by
      rw [← List.count_eq_zero]
      simpa [List.count_append] using count
    rw [decimalValue_zero (by simp), decimalValue_zero (by simp), decimalValue_point digits]
  · next rest _ reversed =>
    have text : fixedDigits 2 value = rest.reverse ++ ['0'] := by
      rw [← List.reverse_reverse (fixedDigits 2 value), reversed]
      simp
    have point : '.' ∈ rest.reverse := by
      rw [text] at count
      rw [← List.count_pos_iff]
      simp only [List.count_append] at count
      have zero : ['0'].count '.' = 0 := by decide
      omega
    rw [text, decimalValue_zero point]
  · rw [List.reverse_reverse]

theorem decimalValue_decimalInt (n : ℤ) : decimalValue (decimalInt n).toList = n := by
  have natural (m : ℕ) : unsignedValue (Nat.toDigits 10 m) = m := by
    rw [unsignedValue_whole (point_notMem_digits fun _ member =>
      Nat.isDigit_of_mem_toDigits (by decide) (by decide) member), Nat.ofDigitChars_ten_toDigits]
  cases n with
  | ofNat m =>
    have unsigned := digits_unsigned m []
    rw [List.append_nil] at unsigned
    rw [decimalInt, decimal, String.toList_ofList, decimalValue_unsigned unsigned, natural]
    rfl
  | negSucc m =>
    have text : (decimalInt (.negSucc m)).toList = '-' :: Nat.toDigits 10 (m + 1) := by
      rw [decimalInt, decimal, String.toList_append, String.toList_ofList]
      simp
    rw [text, decimalValue, natural, Int.cast_negSucc]

/-! ## The elements of a name -/

/-- What a line prints under a name. -/
def amountUnder (name : String) : Line → ℚ
  | .element _ n (.verbatim content) => if n = name then decimalValue content.toList else 0
  | _ => 0

/-- What the elements of a name among some lines add up to. -/
def printed (name : String) (lines : List Line) : ℚ := (lines.map (amountUnder name)).sum

@[simp] theorem printed_nil (name : String) : printed name [] = 0 := rfl

@[simp] theorem printed_cons (name : String) (line : Line) (lines : List Line) :
    printed name (line :: lines) = amountUnder name line + printed name lines :=
  List.sum_cons

@[simp] theorem printed_append (name : String) (first second : List Line) :
    printed name (first ++ second) = printed name first + printed name second := by
  simp [printed]

@[simp] theorem printed_block (name : String) (indent : ℕ) (outer : String) (inner : List Line) :
    printed name (block indent outer inner) = printed name inner := by
  simp [block, amountUnder]

theorem printed_ite (name : String) (condition : Prop) [Decidable condition]
    (first second : List Line) :
    printed name (if condition then first else second) =
      if condition then printed name first else printed name second :=
  apply_ite (printed name) condition first second

theorem printed_flatMap {α : Type} (name : String) (items : List α) (lines : α → List Line) :
    printed name (items.flatMap lines) = (items.map fun item => printed name (lines item)).sum := by
  induction items with
  | nil => rfl
  | cons item items ih =>
    rw [List.flatMap_cons, printed_append, ih, List.map_cons, List.sum_cons]

@[simp] theorem amountUnder_escaped (name n content : String) (indent : ℕ) :
    amountUnder name (.element indent n (.escaped content)) = 0 := rfl

theorem amountUnder_other {name n : String} (other : n ≠ name) (indent : ℕ) (content : Content) :
    amountUnder name (.element indent n content) = 0 := by
  cases content <;> simp [amountUnder, other]

theorem amountUnder_same (name content : String) (indent : ℕ) :
    amountUnder name (.element indent name (.verbatim content)) = decimalValue content.toList :=
  if_pos rfl

end EcfDgii.PrintedAmounts
