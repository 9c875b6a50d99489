import Mathlib.Algebra.Order.Round
import Mathlib.Algebra.BigOperators.Ring.List
import Mathlib.Tactic.Linarith
import Mathlib.Tactic.Positivity
import Mathlib.Tactic.Ring
import Mathlib.Tactic.FieldSimp
import Mathlib.Data.Int.ConditionallyCompleteOrder

/-!
Rounding to a grid.

The grid of scale `n` holds the multiples of `1 / n`.  `nearest ties n x` is the
point of the grid closest to `x`; of two that are as close it is the one farther
from zero, or the even one.  Either way rounding is odd, at most half a step
off, and keeps the order.  Away from zero it also passes over a point of the
grid that is added, as long as no sign changes.
-/

set_option autoImplicit false

namespace EcfDgii.Rounding

variable {K : Type*} [Field K]

/-! ## The grid -/

/-- The points of the grid of a scale. -/
def OnGrid (n : ℕ) (x : K) : Prop := ∃ k : ℤ, x = k / n

section

variable {n : ℕ} {x y : K}

theorem OnGrid.zero : OnGrid n (0 : K) := ⟨0, by simp⟩

theorem OnGrid.neg (on : OnGrid n x) : OnGrid n (-x) := by
  obtain ⟨k, rfl⟩ := on
  exact ⟨-k, by rw [Int.cast_neg, neg_div]⟩

theorem OnGrid.add (left : OnGrid n x) (right : OnGrid n y) : OnGrid n (x + y) := by
  obtain ⟨k, rfl⟩ := left
  obtain ⟨l, rfl⟩ := right
  exact ⟨k + l, by rw [Int.cast_add, add_div]⟩

theorem OnGrid.sub (left : OnGrid n x) (right : OnGrid n y) : OnGrid n (x - y) := by
  rw [sub_eq_add_neg]
  exact left.add right.neg

theorem OnGrid.sum {values : List K} (each : ∀ value ∈ values, OnGrid n value) :
    OnGrid n values.sum := by
  induction values with
  | nil => exact .zero
  | cons value values ih =>
    rw [List.sum_cons]
    exact (each value List.mem_cons_self).add (ih fun v h => each v (List.mem_cons_of_mem value h))

end

variable [LinearOrder K]

theorem OnGrid.max {n : ℕ} {x y : K} (left : OnGrid n x) (right : OnGrid n y) :
    OnGrid n (max x y) := by
  rcases max_choice x y with first | second
  · rwa [first]
  · rwa [second]

/-- Points of the grid are at least a step apart. -/
theorem OnGrid.step [IsStrictOrderedRing K] {n : ℕ} {x y : K} (left : OnGrid n x)
    (right : OnGrid n y) (lt : x < y) : x + 1 / n ≤ y := by
  obtain ⟨k, rfl⟩ := left
  obtain ⟨l, rfl⟩ := right
  have scale : (0 : K) < n := by
    rcases Nat.eq_zero_or_pos n with rfl | pos
    · simp at lt
    · exact Nat.cast_pos.mpr pos
  have less : k < l := by
    have := (div_lt_div_iff_of_pos_right scale).mp lt
    exact_mod_cast this
  have most : ((k : K) + 1) ≤ l := by exact_mod_cast less
  rw [← add_div]
  exact div_le_div_of_nonneg_right most scale.le

/-! ## To an integer -/

variable [FloorRing K]

/-- The integer next to `x`, halves away from zero. -/
def halfAway (x : K) : ℤ := if 0 ≤ x then ⌊x + 1 / 2⌋ else ⌈x - 1 / 2⌉

theorem halfAway_of_nonneg [IsStrictOrderedRing K] {x : K} (nonneg : 0 ≤ x) :
    halfAway x = round x := by
  rw [halfAway, if_pos nonneg, round_eq]

theorem halfAway_neg [IsStrictOrderedRing K] (x : K) : halfAway (-x) = -halfAway x := by
  have mirror (y : K) : ⌈-y - 1 / 2⌉ = -⌊y + 1 / 2⌋ := by
    rw [← Int.ceil_neg, neg_add, sub_eq_add_neg]
  unfold halfAway
  rcases lt_trichotomy x 0 with neg | rfl | pos
  · rw [if_pos (by linarith), if_neg (not_le.mpr neg)]
    have back := mirror (-x)
    rw [neg_neg] at back
    omega
  · have nothing : ⌊(0 : K) + 1 / 2⌋ = 0 := by
      rw [Int.floor_eq_zero_iff]
      constructor <;> norm_num
    simp only [neg_zero, le_refl, if_true, nothing]
  · rw [if_neg (by linarith), if_pos pos.le, mirror]

theorem abs_halfAway_sub [IsStrictOrderedRing K] (x : K) : |(halfAway x : K) - x| ≤ 1 / 2 := by
  rcases le_total 0 x with nonneg | nonpos
  · rw [halfAway_of_nonneg nonneg, abs_sub_comm]
    exact abs_sub_round x
  · have mirrored : (halfAway x : K) - x = -(round (-x) - -x) := by
      rw [← neg_neg x, halfAway_neg, halfAway_of_nonneg (neg_nonneg.mpr nonpos), neg_neg]
      push_cast
      ring
    rw [mirrored, abs_neg, abs_sub_comm]
    exact abs_sub_round (-x)

/-- The integer next to `x`, halves to the even one. -/
def halfEven (x : K) : ℤ :=
  if Int.fract x = 1 / 2 ∧ ⌊x⌋ % 2 = 0 then ⌊x⌋ else ⌊x + 1 / 2⌋

theorem abs_halfEven_sub [IsStrictOrderedRing K] (x : K) : |(halfEven x : K) - x| ≤ 1 / 2 := by
  unfold halfEven
  split
  · next half =>
    have fraction := Int.self_sub_floor x
    rw [half.1] at fraction
    rw [abs_le]
    constructor <;> linarith
  · have low := Int.lt_floor_add_one (x + 1 / 2)
    have high := Int.floor_le (x + 1 / 2)
    rw [abs_le]
    constructor <;> linarith

/-- A half is half way between two integers, and one of them is even. -/
theorem halfEven_half [IsStrictOrderedRing K] {x : K} (half : Int.fract x = 1 / 2) :
    halfEven x = ⌊x⌋ + ⌊x⌋ % 2 := by
  have next : ⌊x + 1 / 2⌋ = ⌊x⌋ + 1 := by
    have whole : x + 1 / 2 = ((⌊x⌋ + 1 : ℤ) : K) := by
      have fraction := Int.self_sub_floor x
      push_cast
      linarith
    rw [whole, Int.floor_intCast]
  unfold halfEven
  rw [next]
  split
  · next both => rw [both.2, add_zero]
  · next not =>
    have odd : ⌊x⌋ % 2 = 1 := by
      have := not_and.mp not half
      omega
    rw [odd]

/-- Elsewhere a value is less than a half off. -/
theorem abs_halfEven_sub_lt [IsStrictOrderedRing K] {x : K} (off : Int.fract x ≠ 1 / 2) :
    |(halfEven x : K) - x| < 1 / 2 := by
  refine lt_of_le_of_ne (abs_halfEven_sub x) fun same => off ?_
  rcases eq_or_eq_neg_of_abs_eq same with above | below
  · have whole : x = ((halfEven x - 1 : ℤ) : K) + 1 / 2 := by
      push_cast
      linarith
    rw [whole, Int.fract_intCast_add, Int.fract_eq_self]
    constructor <;> norm_num
  · have whole : x = ((halfEven x : ℤ) : K) + 1 / 2 := by linarith
    rw [whole, Int.fract_intCast_add, Int.fract_eq_self]
    constructor <;> norm_num

theorem halfEven_neg [IsStrictOrderedRing K] (x : K) : halfEven (-x) = -halfEven x := by
  by_cases half : Int.fract x = 1 / 2
  · have nonzero : Int.fract x ≠ 0 := by
      rw [half]
      norm_num
    have mirrored : Int.fract (-x) = 1 / 2 := by
      rw [Int.fract_neg nonzero, half]
      norm_num
    have floor : ⌊-x⌋ = -⌊x⌋ - 1 := by
      have whole : -x = ((-⌊x⌋ - 1 : ℤ) : K) + 1 / 2 := by
        have fraction := Int.self_sub_floor x
        push_cast
        linarith
      have nothing : ⌊(1 / 2 : K)⌋ = 0 := by
        rw [Int.floor_eq_zero_iff]
        constructor <;> norm_num
      rw [whole, Int.floor_intCast_add, nothing, add_zero]
    rw [halfEven_half half, halfEven_half mirrored, floor]
    omega
  · -- Both are less than a half off, and so the same.
    have other : Int.fract (-x) ≠ 1 / 2 := by
      intro same
      have nonzero : Int.fract (-x) ≠ 0 := by
        rw [same]
        norm_num
      have back := Int.fract_neg nonzero
      rw [neg_neg, same] at back
      exact half (by rw [back]; norm_num)
    have first := abs_halfEven_sub_lt half
    have second := abs_halfEven_sub_lt other
    have small : |halfEven (-x) + halfEven x| < 1 := by
      have cast : ((|halfEven (-x) + halfEven x| : ℤ) : K) < (1 : ℤ) := by
        push_cast
        rw [abs_lt] at first second ⊢
        constructor <;> linarith
      exact_mod_cast cast
    have same := Int.abs_lt_one_iff.mp small
    omega

/-- What is moved by a half becomes even. -/
theorem halfEven_even [IsStrictOrderedRing K] {x : K} (moved : |(halfEven x : K) - x| = 1 / 2) :
    halfEven x % 2 = 0 := by
  have half : Int.fract x = 1 / 2 := by
    by_contra off
    exact (abs_halfEven_sub_lt off).ne moved
  rw [halfEven_half half]
  omega

/-- A half above an integer. -/
theorem halfEven_intCast_add_half [IsStrictOrderedRing K] (k : ℤ) :
    halfEven ((k : K) + 1 / 2) = k + k % 2 := by
  have small : Int.fract (1 / 2 : K) = 1 / 2 := by
    rw [Int.fract_eq_self]
    constructor <;> norm_num
  have nothing : ⌊(1 / 2 : K)⌋ = 0 := by
    rw [Int.floor_eq_zero_iff]
    constructor <;> norm_num
  have floor : ⌊(k : K) + 1 / 2⌋ = k := by rw [Int.floor_intCast_add, nothing, add_zero]
  have half : Int.fract ((k : K) + 1 / 2) = 1 / 2 := by rw [Int.fract_intCast_add, small]
  rw [halfEven_half half, floor]

/-- Each value moves a sum by a half; when all of them do, the other way round, what
they become is even. -/
theorem sum_halfEven_near [IsStrictOrderedRing K] (values : List K) :
    values.sum - values.length / 2 ≤ ((values.map halfEven).sum : ℤ) ∧
      (((values.map halfEven).sum : ℤ) : K) ≤ values.sum + values.length / 2 ∧
      ((((values.map halfEven).sum : ℤ) : K) = values.sum - values.length / 2 ∨
          (((values.map halfEven).sum : ℤ) : K) = values.sum + values.length / 2 →
        (values.map halfEven).sum % 2 = 0) := by
  induction values with
  | nil => simp
  | cons value values ih =>
    obtain ⟨low, high, even⟩ := ih
    have own := abs_le.mp (abs_halfEven_sub value)
    simp only [List.map_cons, List.sum_cons, List.length_cons, Int.cast_add, Nat.cast_add,
      Nat.cast_one]
    refine ⟨by linarith, by linarith, ?_⟩
    rintro (down | up)
    · have moved : |(halfEven value : K) - value| = 1 / 2 := by
        rw [abs_of_nonpos (by linarith)]
        linarith
      have rest := even (.inl (by linarith))
      have first := halfEven_even moved
      omega
    · have moved : |(halfEven value : K) - value| = 1 / 2 := by
        rw [abs_of_nonneg (by linarith)]
        linarith
      have rest := even (.inr (by linarith))
      have first := halfEven_even moved
      omega

/-- Rounded parts add up to the rounded whole, up to a half for each and one for the
whole. -/
theorem halfEven_sum_le [IsStrictOrderedRing K] {values : List K} {total : K} {k : ℕ}
    (close : |total - values.sum| ≤ k) :
    2 * |halfEven total - (values.map halfEven).sum| ≤ 2 * k + values.length + 1 := by
  obtain ⟨sumLow, sumHigh, -⟩ := sum_halfEven_near values
  have own := abs_le.mp (abs_halfEven_sub total)
  obtain ⟨below, above⟩ := abs_le.mp close
  have most : |(halfEven total : K) - ((values.map halfEven).sum : ℤ)| ≤
      k + values.length / 2 + 1 / 2 := by
    rw [abs_le]
    constructor <;> linarith
  have cast : 2 * |(halfEven total : K) - ((values.map halfEven).sum : ℤ)| ≤
      2 * k + values.length + 1 := by linarith
  exact_mod_cast cast

/-- They are so far apart only when every rounding goes the wrong way. -/
theorem halfEven_sum_even [IsStrictOrderedRing K] {values : List K} {total : K} {k : ℕ}
    (close : |total - values.sum| ≤ k)
    (far : 2 * |halfEven total - (values.map halfEven).sum| = 2 * k + values.length + 1) :
    (halfEven total - (values.map halfEven).sum) % 2 = 0 := by
  obtain ⟨sumLow, sumHigh, even⟩ := sum_halfEven_near values
  have own := abs_le.mp (abs_halfEven_sub total)
  obtain ⟨below, above⟩ := abs_le.mp close
  have cast : 2 * |(halfEven total : K) - ((values.map halfEven).sum : ℤ)| =
      2 * k + values.length + 1 := by exact_mod_cast far
  rcases abs_cases ((halfEven total : K) - ((values.map halfEven).sum : ℤ)) with
    ⟨up, -⟩ | ⟨down, -⟩
  · rw [up] at cast
    have moved : |(halfEven total : K) - total| = 1 / 2 := by
      rw [abs_of_nonneg (by linarith)]
      linarith
    have first := halfEven_even moved
    have rest := even (.inl (by linarith))
    omega
  · rw [down] at cast
    have moved : |(halfEven total : K) - total| = 1 / 2 := by
      rw [abs_of_nonpos (by linarith)]
      linarith
    have first := halfEven_even moved
    have rest := even (.inr (by linarith))
    omega

/-- Rounded parts add up to the rounded whole, up to a half for each of them, or are
an even number off when every rounding goes the wrong way. -/
theorem halfEven_sum_close [IsStrictOrderedRing K] {values : List K} {total : K} {k : ℕ}
    (close : |total - values.sum| ≤ k) :
    2 * |halfEven total - (values.map halfEven).sum| ≤ 2 * k + values.length ∨
      (2 * |halfEven total - (values.map halfEven).sum| = 2 * k + values.length + 1 ∧
        (halfEven total - (values.map halfEven).sum) % 2 = 0) := by
  rcases (halfEven_sum_le close).lt_or_eq with near | far
  · exact .inl (Int.lt_add_one_iff.mp near)
  · exact .inr ⟨far, halfEven_sum_even close far⟩

/-- Values at most one apart become two apart when both of them are moved by a half,
away from each other. -/
theorem halfEven_apart_iff [IsStrictOrderedRing K] {x y : K} (close : x - y ≤ 1) :
    halfEven x - halfEven y = 2 ↔ ∃ k : ℤ, k % 2 = 0 ∧ y = k + 1 / 2 ∧ x = y + 1 := by
  constructor
  · intro apart
    have first := abs_le.mp (abs_halfEven_sub x)
    have second := abs_le.mp (abs_halfEven_sub y)
    have cast : (halfEven x : K) - halfEven y = 2 := by exact_mod_cast apart
    have moved : |(halfEven y : K) - y| = 1 / 2 := by
      rw [abs_of_nonpos (by linarith)]
      linarith
    exact ⟨halfEven y, halfEven_even moved, by linarith, by linarith⟩
  · rintro ⟨k, even, rfl, rfl⟩
    have next : (k : K) + 1 / 2 + 1 = ((k + 1 : ℤ) : K) + 1 / 2 := by
      push_cast
      ring
    rw [next, halfEven_intCast_add_half, halfEven_intCast_add_half]
    omega

/-- Where a value that lies half way goes. -/
inductive Ties
  | away
  | even
  deriving DecidableEq, Repr

/-- The integer next to `x`. -/
def Ties.integer (ties : Ties) (x : K) : ℤ :=
  match ties with
  | .away => halfAway x
  | .even => halfEven x

section

variable [IsStrictOrderedRing K] (ties : Ties)

theorem integer_neg (x : K) : ties.integer (-x) = -ties.integer x := by
  cases ties with
  | away => exact halfAway_neg x
  | even => exact halfEven_neg x

theorem abs_integer_sub (x : K) : |(ties.integer x : K) - x| ≤ 1 / 2 := by
  cases ties with
  | away => exact abs_halfAway_sub x
  | even => exact abs_halfEven_sub x

theorem integer_intCast (k : ℤ) : ties.integer (k : K) = k := by
  have close := abs_integer_sub ties (k : K)
  have small : |ties.integer (k : K) - k| < 1 := by
    have cast : ((|ties.integer (k : K) - k| : ℤ) : K) < (1 : ℤ) := by
      push_cast
      linarith
    exact_mod_cast cast
  have same := Int.abs_lt_one_iff.mp small
  omega

/-- Values that are rounded past each other lie half way, both of them in the
same place. -/
theorem integer_mono : Monotone (ties.integer : K → ℤ) := by
  intro x y le
  by_contra past
  have step : (ties.integer y : K) + 1 ≤ ties.integer x := by exact_mod_cast not_le.mp past
  have first := abs_le.mp (abs_integer_sub ties x)
  have second := abs_le.mp (abs_integer_sub ties y)
  have same : x = y := by linarith
  rw [same] at past
  exact past le_rfl

end

/-- The two ways differ at the halves only. -/
theorem halfEven_eq_halfAway [IsStrictOrderedRing K] {x : K} (off : Int.fract x ≠ 1 / 2) :
    halfEven x = halfAway x := by
  have even := abs_lt.mp (abs_halfEven_sub_lt off)
  have away := abs_le.mp (abs_halfAway_sub x)
  have above : halfEven x < halfAway x + 1 := by
    have : (halfEven x : K) < halfAway x + 1 := by linarith
    exact_mod_cast this
  have below : halfAway x < halfEven x + 1 := by
    have : (halfAway x : K) < halfEven x + 1 := by linarith
    exact_mod_cast this
  omega

theorem halfAway_add_intCast [IsStrictOrderedRing K] {x : K} (k : ℤ) (nonneg : 0 ≤ x)
    (sum : 0 ≤ x + k) : halfAway (x + k) = halfAway x + k := by
  rw [halfAway_of_nonneg nonneg, halfAway_of_nonneg sum, round_add_intCast]

/-- The integer next to `x`, halves downwards. -/
def halfDown (x : K) : ℤ := ⌈x - 1 / 2⌉

theorem halfDown_mono [IsStrictOrderedRing K] : Monotone (halfDown : K → ℤ) := by
  intro x y le
  exact Int.ceil_le_ceil (by linarith)

theorem halfDown_intCast [IsStrictOrderedRing K] (k : ℤ) : halfDown (k : K) = k := by
  rw [halfDown, Int.ceil_eq_iff]
  constructor <;> linarith

/-- The two ways to round a half are one apart, and only there. -/
theorem halfAway_eq_halfDown [IsStrictOrderedRing K] {x : K} (nonneg : 0 ≤ x) :
    halfAway x = halfDown x + if Int.fract x = 1 / 2 then 1 else 0 := by
  have fraction := Int.self_sub_floor x
  rw [halfAway, if_pos nonneg, halfDown]
  split
  · next half =>
    rw [half] at fraction
    have above : x + 1 / 2 = ((⌊x⌋ + 1 : ℤ) : K) := by
      push_cast
      linarith
    have below : x - 1 / 2 = (⌊x⌋ : K) := by linarith
    rw [above, below, Int.floor_intCast, Int.ceil_intCast]
  · next off =>
    rw [add_zero, Int.floor_eq_iff]
    have low := Int.le_ceil (x - 1 / 2)
    have high := Int.ceil_lt_add_one (x - 1 / 2)
    refine ⟨by linarith, ?_⟩
    refine lt_of_le_of_ne (by linarith) fun same => off ?_
    have whole : x = ((⌈x - 1 / 2⌉ : ℤ) : K) + 1 / 2 := by linarith
    rw [whole, Int.fract_intCast_add, Int.fract_eq_self]
    constructor <;> norm_num

/-- What is left of an integer is rounded up where what is taken is rounded
down. -/
theorem halfAway_sub [IsStrictOrderedRing K] {x : K} {k : ℤ} (le : x ≤ k) :
    halfAway (k - x) = k - halfDown x := by
  have rest : (k : K) - x + 1 / 2 = (k : K) + -(x - 1 / 2) := by ring
  rw [halfAway, if_pos (sub_nonneg.mpr le), rest, Int.floor_intCast_add, Int.floor_neg, halfDown]
  ring

/-- What is left of an integer is not rounded up more than what is taken. -/
theorem sub_halfAway_le [IsStrictOrderedRing K] {x : K} {k : ℤ} (nonneg : 0 ≤ x) (le : x ≤ k) :
    k - halfAway x ≤ halfAway (k - x) := by
  rw [halfAway_sub le, halfAway_eq_halfDown nonneg]
  split <;> omega

/-- Rounding does not double. -/
theorem halfAway_le_two_mul [IsStrictOrderedRing K] {x : K} (nonneg : 0 ≤ x) :
    (halfAway x : K) ≤ 2 * x := by
  rw [halfAway, if_pos nonneg]
  rcases lt_or_ge x (1 / 2) with small | large
  · have none : ⌊x + 1 / 2⌋ = 0 := by
      rw [Int.floor_eq_zero_iff]
      constructor <;> linarith
    rw [none, Int.cast_zero]
    linarith
  · have floor := Int.floor_le (x + 1 / 2)
    linarith

/-! ## To the grid -/

/-- The point of the grid next to `x`. -/
def nearest (ties : Ties) (n : ℕ) (x : K) : K := ties.integer (x * n) / n

theorem nearest_even (n : ℕ) (x : K) : nearest .even n x = halfEven (x * n) / n := rfl

theorem nearest_away (n : ℕ) (x : K) : nearest .away n x = halfAway (x * n) / n := rfl

theorem onGrid_nearest (ties : Ties) (n : ℕ) (x : K) : OnGrid n (nearest ties n x) := ⟨_, rfl⟩

variable [IsStrictOrderedRing K] {ties : Ties} {n : ℕ} {x y : K}

theorem nearest_neg (ties : Ties) (n : ℕ) (x : K) : nearest ties n (-x) = -nearest ties n x := by
  rw [nearest, nearest, neg_mul, integer_neg, Int.cast_neg, neg_div]

variable (pos : 0 < n)

include pos

theorem OnGrid.nearest (on : OnGrid n x) : nearest ties n x = x := by
  obtain ⟨k, rfl⟩ := on
  have scale : (n : K) ≠ 0 := by positivity
  rw [Rounding.nearest, div_mul_cancel₀ _ scale, integer_intCast]

theorem abs_nearest_sub (x : K) : |nearest ties n x - x| ≤ 1 / (2 * n) := by
  have scale : (0 : K) < n := by positivity
  have close := abs_integer_sub ties (x * n)
  have scaled : Rounding.nearest ties n x - x = (ties.integer (x * n) - x * n) / n := by
    rw [Rounding.nearest, sub_div, mul_div_cancel_right₀ _ scale.ne']
  rw [scaled, abs_div, abs_of_pos scale, ← div_div]
  exact div_le_div_of_nonneg_right close scale.le

theorem nearest_mono : Monotone (nearest ties n : K → K) := by
  intro x y le
  have scale : (0 : K) < n := by positivity
  have scaled : ties.integer (x * n) ≤ ties.integer (y * n) :=
    integer_mono ties (mul_le_mul_of_nonneg_right le scale.le)
  exact div_le_div_of_nonneg_right (Int.cast_le.mpr scaled) scale.le

theorem nearest_nonneg (nonneg : 0 ≤ x) : 0 ≤ nearest ties n x := by
  have zero : Rounding.nearest ties n (0 : K) = 0 := OnGrid.zero.nearest pos
  have mono : Rounding.nearest ties n 0 ≤ Rounding.nearest ties n x := nearest_mono pos nonneg
  rwa [zero] at mono

theorem abs_nearest (x : K) : |nearest ties n x| = nearest ties n |x| := by
  rcases le_total 0 x with nonneg | nonpos
  · rw [abs_of_nonneg nonneg, abs_of_nonneg (nearest_nonneg pos nonneg)]
  · have mirrored : 0 ≤ Rounding.nearest ties n (-x) := nearest_nonneg pos (neg_nonneg.mpr nonpos)
    rw [abs_of_nonpos nonpos, ← abs_neg, ← nearest_neg, abs_of_nonneg mirrored]

/-- A point of the grid that is added is passed over. -/
theorem OnGrid.nearest_add (on : OnGrid n y) (nonneg : 0 ≤ x) (sum : 0 ≤ x + y) :
    Rounding.nearest .away n (x + y) = Rounding.nearest .away n x + y := by
  obtain ⟨k, rfl⟩ := on
  have scale : (0 : K) < n := by positivity
  have scaled : (x + k / n) * n = x * n + k := by
    rw [add_mul, div_mul_cancel₀ _ scale.ne']
  have low : 0 ≤ x * n := mul_nonneg nonneg scale.le
  have high : 0 ≤ x * n + k := by
    rw [← scaled]
    exact mul_nonneg sum scale.le
  rw [nearest_away, nearest_away, scaled, halfAway_add_intCast k low high, Int.cast_add,
    add_div]

/-- What is left of a point of the grid is not rounded up more than what is
taken. -/
theorem OnGrid.sub_nearest_le (on : OnGrid n y) (nonneg : 0 ≤ x) (le : x ≤ y) :
    y - Rounding.nearest .away n x ≤ Rounding.nearest .away n (y - x) := by
  obtain ⟨k, rfl⟩ := on
  have scale : (0 : K) < n := by positivity
  have below : x * n ≤ (k : K) := by
    rw [← le_div_iff₀ scale]
    exact le
  have scaled : ((k : K) / n - x) * n = k - x * n := by
    rw [sub_mul, div_mul_cancel₀ _ scale.ne']
  have rest := sub_halfAway_le (mul_nonneg nonneg scale.le) below
  rw [nearest_away, nearest_away, scaled, ← sub_div]
  refine div_le_div_of_nonneg_right ?_ scale.le
  exact_mod_cast rest

theorem nearest_le_two_mul (nonneg : 0 ≤ x) : Rounding.nearest .away n x ≤ 2 * x := by
  have scale : (0 : K) < n := by positivity
  have scaled := halfAway_le_two_mul (mul_nonneg nonneg scale.le)
  rw [nearest_away, div_le_iff₀ scale, mul_assoc]
  exact scaled

end EcfDgii.Rounding
