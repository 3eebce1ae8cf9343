import Mathlib.Algebra.Order.Round
import Mathlib.Data.Int.Log
import Mathlib.Data.Rat.Floor
import Mathlib.Tactic.FieldSimp
import Mathlib.Tactic.Linarith
import Mathlib.Tactic.NormNum
import Mathlib.Tactic.Positivity
import Mathlib.Tactic.Ring

/-!
# Binary64 numbers

The rationals that a binary floating-point number of 64 bits can have as
its value, and the correct rounding of a rational to one of them: to
nearest, ties to even.
-/

namespace Binary64

/-- The nearest integer; of two, the even one. -/
def roundEven (value : ℚ) : ℤ :=
  let low := ⌊value⌋
  if value - low < 1 / 2 then low
  else if 1 / 2 < value - low then low + 1
  else low + low % 2

theorem roundEven_of_near {value : ℚ} {number : ℤ}
    (near : |value - number| < 1 / 2) : roundEven value = number := by
  obtain ⟨above, below⟩ := abs_lt.mp near
  rcases le_or_gt (number : ℚ) value with le | lt
  · have low : ⌊value⌋ = number :=
      Int.floor_eq_iff.mpr ⟨le, by linarith⟩
    rw [roundEven, low, if_pos below]
  · have low : ⌊value⌋ = number - 1 := by
      rw [Int.floor_eq_iff]
      push_cast
      exact ⟨by linarith, by linarith⟩
    have up : 1 / 2 < value - ((number - 1 : ℤ) : ℚ) := by
      push_cast
      linarith
    rw [roundEven, low, if_neg (not_lt.mpr up.le), if_pos up]
    ring

@[simp]
theorem roundEven_intCast (number : ℤ) : roundEven number = number :=
  roundEven_of_near (by simp)

theorem roundEven_tie (number : ℤ) :
    roundEven (number + 1 / 2) = number + number % 2 := by
  have low : ⌊(number : ℚ) + 1 / 2⌋ = number :=
    Int.floor_eq_iff.mpr ⟨by linarith, by linarith⟩
  have tie : (number : ℚ) + 1 / 2 - number = 1 / 2 := by ring
  rw [roundEven, low, tie, if_neg (lt_irrefl _), if_neg (lt_irrefl _)]

theorem roundEven_error (value : ℚ) :
    |value - roundEven value| ≤ 1 / 2 := by
  have low := Int.floor_le value
  have high := Int.lt_floor_add_one value
  have bit : (0 : ℚ) ≤ (⌊value⌋ % 2 : ℤ) ∧ ((⌊value⌋ % 2 : ℤ) : ℚ) ≤ 1 := by
    constructor
    · exact_mod_cast Int.emod_nonneg _ (by decide)
    · exact_mod_cast Int.lt_add_one_iff.mp (Int.emod_lt_of_pos ⌊value⌋ two_pos)
  rw [abs_le, roundEven]
  split
  · constructor <;> linarith
  · split
    · push_cast
      constructor <;> linarith
    · push_cast
      constructor <;> linarith [bit.1, bit.2]

theorem roundEven_neg (value : ℚ) :
    roundEven (-value) = -roundEven value := by
  rcases lt_or_eq_of_le (roundEven_error value) with near | tie
  · apply roundEven_of_near
    have mirror : -value - ((-roundEven value : ℤ) : ℚ) =
        -(value - roundEven value) := by
      push_cast
      ring
    rw [mirror, abs_neg]
    exact near
  · -- The tie lies above an integer, and its mirror above another one.
    obtain ⟨number, half⟩ : ∃ number : ℤ, value = number + 1 / 2 := by
      rcases abs_eq (by norm_num) |>.mp tie with up | down
      · exact ⟨roundEven value, by linarith⟩
      · exact ⟨roundEven value - 1, by push_cast; linarith⟩
    have mirror : -value = ((-number - 1 : ℤ) : ℚ) + 1 / 2 := by
      rw [half]
      push_cast
      ring
    rw [mirror, roundEven_tie, half, roundEven_tie]
    omega

/-- The integers from which on a value is rounded to at least `number`,
for an even one. -/
theorem roundEven_lt_iff {value : ℚ} {number : ℤ} (even : number % 2 = 0) :
    roundEven value < number ↔ value < number - 1 / 2 := by
  obtain ⟨above, below⟩ := abs_le.mp (roundEven_error value)
  constructor
  · intro less
    by_contra large
    rw [not_lt] at large
    have cast : ((roundEven value : ℤ) : ℚ) ≤ number - 1 := by
      exact_mod_cast Int.le_sub_one_of_lt less
    have tie : value = ((number - 1 : ℤ) : ℚ) + 1 / 2 := by
      push_cast
      linarith
    rw [tie, roundEven_tie] at less
    omega
  · intro small
    by_contra large
    rw [not_lt] at large
    have cast : (number : ℚ) ≤ roundEven value := by exact_mod_cast large
    linarith

theorem roundEven_le {value : ℚ} {number : ℤ} (le : value ≤ number) :
    roundEven value ≤ number := by
  obtain ⟨above, below⟩ := abs_le.mp (roundEven_error value)
  have less : ((roundEven value : ℤ) : ℚ) < number + 1 := by linarith
  exact Int.lt_add_one_iff.mp (by exact_mod_cast less)

theorem le_roundEven {value : ℚ} {number : ℤ} (le : (number : ℚ) ≤ value) :
    number ≤ roundEven value := by
  obtain ⟨above, below⟩ := abs_le.mp (roundEven_error value)
  have less : ((number : ℤ) : ℚ) < roundEven value + 1 := by linarith
  exact Int.lt_add_one_iff.mp (by exact_mod_cast less)

/-- The errors that rounding takes away. -/
theorem roundEven_add_eq_iff (number : ℤ) (error : ℚ) :
    roundEven (number + error) = number ↔
      |error| < 1 / 2 ∨ |error| = 1 / 2 ∧ number % 2 = 0 := by
  constructor
  · intro same
    have bounded := roundEven_error (number + error)
    rw [same, add_sub_cancel_left] at bounded
    rcases lt_or_eq_of_le bounded with near | tie
    · exact .inl near
    · refine .inr ⟨tie, ?_⟩
      rcases (abs_eq (by norm_num)).mp tie with up | down
      · rw [up, roundEven_tie] at same
        omega
      · have below : (number : ℚ) + error = ((number - 1 : ℤ) : ℚ) + 1 / 2 := by
          rw [down]
          push_cast
          ring
        rw [below, roundEven_tie] at same
        omega
  · rintro (near | ⟨tie, even⟩)
    · exact roundEven_of_near (by rwa [add_sub_cancel_left])
    · rcases (abs_eq (by norm_num)).mp tie with up | down
      · rw [up, roundEven_tie]
        omega
      · have below : (number : ℚ) + error = ((number - 1 : ℤ) : ℚ) + 1 / 2 := by
          rw [down]
          push_cast
          ring
        rw [below, roundEven_tie]
        omega

/-- A quotient by an odd number is never a tie. -/
theorem roundEven_div_odd {number divisor half whole part : Nat}
    (odd : divisor = 2 * half + 1) (split : number = whole * divisor + part)
    (less : part < divisor) :
    roundEven ((number : ℚ) / divisor) =
      if part ≤ half then (whole : ℤ) else whole + 1 := by
  have positive : (0 : ℚ) < divisor := by exact_mod_cast (by omega : 0 < divisor)
  have value : (number : ℚ) / divisor = whole + part / divisor := by
    rw [split]
    push_cast
    field_simp
  have cast : (divisor : ℚ) = 2 * half + 1 := by exact_mod_cast odd
  apply roundEven_of_near
  rw [value, abs_lt]
  split
  case isTrue low =>
    have small : (part : ℚ) ≤ half := by exact_mod_cast low
    have quotient : (part : ℚ) / divisor < 1 / 2 := by
      rw [div_lt_iff₀ positive]
      linarith
    have nonneg : 0 ≤ (part : ℚ) / divisor :=
      div_nonneg (Nat.cast_nonneg _) positive.le
    rw [Int.cast_natCast]
    constructor <;> linarith
  case isFalse high =>
    have large : (half : ℚ) + 1 ≤ part := by exact_mod_cast not_le.mp high
    have quotient : 1 / 2 < (part : ℚ) / divisor := by
      rw [lt_div_iff₀ positive]
      linarith
    have one : (part : ℚ) / divisor < 1 :=
      (div_lt_one positive).mpr (by exact_mod_cast less)
    rw [Int.cast_add, Int.cast_natCast, Int.cast_one]
    constructor <;> linarith

/-! ## Rounding to the grid -/

/-- The exponent of the last place of the numbers around a value. -/
def lastPlace (value : ℚ) : ℤ := max (Int.log 2 |value|) (-1022) - 52

/-- The nearest value, if exponents were not bounded above. -/
def nearest (value : ℚ) : ℚ :=
  roundEven (value / 2 ^ lastPlace value) * 2 ^ lastPlace value

theorem place_pos (exponent : ℤ) : (0 : ℚ) < 2 ^ exponent :=
  zpow_pos two_pos exponent

theorem place_ne (exponent : ℤ) : (2 : ℚ) ^ exponent ≠ 0 :=
  (place_pos exponent).ne'

theorem lastPlace_neg (value : ℚ) : lastPlace (-value) = lastPlace value := by
  rw [lastPlace, lastPlace, abs_neg]

theorem nearest_neg (value : ℚ) : nearest (-value) = -nearest value := by
  rw [nearest, nearest, lastPlace_neg, neg_div, roundEven_neg]
  push_cast
  ring

/-- A value of the binade `exponent`. -/
def InBinade (exponent : ℤ) (value : ℚ) : Prop :=
  2 ^ exponent ≤ |value| ∧ |value| < 2 ^ (exponent + 1)

theorem InBinade.log {exponent : ℤ} {value : ℚ}
    (inside : InBinade exponent value) : Int.log 2 |value| = exponent := by
  have positive : 0 < |value| := (place_pos exponent).trans_le inside.1
  apply le_antisymm
  · have less := (Int.lt_zpow_iff_log_lt one_lt_two positive).mp
      (by exact_mod_cast inside.2)
    omega
  · exact (Int.zpow_le_iff_le_log one_lt_two positive).mp
      (by exact_mod_cast inside.1)

theorem InBinade.lastPlace {exponent : ℤ} {value : ℚ}
    (inside : InBinade exponent value) (normal : -1022 ≤ exponent) :
    Binary64.lastPlace value = exponent - 52 := by
  rw [Binary64.lastPlace, inside.log, max_eq_left normal]

/-- Every value other than zero is in a binade. -/
theorem exists_binade {value : ℚ} (nonzero : value ≠ 0) :
    InBinade (Int.log 2 |value|) value := by
  have positive : 0 < |value| := abs_pos.mpr nonzero
  constructor
  · exact_mod_cast Int.zpow_log_le_self one_lt_two positive
  · exact_mod_cast Int.lt_zpow_succ_log_self one_lt_two |value|

theorem nearest_zero : nearest 0 = 0 := by
  have zero := roundEven_intCast 0
  rw [Int.cast_zero] at zero
  rw [nearest, zero_div, zero, Int.cast_zero, zero_mul]

theorem nearest_nonneg {value : ℚ} (nonneg : 0 ≤ value) :
    0 ≤ nearest value := by
  have scaled : ((0 : ℤ) : ℚ) ≤ value / 2 ^ lastPlace value := by
    rw [Int.cast_zero]
    exact div_nonneg nonneg (place_pos _).le
  have rounded : (0 : ℚ) ≤ roundEven (value / 2 ^ lastPlace value) := by
    exact_mod_cast le_roundEven scaled
  exact mul_nonneg rounded (place_pos _).le

theorem abs_nearest (value : ℚ) : |nearest value| = nearest |value| := by
  rcases le_total 0 value with nonneg | nonpos
  · rw [abs_of_nonneg nonneg, abs_of_nonneg (nearest_nonneg nonneg)]
  · have mirror := nearest_nonneg (neg_nonneg.mpr nonpos)
    rw [nearest_neg] at mirror
    rw [abs_of_nonpos nonpos, nearest_neg,
      abs_of_nonpos (neg_nonneg.mp mirror)]

/-- In a binade of normal numbers the grid has a fixed step. -/
theorem InBinade.nearest {exponent : ℤ} {value : ℚ}
    (inside : InBinade exponent value) (normal : -1022 ≤ exponent) :
    Binary64.nearest value =
      roundEven (value / 2 ^ (exponent - 52)) * 2 ^ (exponent - 52) := by
  rw [Binary64.nearest, inside.lastPlace normal]

/-- The error is at most half a step. -/
theorem nearest_error {value : ℚ} {place : ℤ}
    (last : lastPlace value ≤ place) :
    |value - nearest value| ≤ 1 / 2 * 2 ^ place := by
  have step := place_pos (lastPlace value)
  have split : value - nearest value =
      2 ^ lastPlace value * (value / 2 ^ lastPlace value -
        roundEven (value / 2 ^ lastPlace value)) := by
    rw [nearest, mul_sub, mul_div_cancel₀ _ step.ne']
    ring
  rw [split, abs_mul, abs_of_pos step]
  calc 2 ^ lastPlace value * |value / 2 ^ lastPlace value -
          roundEven (value / 2 ^ lastPlace value)|
      ≤ 2 ^ lastPlace value * (1 / 2) :=
        mul_le_mul_of_nonneg_left (roundEven_error _) step.le
    _ = 1 / 2 * 2 ^ lastPlace value := mul_comm _ _
    _ ≤ 1 / 2 * 2 ^ place :=
        mul_le_mul_of_nonneg_left (zpow_le_zpow_right₀ one_le_two last)
          (by norm_num)

/-- A value on the grid around it is kept. -/
theorem nearest_of_multiple {value : ℚ} {number : ℤ}
    (multiple : value = number * 2 ^ lastPlace value) :
    nearest value = value := by
  have quotient : value / 2 ^ lastPlace value = number :=
    (div_eq_iff (place_ne _)).mpr multiple
  rw [nearest, quotient, roundEven_intCast, ← multiple]

/-- The largest power of two below a value bounds its last place. -/
theorem lastPlace_le {value : ℚ} {place : ℤ} (nonzero : value ≠ 0)
    (least : -1074 ≤ place) (small : |value| < 2 ^ (place + 53)) :
    lastPlace value ≤ place := by
  have less := (Int.lt_zpow_iff_log_lt one_lt_two (abs_pos.mpr nonzero)).mp
    (by exact_mod_cast small)
  rw [lastPlace]
  omega

/-- Numbers with at most 53 binary digits are kept. -/
theorem nearest_grid {number place : ℤ} (least : -1074 ≤ place)
    (digits : |number| ≤ 2 ^ 53) :
    nearest (number * 2 ^ place) = number * 2 ^ place := by
  rcases eq_or_ne number 0 with rfl | nonzero
  · rw [Int.cast_zero, zero_mul, nearest_zero]
  have scale : |(number : ℚ) * 2 ^ place| = |number| * 2 ^ place := by
    rw [abs_mul, abs_of_pos (place_pos place), Int.cast_abs]
  rcases lt_or_eq_of_le digits with small | power
  · have bound : |(number : ℚ) * 2 ^ place| < 2 ^ (place + 53) := by
      rw [scale, add_comm, zpow_add₀ two_ne_zero]
      exact mul_lt_mul_of_pos_right (by exact_mod_cast small) (place_pos place)
    have product : (number : ℚ) * 2 ^ place ≠ 0 :=
      mul_ne_zero (by exact_mod_cast nonzero) (place_ne place)
    have low := lastPlace_le product least bound
    obtain ⟨rest, gap⟩ := Int.le.dest low
    apply @nearest_of_multiple _ (number * 2 ^ rest)
    have whole : (2 : ℚ) ^ place =
        2 ^ rest * 2 ^ lastPlace ((number : ℚ) * 2 ^ place) := by
      rw [← zpow_natCast, ← zpow_add₀ two_ne_zero]
      congr 1
      omega
    push_cast
    rw [mul_assoc, ← whole]
  · have inside : InBinade (place + 53) ((number : ℚ) * 2 ^ place) := by
      have size : |(number : ℚ) * 2 ^ place| = 2 ^ (place + 53) := by
        rw [scale, power, add_comm place, zpow_add₀ two_ne_zero]
        norm_num
      rw [InBinade, size]
      exact ⟨le_rfl, zpow_lt_zpow_right₀ one_lt_two (lt_add_one _)⟩
    obtain ⟨half, even⟩ : ∃ half : ℤ, number = half * 2 := by
      rcases (abs_eq (by norm_num)).mp power with same | same
      · exact ⟨2 ^ 52, by rw [same]; norm_num⟩
      · exact ⟨-2 ^ 52, by rw [same]; norm_num⟩
    apply @nearest_of_multiple _ half
    rw [inside.lastPlace (by omega),
      show place + 53 - 52 = place + 1 by ring, zpow_add_one₀ two_ne_zero,
      even]
    push_cast
    ring

/-- Whole numbers up to 2^53 are kept. -/
theorem nearest_intCast {number : ℤ} (digits : |number| ≤ 2 ^ 53) :
    nearest number = number := by
  have grid := nearest_grid (by decide : (-1074 : ℤ) ≤ 0) digits
  rwa [zpow_zero, mul_one] at grid

/-- The multiple of the last place has at most 53 binary digits. -/
theorem digits_nearest (value : ℚ) :
    |roundEven (value / 2 ^ lastPlace value)| ≤ 2 ^ 53 := by
  have place := place_pos (lastPlace value)
  have small : |value| < 2 ^ 53 * 2 ^ lastPlace value := by
    have whole : (2 : ℚ) ^ 53 * 2 ^ lastPlace value =
        2 ^ (max (Int.log 2 |value|) (-1022) + 1) := by
      rw [← zpow_natCast, ← zpow_add₀ two_ne_zero, lastPlace]
      congr 1
      push_cast
      ring
    rw [whole]
    calc |value| < 2 ^ (Int.log 2 |value| + 1) := by
          exact_mod_cast Int.lt_zpow_succ_log_self one_lt_two |value|
      _ ≤ 2 ^ (max (Int.log 2 |value|) (-1022) + 1) :=
          zpow_le_zpow_right₀ one_le_two (by omega)
  obtain ⟨above, below⟩ := abs_lt.mp small
  rw [abs_le]
  constructor
  · apply le_roundEven
    push_cast
    rw [le_div_iff₀ place]
    linarith
  · apply roundEven_le
    push_cast
    rw [div_le_iff₀ place]
    linarith

theorem lastPlace_ge (value : ℚ) : -1074 ≤ lastPlace value := by
  rw [lastPlace]
  omega

/-- Rounding twice is rounding once. -/
theorem nearest_nearest (value : ℚ) : nearest (nearest value) = nearest value :=
  nearest_grid (lastPlace_ge value) (digits_nearest value)

theorem nearest_le {value : ℚ} (exponent : ℤ) (normal : -1022 < exponent)
    (small : |value| < 2 ^ exponent) : nearest value ≤ 2 ^ exponent := by
  rcases eq_or_ne value 0 with rfl | nonzero
  · rw [nearest_zero]
    exact (place_pos exponent).le
  have place : lastPlace value ≤ exponent - 53 :=
    lastPlace_le nonzero (by omega) (by rwa [sub_add_cancel])
  have digits : ((roundEven (value / 2 ^ lastPlace value) : ℤ) : ℚ) ≤
      2 ^ 53 := by
    exact_mod_cast (abs_le.mp (digits_nearest value)).2
  calc nearest value ≤ 2 ^ 53 * 2 ^ lastPlace value :=
        mul_le_mul_of_nonneg_right digits (place_pos _).le
    _ = 2 ^ (lastPlace value + 53) := by
        rw [add_comm, zpow_add₀ two_ne_zero]
        norm_num
    _ ≤ 2 ^ exponent := zpow_le_zpow_right₀ one_le_two (by omega)

theorem InBinade.le_nearest {exponent : ℤ} {value : ℚ}
    (inside : InBinade exponent value) (normal : -1022 ≤ exponent)
    (nonneg : 0 ≤ value) : 2 ^ exponent ≤ Binary64.nearest value := by
  have whole : (2 : ℚ) ^ exponent = (2 ^ 52 : ℤ) * 2 ^ (exponent - 52) := by
    rw [show exponent = 52 + (exponent - 52) by ring,
      zpow_add₀ two_ne_zero, add_sub_cancel_left]
    norm_num
  have quotient : ((2 ^ 52 : ℤ) : ℚ) ≤ value / 2 ^ (exponent - 52) := by
    rw [le_div_iff₀ (place_pos _), ← whole, ← abs_of_nonneg nonneg]
    exact inside.1
  have digits : ((2 ^ 52 : ℤ) : ℚ) ≤
      roundEven (value / 2 ^ (exponent - 52)) := by
    exact_mod_cast le_roundEven quotient
  rw [inside.nearest normal, whole]
  exact mul_le_mul_of_nonneg_right digits (place_pos _).le

/-- What is rounded to less than a power of two: the values below the tie
with that power. -/
theorem nearest_lt_iff {exponent : ℤ} (normal : -1022 < exponent)
    {value : ℚ} (nonneg : 0 ≤ value) :
    nearest value < 2 ^ (exponent + 1) ↔
      value < 2 ^ (exponent + 1) - 2 ^ (exponent - 53) := by
  have double : (2 : ℚ) ^ (exponent + 1) = 2 ^ exponent + 2 ^ exponent := by
    rw [zpow_add_one₀ two_ne_zero]
    ring
  have tie : (2 : ℚ) ^ (exponent - 53) < 2 ^ exponent :=
    zpow_lt_zpow_right₀ one_lt_two (by omega)
  have positive := place_pos exponent
  rcases lt_or_ge value (2 ^ exponent) with small | large
  · have rounded : nearest value ≤ 2 ^ exponent :=
      nearest_le exponent normal (by rwa [abs_of_nonneg nonneg])
    constructor <;> intro _ <;> linarith
  rcases lt_or_ge value (2 ^ (exponent + 1)) with inside | beyond
  · -- In the binade itself the step is 2 ^ (exponent - 52).
    have binade : InBinade exponent value := by
      rw [InBinade, abs_of_nonneg nonneg]
      exact ⟨large, inside⟩
    have step := place_pos (exponent - 52)
    have whole : (2 : ℚ) ^ (exponent + 1) =
        (2 ^ 53 : ℤ) * 2 ^ (exponent - 52) := by
      rw [show exponent + 1 = 53 + (exponent - 52) by ring,
        zpow_add₀ two_ne_zero]
      norm_num
    have half : (2 : ℚ) ^ (exponent - 53) = 1 / 2 * 2 ^ (exponent - 52) := by
      rw [show exponent - 52 = exponent - 53 + 1 by ring,
        zpow_add_one₀ two_ne_zero]
      ring
    rw [binade.nearest normal.le, half, whole, ← sub_mul,
      mul_lt_mul_iff_left₀ step, ← div_lt_iff₀ step, Int.cast_lt,
      roundEven_lt_iff (by norm_num)]
  · have rounded : 2 ^ (exponent + 1) ≤ nearest value := by
      have nonzero : value ≠ 0 := by
        intro zero
        rw [zero] at beyond
        linarith [place_pos (exponent + 1)]
      have binade := exists_binade nonzero
      have above : exponent + 1 ≤ Int.log 2 |value| := by
        apply (Int.zpow_le_iff_le_log one_lt_two (abs_pos.mpr nonzero)).mp
        rw [abs_of_nonneg nonneg]
        exact_mod_cast beyond
      calc (2 : ℚ) ^ (exponent + 1) ≤ 2 ^ Int.log 2 |value| :=
            zpow_le_zpow_right₀ one_le_two above
        _ ≤ nearest value := binade.le_nearest (by omega) nonneg
    constructor
    · intro less
      exact absurd less (not_lt.mpr rounded)
    · intro less
      linarith [place_pos (exponent - 53)]

/-- Below 2^53 the error is at most a half. -/
theorem nearest_near {value : ℚ} (small : |value| < 2 ^ 53) :
    |value - nearest value| ≤ 1 / 2 := by
  rcases eq_or_ne value 0 with rfl | nonzero
  · rw [nearest_zero, sub_zero, abs_zero]
    norm_num
  · have last : lastPlace value ≤ 0 := by
      apply lastPlace_le nonzero (by decide)
      exact_mod_cast small
    have error := nearest_error last
    rwa [zpow_zero, mul_one] at error

/-- A whole number below 2^53 stands for itself only. -/
theorem eq_of_nearest {whole other : ℤ} (small : |whole| < 2 ^ 53)
    (same : nearest other = whole) : other = whole := by
  have bounded : nearest |(other : ℚ)| < 2 ^ ((52 : ℤ) + 1) := by
    rw [← abs_nearest, same]
    exact_mod_cast small
  rw [nearest_lt_iff (by decide) (abs_nonneg _)] at bounded
  have less : |(other : ℚ)| < 2 ^ 53 := by
    have tie := place_pos (52 - 53)
    have power : (2 : ℚ) ^ ((52 : ℤ) + 1) = 2 ^ 53 := by norm_num
    linarith
  have kept := @nearest_intCast other (by exact_mod_cast less.le)
  rw [same] at kept
  exact_mod_cast kept.symm

/-- From 2^53 on every number is whole. -/
theorem exists_whole {value : ℚ} (exact : nearest value = value)
    (large : 2 ^ 53 ≤ |value|) : ∃ whole : ℤ, value = whole := by
  have positive : 0 < |value| := lt_of_lt_of_le (by norm_num) large
  have log : 53 ≤ Int.log 2 |value| :=
    (Int.zpow_le_iff_le_log one_lt_two positive).mp (by exact_mod_cast large)
  have place : 0 ≤ lastPlace value := by
    rw [lastPlace]
    omega
  obtain ⟨power, same⟩ := Int.eq_ofNat_of_zero_le place
  refine ⟨roundEven (value / 2 ^ lastPlace value) * 2 ^ power, ?_⟩
  rw [nearest, same, zpow_natCast] at exact
  rw [same, zpow_natCast]
  push_cast
  exact exact.symm

/-- A whole number is rounded to a whole number. -/
theorem nearest_whole (whole : ℤ) : ∃ other : ℤ, nearest whole = other := by
  rcases le_or_gt |whole| (2 ^ 53) with small | large
  · exact ⟨whole, nearest_intCast small⟩
  · apply exists_whole (nearest_nearest _)
    have above : (2 : ℚ) ^ 53 ≤ |(whole : ℚ)| := by exact_mod_cast large.le
    have threshold := @nearest_lt_iff 52 (by decide) |(whole : ℚ)|
      (abs_nonneg _)
    rw [abs_nearest, ← not_lt]
    intro less
    have below := threshold.mp (by norm_num at less ⊢; exact less)
    have tie := place_pos (52 - 53)
    norm_num at below tie above
    linarith

/-- The nearest whole number to a number is the number itself, or both are
small. -/
theorem round_cases {value : ℚ} (exact : nearest value = value) :
    (round value : ℚ) = value ∨
      |value| < 2 ^ 53 ∧ |(round value : ℚ)| ≤ 2 ^ 53 := by
  rcases lt_or_ge |value| (2 ^ 53) with small | large
  · right
    refine ⟨small, ?_⟩
    have near := abs_le.mp (abs_sub_round value)
    have inside := abs_lt.mp small
    have upper : round value ≤ 2 ^ 53 := by
      have less : (round value : ℚ) < 2 ^ 53 + 1 := by linarith
      exact_mod_cast Int.lt_add_one_iff.mp (by exact_mod_cast less)
    have lower : -2 ^ 53 ≤ round value := by
      have less : (-2 ^ 53 : ℚ) - 1 < round value := by linarith
      have whole : (-2 ^ 53 : ℤ) - 1 < round value := by exact_mod_cast less
      omega
    exact_mod_cast abs_le.mpr ⟨lower, upper⟩
  · obtain ⟨whole, same⟩ := exists_whole exact large
    left
    rw [same, round_intCast]

/-- The bound of the finite numbers. -/
def bound : ℚ := 2 ^ (1024 : ℤ)

/-- A finite number. -/
structure Finite where
  value : ℚ
  exact : nearest value = value
  bounded : |value| < bound
  deriving DecidableEq

/-- The numbers; the two zeros are not told apart. -/
inductive Double where
  | nan
  | infinite (negative : Bool)
  | finite (number : Finite)
  deriving DecidableEq

/-- The number that stands for a rational. -/
def round64 (value : ℚ) : Double :=
  if bounded : |nearest value| < bound then
    .finite ⟨nearest value, nearest_nearest value, bounded⟩
  else .infinite (decide (value < 0))

/-- The values beyond the largest number become infinite. -/
theorem nearest_bounded_iff (value : ℚ) :
    |nearest value| < bound ↔ |value| < bound - 2 ^ (970 : ℤ) := by
  rw [abs_nearest, bound]
  exact nearest_lt_iff (by decide : (-1022 : ℤ) < 1023) (abs_nonneg value)

theorem round64_eq_finite_iff {value : ℚ} {number : Finite} :
    round64 value = .finite number ↔ nearest value = number.value := by
  unfold round64
  constructor
  · intro same
    split at same
    · rw [← Double.finite.inj same]
    · cases same
  · intro same
    have bounded : |nearest value| < bound := by
      rw [same]
      exact number.bounded
    rw [dif_pos bounded]
    cases number
    cases same
    rfl

/-- The values that are far below the bound stand for finite numbers. -/
theorem exists_finite {value : ℚ} (small : |value| ≤ 2 ^ 100) :
    ∃ number : Finite, round64 value = .finite number ∧
      number.value = nearest value := by
  have bounded : |nearest value| < bound := by
    rw [nearest_bounded_iff, bound]
    have modest : |value| ≤ 2 ^ (970 : ℤ) := by
      refine small.trans ?_
      rw [← zpow_natCast]
      exact zpow_le_zpow_right₀ one_le_two (by decide)
    have first := zpow_lt_zpow_right₀ (one_lt_two (α := ℚ))
      (by decide : (970 : ℤ) < 1023)
    have double : (2 : ℚ) ^ (1024 : ℤ) = 2 ^ (1023 : ℤ) + 2 ^ (1023 : ℤ) := by
      rw [show (1024 : ℤ) = 1023 + 1 by rfl, zpow_add_one₀ two_ne_zero]
      ring
    rw [double, lt_sub_iff_add_lt]
    exact add_lt_add (modest.trans_lt first) first
  exact ⟨⟨nearest value, nearest_nearest value, bounded⟩, dif_pos bounded, rfl⟩

/-- A number stands for its own value. -/
theorem round64_self (number : Finite) :
    round64 number.value = .finite number :=
  round64_eq_finite_iff.mpr number.exact

namespace Double

/-- The product with a positive rational, rounded once. -/
def times (factor : ℚ) : Double → Double
  | finite number => round64 (number.value * factor)
  | other => other

/-- The nearest integer; of two, the greater one. -/
def toInteger : Double → Double
  | finite number => round64 (round number.value)
  | other => other

end Double

end Binary64
