import Xoxproxy.Web.UserForm

/-!
# Units of the form

What becomes of a whole number below 2^53 that is divided by the unit of
its field, written, read, multiplied and rounded.
-/

namespace Xoxproxy.Web

open Binary64

/-- The bandwidths that come back from megabits per second.  Beyond 2^32
megabits the quotient has fewer digits than the product needs, and its
error, a multiple of 1/16384 or 1/8192, decides. -/
def MegabitExact (bandwidth : Nat) : Prop :=
  if bandwidth < 4294967296000000 then True
  else if bandwidth < 4503599627370496 then
    bandwidth * 16384 % 15625 ≤ 7812 ∨ 11529 ≤ bandwidth * 16384 % 15625
  else if bandwidth < 8589934592000000 then True
  else
    bandwidth * 8192 % 15625 < 4096 ∨ 11529 < bandwidth * 8192 % 15625 ∨
      (bandwidth * 8192 % 15625 = 4096 ∨ bandwidth * 8192 % 15625 = 11529) ∧
        bandwidth % 2 = 0

instance (bandwidth : Nat) : Decidable (MegabitExact bandwidth) := by
  unfold MegabitExact
  infer_instance

example : MegabitExact 2500000 ∧ ¬MegabitExact 4294967296000011 := by
  decide

/-- The error of the quotient, multiplied back. -/
def drift (shift bandwidth : Nat) : ℚ :=
  if bandwidth * 2 ^ shift % 15625 ≤ 7812 then
    -((bandwidth * 2 ^ shift % 15625 : Nat) : ℚ) / 2 ^ shift
  else (15625 - (bandwidth * 2 ^ shift % 15625 : Nat)) / 2 ^ shift

theorem restored_eq {bandwidth shift : Nat}
    (place : lastPlace ((bandwidth : ℚ) / 1000000) = -(shift + 6 : Nat)) :
    nearest ((bandwidth : ℚ) / 1000000) * 1000000 =
      bandwidth + drift shift bandwidth := by
  generalize part : bandwidth * 2 ^ shift % 15625 = remainder
  generalize quotient : bandwidth * 2 ^ shift / 15625 = whole
  have split : bandwidth * 2 ^ shift = whole * 15625 + remainder := by
    rw [← part, ← quotient]
    exact (Nat.div_add_mod' _ _).symm
  have less : remainder < 15625 := by
    rw [← part]
    exact Nat.mod_lt _ (by decide)
  have step : (2 : ℚ) ^ (-(shift + 6 : Nat) : ℤ) = 1 / (2 ^ shift * 64) := by
    rw [zpow_neg, zpow_natCast, pow_add]
    norm_num
  have positive : (0 : ℚ) < 2 ^ shift := pow_pos two_pos shift
  have scaled : (bandwidth : ℚ) / 1000000 / (1 / (2 ^ shift * 64)) =
      ((bandwidth * 2 ^ shift : Nat) : ℚ) / (15625 : Nat) := by
    push_cast
    field_simp
    ring
  have back : (bandwidth : ℚ) * 2 ^ shift = whole * 15625 + remainder := by
    exact_mod_cast split
  have odd : 15625 = 2 * 7812 + 1 := by norm_num
  rw [nearest, place, step, scaled, roundEven_div_odd odd split less, drift,
    part]
  split
  · rw [Int.cast_natCast]
    field_simp
    linarith
  · push_cast
    field_simp
    linarith

theorem abs_drift (shift bandwidth : Nat) :
    |drift shift bandwidth| =
      (if bandwidth * 2 ^ shift % 15625 ≤ 7812 then
        bandwidth * 2 ^ shift % 15625
      else 15625 - bandwidth * 2 ^ shift % 15625 : Nat) / 2 ^ shift := by
  have less : bandwidth * 2 ^ shift % 15625 < 15625 :=
    Nat.mod_lt _ (by decide)
  have positive : (0 : ℚ) < 2 ^ shift := pow_pos two_pos shift
  rw [drift]
  split
  · rw [abs_div, abs_neg, abs_of_nonneg (Nat.cast_nonneg _),
      abs_of_pos positive]
  · rw [abs_div, abs_of_pos positive, Nat.cast_sub less.le, Nat.cast_ofNat,
      abs_of_nonneg]
    rw [sub_nonneg]
    exact_mod_cast less.le

theorem drift_bounds (shift bandwidth : Nat) :
    |drift shift bandwidth| ≤ 7812 / 2 ^ shift := by
  rw [abs_drift]
  apply div_le_div_of_nonneg_right _ (pow_pos two_pos shift).le
  exact_mod_cast (by split <;> omega :
    (if bandwidth * 2 ^ shift % 15625 ≤ 7812 then
      bandwidth * 2 ^ shift % 15625
    else 15625 - bandwidth * 2 ^ shift % 15625) ≤ 7812)

/-- The integers to which a value is rounded. -/
theorem round_eq_natCast_iff (value : ℚ) (number : Nat) :
    round value = number ↔
      (number : ℚ) - 1 / 2 ≤ value ∧ value < number + 1 / 2 := by
  have cast : round value = number ↔ round value = ((number : ℤ)) := Iff.rfl
  rw [cast, round_eq_iff, Set.mem_Ico, Int.cast_natCast]

/-- Below 2^32 megabits the error is less than a quarter. -/
theorem restored_low {bandwidth : Nat} (positive : 0 < bandwidth)
    (small : bandwidth < 4294967296000000) :
    round (nearest (nearest ((bandwidth : ℚ) / 1000000) * 1000000)) =
      bandwidth := by
  have one : (1 : ℚ) ≤ bandwidth := by exact_mod_cast positive
  have bound : (bandwidth : ℚ) ≤ 4294967296000000 - 1 := by
    have cast : (bandwidth : ℚ) + 1 ≤ 4294967296000000 := by exact_mod_cast small
    linarith
  have first : lastPlace ((bandwidth : ℚ) / 1000000) ≤ -21 := by
    apply lastPlace_le (by positivity) (by decide)
    rw [abs_of_nonneg (by positivity), div_lt_iff₀ (by norm_num)]
    norm_num
    linarith
  have quotient := abs_le.mp (nearest_error first)
  generalize nearest ((bandwidth : ℚ) / 1000000) = megabits at quotient ⊢
  norm_num at quotient
  have second : lastPlace (megabits * 1000000) ≤ -1 := by
    apply lastPlace_le _ (by decide)
    · rw [abs_of_nonneg (by linarith)]
      norm_num
      linarith
    · linarith
  have product := abs_le.mp (nearest_error second)
  norm_num at product
  rw [round_eq_natCast_iff]
  constructor <;> linarith

/-- Where the grid has halves, a drift upwards of more than a quarter is
rounded away from the number. -/
theorem round_halves {number : Nat} {error : ℚ}
    (inside : InBinade 51 (number + error)) (bounded : |error| < 1 / 2) :
    round (nearest (number + error)) = number ↔ error ≤ 1 / 4 := by
  obtain ⟨low, high⟩ := abs_lt.mp bounded
  have step : (2 : ℚ) ^ ((51 : ℤ) - 52) = 1 / 2 := by norm_num
  have double : ((number : ℚ) + error) / (1 / 2) =
      ((2 * number : ℤ) : ℚ) + 2 * error := by
    push_cast
    ring
  rw [inside.nearest (by decide), step, double, round_eq_natCast_iff]
  generalize rounded :
    roundEven (((2 * number : ℤ) : ℚ) + 2 * error) = multiple
  have near := abs_le.mp (roundEven_error (((2 * number : ℤ) : ℚ) + 2 * error))
  rw [rounded] at near
  push_cast at near
  constructor
  · rintro ⟨-, below⟩
    by_contra more
    have least : (2 * number : ℤ) < multiple := by
      have cast : ((2 * number : ℤ) : ℚ) < multiple := by
        push_cast
        linarith
      exact_mod_cast cast
    have cast : ((2 * number : ℤ) : ℚ) + 1 ≤ multiple := by exact_mod_cast least
    push_cast at cast
    linarith
  · intro little
    have above : (2 * number : ℤ) - 1 ≤ multiple := by
      rw [← rounded]
      apply le_roundEven
      push_cast
      linarith
    have below : multiple ≤ 2 * number := by
      rcases lt_or_eq_of_le little with less | tie
      · have cast : (multiple : ℚ) < ((2 * number + 1 : ℤ) : ℚ) := by
          push_cast
          linarith
        exact Int.lt_add_one_iff.mp (by exact_mod_cast cast)
      · rw [tie, show (2 : ℚ) * (1 / 4) = 1 / 2 by norm_num,
          roundEven_tie] at rounded
        omega
    have lower : ((2 * number - 1 : ℤ) : ℚ) ≤ multiple := by exact_mod_cast above
    have upper : (multiple : ℚ) ≤ ((2 * number : ℤ) : ℚ) := by exact_mod_cast below
    push_cast at lower upper
    constructor <;> linarith

/-- Where the grid has the whole numbers only. -/
theorem round_wholes {number : Nat} {error : ℚ}
    (inside : InBinade 52 (number + error)) :
    round (nearest (number + error)) = number ↔
      |error| < 1 / 2 ∨ |error| = 1 / 2 ∧ number % 2 = 0 := by
  have step : (2 : ℚ) ^ ((52 : ℤ) - 52) = 1 := by norm_num
  have iff := roundEven_add_eq_iff number error
  rw [Int.cast_natCast] at iff
  rw [inside.nearest (by decide), step, div_one, mul_one, round_intCast, iff]
  have parity : (number : ℤ) % 2 = 0 ↔ number % 2 = 0 := by omega
  rw [parity]

/-- The last place of the quotient between 2^32 and 2^34 megabits. -/
theorem megabit_place {bandwidth shift : Nat} {exponent : ℤ}
    (normal : -1022 ≤ exponent) (same : exponent - 52 = -(shift + 6 : Nat))
    (low : 2 ^ exponent * 1000000 ≤ (bandwidth : ℚ))
    (high : (bandwidth : ℚ) < 2 ^ (exponent + 1) * 1000000) :
    lastPlace ((bandwidth : ℚ) / 1000000) = -(shift + 6 : Nat) := by
  have inside : InBinade exponent ((bandwidth : ℚ) / 1000000) := by
    rw [InBinade, abs_of_nonneg (by positivity)]
    exact ⟨(le_div_iff₀ (by norm_num)).mpr low,
      (div_lt_iff₀ (by norm_num)).mpr high⟩
  rw [inside.lastPlace normal, same]

/-- A drift upwards of at most a quarter. -/
theorem drift_le_quarter_iff (bandwidth : Nat) :
    drift 14 bandwidth ≤ 1 / 4 ↔
      bandwidth * 16384 % 15625 ≤ 7812 ∨
        11529 ≤ bandwidth * 16384 % 15625 := by
  have power : bandwidth * 2 ^ 14 % 15625 = bandwidth * 16384 % 15625 := by
    norm_num
  rw [drift, power]
  generalize bandwidth * 16384 % 15625 = remainder
  split
  case isTrue down =>
    refine iff_of_true ?_ (.inl down)
    exact (div_nonpos_of_nonpos_of_nonneg
      (neg_nonpos.mpr (Nat.cast_nonneg _)) (by norm_num)).trans (by norm_num)
  case isFalse up =>
    rw [or_iff_right up, div_le_iff₀ (by norm_num)]
    constructor
    · intro little
      have cast : (11529 : ℚ) ≤ remainder := by linarith
      exact_mod_cast cast
    · intro large
      have cast : (11529 : ℚ) ≤ remainder := by exact_mod_cast large
      linarith

/-- A drift that does not reach the next whole number. -/
theorem drift_half_iff (bandwidth : Nat) :
    (|drift 13 bandwidth| < 1 / 2 ∨
        |drift 13 bandwidth| = 1 / 2 ∧ bandwidth % 2 = 0) ↔
      bandwidth * 8192 % 15625 < 4096 ∨ 11529 < bandwidth * 8192 % 15625 ∨
        (bandwidth * 8192 % 15625 = 4096 ∨
          bandwidth * 8192 % 15625 = 11529) ∧ bandwidth % 2 = 0 := by
  have power : bandwidth * 2 ^ 13 % 15625 = bandwidth * 8192 % 15625 := by
    norm_num
  have less : bandwidth * 8192 % 15625 < 15625 := Nat.mod_lt _ (by decide)
  rw [abs_drift, power]
  generalize bandwidth * 8192 % 15625 = remainder at less ⊢
  generalize distance : (if remainder ≤ 7812 then remainder
    else 15625 - remainder) = error
  have below : (error : ℚ) / 2 ^ 13 < 1 / 2 ↔ error < 4096 := by
    rw [div_lt_iff₀ (by norm_num)]
    norm_num
  have equal : (error : ℚ) / 2 ^ 13 = 1 / 2 ↔ error = 4096 := by
    rw [div_eq_iff (by norm_num)]
    norm_num
    norm_cast
  rw [below, equal]
  split at distance <;> omega

/-- Division by the unit and multiplication with it, each rounded, and
rounding to an integer give the bandwidth back under the condition
only. -/
theorem megabits_restored_iff {bandwidth : Nat} (positive : 0 < bandwidth)
    (small : bandwidth < 2 ^ 53) :
    round (nearest (nearest ((bandwidth : ℚ) / 1000000) * 1000000)) =
      bandwidth ↔ MegabitExact bandwidth := by
  have top : (bandwidth : ℚ) ≤ 9007199254740991 := by
    exact_mod_cast Nat.le_pred_of_lt small
  rw [MegabitExact]
  split
  case isTrue low =>
    exact iff_of_true (restored_low positive low) trivial
  case isFalse low =>
  have least : (4294967296000000 : ℚ) ≤ bandwidth := by
    exact_mod_cast not_lt.mp low
  have drift14 := abs_le.mp (drift_bounds 14 bandwidth)
  norm_num at drift14
  have bounded : |drift 14 bandwidth| < 1 / 2 :=
    (drift_bounds 14 bandwidth).trans_lt (by norm_num)
  split
  case isTrue middle =>
    have most : (bandwidth : ℚ) ≤ 4503599627370495 := by
      exact_mod_cast Nat.le_pred_of_lt middle
    have place := @megabit_place bandwidth 14 32 (by decide) (by decide)
      (by norm_num; linarith) (by norm_num; linarith)
    have inside : InBinade 51 (bandwidth + drift 14 bandwidth) := by
      rw [InBinade, abs_of_nonneg (by linarith)]
      norm_num
      constructor <;> linarith
    rw [restored_eq place, round_halves inside bounded, drift_le_quarter_iff]
  case isFalse middle =>
  have half : (4503599627370496 : ℚ) ≤ bandwidth := by
    exact_mod_cast not_lt.mp middle
  split
  case isTrue high =>
    have most : (bandwidth : ℚ) < 8589934592000000 := by exact_mod_cast high
    have place := @megabit_place bandwidth 14 32 (by decide) (by decide)
      (by norm_num; linarith) (by norm_num; linarith)
    rw [restored_eq place]
    apply iff_of_true _ trivial
    rcases le_or_gt (4503599627370496 : ℚ) (bandwidth + drift 14 bandwidth)
      with above | below
    · have inside : InBinade 52 (bandwidth + drift 14 bandwidth) := by
        rw [InBinade, abs_of_nonneg (by linarith)]
        norm_num
        constructor <;> linarith
      exact (round_wholes inside).mpr (.inl bounded)
    · have inside : InBinade 51 (bandwidth + drift 14 bandwidth) := by
        rw [InBinade, abs_of_nonneg (by linarith)]
        norm_num
        constructor <;> linarith
      exact (round_halves inside bounded).mpr (by linarith)
  case isFalse high =>
    have large : (8589934592000000 : ℚ) ≤ bandwidth := by
      exact_mod_cast not_lt.mp high
    have drift13 := abs_le.mp (drift_bounds 13 bandwidth)
    norm_num at drift13
    have place := @megabit_place bandwidth 13 33 (by decide) (by decide)
      (by norm_num; linarith) (by norm_num; linarith)
    have inside : InBinade 52 (bandwidth + drift 13 bandwidth) := by
      rw [InBinade, abs_of_nonneg (by linarith)]
      norm_num
      constructor <;> linarith
    rw [restored_eq place, round_wholes inside, drift_half_iff]

/-! ## Fields -/

theorem numberOf_natCast (value : Nat) : numberOf value = round64 value := by
  rw [numberOf, Int.cast_natCast]

/-- A whole number below 2^53 as a number of the program. -/
theorem exists_number {value : Nat} (small : value < 2 ^ 53) :
    ∃ number : Finite, numberOf value = .finite number ∧
      number.value = value := by
  have cast : |(value : ℚ)| < 2 ^ 53 := by
    rw [abs_of_nonneg (Nat.cast_nonneg value)]
    exact_mod_cast small
  obtain ⟨number, stands, exact⟩ :=
    @exists_finite (value : ℚ) (cast.le.trans (by norm_num))
  have kept := @nearest_intCast (value : ℤ) (by exact_mod_cast cast.le)
  rw [Int.cast_natCast] at kept
  exact ⟨number, by rw [numberOf_natCast, stands], exact.trans kept⟩

theorem round64_eq_numberOf_iff {rounded : ℤ} {value : Nat}
    (small : value < 2 ^ 53) :
    round64 rounded = numberOf value ↔ rounded = value := by
  constructor
  · intro same
    obtain ⟨number, stands, exact⟩ := exists_number small
    rw [stands, round64_eq_finite_iff, exact, ← Int.cast_natCast value] at same
    apply eq_of_nearest _ same
    rw [abs_of_nonneg (Int.natCast_nonneg value)]
    exact_mod_cast small
  · rintro rfl
    rfl

theorem stringOf_ne (number : Double) : stringOf number ≠ "" := by
  intro empty
  apply number.text_ne_nil
  have text : (stringOf number).toList = number.text := String.toList_ofList
  rw [← text, empty, String.toList_empty]

/-- The field of a number that was written into it. -/
theorem scaledField_stringOf {number : Finite} {unit : Nat}
    (small : |number.value * unit| ≤ 2 ^ 100) :
    scaledField unit (stringOf (.finite number)) =
      round64 (round (nearest (number.value * unit)) : ℤ) := by
  obtain ⟨product, stands, exact⟩ := exists_finite small
  rw [scaledField, if_neg (stringOf_ne _), stringOf, String.toList_ofList,
    parseFloat_text, Double.times, stands, Double.toInteger, exact]

theorem truthy_iff (number : Finite) :
    truthy (.finite number) = true ↔ number.value ≠ 0 := by
  simp [truthy]

theorem zero_eq : zero = numberOf (0 : Nat) := by
  rw [zero, numberOf_natCast, Nat.cast_zero]

/-- An unset field stands for zero. -/
theorem survives_zero (unit : Nat) {text : String} (unset : text = "") :
    scaledField unit text = numberOf (0 : Nat) := by
  rw [scaledField, if_pos unset, zero_eq]

theorem falsy_zero : ¬truthy (numberOf (0 : Nat)) = true := by
  obtain ⟨number, stands, exact⟩ := exists_number (by decide : 0 < 2 ^ 53)
  rw [stands, truthy_iff, exact, Nat.cast_zero, not_not]

theorem truthy_positive {value : Nat} (positive : 0 < value)
    (small : value < 2 ^ 53) : truthy (numberOf value) = true := by
  obtain ⟨number, stands, exact⟩ := exists_number small
  rw [stands, truthy_iff, exact]
  exact_mod_cast positive.ne'

/-- A whole number below 2^53 divided by a unit. -/
theorem exists_quotient {value unit : Nat} (small : value < 2 ^ 53)
    (positive : 0 < unit) :
    ∃ quotient : Finite,
      (numberOf value).times (1 / unit) = .finite quotient ∧
        quotient.value = nearest ((value : ℚ) / unit) ∧
        |(value : ℚ) / unit - quotient.value| ≤ 1 / 2 := by
  obtain ⟨number, stands, exact⟩ := exists_number small
  have one : (1 : ℚ) ≤ unit := by exact_mod_cast positive
  have top : (value : ℚ) < 2 ^ 53 := by exact_mod_cast small
  have bounded : |(value : ℚ) / unit| < 2 ^ 53 := by
    rw [abs_of_nonneg (by positivity), div_lt_iff₀ (by linarith)]
    nlinarith
  have product : number.value * (1 / unit) = (value : ℚ) / unit := by
    rw [exact, mul_one_div]
  obtain ⟨quotient, divided, nearby⟩ :=
    exists_finite (bounded.le.trans (by norm_num : (2 : ℚ) ^ 53 ≤ 2 ^ 100))
  refine ⟨quotient, ?_, nearby, ?_⟩
  · rw [stands, Double.times, product, divided]
  · rw [nearby]
    exact nearest_near bounded

/-- A bandwidth comes back from its field under the condition only. -/
theorem bandwidth_survives_iff {bandwidth : Nat} (small : bandwidth < 2 ^ 53) :
    scaledField 1000000 (bandwidthText (numberOf bandwidth)) =
      numberOf bandwidth ↔ MegabitExact bandwidth := by
  rcases Nat.eq_zero_or_pos bandwidth with rfl | positive
  · refine iff_of_true (survives_zero _ ?_) (by decide)
    rw [bandwidthText, if_neg falsy_zero]
  · obtain ⟨megabits, divided, value, near⟩ :=
      exists_quotient small (by decide : 0 < 1000000)
    have top : (bandwidth : ℚ) < 2 ^ 53 := by exact_mod_cast small
    have bounds := abs_le.mp near
    rw [Nat.cast_ofNat] at divided value bounds
    have nonneg : 0 ≤ megabits.value := by
      rw [value]
      exact nearest_nonneg (by positivity)
    have product : |megabits.value * (1000000 : Nat)| ≤ 2 ^ 100 := by
      rw [Nat.cast_ofNat, abs_of_nonneg (by positivity)]
      norm_num at bounds ⊢
      linarith
    rw [bandwidthText, if_pos (truthy_positive positive small), divided,
      scaledField_stringOf product, round64_eq_numberOf_iff small, value,
      Nat.cast_ofNat, megabits_restored_iff positive small]

/-- Products with an even unit up to 2^54 are exact. -/
theorem nearest_product {count unit : Nat} (even : unit % 2 = 0)
    (modest : count * unit ≤ 2 ^ 54) :
    nearest ((count : ℚ) * unit) = ((count * unit : Nat) : ℤ) := by
  obtain ⟨half, rfl⟩ : ∃ half, unit = half * 2 := ⟨unit / 2, by omega⟩
  have digits : |((count * half : Nat) : ℤ)| ≤ 2 ^ 53 := by
    rw [abs_of_nonneg (Int.natCast_nonneg _)]
    have bound : count * half * 2 ≤ 2 ^ 53 * 2 := by
      rw [Nat.mul_assoc]
      exact modest
    exact_mod_cast Nat.le_of_mul_le_mul_right bound two_pos
  have grid := nearest_grid (by decide : (-1074 : ℤ) ≤ 1) digits
  rw [zpow_one] at grid
  push_cast at grid ⊢
  rw [← mul_assoc, grid]

/-- The number of units that the field shows. -/
theorem exists_units_shown {quota unit : Nat} (small : quota < 2 ^ 53)
    (two : 2 ≤ unit) :
    ∃ (shown : Finite) (count : Nat),
      ((numberOf quota).times (1 / unit)).toInteger = .finite shown ∧
        shown.value = count ∧ count * unit ≤ quota + unit ∧
        (quota % unit = 0 → count * unit = quota) := by
  obtain ⟨quotient, divided, value, near⟩ :=
    exists_quotient small (by omega : 0 < unit)
  have wide : (2 : ℚ) ≤ unit := by exact_mod_cast two
  have top : (quota : ℚ) < 2 ^ 53 := by exact_mod_cast small
  have nonneg : 0 ≤ quotient.value := by
    rw [value]
    exact nearest_nonneg (by positivity)
  obtain ⟨count, rounded⟩ : ∃ count : Nat, round quotient.value = count := by
    apply Int.eq_ofNat_of_zero_le
    rw [round_eq]
    exact Int.floor_nonneg.mpr (by linarith)
  have above : (count : ℚ) ≤ quotient.value + 1 / 2 := by
    have le := round_le_add_half quotient.value
    rw [rounded] at le
    exact_mod_cast le
  have bounds := abs_le.mp near
  have product : (count : ℚ) * unit ≤ quota + unit := by
    have one : (count : ℚ) ≤ quota / unit + 1 := by linarith
    calc (count : ℚ) * unit ≤ (quota / unit + 1) * unit :=
          mul_le_mul_of_nonneg_right one (by linarith)
      _ = quota + unit := by
          rw [add_mul, div_mul_cancel₀ _ (by linarith), one_mul]
  have whole : count * unit ≤ quota + unit := by exact_mod_cast product
  have few : count ≤ 2 ^ 53 := by
    by_contra many
    have more := Nat.mul_le_mul_right unit (not_le.mp many)
    rw [Nat.succ_mul] at more
    omega
  have kept := @nearest_intCast (count : ℤ) (by
    rw [abs_of_nonneg (Int.natCast_nonneg _)]
    exact_mod_cast few)
  rw [Int.cast_natCast] at kept
  obtain ⟨shown, stands, exact⟩ := @exists_finite (count : ℚ) (by
    have cast : (count : ℚ) ≤ 2 ^ 53 := by exact_mod_cast few
    rw [abs_of_nonneg (Nat.cast_nonneg _)]
    exact cast.trans (by norm_num))
  refine ⟨shown, count, ?_, exact.trans kept, whole, ?_⟩
  · rw [divided, Double.toInteger, rounded, Int.cast_natCast, stands]
  · intro multiple
    obtain ⟨units, rfl⟩ := Nat.dvd_of_mod_eq_zero multiple
    have cancelled : ((unit * units : Nat) : ℚ) / unit = units := by
      rw [Nat.cast_mul, mul_div_cancel_left₀ _ (by linarith)]
    have fewer : |(units : ℤ)| ≤ 2 ^ 53 := by
      rw [abs_of_nonneg (Int.natCast_nonneg _)]
      have le : units ≤ unit * units := Nat.le_mul_of_pos_left units (by omega)
      exact_mod_cast (by omega : units ≤ 2 ^ 53)
    have same := nearest_intCast fewer
    rw [Int.cast_natCast] at same
    rw [value, cancelled, same, round_natCast, Int.natCast_inj] at rounded
    rw [← rounded, Nat.mul_comm]

/-- A quota comes back from its field when it is a multiple of the
unit. -/
theorem quota_survives_iff {quota unit : Nat} (small : quota < 2 ^ 53)
    (two : 2 ≤ unit) (even : unit % 2 = 0) (modest : unit ≤ 2 ^ 50) :
    scaledField unit (quotaText unit (numberOf quota)) = numberOf quota ↔
      quota % unit = 0 := by
  rcases Nat.eq_zero_or_pos quota with rfl | positive
  · refine iff_of_true (survives_zero _ ?_) (Nat.zero_mod unit)
    rw [quotaText, if_neg falsy_zero]
  · obtain ⟨shown, count, divided, value, bound, back⟩ :=
      exists_units_shown small two
    have exact := nearest_product even
      (by omega : count * unit ≤ 2 ^ 54)
    have product : |shown.value * unit| ≤ 2 ^ 100 := by
      rw [value, abs_of_nonneg (by positivity)]
      have cast : (count : ℚ) * unit ≤ 2 ^ 54 := by
        exact_mod_cast (by omega : count * unit ≤ 2 ^ 54)
      exact cast.trans (by norm_num)
    rw [quotaText, if_pos (truthy_positive positive small), divided,
      scaledField_stringOf product, value, exact, round_intCast,
      round64_eq_numberOf_iff small, Int.natCast_inj]
    constructor
    · intro same
      rw [← same]
      exact Nat.mul_mod_left count unit
    · exact back

theorem connections_survive {connections : Nat}
    (small : connections < 2 ^ 53) :
    connectionsField (connectionsText (numberOf connections)) =
      numberOf connections := by
  rcases Nat.eq_zero_or_pos connections with rfl | positive
  · rw [connectionsText, if_neg falsy_zero, connectionsField, if_pos rfl,
      zero_eq]
  · obtain ⟨number, stands, exact⟩ := exists_number small
    rw [connectionsText, if_pos (truthy_positive positive small),
      connectionsField, if_neg (stringOf_ne _), stringOf,
      String.toList_ofList, stands, parseInt_text number exact small]

end Xoxproxy.Web
