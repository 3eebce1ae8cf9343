import Xoxproxy.Api.UserRequests
import Xoxproxy.Web.UserForm

/-!
# Numbers on the way to the server

A whole number that the dashboard writes into a request is read by the
server as an `int64`, from the digits that `JSON.stringify` gives it.
-/

namespace Xoxproxy.Web

open Binary64 JsonObjects Api

theorem atoi_digits {digits : List Char} (all : AllDigits digits)
    (some : digits ≠ []) :
    (atoi (String.ofList digits)).isSome = true ↔
      Nat.ofDigitChars 10 digits 0 < 2 ^ 63 := by
  rw [atoi, String.toList_ofList, signed_of_digits all,
    decimal_of_digits some all]
  simp only [Bool.false_eq_true, if_false]
  split
  · rename_i inside
    simp only [Option.isSome_some, true_iff]
    omega
  · rename_i outside
    simp only [Option.isSome_none, Bool.false_eq_true, false_iff]
    omega

theorem atoi_minus {digits : List Char} (all : AllDigits digits)
    (some : digits ≠ []) :
    (atoi (String.ofList ('-' :: digits))).isSome = true ↔
      Nat.ofDigitChars 10 digits 0 ≤ 2 ^ 63 := by
  rw [atoi, String.toList_ofList, signed, decimal_of_digits some all]
  simp only [if_true]
  split
  · rename_i inside
    simp only [Option.isSome_some, true_iff]
    omega
  · rename_i outside
    simp only [Option.isSome_none, Bool.false_eq_true, false_iff]
    omega

theorem decimal_eq_none_of_mem {text : List Char} {letter : Char}
    (member : letter ∈ text) (other : letter.isDigit = false) :
    decimal text = none := by
  cases read : decimal text with
  | none => rfl
  | some value =>
      obtain ⟨_, numeric, _⟩ := decimal_eq_some read
      exact absurd (numeric letter member) (by simp [other])

/-- A number with an exponent is no integer literal. -/
theorem atoi_exponent {text : List Char} (member : 'e' ∈ text) :
    atoi (String.ofList text) = none := by
  have later : 'e' ∈ (signed text).2 := by
    unfold signed
    split
    · simpa using member
    · simpa using member
    · exact member
  rw [atoi, String.toList_ofList, decimal_eq_none_of_mem later (by decide)]

/-- The text of a whole number is read as an `int64` exactly below 2^63. -/
theorem atoi_whole (negative : Bool) (number : Finite) {whole : Nat}
    (same : number.value = whole) (positive : 0 < whole) :
    (atoi (String.ofList ((if negative then ['-'] else []) ++
        (shortest number.value).text))).isSome = true ↔ whole < 2 ^ 63 := by
  obtain ⟨places, exponent, some, short⟩ :=
    exists_whole_decimal number same positive
  have stands := short.trans same
  have threshold := digits_bound stands fun bound => by
    apply thousand_dvd ?_ exponent
    rw [same, bound]
    norm_num
  rcases Nat.lt_or_ge
      ((shortest number.value).significand * 10 ^ places) (10 ^ 21)
    with small | large
  · have text := Decimal.text_whole exponent some small
    have all := allDigits_padded (shortest number.value).significand places
    have nonempty : Nat.toDigits 10 (shortest number.value).significand ++
        List.replicate places '0' ≠ [] := by
      simp [Nat.toDigits_ne_nil]
    rw [text]
    cases negative with
    | false =>
        rw [if_neg Bool.false_ne_true, List.nil_append,
          atoi_digits all nonempty, ofDigitChars_padded]
        split at threshold <;> omega
    | true =>
        rw [if_pos rfl, List.singleton_append, atoi_minus all nonempty,
          ofDigitChars_padded]
        split at threshold <;> omega
  · have letter := Decimal.mem_text exponent some large
    have unread : atoi (String.ofList ((if negative then ['-'] else []) ++
        (shortest number.value).text)) = none :=
      atoi_exponent (List.mem_append_right _ letter)
    have beyond : 2 ^ 63 ≤ whole := by
      by_contra less
      rw [if_pos (not_le.mp less)] at threshold
      omega
    rw [unread, Option.isSome_none]
    exact ⟨fun isTrue => absurd isTrue Bool.false_ne_true,
      fun less => absurd less (not_lt.mpr beyond)⟩

/-- The literal of a whole number is an `int64` exactly below 2^63. -/
theorem atoi_text_iff (number : Finite) {whole : ℤ}
    (same : number.value = whole) :
    (atoi (String.ofList (Double.finite number).text)).isSome = true ↔
      |whole| < 2 ^ 63 := by
  unfold Double.text
  dsimp only
  rcases lt_trichotomy whole 0 with negative | rfl | positive
  · obtain ⟨size, rfl⟩ := Int.exists_eq_neg_ofNat negative.le
    have below : number.value < 0 := by
      rw [same]
      exact_mod_cast negative
    have mirror : nearest (-number.value) = -number.value := by
      rw [nearest_neg, number.exact]
    have bounded : |-number.value| < bound := by
      rw [abs_neg]
      exact number.bounded
    have value : -number.value = size := by
      rw [same]
      push_cast
      exact neg_neg _
    have read := atoi_whole true ⟨-number.value, mirror, bounded⟩ value
      (by omega)
    rw [if_pos rfl, List.singleton_append] at read
    rw [if_neg below.ne, if_pos below, read, abs_neg, Nat.abs_cast]
    omega
  · have zero := atoi_digits (allDigits_zeros 1) (by decide)
    rw [if_pos (by rw [same, Int.cast_zero])]
    exact iff_of_true (zero.mpr (by decide)) (by decide)
  · obtain ⟨size, rfl⟩ := Int.eq_ofNat_of_zero_le positive.le
    have above : 0 < number.value := by
      rw [same]
      exact_mod_cast positive
    have value : number.value = size := by rw [same, Int.cast_natCast]
    have read := atoi_whole false number value (by omega)
    rw [if_neg Bool.false_ne_true, List.nil_append] at read
    rw [if_neg above.ne', if_neg (not_lt.mpr above.le), read, Nat.abs_cast]
    omega

/-- Below 2^63 the text has at most 21 digits. -/
theorem length_shortest_le (number : Finite) {whole : Nat}
    (same : number.value = whole) (positive : 0 < whole)
    (small : whole < 2 ^ 63) : (shortest number.value).text.length ≤ 21 := by
  obtain ⟨places, exponent, some, short⟩ :=
    exists_whole_decimal number same positive
  have threshold := digits_bound (short.trans same) fun equal =>
    absurd equal small.ne
  rw [if_pos small] at threshold
  have below := threshold.trans (by decide : 2 ^ 63 < 10 ^ 21)
  rw [Decimal.text_whole exponent some below, List.length_append,
    List.length_replicate]
  exact (length_padded_iff some).mpr below

theorem length_text_le (number : Finite) {whole : ℤ}
    (same : number.value = whole) (small : |whole| < 2 ^ 63) :
    (Double.finite number).text.length ≤ 22 := by
  unfold Double.text
  dsimp only
  split
  · decide
  split
  case isTrue negative =>
    obtain ⟨size, rfl⟩ := Int.exists_eq_neg_ofNat (by
      rw [same] at negative
      exact_mod_cast negative.le : whole ≤ 0)
    rw [abs_neg, Nat.abs_cast] at small
    have value : -number.value = size := by
      rw [same]
      push_cast
      exact neg_neg _
    have mirror : nearest (-number.value) = -number.value := by
      rw [nearest_neg, number.exact]
    have bounded : |-number.value| < bound := by
      rw [abs_neg]
      exact number.bounded
    have positive : 0 < size := by
      rw [← neg_pos, value] at negative
      exact_mod_cast negative
    have length := length_shortest_le ⟨-number.value, mirror, bounded⟩ value
      positive (by exact_mod_cast small)
    exact Nat.succ_le_succ length
  case isFalse nonzero nonneg =>
    have above := lt_of_le_of_ne (not_lt.mp nonneg) (Ne.symm nonzero)
    obtain ⟨size, rfl⟩ := Int.eq_ofNat_of_zero_le (by
      rw [same] at above
      exact_mod_cast above.le : 0 ≤ whole)
    rw [Nat.abs_cast] at small
    have value : number.value = size := by rw [same, Int.cast_natCast]
    have positive : 0 < size := by
      rw [value] at above
      exact_mod_cast above
    have length := length_shortest_le number value positive
      (by exact_mod_cast small)
    exact length.trans (by decide)

/-- What is rounded to less than 2^63. -/
theorem abs_nearest_lt_iff (value : ℚ) :
    |nearest value| < 2 ^ 63 ↔ |value| < 2 ^ 63 - 512 := by
  have threshold := @nearest_lt_iff 62 (by decide) |value| (abs_nonneg _)
  have power : (2 : ℚ) ^ ((62 : ℤ) + 1) = 2 ^ 63 := by norm_num
  have gap : (2 : ℚ) ^ ((62 : ℤ) - 53) = 512 := by norm_num
  rw [abs_nearest, ← power, ← gap]
  exact threshold

/-- `JSON.stringify` of a number. -/
def numberValue : Double → Value
  | .finite number => .number (String.ofList (Double.finite number).text)
  | _ => .null

/-- An `int64` of the server takes the number. -/
def Sendable (number : Double) : Prop :=
  (int64 (numberValue number)).isSome = true

/-- The values of the `int64` range, as far as the numbers tell them apart
from 2^63, and those that are sent as null. -/
def Fits (value : ℚ) : Prop :=
  |value| < 2 ^ 63 - 512 ∨ bound - 2 ^ (970 : ℤ) ≤ |value|

theorem sendable_finite_iff (number : Finite) {whole : ℤ}
    (same : number.value = whole) :
    Sendable (.finite number) ↔ |number.value| < 2 ^ 63 := by
  rw [Sendable, numberValue, int64, Option.isSome_map, atoi_text_iff number same,
    same]
  exact_mod_cast Iff.rfl

theorem sendable_infinite (negative : Bool) :
    Sendable (.infinite negative) := rfl

theorem sendable_nan : Sendable .nan := rfl

/-- A whole number is taken exactly when it fits. -/
theorem sendable_round64_iff (whole : ℤ) :
    Sendable (round64 whole) ↔ Fits whole := by
  rw [Fits, ← not_lt (a := |(whole : ℚ)|), ← nearest_bounded_iff]
  by_cases bounded : |nearest (whole : ℚ)| < bound
  · obtain ⟨other, same⟩ := nearest_whole whole
    have finite : round64 (whole : ℚ) = .finite
        ⟨nearest whole, nearest_nearest whole, bounded⟩ := dif_pos bounded
    rw [finite, sendable_finite_iff _ same, abs_nearest_lt_iff]
    simp [bounded]
  · have infinite : round64 (whole : ℚ) =
        .infinite (decide ((whole : ℚ) < 0)) := dif_neg bounded
    rw [infinite]
    exact iff_of_true (sendable_infinite _) (Or.inr bounded)

/-- A whole number that fits is written with few characters. -/
theorem length_written_le {whole : ℤ} (fits : Fits whole) :
    (numberValue (round64 whole)).written.length ≤ 22 := by
  have sendable := (sendable_round64_iff whole).mpr fits
  have null : Value.null.written.length ≤ 22 := by decide
  cases rounded : round64 (whole : ℚ) with
  | nan => exact null
  | infinite negative => exact null
  | finite number =>
      obtain ⟨other, nearby⟩ := nearest_whole whole
      have same : number.value = other :=
        (round64_eq_finite_iff.mp rounded).symm.trans nearby
      rw [rounded, sendable_finite_iff number same, same] at sendable
      rw [numberValue, Value.written, String.toList_ofList]
      exact length_text_le number same (by exact_mod_cast sendable)

theorem fits_of_small {value : ℚ} (small : |value| ≤ 2 ^ 53) : Fits value := by
  left
  refine small.trans_lt ?_
  norm_num

/-- A number fits exactly when the nearest whole number does. -/
theorem fits_round_iff {value : ℚ} (exact : nearest value = value) :
    Fits (round value : ℤ) ↔ Fits value := by
  rcases round_cases exact with same | ⟨small, rounded⟩
  · rw [same]
  · exact iff_of_true (fits_of_small rounded) (fits_of_small small.le)

/-- A value that is rounded to a number and then to a whole number is taken
exactly when it fits. -/
theorem sendable_toInteger_iff (value : ℚ) :
    Sendable (round64 value).toInteger ↔ Fits value := by
  by_cases bounded : |nearest value| < bound
  · have finite : round64 value = .finite
        ⟨nearest value, nearest_nearest value, bounded⟩ := dif_pos bounded
    rw [finite, Double.toInteger, sendable_round64_iff,
      fits_round_iff (nearest_nearest value), Fits, Fits,
      ← abs_nearest_lt_iff, nearest_nearest, abs_nearest_lt_iff, ← not_lt,
      ← nearest_bounded_iff, nearest_nearest, ← not_lt (a := |value|),
      ← nearest_bounded_iff]
  · have infinite : round64 value = .infinite (decide (value < 0)) :=
      dif_neg bounded
    rw [nearest_bounded_iff, not_lt] at bounded
    rw [infinite]
    exact iff_of_true (sendable_infinite _) (Or.inr bounded)

theorem sendable_zero : Sendable zero := by
  have whole := sendable_round64_iff 0
  rw [Int.cast_zero] at whole
  exact whole.mpr (fits_of_small (by norm_num))

/-- A field with a unit, in the unit of the server. -/
theorem sendable_scaledField_iff (unit : Nat) (text : String) :
    Sendable (scaledField unit text) ↔
      ∀ number, parseFloat text.toList = .finite number →
        Fits (number.value * unit) := by
  by_cases empty : text = ""
  · have read : parseFloat "".toList = .nan := by decide
    rw [empty, scaledField, if_pos rfl, read]
    exact iff_of_true sendable_zero fun _ finite => by cases finite
  · rw [scaledField, if_neg empty]
    cases read : parseFloat text.toList with
    | nan => exact iff_of_true sendable_nan fun _ finite => by cases finite
    | infinite negative =>
        exact iff_of_true (sendable_infinite negative)
          fun _ finite => by cases finite
    | finite number =>
        rw [Double.times, sendable_toInteger_iff]
        simp

/-- The field for the connections. -/
theorem sendable_connectionsField_iff (text : String) :
    Sendable (connectionsField text) ↔
      ∀ number, parseInt text.toList = .finite number →
        Fits number.value := by
  by_cases empty : text = ""
  · have read : parseInt "".toList = .nan := by decide
    rw [empty, connectionsField, if_pos rfl, read]
    exact iff_of_true sendable_zero fun _ finite => by cases finite
  · rw [connectionsField, if_neg empty]
    cases read : parseInt text.toList with
    | nan => exact iff_of_true sendable_nan fun _ finite => by cases finite
    | infinite negative =>
        exact iff_of_true (sendable_infinite negative)
          fun _ finite => by cases finite
    | finite number =>
        obtain ⟨whole, same⟩ := parseInt_whole read
        rw [← round64_self number, same, sendable_round64_iff, ← same,
          round64_self]
        simp

end Xoxproxy.Web
