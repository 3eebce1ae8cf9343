import Mathlib.Data.List.Basic
import Mathlib.Tactic.NormNum
import Mathlib.Tactic.Ring
import Xoxproxy.Engine.LogParsing

/-!
# Times in the log

The milliseconds that `parseUnixMillis` makes of a timestamp against the
second that the timestamp names.
-/

namespace Xoxproxy.Engine

theorem ofDigitChars_lt {digits : List Char}
    (numeric : ∀ digit ∈ digits, digit.isDigit = true) :
    Nat.ofDigitChars 10 digits 0 < 10 ^ digits.length := by
  induction digits with
  | nil => simp
  | cons digit digits inductionHypothesis =>
      obtain ⟨low, high⟩ :=
        Char.isDigit_iff_toNat.mp (numeric digit List.mem_cons_self)
      have rest := inductionHypothesis fun other member =>
        numeric other (List.mem_cons_of_mem _ member)
      have place : digit.toNat - '0'.toNat ≤ 9 := by
        have zero : '0'.toNat = 48 := by decide
        have nine : '9'.toNat = 57 := by decide
        omega
      have scaled := Nat.mul_le_mul_left (10 ^ digits.length) place
      rw [Nat.ofDigitChars_cons, Nat.ofDigitChars_eq_ofDigitChars_zero,
        Nat.mul_zero, Nat.zero_add, List.length_cons, pow_succ]
      omega

/-- Digits are worth nothing exactly if they are zeros. -/
theorem ofDigitChars_pos_iff {digits : List Char}
    (numeric : ∀ digit ∈ digits, digit.isDigit = true) :
    0 < Nat.ofDigitChars 10 digits 0 ↔ ∃ digit ∈ digits, digit ≠ '0' := by
  induction digits with
  | nil => simp
  | cons digit digits inductionHypothesis =>
      have rest := inductionHypothesis fun other member =>
        numeric other (List.mem_cons_of_mem _ member)
      have place : 0 < digit.toNat - '0'.toNat ↔ digit ≠ '0' := by
        obtain ⟨low, high⟩ :=
          Char.isDigit_iff_toNat.mp (numeric digit List.mem_cons_self)
        have zero : '0'.toNat = 48 := by decide
        rw [Ne, ← Char.toNat_inj, zero]
        omega
      have scale : 0 < 10 ^ digits.length := by positivity
      rw [Nat.ofDigitChars_cons, Nat.ofDigitChars_eq_ofDigitChars_zero,
        List.exists_mem_cons_iff, ← rest, ← place, Nat.add_pos_iff_pos_or_pos,
        Nat.mul_pos_iff_of_pos_left scale, Nat.mul_zero, Nat.zero_add]

/-- The integer that a text denotes, of whatever size. -/
def denoted (text : List Char) : Option Int :=
  (decimal (signed text).2).map fun magnitude : Nat =>
    if (signed text).1 then -(magnitude : Int) else magnitude

theorem denoted_of_atoi {text : List Char} {value : Int}
    (read : atoi (String.ofList text) = some value) :
    denoted text = some value ∧ value < 2 ^ 63 := by
  rw [atoi, String.toList_ofList] at read
  rw [denoted]
  cases number : decimal (signed text).2 with
  | none =>
      rw [number] at read
      cases read
  | some magnitude =>
      rw [number] at read
      rw [Option.map_some]
      dsimp only at read
      generalize (if (signed text).1 = true then -(magnitude : Int)
        else magnitude) = written at read ⊢
      by_cases fits : -2 ^ 63 ≤ written ∧ written < 2 ^ 63
      · rw [if_pos fits] at read
        exact ⟨read, Option.some.inj read ▸ fits.2⟩
      · rw [if_neg fits] at read
        cases read

theorem signed_cases (text : List Char) :
    (∃ rest, text = '-' :: rest ∧ signed text = (true, rest)) ∨
      (∃ rest, text = '+' :: rest ∧ signed text = (false, rest)) ∨
        signed text = (false, text) := by
  unfold signed
  split
  · exact Or.inl ⟨_, rfl, rfl⟩
  · exact Or.inr (Or.inl ⟨_, rfl, rfl⟩)
  · exact Or.inr (Or.inr rfl)

theorem length_signed_le (text : List Char) :
    (signed text).2.length ≤ text.length := by
  rcases signed_cases text with ⟨rest, rfl, split⟩ | ⟨rest, rfl, split⟩ | split
  · simp [split]
  · simp [split]
  · simp [split]

/-- Three characters denote no number that is too large. -/
theorem atoi_short {text : List Char} (short : text.length ≤ 3) :
    atoi (String.ofList text) = denoted text := by
  rw [atoi, String.toList_ofList, denoted]
  cases number : decimal (signed text).2 with
  | none => rfl
  | some magnitude =>
      obtain ⟨_, numeric, value⟩ := decimal_eq_some number
      have small : magnitude < 10 ^ 3 := by
        rw [value]
        exact (ofDigitChars_lt numeric).trans_le
          (Nat.pow_le_pow_right (by decide)
            ((length_signed_le text).trans short))
      rw [Option.map_some]
      apply if_pos
      split <;> omega

/-- The fraction begins with a minus sign and one or two digits, or is
just these, and the digits are not all zeros. -/
def MinusFraction (fraction : List Char) : Prop :=
  ∃ digits, fraction.take 3 = '-' :: digits ∧
    (∀ digit ∈ digits, digit.isDigit = true) ∧ ∃ digit ∈ digits, digit ≠ '0'

/-- The fraction is at least .808. -/
def LateFraction (fraction : List Char) : Prop :=
  ∃ millis, 808 ≤ millis ∧
    decimal (fraction.take 3 ++
      List.replicate (3 - (fraction.take 3).length) '0') = some millis

/-- The time fits into an `int64` that counts milliseconds. -/
def FitsMillis (seconds : Int) (fraction : List Char) : Prop :=
  seconds < 9223372036854775 ∨
    seconds = 9223372036854775 ∧ ¬ LateFraction fraction

/-- A result within the second. -/
structure WithinSecond (seconds result : Int) : Prop where
  starts : 1000 * seconds ≤ result
  ends : result ≤ 1000 * seconds + 999

theorem WithinSecond.lt {seconds later result next : Int}
    (within : WithinSecond seconds result) (also : WithinSecond later next)
    (before : seconds < later) : result < next := by
  have ends := within.ends
  have starts := also.starts
  omega

section Fractions

variable {fraction : List Char}

theorem parseMillis_of_denoted {value : Int}
    (read : denoted (fraction.take 3) = some value) :
    parseMillis fraction = value * 10 ^ (3 - (fraction.take 3).length) := by
  rw [parseMillis, atoi_short (List.length_take_le 3 fraction), read]

theorem parseMillis_of_none
    (unread : denoted (fraction.take 3) = none) :
    parseMillis fraction = 0 := by
  rw [parseMillis, atoi_short (List.length_take_le 3 fraction), unread]

/-- The three ways in which a fraction is read. -/
inductive FractionShape (fraction : List Char) : Int → Prop where
  | minus (digits : List Char) (shape : fraction.take 3 = '-' :: digits)
      (numeric : ∀ digit ∈ digits, digit.isDigit = true) :
      FractionShape fraction
        (-(Nat.ofDigitChars 10 digits 0 * 10 ^ (2 - digits.length) : Nat))
  | plus (digits : List Char) (shape : fraction.take 3 = '+' :: digits)
      (numeric : ∀ digit ∈ digits, digit.isDigit = true) :
      FractionShape fraction
        (Nat.ofDigitChars 10 digits 0 * 10 ^ (2 - digits.length) : Nat)
  | digits (present : fraction.take 3 ≠ [])
      (numeric : ∀ digit ∈ fraction.take 3, digit.isDigit = true) :
      FractionShape fraction (Nat.ofDigitChars 10 (fraction.take 3) 0 *
        10 ^ (3 - (fraction.take 3).length) : Nat)
  | unread (unread : decimal (signed (fraction.take 3)).2 = none) :
      FractionShape fraction 0

theorem fractionShape (fraction : List Char) :
    FractionShape fraction (parseMillis fraction) := by
  cases number : decimal (signed (fraction.take 3)).2 with
  | none =>
      rw [parseMillis_of_none (by rw [denoted, number, Option.map_none])]
      exact .unread number
  | some magnitude =>
      obtain ⟨present, numeric, value⟩ := decimal_eq_some number
      have read : denoted (fraction.take 3) =
          some (if (signed (fraction.take 3)).1 = true then -(magnitude : Int)
            else magnitude) := by
        rw [denoted, number, Option.map_some]
      rw [parseMillis_of_denoted read]
      rcases signed_cases (fraction.take 3) with
        ⟨rest, shape, split⟩ | ⟨rest, shape, split⟩ | split
      · have places : 3 - (fraction.take 3).length = 2 - rest.length := by
          rw [shape, List.length_cons]
          omega
        rw [split] at numeric value
        rw [split, if_pos rfl, places, value]
        have scaled := FractionShape.minus rest shape numeric
        rw [Nat.cast_mul, Nat.cast_pow, ← neg_mul] at scaled
        exact scaled
      · have places : 3 - (fraction.take 3).length = 2 - rest.length := by
          rw [shape, List.length_cons]
          omega
        rw [split] at numeric value
        rw [split, if_neg Bool.false_ne_true, places, value]
        have scaled := FractionShape.plus rest shape numeric
        rw [Nat.cast_mul, Nat.cast_pow] at scaled
        exact scaled
      · rw [split] at numeric value present
        rw [split, if_neg Bool.false_ne_true, value]
        have scaled := FractionShape.digits present numeric
        rw [Nat.cast_mul, Nat.cast_pow] at scaled
        exact scaled

/-- The places behind a sign are at most two. -/
theorem length_behind_sign {sign : Char} {digits : List Char}
    (shape : fraction.take 3 = sign :: digits) : digits.length ≤ 2 := by
  have short := List.length_take_le 3 fraction
  rw [shape, List.length_cons] at short
  omega

theorem scaled_lt {digits : List Char} {places : Nat}
    (numeric : ∀ digit ∈ digits, digit.isDigit = true)
    (short : digits.length ≤ places) :
    Nat.ofDigitChars 10 digits 0 * 10 ^ (places - digits.length) <
      10 ^ places := by
  have scale : 0 < 10 ^ (places - digits.length) := by positivity
  calc Nat.ofDigitChars 10 digits 0 * 10 ^ (places - digits.length)
      < 10 ^ digits.length * 10 ^ (places - digits.length) :=
        Nat.mul_lt_mul_of_pos_right (ofDigitChars_lt numeric) scale
    _ = 10 ^ places := by
        rw [← pow_add, Nat.add_sub_cancel' short]

theorem parseMillis_le (fraction : List Char) : parseMillis fraction ≤ 999 := by
  have read := fractionShape fraction
  generalize parseMillis fraction = millis at read ⊢
  cases read with
  | minus digits shape numeric => omega
  | plus digits shape numeric =>
      have small := scaled_lt numeric (length_behind_sign shape)
      omega
  | digits present numeric =>
      have small := scaled_lt numeric (List.length_take_le 3 fraction)
      omega
  | unread unread => omega

theorem le_parseMillis (fraction : List Char) : -99 ≤ parseMillis fraction := by
  have read := fractionShape fraction
  generalize parseMillis fraction = millis at read ⊢
  cases read with
  | minus digits shape numeric =>
      have small := scaled_lt numeric (length_behind_sign shape)
      omega
  | plus digits shape numeric => omega
  | digits present numeric => omega
  | unread unread => omega

theorem isDigit_ne_minus {digit : Char} (numeric : digit.isDigit = true) :
    digit ≠ '-' := by
  rintro rfl
  exact absurd numeric (by decide)

theorem parseMillis_neg_iff :
    parseMillis fraction < 0 ↔ MinusFraction fraction := by
  have minus : ∀ digits, fraction.take 3 = '-' :: digits →
      (signed (fraction.take 3)).2 = digits := by
    intro digits shape
    rw [shape, signed]
  have read := fractionShape fraction
  generalize parseMillis fraction = millis at read ⊢
  cases read with
  | minus digits shape numeric =>
      have scale : 0 < 10 ^ (2 - digits.length) := by positivity
      rw [Int.neg_neg_iff_pos, Int.natCast_pos, Nat.mul_pos_iff_of_pos_right scale,
        ofDigitChars_pos_iff numeric]
      constructor
      · intro nonzero
        exact ⟨digits, shape, numeric, nonzero⟩
      · rintro ⟨others, also, _, nonzero⟩
        rw [shape, List.cons.injEq] at also
        rw [also.2]
        exact nonzero
  | plus digits shape numeric =>
      constructor
      · intro negative
        omega
      · rintro ⟨others, also, _, _⟩
        rw [shape, List.cons.injEq] at also
        exact absurd also.1 (by decide)
  | digits present numeric =>
      constructor
      · intro negative
        omega
      · rintro ⟨others, also, _, _⟩
        exact absurd rfl (isDigit_ne_minus (numeric '-' (by rw [also]; simp)))
  | unread unread =>
      constructor
      · intro negative
        omega
      · rintro ⟨others, also, numeric, digit, member, _⟩
        rw [minus others also, decimal_of_digits (List.ne_nil_of_mem member)
          numeric] at unread
        cases unread

theorem parseMillis_late_iff :
    808 ≤ parseMillis fraction ↔ LateFraction fraction := by
  have read := fractionShape fraction
  generalize parseMillis fraction = millis at read ⊢
  have late : ∀ total, 808 ≤ total → decimal (fraction.take 3 ++
      List.replicate (3 - (fraction.take 3).length) '0') = some total →
      (∀ digit ∈ fraction.take 3, digit.isDigit = true) ∧
        808 ≤ Nat.ofDigitChars 10 (fraction.take 3) 0 *
          10 ^ (3 - (fraction.take 3).length) := by
    intro total large number
    obtain ⟨_, numeric, value⟩ := decimal_eq_some number
    refine ⟨fun digit member =>
      numeric digit (List.mem_append_left _ member), ?_⟩
    rwa [value, Nat.ofDigitChars_append, Nat.ofDigitChars_replicate_zero,
      Nat.mul_comm] at large
  cases read with
  | minus digits shape numeric =>
      constructor
      · intro large
        omega
      · rintro ⟨total, large, number⟩
        have digit := (late total large number).1 '-' (by rw [shape]; simp)
        exact absurd digit (by decide)
  | plus digits shape numeric =>
      have small := scaled_lt numeric (length_behind_sign shape)
      constructor
      · intro large
        omega
      · rintro ⟨total, large, number⟩
        have digit := (late total large number).1 '+' (by rw [shape]; simp)
        exact absurd digit (by decide)
  | digits present numeric =>
      constructor
      · intro large
        refine ⟨_, Int.ofNat_le.mp large, ?_⟩
        rw [decimal_of_digits (List.append_ne_nil_of_left_ne_nil present _),
          Nat.ofDigitChars_append, Nat.ofDigitChars_replicate_zero, Nat.mul_comm]
        intro digit member
        rcases List.mem_append.mp member with place | zero
        · exact numeric digit place
        · rw [List.eq_of_mem_replicate zero]
          decide
      · rintro ⟨total, large, number⟩
        have value := (late total large number).2
        omega
  | unread unread =>
      constructor
      · intro large
        omega
      · rintro ⟨total, large, number⟩
        obtain ⟨numeric, value⟩ := late total large number
        have present : fraction.take 3 ≠ [] := by
          intro empty
          rw [empty, Nat.ofDigitChars_nil] at value
          omega
        rw [signed_of_digits numeric, decimal_of_digits present numeric] at unread
        cases unread

end Fractions

/-! ## The milliseconds -/

theorem wrapInt64_between_iff {seconds millis : Int}
    (accepted : 0 ≤ seconds ∧ seconds < 2 ^ 63)
    (fraction : -2 ^ 63 ≤ millis ∧ millis ≤ 999) :
    WithinSecond seconds (wrapInt64 (seconds * 1000 + millis)) ↔
      0 ≤ millis ∧ seconds * 1000 + millis < 2 ^ 63 := by
  unfold wrapInt64
  constructor
  · rintro ⟨starts, ends⟩
    omega
  · rintro ⟨positive, fits⟩
    constructor
    · omega
    · omega

section Parsing

variable [Build]

/-- An accepted timestamp names a second, and is read from it. -/
theorem parseUnixMillis_accepted {text : String} {result : Int}
    (accepted : parseUnixMillis text = .ok result) :
    ∃ seconds, denoted (splitTimestamp text).1 = some seconds ∧
      0 ≤ seconds ∧ seconds < 2 ^ 63 ∧
      result = wrapInt64
        (seconds * 1000 + parseMillis (splitTimestamp text).2) := by
  unfold parseUnixMillis at accepted
  split at accepted
  · rename_i seconds read
    obtain ⟨number, positive⟩ := Option.filter_eq_some_iff.mp read
    obtain ⟨named, small⟩ := denoted_of_atoi number
    exact ⟨seconds, named, of_decide_eq_true positive, small,
      (Except.ok.inj accepted).symm⟩
  · cases accepted

/-- The milliseconds of a timestamp within its second. -/
theorem within_iff_of_accepted {text : String} {seconds result : Int}
    (accepted : parseUnixMillis text = .ok result)
    (named : denoted (splitTimestamp text).1 = some seconds) :
    WithinSecond seconds result ↔
      ¬ MinusFraction (splitTimestamp text).2 ∧
        FitsMillis seconds (splitTimestamp text).2 := by
  obtain ⟨same, also, positive, small, read⟩ :=
    parseUnixMillis_accepted accepted
  obtain rfl : same = seconds := Option.some.inj (also.symm.trans named)
  have lowest := le_parseMillis (splitTimestamp text).2
  have highest := parseMillis_le (splitTimestamp text).2
  rw [read, wrapInt64_between_iff ⟨positive, small⟩ ⟨by omega, highest⟩,
    ← parseMillis_neg_iff, FitsMillis, ← parseMillis_late_iff]
  omega

/-- Timestamps that are read within their seconds keep the order of
these. -/
theorem parseUnixMillis_lt {text other : String}
    {seconds later result next : Int}
    (accepted : parseUnixMillis text = .ok result)
    (named : denoted (splitTimestamp text).1 = some seconds)
    (faithful : ¬ MinusFraction (splitTimestamp text).2 ∧
      FitsMillis seconds (splitTimestamp text).2)
    (otherAccepted : parseUnixMillis other = .ok next)
    (otherNamed : denoted (splitTimestamp other).1 = some later)
    (otherFaithful : ¬ MinusFraction (splitTimestamp other).2 ∧
      FitsMillis later (splitTimestamp other).2)
    (before : seconds < later) : result < next := by
  have first := (within_iff_of_accepted accepted named).mpr faithful
  have second :=
    (within_iff_of_accepted otherAccepted otherNamed).mpr otherFaithful
  exact first.lt second before

/-- A timestamp is read within its second exactly if its fraction is not
negative and its time fits into an `int64`. -/
theorem parseUnixMillis_within_iff (text : String) (seconds result : Int)
    (accepted : parseUnixMillis text = .ok result)
    (named : denoted (splitTimestamp text).1 = some seconds) :
    WithinSecond seconds result ↔
      ¬ MinusFraction (splitTimestamp text).2 ∧
        FitsMillis seconds (splitTimestamp text).2 :=
  within_iff_of_accepted accepted named

end Parsing

/-- The timestamp of a log line. -/
theorem parseUnixMillis_within_half :
    let _ := Build.dev
    parseUnixMillis "1760380800.5" = .ok 1760380800500 ∧
      WithinSecond 1760380800 1760380800500 := by
  let _ := Build.dev
  have accepted : parseUnixMillis "1760380800.5" = .ok 1760380800500 := by
    decide
  have named : denoted (splitTimestamp "1760380800.5").1 = some 1760380800 := by
    decide
  refine ⟨accepted, (parseUnixMillis_within_iff _ _ _ accepted named).mpr ⟨?_, ?_⟩⟩
  · rintro ⟨digits, shape, _, _⟩
    have same : ['5'] = '-' :: digits := shape
    exact absurd (List.cons.inj same).1 (by decide)
  · exact Or.inl (by decide)

/-- A minus sign in the fraction takes the time back. -/
theorem parseUnixMillis_minus :
    let _ := Build.dev
    ¬ ∀ (text : String) (seconds result : Int),
      parseUnixMillis text = .ok result →
        denoted (splitTimestamp text).1 = some seconds →
          WithinSecond seconds result := by
  intro _ always
  have within := always "1.-5" 1 950 (by decide) (by decide)
  exact absurd within.starts (by decide)

end Xoxproxy.Engine
