import Mathlib.Data.List.TakeWhile
import Xoxproxy.Library.Binary64

/-!
# Binary64 numbers as texts

How ECMAScript writes a number (`Number::toString`) and how `parseFloat`
and `parseInt` read one.  A number is written with as few digits as tell
it from all others, and is read back from them.
-/

namespace Binary64

/-- A whole number of units of a decimal place. -/
structure Decimal where
  significand : Nat
  exponent : ℤ
  deriving DecidableEq, Repr

/-- So many units of a decimal place. -/
def scaled (units : Nat) (exponent : ℤ) : ℚ := units * 10 ^ exponent

def Decimal.value (decimal : Decimal) : ℚ :=
  scaled decimal.significand decimal.exponent

/-- The decimal nearest to a value at a place. -/
def decimalAt (value : ℚ) (exponent : ℤ) : Decimal :=
  ⟨(round (value / 10 ^ exponent)).toNat, exponent⟩

/-- The next decimal above a value at a place. -/
def decimalAbove (value : ℚ) (exponent : ℤ) : Decimal :=
  ⟨⌈value / 10 ^ exponent⌉.toNat, exponent⟩

/-- The first decimal that stands for the value, from a place downwards.
A power of two is further from the next number above than from the one
below, so the decimal above may stand for it where the nearest one does
not. -/
def shorten (value : ℚ) : Nat → ℤ → Decimal
  | 0, exponent => decimalAt value exponent
  | fuel + 1, exponent =>
      if nearest (decimalAt value exponent).value = value then
        decimalAt value exponent
      else if nearest (decimalAbove value exponent).value = value then
        decimalAbove value exponent
      else shorten value fuel (exponent - 1)

/-- The decimal with the fewest digits that stands for a positive number.
The places begin above its first digit and reach to the last digit that a
number can have. -/
def shortest (value : ℚ) : Decimal :=
  let top := Int.log 10 value + 1
  shorten value (top + 1074).toNat top

theorem decimalAt_exact {value : ℚ} {exponent : ℤ} {number : Nat}
    (exact : value = scaled number exponent) :
    (decimalAt value exponent).value = value := by
  have place : (10 : ℚ) ^ exponent ≠ 0 := zpow_ne_zero _ (by norm_num)
  have quotient : value / 10 ^ exponent = number :=
    (div_eq_iff place).mpr exact
  rw [decimalAt, Decimal.value, quotient, round_natCast, Int.toNat_natCast,
    ← exact]

/-- The search does not pass a place at which the value is met. -/
theorem shorten_finds {value : ℚ} {place : ℤ}
    (found : nearest (decimalAt value place).value = value) :
    ∀ {fuel : Nat} {exponent : ℤ}, place ≤ exponent →
      exponent ≤ place + fuel →
        nearest (shorten value fuel exponent).value = value ∧
          place ≤ (shorten value fuel exponent).exponent := by
  intro fuel
  induction fuel with
  | zero =>
      intro exponent above below
      have same : exponent = place := by omega
      rw [shorten, same]
      exact ⟨found, le_rfl⟩
  | succ fuel induction =>
      intro exponent above below
      rw [shorten]
      split
      case isTrue stands => exact ⟨stands, above⟩
      case isFalse other =>
        split
        case isTrue stands => exact ⟨stands, above⟩
        case isFalse =>
          have different : exponent ≠ place := by
            intro same
            exact other (same ▸ found)
          exact induction (by omega) (by push_cast at below; omega)

/-- What is a whole number of units of a binary place is one of the
decimal place with the same exponent. -/
theorem exists_units {value : ℚ} (positive : 0 < value) {multiple : ℤ}
    (places rest : Nat)
    (grid : value = multiple * 2 ^ (-(places : ℤ) + rest)) :
    ∃ units : Nat, value = scaled units (-places) := by
  have sign : 0 ≤ multiple := by
    by_contra negative
    have below : (multiple : ℚ) ≤ 0 := by exact_mod_cast (not_le.mp negative).le
    have product := mul_nonpos_of_nonpos_of_nonneg below
      (place_pos (-(places : ℤ) + rest)).le
    rw [← grid] at product
    exact absurd positive (not_lt.mpr product)
  obtain ⟨magnitude, rfl⟩ := Int.eq_ofNat_of_zero_le sign
  refine ⟨magnitude * 2 ^ rest * 5 ^ places, ?_⟩
  have ten : (10 : ℚ) ^ (-(places : ℤ)) =
      2 ^ (-(places : ℤ)) * 5 ^ (-(places : ℤ)) := by
    rw [← mul_zpow]
    norm_num
  have five : (5 : ℚ) ^ places * 5 ^ (-(places : ℤ)) = 1 := by
    rw [zpow_neg, zpow_natCast]
    exact mul_inv_cancel₀ (pow_ne_zero _ (by norm_num))
  rw [grid, scaled, zpow_add₀ two_ne_zero, zpow_natCast, ten]
  push_cast
  calc (magnitude : ℚ) * (2 ^ (-(places : ℤ)) * 2 ^ rest)
      = magnitude * 2 ^ rest * 2 ^ (-(places : ℤ)) * 1 := by ring
    _ = magnitude * 2 ^ rest * 2 ^ (-(places : ℤ)) *
          (5 ^ places * 5 ^ (-(places : ℤ))) := by rw [five]
    _ = _ := by ring

/-- Every number is a whole number of units of the last decimal place. -/
theorem Finite.exists_units (number : Finite)
    (positive : 0 < number.value) :
    ∃ units : Nat, number.value = scaled units (-1074) := by
  obtain ⟨rest, gap⟩ := Int.le.dest (lastPlace_ge number.value)
  apply Binary64.exists_units positive 1074 rest
  rw [Nat.cast_ofNat, gap]
  exact number.exact.symm

/-- The search begins above the last decimal place. -/
theorem top_ge {value : ℚ} (positive : 0 < value) {units : Nat}
    (whole : value = scaled units (-1074)) :
    -1074 ≤ Int.log 10 value + 1 := by
  have some : (1 : ℚ) ≤ units := by
    have nonzero : units ≠ 0 := by
      rintro rfl
      rw [scaled, Nat.cast_zero, zero_mul] at whole
      exact absurd whole positive.ne'
    exact_mod_cast Nat.one_le_iff_ne_zero.mpr nonzero
  have least : (10 : ℚ) ^ (-1074 : ℤ) ≤ value := by
    rw [whole, scaled]
    exact le_mul_of_one_le_left (zpow_pos (by norm_num) _).le some
  have log := (Int.zpow_le_iff_le_log (b := 10) (by decide) positive).mp
    (by exact_mod_cast least)
  omega

/-- The shortest decimal stands for the number. -/
theorem nearest_shortest (number : Finite) (positive : 0 < number.value) :
    nearest (shortest number.value).value = number.value := by
  obtain ⟨units, whole⟩ := number.exists_units positive
  have found :
      nearest (decimalAt number.value (-1074)).value = number.value := by
    rw [decimalAt_exact whole, number.exact]
  have top := top_ge positive whole
  exact (shorten_finds found top (by omega)).1

-- The nearest decimal of 2^-44 with as many digits ends in 1.
example : shortest (1 / 17592186044416) = ⟨5684341886080802, -29⟩ := by
  decide +kernel

/-- A whole number is written without a fraction. -/
theorem shortest_whole (number : Finite) {whole : Nat}
    (same : number.value = whole) :
    0 ≤ (shortest number.value).exponent := by
  have found : nearest (decimalAt number.value 0).value = number.value := by
    have exact : number.value = scaled whole 0 := by
      rw [scaled, zpow_zero, mul_one, same]
    rw [decimalAt_exact exact, number.exact]
  have top : 0 ≤ Int.log 10 number.value := by
    rw [same, Int.log_natCast]
    exact Int.natCast_nonneg _
  exact (shorten_finds found (by omega) (by omega)).2

/-- `Number::toString` for the digits of a positive number. -/
def Decimal.text (decimal : Decimal) : List Char :=
  let digits := Nat.toDigits 10 decimal.significand
  let point : ℤ := digits.length + decimal.exponent
  if digits.length ≤ point ∧ point ≤ 21 then
    digits ++ List.replicate decimal.exponent.toNat '0'
  else if 0 < point ∧ point ≤ 21 then
    digits.take point.toNat ++ '.' :: digits.drop point.toNat
  else if -6 < point ∧ point ≤ 0 then
    '0' :: '.' :: (List.replicate (-point).toNat '0' ++ digits)
  else
    digits.take 1 ++
      (if digits.length = 1 then [] else '.' :: digits.drop 1) ++
      'e' :: (if 0 ≤ point - 1 then '+' else '-') ::
        Nat.toDigits 10 (point - 1).natAbs

/-- `Number::toString`. -/
def Double.text : Double → List Char
  | .nan => "NaN".toList
  | .infinite false => "Infinity".toList
  | .infinite true => "-Infinity".toList
  | .finite number =>
      if number.value = 0 then ['0']
      else if number.value < 0 then
        '-' :: (shortest (-number.value)).text
      else (shortest number.value).text

/-- White space and line ends. -/
def isWhite (char : Char) : Bool :=
  let code := char.toNat
  (9 ≤ code && code ≤ 13) || code == 0x20 || code == 0xa0 ||
    code == 0x1680 || (0x2000 ≤ code && code ≤ 0x200a) ||
    code == 0x2028 || code == 0x2029 || code == 0x202f ||
    code == 0x205f || code == 0x3000 || code == 0xfeff

/-- Whether there is a minus sign, and what is behind the sign. -/
def splitSign : List Char → Bool × List Char
  | '-' :: rest => (true, rest)
  | '+' :: rest => (false, rest)
  | rest => (false, rest)

/-- The value with the sign. -/
def withSign (negative : Bool) (magnitude : ℚ) : ℚ :=
  if negative then -magnitude else magnitude

/-- The exponent part at the beginning of a text, if there is one. -/
def readExponent : List Char → ℤ
  | [] => 0
  | char :: rest =>
      let digits := (splitSign rest).2.takeWhile Char.isDigit
      if (char = 'e' ∨ char = 'E') ∧ digits ≠ [] then
        if (splitSign rest).1 then -Nat.ofDigitChars 10 digits 0
        else Nat.ofDigitChars 10 digits 0
      else 0

/-- The fraction at the beginning of a text, and what is behind it. -/
def splitFraction : List Char → List Char × List Char
  | '.' :: rest =>
      (rest.takeWhile Char.isDigit, rest.dropWhile Char.isDigit)
  | rest => ([], rest)

/-- The longest unsigned decimal literal that a text begins with. -/
def readDecimal (text : List Char) : Option ℚ :=
  let whole := text.takeWhile Char.isDigit
  let fraction := splitFraction (text.dropWhile Char.isDigit)
  if whole ++ fraction.1 = [] then none
  else
    some (scaled (Nat.ofDigitChars 10 (whole ++ fraction.1) 0)
      (readExponent fraction.2 - fraction.1.length))

/-- `parseFloat`. -/
def parseFloat (text : List Char) : Double :=
  let signed := splitSign (text.dropWhile isWhite)
  if "Infinity".toList.isPrefixOf signed.2 then .infinite signed.1
  else
    match readDecimal signed.2 with
    | none => .nan
    | some magnitude => round64 (withSign signed.1 magnitude)

/-- `parseInt` with the radix ten. -/
def parseInt (text : List Char) : Double :=
  let signed := splitSign (text.dropWhile isWhite)
  let digits := signed.2.takeWhile Char.isDigit
  if digits = [] then .nan
  else round64 (withSign signed.1 (Nat.ofDigitChars 10 digits 0))

/-! ## What is written is read -/

def AllDigits (text : List Char) : Prop :=
  ∀ char ∈ text, char.isDigit = true

/-- A text that does not go on with a digit. -/
def Undigited (text : List Char) : Prop :=
  text.takeWhile Char.isDigit = []

theorem allDigits_toDigits (number : Nat) :
    AllDigits (Nat.toDigits 10 number) :=
  fun _ member => Nat.isDigit_of_mem_toDigits (by decide) (by decide) member

theorem allDigits_zeros (count : Nat) :
    AllDigits (List.replicate count '0') := by
  intro char member
  rw [List.eq_of_mem_replicate member]
  decide

theorem AllDigits.append {first second : List Char}
    (left : AllDigits first) (right : AllDigits second) :
    AllDigits (first ++ second) := by
  intro char member
  rcases List.mem_append.mp member with early | late
  · exact left char early
  · exact right char late

theorem undigited_nil : Undigited [] := rfl

theorem undigited_cons {char : Char} (letter : char.isDigit = false)
    (rest : List Char) : Undigited (char :: rest) := by
  rw [Undigited, List.takeWhile_cons_of_neg (by simp [letter])]

/-- Digits are told from what follows them. -/
theorem span_digits {digits rest : List Char} (all : AllDigits digits)
    (behind : Undigited rest) :
    (digits ++ rest).takeWhile Char.isDigit = digits ∧
      (digits ++ rest).dropWhile Char.isDigit = rest := by
  have taken : (digits ++ rest).takeWhile Char.isDigit = digits := by
    rw [List.takeWhile_append_of_pos all, behind, List.append_nil]
  have parts := List.takeWhile_append_dropWhile (p := Char.isDigit)
    (l := digits ++ rest)
  rw [taken] at parts
  exact ⟨taken, List.append_cancel_left parts⟩

theorem readDecimal_whole {whole rest : List Char} (all : AllDigits whole)
    (some : whole ≠ []) (behind : Undigited rest)
    (unpointed : splitFraction rest = ([], rest)) :
    readDecimal (whole ++ rest) =
      Option.some (scaled (Nat.ofDigitChars 10 whole 0) (readExponent rest)) := by
  obtain ⟨taken, dropped⟩ := span_digits all behind
  unfold readDecimal
  rw [taken, dropped, unpointed]
  simp [some]

theorem readDecimal_point {whole fraction rest : List Char}
    (all : AllDigits whole) (some : whole ≠ [])
    (small : AllDigits fraction) (behind : Undigited rest) :
    readDecimal (whole ++ '.' :: (fraction ++ rest)) =
      Option.some (scaled (Nat.ofDigitChars 10 (whole ++ fraction) 0)
        (readExponent rest - fraction.length)) := by
  have dot : '.'.isDigit = false := by decide
  obtain ⟨taken, dropped⟩ :=
    span_digits all (undigited_cons dot (fraction ++ rest))
  obtain ⟨inner, outer⟩ := span_digits small behind
  unfold readDecimal
  rw [taken, dropped, splitFraction, inner, outer]
  simp [some]

/-- The exponent part that is written is read. -/
theorem readExponent_written (exponent : ℤ) :
    readExponent ('e' :: (if 0 ≤ exponent then '+' else '-') ::
      Nat.toDigits 10 exponent.natAbs) = exponent := by
  have digits : (Nat.toDigits 10 exponent.natAbs).takeWhile Char.isDigit =
      Nat.toDigits 10 exponent.natAbs :=
    List.takeWhile_eq_self_iff.mpr (allDigits_toDigits _)
  rcases le_or_gt 0 exponent with nonneg | negative
  · rw [if_pos nonneg, readExponent, splitSign, digits]
    simp [Nat.toDigits_ne_nil, abs_of_nonneg nonneg]
  · rw [if_neg (not_le.mpr negative), readExponent, splitSign, digits]
    simp [Nat.toDigits_ne_nil, abs_of_neg negative]

theorem read_padded (decimal : Decimal) (whole : 0 ≤ decimal.exponent) :
    readDecimal (Nat.toDigits 10 decimal.significand ++
        List.replicate decimal.exponent.toNat '0') =
      some decimal.value := by
  have read := readDecimal_whole
    ((allDigits_toDigits decimal.significand).append
      (allDigits_zeros decimal.exponent.toNat))
    (by simp [Nat.toDigits_ne_nil]) undigited_nil rfl
  rw [List.append_nil] at read
  rw [read, Nat.ofDigitChars_append, Nat.ofDigitChars_replicate_zero,
    Nat.ofDigitChars_ten_toDigits, Decimal.value, scaled, scaled,
    readExponent, zpow_zero, mul_one]
  push_cast
  rw [mul_comm, ← zpow_natCast, Int.toNat_of_nonneg whole]

theorem read_pointed (significand place : Nat) (inner : 0 < place)
    {rest : List Char} (behind : Undigited rest) :
    readDecimal ((Nat.toDigits 10 significand).take place ++
        '.' :: ((Nat.toDigits 10 significand).drop place ++ rest)) =
      some (scaled significand (readExponent rest -
        ((Nat.toDigits 10 significand).length - place : Nat))) := by
  have all := allDigits_toDigits significand
  have some : (Nat.toDigits 10 significand).take place ≠ [] := by
    rw [Ne, List.take_eq_nil_iff, not_or]
    exact ⟨inner.ne', Nat.toDigits_ne_nil⟩
  rw [readDecimal_point (fun char member => all char (List.mem_of_mem_take member))
    some (fun char member => all char (List.mem_of_mem_drop member)) behind,
    List.take_append_drop, Nat.ofDigitChars_ten_toDigits, List.length_drop]

theorem read_small (significand zeros : Nat) :
    readDecimal ('0' :: '.' ::
        (List.replicate zeros '0' ++ Nat.toDigits 10 significand)) =
      some (scaled significand
        (-(zeros + (Nat.toDigits 10 significand).length : Nat))) := by
  have read := readDecimal_point (allDigits_zeros 1) (by decide)
    ((allDigits_zeros zeros).append (allDigits_toDigits significand))
    undigited_nil
  have value : Nat.ofDigitChars 10 (List.replicate 1 '0' ++
      (List.replicate zeros '0' ++ Nat.toDigits 10 significand)) 0 =
        significand := by
    rw [Nat.ofDigitChars_append, Nat.ofDigitChars_replicate_zero,
      Nat.ofDigitChars_append, Nat.ofDigitChars_replicate_zero, mul_zero,
      mul_zero, Nat.ofDigitChars_ten_toDigits]
  rw [List.append_nil, value, List.length_append, List.length_replicate,
    readExponent, zero_sub] at read
  exact read

/-- A decimal is read back from its text. -/
theorem readDecimal_text (decimal : Decimal) :
    readDecimal decimal.text = some decimal.value := by
  have length : 0 < (Nat.toDigits 10 decimal.significand).length :=
    Nat.length_toDigits_pos
  unfold Decimal.text
  dsimp only
  generalize atPoint : ((Nat.toDigits 10 decimal.significand).length : ℤ) +
    decimal.exponent = point
  split
  case isTrue whole =>
    exact read_padded decimal (by omega)
  split
  case isTrue inner =>
    have pointed := read_pointed decimal.significand point.toNat (by omega)
      undigited_nil
    rw [List.append_nil, readExponent] at pointed
    rw [pointed, Decimal.value]
    congr 2
    omega
  split
  case isTrue small =>
    rw [read_small, Decimal.value]
    congr 2
    omega
  case isFalse large =>
    have behind : Undigited ('e' :: (if 0 ≤ point - 1 then '+' else '-') ::
        Nat.toDigits 10 (point - 1).natAbs) := undigited_cons (by decide) _
    by_cases single : (Nat.toDigits 10 decimal.significand).length = 1
    · have read := readDecimal_whole (allDigits_toDigits decimal.significand)
        Nat.toDigits_ne_nil behind rfl
      rw [Nat.ofDigitChars_ten_toDigits, readExponent_written] at read
      rw [if_pos single, List.append_nil,
        List.take_of_length_le single.le, read, Decimal.value]
      congr 2
      omega
    · have pointed := read_pointed decimal.significand 1 one_pos behind
      rw [readExponent_written] at pointed
      rw [if_neg single, List.append_assoc, List.cons_append, pointed,
        Decimal.value]
      congr 2
      omega

theorem digit_plain {char : Char} (digit : char.isDigit = true) :
    isWhite char = false ∧ char ≠ '-' ∧ char ≠ '+' ∧ char ≠ 'I' := by
  obtain ⟨low, high⟩ := Char.isDigit_iff_toNat.mp digit
  refine ⟨?_, ?_, ?_, ?_⟩
  · simp only [isWhite]
    grind
  all_goals
    rintro rfl
    exact absurd digit (by decide)

/-- A text whose first character is a digit. -/
def BeginsWithDigit (text : List Char) : Prop :=
  ∃ char rest, text = char :: rest ∧ char.isDigit = true

theorem BeginsWithDigit.append {text : List Char}
    (begins : BeginsWithDigit text) (more : List Char) :
    BeginsWithDigit (text ++ more) := by
  obtain ⟨char, rest, rfl, digit⟩ := begins
  exact ⟨char, rest ++ more, rfl, digit⟩

theorem BeginsWithDigit.take {text : List Char}
    (begins : BeginsWithDigit text) {count : Nat} (some : 0 < count) :
    BeginsWithDigit (text.take count) := by
  obtain ⟨char, rest, rfl, digit⟩ := begins
  obtain ⟨less, rfl⟩ := Nat.exists_eq_succ_of_ne_zero some.ne'
  exact ⟨char, rest.take less, rfl, digit⟩

theorem digits_begin (number : Nat) :
    BeginsWithDigit (Nat.toDigits 10 number) := by
  obtain ⟨char, rest, parts⟩ :=
    List.exists_cons_of_ne_nil (@Nat.toDigits_ne_nil number 10)
  exact ⟨char, rest, parts, allDigits_toDigits number char (by simp [parts])⟩

/-- The text of a decimal begins with a digit. -/
theorem Decimal.text_begins (decimal : Decimal) :
    BeginsWithDigit decimal.text := by
  have digits := digits_begin decimal.significand
  unfold Decimal.text
  dsimp only
  split
  · exact digits.append _
  split
  case isTrue inner =>
    exact (digits.take (by omega)).append _
  split
  · exact ⟨'0', _, rfl, by decide⟩
  · exact ((digits.take one_pos).append _).append _

/-- Such a text has no white space and no sign to skip. -/
theorem BeginsWithDigit.plain {text : List Char}
    (begins : BeginsWithDigit text) :
    text.dropWhile isWhite = text ∧ splitSign text = (false, text) ∧
      "Infinity".toList.isPrefixOf text = false := by
  obtain ⟨char, rest, rfl, digit⟩ := begins
  obtain ⟨visible, minus, plus, letter⟩ := digit_plain digit
  refine ⟨?_, ?_, ?_⟩
  · rw [List.dropWhile_cons_of_neg (by simp [visible])]
  · unfold splitSign
    split
    · exact absurd (List.cons.inj ‹_›).1 minus
    · exact absurd (List.cons.inj ‹_›).1 plus
    · rfl
  · have other : ('I' == char) = false := beq_eq_false_iff_ne.mpr letter.symm
    change ('I' == char && "nfinity".toList.isPrefixOf rest) = false
    rw [other, Bool.false_and]

/-- What `parseFloat` makes of the sign and the text behind it. -/
theorem parseFloat_signed {text rest : List Char} {negative : Bool}
    (signed : splitSign (text.dropWhile isWhite) = (negative, rest))
    (letter : "Infinity".toList.isPrefixOf rest = false)
    {magnitude : ℚ} (read : readDecimal rest = some magnitude) :
    parseFloat text = round64 (withSign negative magnitude) := by
  unfold parseFloat
  rw [signed]
  dsimp only
  rw [letter, if_neg Bool.false_ne_true, read]

theorem parseFloat_decimal (decimal : Decimal) :
    parseFloat decimal.text = round64 decimal.value := by
  obtain ⟨visible, unsigned, letter⟩ := decimal.text_begins.plain
  have signed : splitSign (decimal.text.dropWhile isWhite) =
      (false, decimal.text) := by
    rw [visible, unsigned]
  exact parseFloat_signed signed letter (readDecimal_text decimal)

theorem parseFloat_minus (decimal : Decimal) :
    parseFloat ('-' :: decimal.text) = round64 (-decimal.value) := by
  obtain ⟨-, -, letter⟩ := decimal.text_begins.plain
  have visible : ¬isWhite '-' = true := by decide
  have signed : splitSign (('-' :: decimal.text).dropWhile isWhite) =
      (true, decimal.text) := by
    rw [List.dropWhile_cons_of_neg visible, splitSign]
  exact parseFloat_signed signed letter (readDecimal_text decimal)

/-- Every finite number is read back from its text. -/
theorem parseFloat_text (number : Finite) :
    parseFloat (Double.finite number).text = .finite number := by
  unfold Double.text
  dsimp only
  split
  case isTrue zero =>
    have read : parseFloat ['0'] = round64 (scaled 0 0) :=
      parseFloat_decimal ⟨0, 0⟩
    rw [read, round64_eq_finite_iff, zero, scaled, Nat.cast_zero, zero_mul,
      nearest_zero]
  split
  case isTrue negative =>
    have mirror : nearest (-number.value) = -number.value := by
      rw [nearest_neg, number.exact]
    have bounded : |-number.value| < bound := by
      rw [abs_neg]
      exact number.bounded
    have short := nearest_shortest ⟨-number.value, mirror, bounded⟩
      (neg_pos.mpr negative)
    rw [parseFloat_minus, round64_eq_finite_iff, nearest_neg, short, neg_neg]
  case isFalse zero nonneg =>
    have positive : 0 < number.value :=
      lt_of_le_of_ne (not_lt.mp nonneg) (Ne.symm zero)
    rw [parseFloat_decimal, round64_eq_finite_iff,
      nearest_shortest number positive]

/-! ## Whole numbers -/

/-- So many digits and zeros are at most 21. -/
theorem length_padded_iff {significand places : Nat} (some : significand ≠ 0) :
    (Nat.toDigits 10 significand).length + places ≤ 21 ↔
      significand * 10 ^ places < 10 ^ 21 := by
  have present : 0 < (Nat.toDigits 10 significand).length :=
    List.length_pos_iff.mpr Nat.toDigits_ne_nil
  rcases Nat.lt_or_ge places 21 with few | many
  · have digits := @Nat.length_toDigits_le_iff 10 significand (21 - places)
      (by decide) (by omega)
    have product : significand < 10 ^ (21 - places) ↔
        significand * 10 ^ places < 10 ^ 21 := by
      rw [← Nat.mul_lt_mul_right (Nat.pow_pos (by decide) : 0 < 10 ^ places),
        ← Nat.pow_add, Nat.sub_add_cancel few.le]
    rw [← product, ← digits]
    omega
  · have power : 10 ^ 21 ≤ 10 ^ places :=
      Nat.pow_le_pow_right (by decide) many
    have product : 10 ^ places ≤ significand * 10 ^ places :=
      Nat.le_mul_of_pos_left _ (Nat.pos_of_ne_zero some)
    omega

/-- Below 10^21 a decimal without a fraction is written as digits. -/
theorem Decimal.text_whole {decimal : Decimal} {places : Nat}
    (whole : decimal.exponent = places) (some : decimal.significand ≠ 0)
    (small : decimal.significand * 10 ^ places < 10 ^ 21) :
    decimal.text =
      Nat.toDigits 10 decimal.significand ++ List.replicate places '0' := by
  have digits := (length_padded_iff some).mpr small
  unfold Decimal.text
  dsimp only
  rw [whole, if_pos ⟨by omega, by omega⟩, Int.toNat_natCast]

/-- A decimal that is not below 10^21 is written with an exponent. -/
theorem Decimal.mem_text {decimal : Decimal} {places : Nat}
    (whole : decimal.exponent = places) (some : decimal.significand ≠ 0)
    (large : 10 ^ 21 ≤ decimal.significand * 10 ^ places) :
    'e' ∈ decimal.text := by
  have digits : ¬(Nat.toDigits 10 decimal.significand).length + places ≤ 21 := by
    rw [length_padded_iff some, not_lt]
    exact large
  unfold Decimal.text
  dsimp only
  rw [whole, if_neg (by omega), if_neg (by omega), if_neg (by omega)]
  simp

theorem ofDigitChars_padded (significand places : Nat) :
    Nat.ofDigitChars 10
        (Nat.toDigits 10 significand ++ List.replicate places '0') 0 =
      significand * 10 ^ places := by
  rw [Nat.ofDigitChars_append, Nat.ofDigitChars_replicate_zero,
    Nat.ofDigitChars_ten_toDigits, mul_comm]

theorem allDigits_padded (significand places : Nat) :
    AllDigits (Nat.toDigits 10 significand ++ List.replicate places '0') :=
  (allDigits_toDigits significand).append (allDigits_zeros places)

theorem parseInt_digits {text : List Char} (all : AllDigits text)
    (some : text ≠ []) :
    parseInt text = round64 (Nat.ofDigitChars 10 text 0) := by
  have begins : BeginsWithDigit text := by
    obtain ⟨char, rest, rfl⟩ := List.exists_cons_of_ne_nil some
    exact ⟨char, rest, rfl, all char (by simp)⟩
  obtain ⟨visible, unsigned, -⟩ := begins.plain
  unfold parseInt
  rw [visible, unsigned]
  dsimp only
  rw [List.takeWhile_eq_self_iff.mpr all, if_neg some, withSign,
    if_neg Bool.false_ne_true]

/-- The decimal of a whole number, in digits. -/
theorem exists_whole_decimal (number : Finite) {whole : Nat}
    (same : number.value = whole) (positive : 0 < whole) :
    ∃ places : Nat, (shortest number.value).exponent = places ∧
      (shortest number.value).significand ≠ 0 ∧
      nearest ((shortest number.value).significand * 10 ^ places : Nat) =
        number.value := by
  have above : 0 < number.value := by
    rw [same]
    exact_mod_cast positive
  obtain ⟨places, exponent⟩ :=
    Int.eq_ofNat_of_zero_le (shortest_whole number same)
  have short := nearest_shortest number above
  have value : (shortest number.value).value =
      ((shortest number.value).significand * 10 ^ places : Nat) := by
    rw [Decimal.value, scaled, exponent]
    push_cast
    rw [zpow_natCast]
  rw [value] at short
  refine ⟨places, exponent, ?_, short⟩
  intro zero
  rw [zero, zero_mul, Nat.cast_zero, nearest_zero] at short
  exact absurd short above.ne

/-- The search for the digits of 2^63 ends at the thousands. -/
theorem thousands_of_bound {number : Finite} (same : number.value = 2 ^ 63) :
    ((3 : Nat) : ℤ) ≤ (shortest number.value).exponent := by
  have rounded : round ((2 : ℚ) ^ 63 / 10 ^ (3 : ℤ)) =
      (9223372036854776 : Nat) := by
    rw [round_eq_iff, Set.mem_Ico]
    norm_num
  have value : (decimalAt (2 ^ 63) 3).value = 9223372036854776000 := by
    rw [decimalAt, rounded, Int.toNat_natCast]
    norm_num [Decimal.value, scaled]
  have inside : InBinade 63 9223372036854776000 := by
    rw [InBinade]
    norm_num
  have near : roundEven ((9223372036854776000 : ℚ) / 2 ^ ((63 : ℤ) - 52)) =
      4503599627370496 := by
    apply roundEven_of_near
    norm_num [abs_lt]
  have found : nearest (decimalAt (2 ^ 63) 3).value = 2 ^ 63 := by
    rw [value, inside.nearest (by decide), near]
    norm_num
  have top : 3 ≤ Int.log 10 ((2 : ℚ) ^ 63) :=
    (Int.zpow_le_iff_le_log (by decide) (by norm_num)).mp (by norm_num)
  rw [same]
  exact (shorten_finds found (by omega) (by omega)).2

/-- The digits of 2^63 end with three zeros. -/
theorem thousand_dvd {number : Finite} (same : number.value = 2 ^ 63)
    {places : Nat} (exponent : (shortest number.value).exponent = places) :
    1000 ∣ (shortest number.value).significand * 10 ^ places := by
  have thousands := thousands_of_bound same
  rw [exponent] at thousands
  obtain ⟨rest, rfl⟩ := Nat.exists_eq_add_of_le (Int.ofNat_le.mp thousands)
  rw [Nat.pow_add]
  exact Dvd.dvd.mul_left (Nat.dvd_mul_right _ _) _

/-- Digits that are rounded to a whole number are on the same side of 2^63,
unless they are one of the few numbers around it. -/
theorem digits_bound {whole digits : Nat}
    (short : nearest digits = whole)
    (thousands : whole = 2 ^ 63 → 1000 ∣ digits) :
    if whole < 2 ^ 63 then digits < 2 ^ 63 else 2 ^ 63 < digits := by
  have threshold := @nearest_lt_iff 62 (by decide) digits (Nat.cast_nonneg _)
  have power : (2 : ℚ) ^ ((62 : ℤ) + 1) = (2 ^ 63 : Nat) := by norm_num
  have gap : (2 : ℚ) ^ ((62 : ℤ) - 53) = (512 : Nat) := by norm_num
  rw [short, power, gap, lt_sub_iff_add_lt, ← Nat.cast_add, Nat.cast_lt,
    Nat.cast_lt] at threshold
  split
  case isTrue small =>
    have below := threshold.mp small
    omega
  case isFalse large =>
    by_contra least
    have top : nearest digits ≤ 2 ^ (63 : ℤ) := by
      rcases lt_or_eq_of_le (not_lt.mp least) with less | equal
      · apply nearest_le 63 (by decide)
        rw [Nat.abs_cast]
        exact_mod_cast less
      · have kept := @nearest_grid 1 63 (by decide) (by norm_num)
        rw [equal]
        norm_num at kept ⊢
        exact kept.le
    have most : whole ≤ 2 ^ 63 := by
      rw [short] at top
      exact_mod_cast top
    have multiple := thousands (Nat.le_antisymm most (not_lt.mp large))
    have above : ¬digits + 512 < 2 ^ 63 := fun less =>
      large (threshold.mpr less)
    omega

/-- `parseInt` reads whole numbers. -/
theorem parseInt_whole {text : List Char} {number : Finite}
    (read : parseInt text = .finite number) :
    ∃ whole : ℤ, number.value = whole := by
  unfold parseInt at read
  dsimp only at read
  split at read
  · cases read
  · have same := round64_eq_finite_iff.mp read
    rw [withSign] at same
    split at same
    · rw [← same, nearest_neg, ← Int.cast_natCast]
      obtain ⟨other, rounded⟩ := nearest_whole (Nat.ofDigitChars 10 _ 0 : Nat)
      exact ⟨-other, by rw [rounded, Int.cast_neg]⟩
    · rw [← same, ← Int.cast_natCast]
      exact nearest_whole _

/-- `parseInt` reads back the whole numbers below 2^53. -/
theorem parseInt_text (number : Finite) {whole : Nat}
    (same : number.value = whole) (small : whole < 2 ^ 53) :
    parseInt (Double.finite number).text = .finite number := by
  rcases Nat.eq_zero_or_pos whole with rfl | positive
  · have zero : number.value = 0 := by rw [same, Nat.cast_zero]
    have read : parseInt ['0'] = round64 (0 : Nat) :=
      parseInt_digits (allDigits_zeros 1) (by decide)
    unfold Double.text
    dsimp only
    rw [if_pos zero, read, round64_eq_finite_iff, zero, Nat.cast_zero,
      nearest_zero]
  · have above : 0 < number.value := by
      rw [same]
      exact_mod_cast positive
    obtain ⟨places, exponent, some, short⟩ :=
      exists_whole_decimal number same positive
    have product : (shortest number.value).significand * 10 ^ places = whole := by
      have stands := short.trans same
      rw [← Int.cast_natCast, ← Int.cast_natCast whole] at stands
      have bounded : |(whole : ℤ)| < 2 ^ 53 := by
        rw [abs_of_nonneg (Int.natCast_nonneg whole)]
        exact_mod_cast small
      exact_mod_cast eq_of_nearest bounded stands
    have text := Decimal.text_whole exponent some
      (by rw [product]; exact small.trans (by norm_num))
    unfold Double.text
    dsimp only
    rw [if_neg above.ne', if_neg (not_lt.mpr above.le), text,
      parseInt_digits (allDigits_padded _ _)
        (by simp [Nat.toDigits_ne_nil]),
      ofDigitChars_padded, round64_eq_finite_iff]
    exact short

theorem Double.text_ne_nil (number : Double) : number.text ≠ [] := by
  unfold Double.text
  split
  case h_4 number =>
    obtain ⟨char, rest, parts, -⟩ := (shortest number.value).text_begins
    split
    · simp
    · split
      · simp
      · simp [parts]
  all_goals simp

end Binary64
