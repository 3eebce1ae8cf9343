import Mathlib.Data.List.Basic
import Mathlib.Tactic.SplitIfs

/-!
# Texts in bytes, without loss

A text is read from bytes as UTF-8.  A byte that belongs to no character is
kept as a character of a private block, and the characters of that block
are themselves kept byte by byte, so that different bytes are different
texts.
-/

namespace LosslessTexts

/-- The character that stands for a byte that belongs to none. -/
def strayChar (byte : UInt8) : Char := Char.ofNat (0xf0000 + byte.toNat)

def isStray (char : Char) : Bool :=
  0xf0080 ≤ char.toNat && char.toNat ≤ 0xf00ff

/-- A continuation byte of UTF-8 in the given range. -/
def continues (low high : UInt8) (byte : UInt8) : Bool :=
  low ≤ byte && byte ≤ high

/-- The bits that a continuation byte contributes. -/
def low6 (byte : UInt8) : Nat := byte.toNat % 64

/-- The character behind the given first byte, and the number of further
bytes it takes. -/
def decodeRune (first : UInt8) (rest : List UInt8) : Char × Nat :=
  let broken := (strayChar first, 0)
  let lead := first.toNat
  if lead < 0x80 then (Char.ofNat lead, 0)
  else if 0xc2 ≤ lead ∧ lead ≤ 0xdf then
    match rest with
    | second :: _ =>
        if continues 0x80 0xbf second then
          (Char.ofNat (lead % 32 * 64 + low6 second), 1)
        else broken
    | [] => broken
  else if 0xe0 ≤ lead ∧ lead ≤ 0xef then
    match rest with
    | second :: third :: _ =>
        if continues (if lead = 0xe0 then 0xa0 else 0x80)
              (if lead = 0xed then 0x9f else 0xbf) second &&
            continues 0x80 0xbf third then
          (Char.ofNat
            (lead % 16 * 4096 + low6 second * 64 + low6 third), 2)
        else broken
    | _ => broken
  else if 0xf0 ≤ lead ∧ lead ≤ 0xf4 then
    match rest with
    | second :: third :: fourth :: _ =>
        let char := Char.ofNat (lead % 8 * 262144 + low6 second * 4096 +
          low6 third * 64 + low6 fourth)
        if continues (if lead = 0xf0 then 0x90 else 0x80)
              (if lead = 0xf4 then 0x8f else 0xbf) second &&
            (continues 0x80 0xbf third && continues 0x80 0xbf fourth) &&
            !isStray char then (char, 3)
        else broken
    | _ => broken
  else broken

/-- The characters of a text; `skip` counts the bytes that belong to the
character before. -/
def decodeFrom : Nat → List UInt8 → List Char
  | _, [] => []
  | skip + 1, _ :: rest => decodeFrom skip rest
  | 0, byte :: rest =>
      (decodeRune byte rest).1 :: decodeFrom (decodeRune byte rest).2 rest

def decode (bytes : List UInt8) : List Char := decodeFrom 0 bytes

/-- The bytes of a character. -/
def encodeRune (char : Char) : List UInt8 :=
  let code := char.toNat
  if isStray char then [.ofNat (code - 0xf0000)]
  else if code < 0x80 then [.ofNat code]
  else if code < 0x800 then
    [.ofNat (0xc0 + code / 64), .ofNat (0x80 + code % 64)]
  else if code < 0x10000 then
    [.ofNat (0xe0 + code / 4096), .ofNat (0x80 + code / 64 % 64),
      .ofNat (0x80 + code % 64)]
  else
    [.ofNat (0xf0 + code / 262144), .ofNat (0x80 + code / 4096 % 64),
      .ofNat (0x80 + code / 64 % 64), .ofNat (0x80 + code % 64)]

def encode (text : List Char) : List UInt8 := text.flatMap encodeRune

theorem toNat_charOfNat {code : Nat}
    (valid : code < 0xd800 ∨ 0xdfff < code ∧ code < 0x110000) :
    (Char.ofNat code).toNat = code := by
  have isValid : code.isValidChar := valid
  rw [Char.ofNat, dif_pos isValid]
  rfl

theorem byte_eq {byte : UInt8} {code : Nat} (same : byte.toNat = code) :
    UInt8.ofNat code = byte := by
  rw [← same, UInt8.ofNat_toNat]

theorem continues_iff {low high byte : UInt8} :
    continues low high byte = true ↔
      low.toNat ≤ byte.toNat ∧ byte.toNat ≤ high.toNat := by
  rw [continues, Bool.and_eq_true, decide_eq_true_iff, decide_eq_true_iff,
    UInt8.le_iff_toNat_le, UInt8.le_iff_toNat_le]

theorem isStray_eq_false {code : Nat}
    (valid : code < 0xd800 ∨ 0xdfff < code ∧ code < 0x110000)
    (apart : code < 0xf0080 ∨ 0xf00ff < code) :
    isStray (Char.ofNat code) = false := by
  rw [isStray, toNat_charOfNat valid]
  simp only [Bool.and_eq_false_iff, decide_eq_false_iff_not]
  omega

theorem encodeRune_strayChar {byte : UInt8} (high : 0x80 ≤ byte.toNat) :
    encodeRune (strayChar byte) = [byte] := by
  have small := byte.toNat_lt
  have code : (strayChar byte).toNat = 0xf0000 + byte.toNat :=
    toNat_charOfNat (.inr (by omega))
  have stray : isStray (strayChar byte) = true := by
    rw [isStray, code]
    simp only [Bool.and_eq_true, decide_eq_true_iff]
    omega
  have same : byte.toNat = 0xf0000 + byte.toNat - 0xf0000 := by omega
  simp only [encodeRune, stray, if_true, code]
  rw [byte_eq same]

theorem encodeRune_two {code : Nat}
    (range : 0x80 ≤ code ∧ code < 0x800) :
    encodeRune (Char.ofNat code) =
      [.ofNat (0xc0 + code / 64), .ofNat (0x80 + code % 64)] := by
  have value := @toNat_charOfNat code (.inl (by omega))
  have own := @isStray_eq_false code (.inl (by omega)) (.inl (by omega))
  have above : ¬code < 0x80 := by omega
  simp only [encodeRune, own, value, if_neg above, if_pos range.2,
    Bool.false_eq_true, if_false]

theorem encodeRune_three {code : Nat}
    (range : 0x800 ≤ code ∧ code < 0x10000)
    (scalar : code < 0xd800 ∨ 0xdfff < code) :
    encodeRune (Char.ofNat code) =
      [.ofNat (0xe0 + code / 4096), .ofNat (0x80 + code / 64 % 64),
        .ofNat (0x80 + code % 64)] := by
  have value := @toNat_charOfNat code (by omega)
  have own := @isStray_eq_false code (by omega) (.inl (by omega))
  have above : ¬code < 0x80 ∧ ¬code < 0x800 := by omega
  simp only [encodeRune, own, value, if_neg above.1, if_neg above.2,
    if_pos range.2, Bool.false_eq_true, if_false]

theorem encodeRune_four {code : Nat}
    (range : 0x10000 ≤ code ∧ code < 0x110000)
    (own : isStray (Char.ofNat code) = false) :
    encodeRune (Char.ofNat code) =
      [.ofNat (0xf0 + code / 262144), .ofNat (0x80 + code / 4096 % 64),
        .ofNat (0x80 + code / 64 % 64), .ofNat (0x80 + code % 64)] := by
  have value := @toNat_charOfNat code (by omega)
  have above : ¬code < 0x80 ∧ ¬code < 0x800 ∧ ¬code < 0x10000 := by
    omega
  simp only [encodeRune, own, value, if_neg above.1, if_neg above.2.1,
    if_neg above.2.2, Bool.false_eq_true, if_false]

/-- How many bytes the first character takes, and which. -/
inductive FirstRune (first : UInt8) : List UInt8 → Char × Nat → Prop where
  | ascii (rest : List UInt8) (low : first.toNat < 0x80) :
      FirstRune first rest (Char.ofNat first.toNat, 0)
  | two (second : UInt8) (rest : List UInt8)
      (lead : 0xc2 ≤ first.toNat ∧ first.toNat ≤ 0xdf)
      (continued : 0x80 ≤ second.toNat ∧ second.toNat ≤ 0xbf) :
      FirstRune first (second :: rest)
        (Char.ofNat (first.toNat % 32 * 64 + low6 second), 1)
  | three (second third : UInt8) (rest : List UInt8)
      (lead : 0xe0 ≤ first.toNat ∧ first.toNat ≤ 0xef)
      (above : (if first.toNat = 0xe0 then 0xa0 else 0x80) ≤ second.toNat)
      (below : second.toNat ≤ if first.toNat = 0xed then 0x9f else 0xbf)
      (ended : 0x80 ≤ third.toNat ∧ third.toNat ≤ 0xbf) :
      FirstRune first (second :: third :: rest)
        (Char.ofNat (first.toNat % 16 * 4096 + low6 second * 64 +
          low6 third), 2)
  | four (second third fourth : UInt8) (rest : List UInt8)
      (lead : 0xf0 ≤ first.toNat ∧ first.toNat ≤ 0xf4)
      (above : (if first.toNat = 0xf0 then 0x90 else 0x80) ≤ second.toNat)
      (below : second.toNat ≤ if first.toNat = 0xf4 then 0x8f else 0xbf)
      (again : 0x80 ≤ third.toNat ∧ third.toNat ≤ 0xbf)
      (ended : 0x80 ≤ fourth.toNat ∧ fourth.toNat ≤ 0xbf)
      (own : isStray (Char.ofNat (first.toNat % 8 * 262144 +
        low6 second * 4096 + low6 third * 64 + low6 fourth)) = false) :
      FirstRune first (second :: third :: fourth :: rest)
        (Char.ofNat (first.toNat % 8 * 262144 + low6 second * 4096 +
          low6 third * 64 + low6 fourth), 3)
  | stray (rest : List UInt8) (high : 0x80 ≤ first.toNat) :
      FirstRune first rest (strayChar first, 0)

theorem decodeRune_cases (first : UInt8) (rest : List UInt8) :
    FirstRune first rest (decodeRune first rest) := by
  by_cases low : first.toNat < 0x80
  · simp only [decodeRune, if_pos low]
    exact .ascii rest low
  have high : 0x80 ≤ first.toNat := by omega
  by_cases two : 0xc2 ≤ first.toNat ∧ first.toNat ≤ 0xdf
  · simp only [decodeRune, if_neg low, if_pos two]
    rcases rest with _ | ⟨second, rest⟩
    · exact .stray [] high
    · dsimp only
      by_cases continued : continues 0x80 0xbf second = true
      · rw [if_pos continued]
        exact .two second rest two (continues_iff.mp continued)
      · rw [if_neg continued]
        exact .stray _ high
  by_cases three : 0xe0 ≤ first.toNat ∧ first.toNat ≤ 0xef
  · simp only [decodeRune, if_neg low, if_neg two, if_pos three]
    rcases rest with _ | ⟨second, _ | ⟨third, rest⟩⟩
    · exact .stray _ high
    · exact .stray _ high
    · dsimp only
      by_cases continued : (continues
          (if first.toNat = 0xe0 then 0xa0 else 0x80)
          (if first.toNat = 0xed then 0x9f else 0xbf) second &&
            continues 0x80 0xbf third) = true
      · rw [if_pos continued]
        rw [Bool.and_eq_true, continues_iff, continues_iff] at continued
        obtain ⟨⟨above, below⟩, ended⟩ := continued
        rw [apply_ite UInt8.toNat] at above below
        exact .three second third rest three above below ended
      · rw [if_neg continued]
        exact .stray _ high
  by_cases four : 0xf0 ≤ first.toNat ∧ first.toNat ≤ 0xf4
  · simp only [decodeRune, if_neg low, if_neg two, if_neg three, if_pos four]
    rcases rest with _ | ⟨second, _ | ⟨third, _ | ⟨fourth, rest⟩⟩⟩
    · exact .stray _ high
    · exact .stray _ high
    · exact .stray _ high
    · dsimp only
      by_cases continued : (continues
          (if first.toNat = 0xf0 then 0x90 else 0x80)
          (if first.toNat = 0xf4 then 0x8f else 0xbf) second &&
            (continues 0x80 0xbf third && continues 0x80 0xbf fourth) &&
          !isStray (Char.ofNat (first.toNat % 8 * 262144 +
            low6 second * 4096 + low6 third * 64 + low6 fourth))) = true
      · rw [if_pos continued]
        rw [Bool.and_eq_true, Bool.and_eq_true, Bool.and_eq_true,
          continues_iff, continues_iff, continues_iff,
          Bool.not_eq_true'] at continued
        obtain ⟨⟨⟨above, below⟩, again, ended⟩, own⟩ := continued
        rw [apply_ite UInt8.toNat] at above below
        exact .four second third fourth rest four above below again ended own
      · rw [if_neg continued]
        exact .stray _ high
  · simp only [decodeRune, if_neg low, if_neg two, if_neg three, if_neg four]
    exact .stray _ high

/-- A character is written as the bytes from which it was read. -/
theorem encodeRune_decodeRune (first : UInt8) (rest : List UInt8) :
    encodeRune (decodeRune first rest).1 =
      first :: rest.take (decodeRune first rest).2 := by
  have small := first.toNat_lt
  have decoded := decodeRune_cases first rest
  generalize decodeRune first rest = rune at decoded
  cases decoded with
  | ascii _ low =>
      have code := @toNat_charOfNat first.toNat (.inl (by omega))
      have own := @isStray_eq_false first.toNat (.inl (by omega))
        (.inl (by omega))
      simp only [encodeRune, own, code, if_pos low, List.take_zero,
        Bool.false_eq_true, if_false, UInt8.ofNat_toNat]
  | two second rest lead continued =>
      have bits : low6 second = second.toNat - 0x80 := by
        rw [low6]
        omega
      rw [encodeRune_two (by omega), @byte_eq first _ (by omega),
        @byte_eq second _ (by omega)]
      rfl
  | three second third rest lead above below ended =>
      have middle : low6 second = second.toNat - 0x80 := by
        rw [low6]
        split_ifs at above below <;> omega
      have last : low6 third = third.toNat - 0x80 := by
        rw [low6]
        omega
      have range : 0x800 ≤ first.toNat % 16 * 4096 + low6 second * 64 +
          low6 third := by
        split_ifs at above <;> omega
      have scalar : first.toNat % 16 * 4096 + low6 second * 64 +
          low6 third < 0xd800 ∨ 0xdfff < first.toNat % 16 * 4096 +
            low6 second * 64 + low6 third := by
        split_ifs at below <;> omega
      have continued : 0x80 ≤ second.toNat ∧ second.toNat ≤ 0xbf := by
        split_ifs at above below <;> omega
      rw [encodeRune_three (by omega) scalar, @byte_eq first _ (by omega),
        @byte_eq second _ (by omega), @byte_eq third _ (by omega)]
      rfl
  | four second third fourth rest lead above below again ended own =>
      have continued : 0x80 ≤ second.toNat ∧ second.toNat ≤ 0xbf := by
        split_ifs at above below <;> omega
      have middle : low6 second = second.toNat - 0x80 := by
        rw [low6]
        omega
      have after : low6 third = third.toNat - 0x80 := by
        rw [low6]
        omega
      have last : low6 fourth = fourth.toNat - 0x80 := by
        rw [low6]
        omega
      have range : 0x10000 ≤ first.toNat % 8 * 262144 +
          low6 second * 4096 + low6 third * 64 + low6 fourth ∧
            first.toNat % 8 * 262144 + low6 second * 4096 +
              low6 third * 64 + low6 fourth < 0x110000 := by
        split_ifs at above below <;> omega
      rw [encodeRune_four range own, @byte_eq first _ (by omega),
        @byte_eq second _ (by omega), @byte_eq third _ (by omega),
        @byte_eq fourth _ (by omega)]
      rfl
  | stray _ high =>
      rw [encodeRune_strayChar high, List.take_zero]

theorem encode_append (first second : List Char) :
    encode (first ++ second) = encode first ++ encode second :=
  List.flatMap_append

theorem encode_decodeFrom (skip : Nat) (bytes : List UInt8) :
    encode (decodeFrom skip bytes) = bytes.drop skip := by
  induction bytes generalizing skip with
  | nil => simp [decodeFrom, encode]
  | cons byte rest inductionHypothesis =>
      cases skip with
      | succ skip =>
          rw [decodeFrom, inductionHypothesis, List.drop_succ_cons]
      | zero =>
          have front := encodeRune_decodeRune byte rest
          have behind := inductionHypothesis (decodeRune byte rest).2
          rw [encode] at behind
          rw [decodeFrom, encode, List.flatMap_cons, front, behind,
            List.cons_append, List.take_append_drop, List.drop_zero]

/-- Nothing is lost when bytes are read as a text. -/
theorem encode_decode (bytes : List UInt8) :
    encode (decode bytes) = bytes :=
  encode_decodeFrom 0 bytes

theorem decode_injective {first second : List UInt8}
    (same : decode first = decode second) : first = second := by
  rw [← encode_decode first, same, encode_decode]

theorem encode_infix {part text : List Char} (inside : part <:+: text) :
    encode part <:+: encode text := by
  obtain ⟨before, behind, rfl⟩ := inside
  exact ⟨encode before, encode behind, by simp only [encode_append]⟩

end LosslessTexts
