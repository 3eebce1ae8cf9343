import Mathlib.Data.Bool.AllAny
import Mathlib.Data.List.GetD
import Mathlib.Data.List.Nodup
import Mathlib.Tactic.IntervalCases
import Xoxproxy.Engine.Crypt

/-!
# Reading verifiers back

Every bit of a digest stands in its verifier: the characters of
`cryptB64` decode to the sixteen bytes.
-/

namespace Xoxproxy

/-- The six bits of a character. -/
def sextet (char : Char) : Nat := itoa64.idxOf char

/-- The number of some groups, least significant first. -/
def takeBits : List Char → Nat
  | [] => 0
  | char :: rest => sextet char + 64 * takeBits rest

theorem length_itoa64 : itoa64.length = 64 := by decide

theorem sextet_itoa64 {value : Nat} (small : value < 64) :
    sextet (itoa64.getD value '.') = value := by
  have distinct : itoa64.Nodup := by decide +kernel
  rw [← length_itoa64] at small
  rw [List.getD_eq_getElem _ _ small, sextet, distinct.idxOf_getElem]

theorem mem_itoa64 {value : Nat} (small : value < 64) :
    itoa64.getD value '.' ∈ itoa64 := by
  rw [← length_itoa64] at small
  rw [List.getD_eq_getElem _ _ small]
  exact List.getElem_mem small

/-- The low bits of a number read back. -/
theorem takeBits_putBits (count value : Nat) :
    takeBits (putBits count value) = value % 64 ^ count := by
  induction count generalizing value with
  | zero => simp [putBits, takeBits, Nat.mod_one]
  | succ count inductionHypothesis =>
      have group : value &&& 0x3f = value % 64 :=
        Nat.and_two_pow_sub_one_eq_mod value 6
      have rest : value >>> 6 = value / 64 :=
        Nat.shiftRight_eq_div_pow value 6
      rw [putBits, takeBits, group, rest,
        sextet_itoa64 (Nat.mod_lt _ (by decide)), inductionHypothesis,
        Nat.pow_succ', Nat.mod_mul]

theorem putBits_mem_itoa64 (count value : Nat) :
    ∀ char ∈ putBits count value, char ∈ itoa64 := by
  induction count generalizing value with
  | zero => simp [putBits]
  | succ count inductionHypothesis =>
      intro char member
      rcases List.mem_cons.mp member with rfl | later
      · exact mem_itoa64 (Nat.lt_of_le_of_lt Nat.and_le_right (by decide))
      · exact inductionHypothesis _ char later

/-- One byte of a number, counted from the lowest. -/
def byteAt (value place : Nat) : UInt8 := UInt8.ofNat (value / 256 ^ place)

theorem threeBytes_eq (high middle low : UInt8) :
    threeBytes high middle low =
      high.toNat * 65536 + middle.toNat * 256 + low.toNat := by
  have middleSmall := middle.toNat_lt
  have lowSmall := low.toNat_lt
  have upper : high.toNat <<< 16 ||| middle.toNat <<< 8 =
      (high.toNat * 256 + middle.toNat) <<< 8 := by
    rw [← Nat.shiftLeft_add_eq_or_of_lt (by rw [Nat.shiftLeft_eq]; omega),
      Nat.shiftLeft_eq, Nat.shiftLeft_eq, Nat.shiftLeft_eq]
    omega
  rw [threeBytes, upper, ← Nat.shiftLeft_add_eq_or_of_lt (by omega),
    Nat.shiftLeft_eq]
  omega

theorem threeBytes_lt (high middle low : UInt8) :
    threeBytes high middle low < 64 ^ 4 := by
  have highSmall := high.toNat_lt
  have middleSmall := middle.toNat_lt
  have lowSmall := low.toNat_lt
  rw [threeBytes_eq]
  omega

variable (high middle low : UInt8)

@[simp]
theorem byteAt_high : byteAt (threeBytes high middle low) 2 = high := by
  have middleSmall := middle.toNat_lt
  have lowSmall := low.toNat_lt
  have value : threeBytes high middle low / 256 ^ 2 = high.toNat := by
    rw [threeBytes_eq]
    omega
  rw [byteAt, value, UInt8.ofNat_toNat]

@[simp]
theorem byteAt_middle : byteAt (threeBytes high middle low) 1 = middle := by
  have lowSmall := low.toNat_lt
  have value : threeBytes high middle low / 256 ^ 1 =
      high.toNat * 256 + middle.toNat := by
    rw [threeBytes_eq]
    omega
  rw [byteAt, value, ← UInt8.toNat_inj, UInt8.toNat_ofNat']
  have middleSmall := middle.toNat_lt
  omega

@[simp]
theorem byteAt_low : byteAt (threeBytes high middle low) 0 = low := by
  rw [byteAt, threeBytes_eq, ← UInt8.toNat_inj, UInt8.toNat_ofNat']
  have lowSmall := low.toNat_lt
  omega

@[simp]
theorem takeBits_threeBytes :
    takeBits (putBits 4 (threeBytes high middle low)) =
      threeBytes high middle low := by
  rw [takeBits_putBits, Nat.mod_eq_of_lt (threeBytes_lt high middle low)]

@[simp]
theorem byteAt_takeBits (byte : UInt8) :
    byteAt (takeBits (putBits 2 byte.toNat)) 0 = byte := by
  have small := byte.toNat_lt
  rw [takeBits_putBits, Nat.mod_eq_of_lt (by omega), byteAt,
    Nat.pow_zero, Nat.div_one, UInt8.ofNat_toNat]

/-- The number of the characters in one group of four. -/
def groupOf (chars : List Char) (index : Nat) : Nat :=
  takeBits ((chars.drop (4 * index)).take 4)

/-- The digest of 22 characters. -/
def decodeB64 (chars : List Char) : Vector UInt8 16 :=
  let group := groupOf chars
  #v[byteAt (group 0) 2, byteAt (group 1) 2, byteAt (group 2) 2,
    byteAt (group 3) 2, byteAt (group 4) 2, byteAt (group 4) 0,
    byteAt (group 0) 1, byteAt (group 1) 1, byteAt (group 2) 1,
    byteAt (group 3) 1, byteAt (group 4) 1, byteAt (group 5) 0,
    byteAt (group 0) 0, byteAt (group 1) 0, byteAt (group 2) 0,
    byteAt (group 3) 0]

theorem decodeB64_cryptB64 (digest : Vector UInt8 16) :
    decodeB64 (cryptB64 digest) = digest := by
  have first : groupOf (cryptB64 digest) 0 =
      threeBytes digest[0] digest[6] digest[12] := takeBits_threeBytes _ _ _
  have second : groupOf (cryptB64 digest) 1 =
      threeBytes digest[1] digest[7] digest[13] := takeBits_threeBytes _ _ _
  have third : groupOf (cryptB64 digest) 2 =
      threeBytes digest[2] digest[8] digest[14] := takeBits_threeBytes _ _ _
  have fourth : groupOf (cryptB64 digest) 3 =
      threeBytes digest[3] digest[9] digest[15] := takeBits_threeBytes _ _ _
  have fifth : groupOf (cryptB64 digest) 4 =
      threeBytes digest[4] digest[10] digest[5] := takeBits_threeBytes _ _ _
  have last : groupOf (cryptB64 digest) 5 =
      takeBits (putBits 2 digest[11].toNat) := rfl
  simp only [decodeB64, first, second, third, fourth, fifth, last,
    byteAt_high, byteAt_middle, byteAt_low, byteAt_takeBits]
  ext place bound
  interval_cases place <;> rfl

theorem cryptB64_injective : Function.Injective cryptB64 := by
  intro first second same
  rw [← decodeB64_cryptB64 first, same, decodeB64_cryptB64]

theorem cryptB64_mem_itoa64 (digest : Vector UInt8 16) :
    ∀ char ∈ cryptB64 digest, char ∈ itoa64 := by
  intro char member
  simp only [cryptB64, List.mem_append] at member
  rcases member with ((((first | second) | third) | fourth) | fifth) | last
  · exact putBits_mem_itoa64 _ _ char first
  · exact putBits_mem_itoa64 _ _ char second
  · exact putBits_mem_itoa64 _ _ char third
  · exact putBits_mem_itoa64 _ _ char fourth
  · exact putBits_mem_itoa64 _ _ char fifth
  · exact putBits_mem_itoa64 _ _ char last

/-- A salt of 1 to 64 alphanumeric characters. -/
structure ValidSalt (salt : String) : Prop where
  alphanumeric : ∀ char ∈ salt.toList, isAlphanumeric char = true
  nonempty : 1 ≤ salt.toList.length
  short : salt.toList.length ≤ 64

/-- The digest from which `CRHash` makes a verifier. -/
def digestOf [Blake2b] (password salt : String) : Vector UInt8 16 :=
  Blake2b.sum128 (bytesOf password ++ 0 :: bytesOf salt)

/-- What `cryptB64` keeps of a digest. -/
structure EncodesDigests (encode : Vector UInt8 16 → List Char)
    (decode : List Char → Vector UInt8 16) : Prop where
  length : ∀ digest, (encode digest).length = 22
  alphabet : ∀ digest, ∀ char ∈ encode digest, char ∈ itoa64
  decodes : ∀ digest, decode (encode digest) = digest
  distinct : ∀ first second, first ≠ second → encode first ≠ encode second

theorem encodesDigests : EncodesDigests cryptB64 decodeB64 where
  length := length_cryptB64
  alphabet := cryptB64_mem_itoa64
  decodes := decodeB64_cryptB64
  distinct := fun _ _ different same =>
    different (cryptB64_injective same)

theorem digestOf_eq_of_crHash_eq [Blake2b] {password other salt : String}
    (same : crHash password salt = crHash other salt) :
    digestOf password salt = digestOf other salt := by
  unfold crHash at same
  rw [String.ofList_inj, List.append_cancel_left_eq,
    List.append_cancel_left_eq, List.cons.injEq] at same
  exact cryptB64_injective same.2

section Rendering

variable [Build] [Blake2b]

/-- `Render` accepts a valid state whose other verifiers it accepts. -/
theorem render_crHash {password salt : String} (valid : ValidSalt salt)
    {state : State} {settings : Settings}
    (settingsValid : settings.validate = none)
    (stateValid : state.validate = none)
    (hashes : ∀ user ∈ state.users,
      engineHashRe user.engineHash = true ∨
        user.engineHash = crHash password salt) :
    ∃ text, render state settings = .ok text := by
  refine ⟨_, (render_eq_ok_iff state settings _).mpr ⟨⟨settingsValid,
    (State.validate_eq_none_iff state).mp stateValid, ?_⟩, rfl⟩⟩
  intro user member
  rcases hashes user member with accepted | verifier
  · exact accepted
  · rw [verifier]
    exact engineHashRe_crHash password valid.alphanumeric valid.nonempty
      valid.short

/-- Verifiers are well formed and lose nothing of the digest. -/
theorem crHash_faithful (password salt : String) (valid : ValidSalt salt) :
    EncodesDigests cryptB64 decodeB64 ∧
      engineHashRe (crHash password salt) = true ∧
      (∀ (state : State) (settings : Settings),
        settings.validate = none → state.validate = none →
          (∀ user ∈ state.users, engineHashRe user.engineHash = true ∨
            user.engineHash = crHash password salt) →
            ∃ text, render state settings = .ok text) ∧
      ∀ other, crHash password salt = crHash other salt →
        digestOf password salt = digestOf other salt :=
  ⟨encodesDigests,
    engineHashRe_crHash password valid.alphanumeric valid.nonempty valid.short,
    fun _ _ settingsValid stateValid hashes =>
      render_crHash valid settingsValid stateValid hashes,
    fun _ same => digestOf_eq_of_crHash_eq same⟩

end Rendering

/-- The verifier that the engine's own utility prints for the password
`p` and the salt `s1`. -/
theorem crHash_upstream :
    let _ := Build.dev
    let _ := Blake2b.upstream
    crHash "p" "s1" = "$3$s1$r3LV1UwVOESoo9mQu0tUc." ∧
      engineHashRe (crHash "p" "s1") = true := by
  let _ := Build.dev
  let _ := Blake2b.upstream
  have valid : ValidSalt "s1" :=
    ⟨List.all_iff_forall_prop.mp (by decide +kernel), by decide, by decide⟩
  exact ⟨by decide +kernel, (crHash_faithful "p" "s1" valid).2.1⟩

end Xoxproxy
