import Xoxproxy.Engine.Config
import Xoxproxy.Library.Blake2

/-!
# Engine verifiers

The BLAKE2b-crypt verifiers that the control plane derives for the engine
(`internal/engine/threeproxy/crypt.go`).  Only the digest itself comes from
elsewhere.
-/

namespace Xoxproxy

/-- The unkeyed 16-byte digest of `golang.org/x/crypto/blake2b`. -/
class Blake2b where
  sum128 : Bytes → Vector UInt8 16

/-- The digest as it is published. -/
@[reducible] def Blake2b.upstream : Blake2b where
  sum128 := fun bytes =>
    ⟨(Blake2.sum128 bytes).toArray,
      List.size_toArray.trans (Blake2.length_sum128 bytes)⟩

/-- The alphabet of `cryptB64`. -/
def itoa64 : List Char :=
  "./0123456789ABCDEFGHIJKLMNOPQRSTUVWXYZabcdefghijklmnopqrstuvwxyz".toList

/-- The low six-bit groups of a number, least significant first. -/
def putBits : Nat → Nat → List Char
  | 0, _ => []
  | count + 1, value =>
      itoa64.getD (value &&& 0x3f) '.' :: putBits count (value >>> 6)

/-- Three bytes as one number, first byte highest. -/
def threeBytes (high middle low : UInt8) : Nat :=
  high.toNat <<< 16 ||| middle.toNat <<< 8 ||| low.toNat

/-- `cryptB64`. -/
def cryptB64 (digest : Vector UInt8 16) : List Char :=
  putBits 4 (threeBytes digest[0] digest[6] digest[12]) ++
    putBits 4 (threeBytes digest[1] digest[7] digest[13]) ++
    putBits 4 (threeBytes digest[2] digest[8] digest[14]) ++
    putBits 4 (threeBytes digest[3] digest[9] digest[15]) ++
    putBits 4 (threeBytes digest[4] digest[10] digest[5]) ++
    putBits 2 digest[11].toNat

/-- `CRHash`: the digest covers the password with a terminating zero byte,
then the salt. -/
def crHash [Blake2b] (password salt : String) : String :=
  String.ofList
    ("$3$".toList ++ (salt.toList ++ '$' ::
      cryptB64 (Blake2b.sum128 (bytesOf password ++ 0 :: bytesOf salt))))

def saltAlphabet : List Char :=
  "ABCDEFGHIJKLMNOPQRSTUVWXYZabcdefghijklmnopqrstuvwxyz0123456789".toList

/-- `NewSalt`, from random bytes. -/
def newSalt (random : Vector UInt8 16) : String :=
  String.ofList
    (random.toList.map fun byte =>
      saltAlphabet.getD (byte.toNat % saltAlphabet.length) 'A')

@[simp]
theorem length_putBits (count value : Nat) :
    (putBits count value).length = count := by
  induction count generalizing value with
  | zero => rfl
  | succ count induction => simp [putBits, induction]

theorem putBits_isCryptChar (count value : Nat) :
    ∀ char ∈ putBits count value, isCryptChar char = true := by
  induction count generalizing value with
  | zero => simp [putBits]
  | succ count induction =>
      intro char member
      rcases List.mem_cons.mp member with rfl | later
      · have small : value &&& 0x3f < 64 :=
          Nat.lt_of_le_of_lt Nat.and_le_right (by decide)
        have all : ∀ digit < 64,
            isCryptChar (itoa64.getD digit '.') = true := by
          decide
        exact all _ small
      · exact induction _ char later

theorem length_cryptB64 (digest : Vector UInt8 16) :
    (cryptB64 digest).length = 22 := by
  simp [cryptB64]

theorem cryptB64_isCryptChar (digest : Vector UInt8 16) :
    ∀ char ∈ cryptB64 digest, isCryptChar char = true := by
  intro char member
  simp only [cryptB64, List.mem_append] at member
  rcases member with ((((first | second) | third) | fourth) | fifth) | last
  all_goals
    first
    | exact putBits_isCryptChar _ _ char first
    | exact putBits_isCryptChar _ _ char second
    | exact putBits_isCryptChar _ _ char third
    | exact putBits_isCryptChar _ _ char fourth
    | exact putBits_isCryptChar _ _ char fifth
    | exact putBits_isCryptChar _ _ char last

theorem newSalt_isAlphanumeric (random : Vector UInt8 16) :
    ∀ char ∈ (newSalt random).toList, isAlphanumeric char = true := by
  intro char member
  rw [newSalt, String.toList_ofList] at member
  obtain ⟨byte, -, rfl⟩ := List.mem_map.mp member
  have all : ∀ digit < saltAlphabet.length,
      isAlphanumeric (saltAlphabet.getD digit 'A') = true := by
    decide
  exact all _ (Nat.mod_lt _ (by decide))

@[simp]
theorem length_newSalt (random : Vector UInt8 16) :
    (newSalt random).toList.length = 16 := by
  rw [newSalt, String.toList_ofList, List.length_map, Vector.length_toList]

/-- Verifiers with an alphanumeric salt of 1 to 64 characters are accepted
by `Render`. -/
theorem engineHashRe_crHash
    [Blake2b] (password : String) {salt : String}
    (alphanumeric : ∀ char ∈ salt.toList, isAlphanumeric char = true)
    (nonempty : 1 ≤ salt.toList.length) (short : salt.toList.length ≤ 64) :
    engineHashRe (crHash password salt) = true := by
  generalize encoded :
    cryptB64 (Blake2b.sum128 (bytesOf password ++ 0 :: bytesOf salt)) =
      digest
  have length : digest.length = 22 := encoded ▸ length_cryptB64 _
  have chars : digest.all isCryptChar = true := by
    rw [List.all_eq_true, ← encoded]
    exact cryptB64_isCryptChar _
  have dollar : isAlphanumeric '$' = false := by decide
  have shape : (crHash password salt).toList =
      '$' :: '3' :: '$' :: (salt.toList ++ '$' :: digest) := by
    unfold crHash
    rw [encoded]
    simp
  have taken :
      (salt.toList ++ '$' :: digest).takeWhile isAlphanumeric =
        salt.toList := by
    rw [List.takeWhile_append_of_pos alphanumeric]
    simp [dollar]
  have dropped :
      (salt.toList ++ '$' :: digest).dropWhile isAlphanumeric =
        '$' :: digest := by
    rw [List.dropWhile_append_of_pos alphanumeric]
    simp [dollar]
  unfold engineHashRe
  rw [shape]
  simp only [taken, dropped, nonempty, short, length, chars, and_self,
    decide_true, Bool.and_self]

/-- So is every new verifier. -/
theorem engineHashRe_newEngineHash
    [Blake2b] (password : String) (random : Vector UInt8 16) :
    engineHashRe (crHash password (newSalt random)) = true :=
  engineHashRe_crHash password (newSalt_isAlphanumeric random)
    (by simp) (by simp)

end Xoxproxy
