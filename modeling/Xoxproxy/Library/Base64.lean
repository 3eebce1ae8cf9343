import Mathlib.Data.Bool.AllAny
import Mathlib.Data.List.Basic
import Mathlib.Data.List.GetD
import Mathlib.Data.List.Nodup

/-!
# Base64 without padding

The standard alphabet.  A decoder passes over line breaks and ignores the
bits that are left behind the last byte.
-/

namespace Base64

def alphabet : List Char :=
  "ABCDEFGHIJKLMNOPQRSTUVWXYZabcdefghijklmnopqrstuvwxyz0123456789+/".toList

/-- The six bits of a character. -/
def sextetOf (char : Char) : Option Nat :=
  if alphabet.idxOf char < 64 then some (alphabet.idxOf char) else none

/-- The bytes of some groups of six bits; one group alone is too few. -/
def packBytes : List Nat → Option (List UInt8)
  | [] => some []
  | [_] => none
  | [first, second] => some [.ofNat (first * 4 + second / 16)]
  | [first, second, third] =>
      some [.ofNat (first * 4 + second / 16),
        .ofNat (second % 16 * 16 + third / 4)]
  | first :: second :: third :: fourth :: rest =>
      (packBytes rest).map fun bytes =>
        .ofNat (first * 4 + second / 16) ::
          .ofNat (second % 16 * 16 + third / 4) ::
            .ofNat (third % 4 * 64 + fourth) :: bytes

def isLineBreak (char : Char) : Bool := char == '\n' || char == '\r'

/-- The sextets of characters that are all in the alphabet. -/
def sextets : List Char → Option (List Nat)
  | [] => some []
  | char :: rest =>
      (sextetOf char).bind fun sextet =>
        (sextets rest).map fun others => sextet :: others

def decode (text : List Char) : Option (List UInt8) :=
  (sextets (text.filter fun char => !isLineBreak char)).bind packBytes

/-- The groups of six bits of some bytes, the last one filled up with
zeros. -/
def unpackBytes : List UInt8 → List Nat
  | [] => []
  | [first] => [first.toNat / 4, first.toNat % 4 * 16]
  | [first, second] =>
      [first.toNat / 4, first.toNat % 4 * 16 + second.toNat / 16,
        second.toNat % 16 * 4]
  | first :: second :: third :: rest =>
      first.toNat / 4 :: (first.toNat % 4 * 16 + second.toNat / 16) ::
        (second.toNat % 16 * 4 + third.toNat / 64) ::
          third.toNat % 64 :: unpackBytes rest

def letter (sextet : Nat) : Char := alphabet.getD sextet 'A'

def encode (bytes : List UInt8) : List Char := (unpackBytes bytes).map letter

theorem length_alphabet : alphabet.length = 64 := by decide

theorem sextetOf_letter {sextet : Nat} (small : sextet < 64) :
    sextetOf (letter sextet) = some sextet := by
  have distinct : alphabet.Nodup := by decide +kernel
  have bound := small
  rw [← length_alphabet] at bound
  have index : alphabet.idxOf (letter sextet) = sextet := by
    rw [letter, List.getD_eq_getElem _ _ bound, distinct.idxOf_getElem]
  rw [sextetOf, index, if_pos small]

theorem letter_mem {sextet : Nat} (small : sextet < 64) :
    letter sextet ∈ alphabet := by
  rw [← length_alphabet] at small
  rw [letter, List.getD_eq_getElem _ _ small]
  exact List.getElem_mem small

theorem unpackBytes_lt (bytes : List UInt8) :
    ∀ sextet ∈ unpackBytes bytes, sextet < 64 := by
  induction bytes using unpackBytes.induct with
  | case1 => simp [unpackBytes]
  | case2 first =>
      have small := first.toNat_lt
      simp only [unpackBytes, List.forall_mem_cons]
      exact ⟨by omega, by omega, by simp⟩
  | case3 first second =>
      have small := first.toNat_lt
      have also := second.toNat_lt
      simp only [unpackBytes, List.forall_mem_cons]
      exact ⟨by omega, by omega, by omega, by simp⟩
  | case4 first second third rest inductionHypothesis =>
      have small := first.toNat_lt
      have also := second.toNat_lt
      have last := third.toNat_lt
      simp only [unpackBytes, List.forall_mem_cons]
      exact ⟨by omega, by omega, by omega, by omega, inductionHypothesis⟩

/-- A byte is determined by its value below 256. -/
theorem ofNat_eq {value : Nat} {byte : UInt8} (same : value = byte.toNat) :
    UInt8.ofNat value = byte := by
  rw [same, UInt8.ofNat_toNat]

theorem packBytes_unpackBytes (bytes : List UInt8) :
    packBytes (unpackBytes bytes) = some bytes := by
  induction bytes using unpackBytes.induct with
  | case1 => rfl
  | case2 first =>
      have small := first.toNat_lt
      rw [unpackBytes, packBytes, ofNat_eq (by omega : _ = first.toNat)]
  | case3 first second =>
      have small := first.toNat_lt
      have also := second.toNat_lt
      rw [unpackBytes, packBytes, ofNat_eq (by omega : _ = first.toNat),
        ofNat_eq (by omega : _ = second.toNat)]
  | case4 first second third rest inductionHypothesis =>
      have small := first.toNat_lt
      have also := second.toNat_lt
      have last := third.toNat_lt
      rw [unpackBytes, packBytes, inductionHypothesis, Option.map_some,
        ofNat_eq (by omega : _ = first.toNat),
        ofNat_eq (by omega : _ = second.toNat),
        ofNat_eq (by omega : _ = third.toNat)]

theorem sextets_letters {groups : List Nat}
    (small : ∀ sextet ∈ groups, sextet < 64) :
    sextets (groups.map letter) = some groups := by
  induction groups with
  | nil => rfl
  | cons sextet groups inductionHypothesis =>
      obtain ⟨first, rest⟩ := List.forall_mem_cons.mp small
      rw [List.map_cons, sextets, sextetOf_letter first,
        inductionHypothesis rest]
      rfl

theorem encode_mem (bytes : List UInt8) :
    ∀ char ∈ encode bytes, char ∈ alphabet := by
  intro char member
  obtain ⟨sextet, listed, rfl⟩ := List.mem_map.mp member
  exact letter_mem (unpackBytes_lt bytes sextet listed)

theorem decode_encode (bytes : List UInt8) :
    decode (encode bytes) = some bytes := by
  have unbroken : ∀ char ∈ alphabet, isLineBreak char = false :=
    List.all_iff_forall_prop.mp (by decide +kernel)
  have whole : (encode bytes).filter (fun char => !isLineBreak char) =
      encode bytes := by
    rw [List.filter_eq_self]
    intro char member
    simp [unbroken char (encode_mem bytes char member)]
  rw [decode, whole, encode, sextets_letters (unpackBytes_lt bytes),
    Option.bind_some, packBytes_unpackBytes]

end Base64
