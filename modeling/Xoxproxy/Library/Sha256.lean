import Mathlib.Algebra.Group.Nat.Defs
import Mathlib.Data.List.Basic

/-!
# SHA-256

The hash function of FIPS 180-4, on lists of bytes, and the lower-case
hexadecimal form in which digests are written.
-/

namespace Sha256

/-- The round constants. -/
def roundConstants : List UInt32 :=
  [0x428a2f98, 0x71374491, 0xb5c0fbcf, 0xe9b5dba5, 0x3956c25b,
    0x59f111f1, 0x923f82a4, 0xab1c5ed5, 0xd807aa98, 0x12835b01,
    0x243185be, 0x550c7dc3, 0x72be5d74, 0x80deb1fe, 0x9bdc06a7,
    0xc19bf174, 0xe49b69c1, 0xefbe4786, 0x0fc19dc6, 0x240ca1cc,
    0x2de92c6f, 0x4a7484aa, 0x5cb0a9dc, 0x76f988da, 0x983e5152,
    0xa831c66d, 0xb00327c8, 0xbf597fc7, 0xc6e00bf3, 0xd5a79147,
    0x06ca6351, 0x14292967, 0x27b70a85, 0x2e1b2138, 0x4d2c6dfc,
    0x53380d13, 0x650a7354, 0x766a0abb, 0x81c2c92e, 0x92722c85,
    0xa2bfe8a1, 0xa81a664b, 0xc24b8b70, 0xc76c51a3, 0xd192e819,
    0xd6990624, 0xf40e3585, 0x106aa070, 0x19a4c116, 0x1e376c08,
    0x2748774c, 0x34b0bcb5, 0x391c0cb3, 0x4ed8aa4a, 0x5b9cca4f,
    0x682e6ff3, 0x748f82ee, 0x78a5636f, 0x84c87814, 0x8cc70208,
    0x90befffa, 0xa4506ceb, 0xbef9a3f7, 0xc67178f2]

/-- The eight working variables. -/
structure Working where
  a : UInt32
  b : UInt32
  c : UInt32
  d : UInt32
  e : UInt32
  f : UInt32
  g : UInt32
  h : UInt32
  deriving DecidableEq

def Working.initial : Working :=
  ⟨0x6a09e667, 0xbb67ae85, 0x3c6ef372, 0xa54ff53a,
    0x510e527f, 0x9b05688c, 0x1f83d9ab, 0x5be0cd19⟩

def Working.words (state : Working) : List UInt32 :=
  [state.a, state.b, state.c, state.d, state.e, state.f, state.g,
    state.h]

def Working.add (left right : Working) : Working :=
  ⟨left.a + right.a, left.b + right.b, left.c + right.c,
    left.d + right.d, left.e + right.e, left.f + right.f,
    left.g + right.g, left.h + right.h⟩

def rotateRight (word amount : UInt32) : UInt32 :=
  (word >>> amount) ||| (word <<< (32 - amount))

/-- The message schedule, newest word first. -/
def extend : Nat → List UInt32 → List UInt32
  | 0, words => words
  | remaining + 1, words =>
      let two := words.getD 1 0
      let seven := words.getD 6 0
      let fifteen := words.getD 14 0
      let sixteen := words.getD 15 0
      let small0 :=
        rotateRight fifteen 7 ^^^ rotateRight fifteen 18 ^^^
          (fifteen >>> 3)
      let small1 :=
        rotateRight two 17 ^^^ rotateRight two 19 ^^^ (two >>> 10)
      extend remaining ((sixteen + small0 + seven + small1) :: words)

def round (state : Working) (constant word : UInt32) : Working :=
  let big1 :=
    rotateRight state.e 6 ^^^ rotateRight state.e 11 ^^^
      rotateRight state.e 25
  let choice := (state.e &&& state.f) ^^^ (~~~state.e &&& state.g)
  let first := state.h + big1 + choice + constant + word
  let big0 :=
    rotateRight state.a 2 ^^^ rotateRight state.a 13 ^^^
      rotateRight state.a 22
  let majority :=
    (state.a &&& state.b) ^^^ (state.a &&& state.c) ^^^
      (state.b &&& state.c)
  ⟨first + (big0 + majority), state.a, state.b, state.c,
    state.d + first, state.e, state.f, state.g⟩

def compress (state : Working) (block : List UInt32) : Working :=
  let schedule := (extend 48 block.reverse).reverse
  state.add
    ((roundConstants.zip schedule).foldl
      (fun working pair => round working pair.1 pair.2) state)

/-- Four bytes, most significant first. -/
def wordOfBytes (bytes : List UInt8) : UInt32 :=
  bytes.foldl (fun word byte => (word <<< 8) ||| byte.toUInt32) 0

def bytesOfWord (word : UInt32) : List UInt8 :=
  [(word >>> 24).toUInt8, (word >>> 16).toUInt8, (word >>> 8).toUInt8,
    word.toUInt8]

def bigEndian64 (value : Nat) : List UInt8 :=
  (List.range 8).reverse.map fun index =>
    UInt8.ofNat (value / 256 ^ index)

/-- A one bit, zeros and the length in bits. -/
def pad (message : List UInt8) : List UInt8 :=
  message ++ 0x80 ::
    List.replicate ((119 - message.length % 64) % 64) 0 ++
      bigEndian64 (8 * message.length)

def words (bytes : List UInt8) : List UInt32 :=
  (bytes.toChunks 4).map wordOfBytes

/-- The 32 bytes of the digest. -/
def sum256 (message : List UInt8) : List UInt8 :=
  (((words (pad message)).toChunks 16).foldl compress
    Working.initial).words.flatMap bytesOfWord

def hexByte (byte : UInt8) : List Char :=
  [Nat.digitChar (byte.toNat / 16), Nat.digitChar (byte.toNat % 16)]

/-- Two lower-case hexadecimal digits for each byte. -/
def hexEncode (bytes : List UInt8) : String :=
  String.ofList (bytes.flatMap hexByte)

theorem hexByte_injective {first second : UInt8}
    (same : hexByte first = hexByte second) : first = second := by
  obtain ⟨high, low⟩ := List.cons.inj same
  have digits : ∀ left < 16, ∀ right < 16,
      Nat.digitChar left = Nat.digitChar right → left = right := by
    decide
  have firstBound := first.toNat_lt
  have secondBound := second.toNat_lt
  have upper := digits _ (by omega) _ (by omega) high
  have lower := digits _ (by omega) _ (by omega) (List.cons.inj low).1
  apply UInt8.toNat_inj.mp
  omega

theorem hexEncode_injective {first second : List UInt8}
    (same : hexEncode first = hexEncode second) : first = second := by
  have texts : first.flatMap hexByte = second.flatMap hexByte :=
    String.ofList_injective same
  clear same
  induction first generalizing second with
  | nil =>
      cases second with
      | nil => rfl
      | cons byte rest => cases texts
  | cons byte rest inductionHypothesis =>
      cases second with
      | nil => cases texts
      | cons other others =>
          rw [List.flatMap_cons, List.flatMap_cons] at texts
          obtain ⟨heads, tails⟩ := List.append_inj texts rfl
          rw [hexByte_injective heads, inductionHypothesis tails]

example :
    hexEncode (sum256 "abc".toUTF8.toList) =
      "ba7816bf8f01cfea414140de5dae2223" ++
        "b00361a396177a9cb410ff61f20015ad" := by
  decide +kernel

end Sha256
