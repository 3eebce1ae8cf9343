import Mathlib.Algebra.Group.Nat.Defs
import Mathlib.Data.List.Basic

/-!
# BLAKE2b

The unkeyed hash function BLAKE2b with a digest of 16 bytes, on lists of
bytes.
-/

namespace Blake2

/-- The initialization vector, the fractions of the square roots of the
first eight primes. -/
def initial : List UInt64 :=
  [0x6a09e667f3bcc908, 0xbb67ae8584caa73b, 0x3c6ef372fe94f82b,
    0xa54ff53a5f1d36f1, 0x510e527fade682d1, 0x9b05688c2b3e6c1f,
    0x1f83d9abfb41bd6b, 0x5be0cd19137e2179]

/-- The order in which each round takes the words of a block. -/
def schedule : List (List Nat) :=
  [[0, 1, 2, 3, 4, 5, 6, 7, 8, 9, 10, 11, 12, 13, 14, 15],
    [14, 10, 4, 8, 9, 15, 13, 6, 1, 12, 0, 2, 11, 7, 5, 3],
    [11, 8, 12, 0, 5, 2, 15, 13, 10, 14, 3, 6, 7, 1, 9, 4],
    [7, 9, 3, 1, 13, 12, 11, 14, 2, 6, 5, 10, 4, 0, 15, 8],
    [9, 0, 5, 7, 2, 4, 10, 15, 14, 1, 11, 12, 6, 8, 3, 13],
    [2, 12, 6, 10, 0, 11, 8, 3, 4, 13, 7, 5, 15, 14, 1, 9],
    [12, 5, 1, 15, 14, 13, 4, 10, 0, 7, 6, 3, 9, 2, 8, 11],
    [13, 11, 7, 14, 12, 1, 3, 9, 5, 0, 15, 4, 8, 6, 2, 10],
    [6, 15, 14, 9, 11, 3, 0, 8, 12, 2, 13, 7, 1, 4, 10, 5],
    [10, 2, 8, 4, 7, 6, 1, 5, 15, 11, 9, 14, 3, 12, 13, 0],
    [0, 1, 2, 3, 4, 5, 6, 7, 8, 9, 10, 11, 12, 13, 14, 15],
    [14, 10, 4, 8, 9, 15, 13, 6, 1, 12, 0, 2, 11, 7, 5, 3]]

/-- The columns and the diagonals of the working variables. -/
def lanes : List (Nat × Nat × Nat × Nat) :=
  [(0, 4, 8, 12), (1, 5, 9, 13), (2, 6, 10, 14), (3, 7, 11, 15),
    (0, 5, 10, 15), (1, 6, 11, 12), (2, 7, 8, 13), (3, 4, 9, 14)]

def rotateRight (word amount : UInt64) : UInt64 :=
  (word >>> amount) ||| (word <<< (64 - amount))

/-- Mix two words of a block into four working variables. -/
def mix (working : List UInt64) (lane : Nat × Nat × Nat × Nat)
    (first second : UInt64) : List UInt64 :=
  let (a, b, c, d) := lane
  let a1 := working.getD a 0 + working.getD b 0 + first
  let d1 := rotateRight (working.getD d 0 ^^^ a1) 32
  let c1 := working.getD c 0 + d1
  let b1 := rotateRight (working.getD b 0 ^^^ c1) 24
  let a2 := a1 + b1 + second
  let d2 := rotateRight (d1 ^^^ a2) 16
  let c2 := c1 + d2
  let b2 := rotateRight (b1 ^^^ c2) 63
  (((working.set a a2).set b b2).set c c2).set d d2

/-- A round takes two words of the block for every lane. -/
def round (block working : List UInt64) (order : List Nat) :
    List UInt64 :=
  (lanes.zip (order.toChunks 2)).foldl (fun working step =>
    mix working step.1 (block.getD (step.2.getD 0 0) 0)
      (block.getD (step.2.getD 1 0) 0)) working

/-- Compress a block, with the number of bytes up to its end. -/
def compress (state block : List UInt64) (bytes : Nat) (last : Bool) :
    List UInt64 :=
  let counter := UInt64.ofNat bytes
  let mask : UInt64 := if last then 0xffffffffffffffff else 0
  let offset := [0, 0, 0, 0, counter, 0, mask, 0]
  let working := state ++ List.zipWith (· ^^^ ·) initial offset
  let mixed := schedule.foldl (round block) working
  List.zipWith (· ^^^ ·) state
    (List.zipWith (· ^^^ ·) (mixed.take 8) (mixed.drop 8))

/-- Eight bytes, least significant first. -/
def wordOfBytes (bytes : List UInt8) : UInt64 :=
  bytes.foldr (fun byte word => (word <<< 8) ||| byte.toUInt64) 0

def bytesOfWord (word : UInt64) : List UInt8 :=
  [word.toUInt8, (word >>> 8).toUInt8, (word >>> 16).toUInt8,
    (word >>> 24).toUInt8, (word >>> 32).toUInt8, (word >>> 40).toUInt8,
    (word >>> 48).toUInt8, (word >>> 56).toUInt8]

/-- The words of a block, which is filled up with zeros. -/
def blockWords (block : List UInt8) : List UInt64 :=
  ((block ++ List.replicate (128 - block.length) 0).toChunks 8).map
    wordOfBytes

/-- The state behind the blocks; the last one counts its own bytes. -/
def absorb (state : List UInt64) (bytes : Nat) :
    List (List UInt8) → List UInt64
  | [] => state
  | [block] => compress state (blockWords block) (bytes + block.length) true
  | block :: rest =>
      absorb (compress state (blockWords block) (bytes + 128) false)
        (bytes + 128) rest

/-- The parameters of an unkeyed digest of 16 bytes are in the first
word. -/
def start : List UInt64 :=
  List.zipWith (· ^^^ ·) initial [0x01010010, 0, 0, 0, 0, 0, 0, 0]

/-- The 16 bytes of the digest. -/
def sum128 (message : List UInt8) : List UInt8 :=
  let blocks := if message = [] then [[]] else message.toChunks 128
  let state := absorb start 0 blocks
  bytesOfWord (state.getD 0 0) ++ bytesOfWord (state.getD 1 0)

theorem length_sum128 (message : List UInt8) :
    (sum128 message).length = 16 := rfl

example :
    sum128 "abc".toUTF8.toList =
      [0xcf, 0x4a, 0xb7, 0x91, 0xc6, 0x2b, 0x8d, 0x2b,
        0x21, 0x09, 0xc9, 0x02, 0x75, 0x28, 0x78, 0x16] := by
  decide +kernel

end Blake2
