import Cryptogram.BlockCipher.Basic

/-!
# Triple DES

DES three times, forwards, backwards and forwards.  A key of 8 octets is used three times, which is
single DES; a key of 16 octets gives its first half a second use.
-/

namespace Cryptogram.TripleDes

/-- Collects the bits at the given positions, counted from 1 at the most significant of `width`. -/
def gather (width : UInt64) (positions : List UInt64) (x : UInt64) : UInt64 :=
  positions.foldl (fun out p => (out <<< 1) ||| ((x >>> (width - p)) &&& 1)) 0

def initialPermutation : List UInt64 :=
  [58, 50, 42, 34, 26, 18, 10, 2, 60, 52, 44, 36, 28, 20, 12, 4,
    62, 54, 46, 38, 30, 22, 14, 6, 64, 56, 48, 40, 32, 24, 16, 8,
    57, 49, 41, 33, 25, 17, 9, 1, 59, 51, 43, 35, 27, 19, 11, 3,
    61, 53, 45, 37, 29, 21, 13, 5, 63, 55, 47, 39, 31, 23, 15, 7]

def finalPermutation : List UInt64 :=
  [40, 8, 48, 16, 56, 24, 64, 32, 39, 7, 47, 15, 55, 23, 63, 31,
    38, 6, 46, 14, 54, 22, 62, 30, 37, 5, 45, 13, 53, 21, 61, 29,
    36, 4, 44, 12, 52, 20, 60, 28, 35, 3, 43, 11, 51, 19, 59, 27,
    34, 2, 42, 10, 50, 18, 58, 26, 33, 1, 41, 9, 49, 17, 57, 25]

/-- The permutation of the substituted half. -/
def halfPermutation : List UInt64 :=
  [16, 7, 20, 21, 29, 12, 28, 17, 1, 15, 23, 26, 5, 18, 31, 10,
    2, 8, 24, 14, 32, 27, 3, 9, 19, 13, 30, 6, 22, 11, 4, 25]

/-- The key bits that enter the schedule. -/
def keyChoice : List UInt64 :=
  [57, 49, 41, 33, 25, 17, 9, 1, 58, 50, 42, 34, 26, 18,
    10, 2, 59, 51, 43, 35, 27, 19, 11, 3, 60, 52, 44, 36,
    63, 55, 47, 39, 31, 23, 15, 7, 62, 54, 46, 38, 30, 22,
    14, 6, 61, 53, 45, 37, 29, 21, 13, 5, 28, 20, 12, 4]

/-- The schedule bits that form a round key. -/
def roundChoice : List UInt64 :=
  [14, 17, 11, 24, 1, 5, 3, 28, 15, 6, 21, 10,
    23, 19, 12, 4, 26, 8, 16, 7, 27, 20, 13, 2,
    41, 52, 31, 37, 47, 55, 30, 40, 51, 45, 33, 48,
    44, 49, 39, 56, 34, 53, 46, 42, 50, 36, 29, 32]

/-- How far both halves of the key rotate before each round. -/
def keyRotations : List UInt64 := [1, 1, 2, 2, 2, 2, 2, 2, 1, 2, 2, 2, 2, 2, 2, 1]

/-- The eight substitution boxes, four rows of sixteen each. -/
def boxes : Array UInt64 :=
  #[14, 4, 13, 1, 2, 15, 11, 8, 3, 10, 6, 12, 5, 9, 0, 7,
    0, 15, 7, 4, 14, 2, 13, 1, 10, 6, 12, 11, 9, 5, 3, 8,
    4, 1, 14, 8, 13, 6, 2, 11, 15, 12, 9, 7, 3, 10, 5, 0,
    15, 12, 8, 2, 4, 9, 1, 7, 5, 11, 3, 14, 10, 0, 6, 13,
    15, 1, 8, 14, 6, 11, 3, 4, 9, 7, 2, 13, 12, 0, 5, 10,
    3, 13, 4, 7, 15, 2, 8, 14, 12, 0, 1, 10, 6, 9, 11, 5,
    0, 14, 7, 11, 10, 4, 13, 1, 5, 8, 12, 6, 9, 3, 2, 15,
    13, 8, 10, 1, 3, 15, 4, 2, 11, 6, 7, 12, 0, 5, 14, 9,
    10, 0, 9, 14, 6, 3, 15, 5, 1, 13, 12, 7, 11, 4, 2, 8,
    13, 7, 0, 9, 3, 4, 6, 10, 2, 8, 5, 14, 12, 11, 15, 1,
    13, 6, 4, 9, 8, 15, 3, 0, 11, 1, 2, 12, 5, 10, 14, 7,
    1, 10, 13, 0, 6, 9, 8, 7, 4, 15, 14, 3, 11, 5, 2, 12,
    7, 13, 14, 3, 0, 6, 9, 10, 1, 2, 8, 5, 11, 12, 4, 15,
    13, 8, 11, 5, 6, 15, 0, 3, 4, 7, 2, 12, 1, 10, 14, 9,
    10, 6, 9, 0, 12, 11, 7, 13, 15, 1, 3, 14, 5, 2, 8, 4,
    3, 15, 0, 6, 10, 1, 13, 8, 9, 4, 5, 11, 12, 7, 2, 14,
    2, 12, 4, 1, 7, 10, 11, 6, 8, 5, 3, 15, 13, 0, 14, 9,
    14, 11, 2, 12, 4, 7, 13, 1, 5, 0, 15, 10, 3, 9, 8, 6,
    4, 2, 1, 11, 10, 13, 7, 8, 15, 9, 12, 5, 6, 3, 0, 14,
    11, 8, 12, 7, 1, 14, 2, 13, 6, 15, 0, 9, 10, 4, 5, 3,
    12, 1, 10, 15, 9, 2, 6, 8, 0, 13, 3, 4, 14, 7, 5, 11,
    10, 15, 4, 2, 7, 12, 9, 5, 6, 1, 13, 14, 0, 11, 3, 8,
    9, 14, 15, 5, 2, 8, 12, 3, 7, 0, 4, 10, 1, 13, 11, 6,
    4, 3, 2, 12, 9, 5, 15, 10, 11, 14, 1, 7, 6, 0, 8, 13,
    4, 11, 2, 14, 15, 0, 8, 13, 3, 12, 9, 7, 5, 10, 6, 1,
    13, 0, 11, 7, 4, 9, 1, 10, 14, 3, 5, 12, 2, 15, 8, 6,
    1, 4, 11, 13, 12, 3, 7, 14, 10, 15, 6, 8, 0, 5, 9, 2,
    6, 11, 13, 8, 1, 4, 10, 7, 9, 5, 0, 15, 14, 2, 3, 12,
    13, 2, 8, 4, 6, 15, 11, 1, 10, 9, 3, 14, 5, 0, 12, 7,
    1, 15, 13, 8, 10, 3, 7, 4, 12, 5, 6, 11, 0, 14, 9, 2,
    7, 11, 4, 1, 9, 12, 14, 2, 0, 6, 10, 13, 15, 3, 5, 8,
    2, 1, 14, 7, 4, 10, 8, 13, 15, 12, 9, 0, 3, 5, 6, 11]

/-- The permuted output of every box for every six-bit input, 64 entries to a box. -/
def spread : Array UInt32 :=
  Array.ofFn fun k : Fin 512 =>
    let box := k.val / 64
    let v := k.val % 64
    let row := v / 32 * 2 + v % 2
    let out := boxes.getD (64 * box + 16 * row + v / 2 % 16) 0
    (gather 32 halfPermutation (out <<< (28 - 4 * box).toUInt64)).toUInt32

/-- Rotation of 28 bits to the left. -/
def rotl28 (x n : UInt64) : UInt64 := ((x <<< n) ||| (x >>> (28 - n))) &&& 0xfffffff

/-- The sixteen round keys of 48 bits of an 8-octet key. -/
def roundKeys (key : Bytes) : List UInt64 :=
  let chosen := gather 64 keyChoice (Word.be64At key 0)
  (keyRotations.foldl
    (fun (c, d, out) n =>
      let c := rotl28 c n
      let d := rotl28 d n
      (c, d, gather 56 roundChoice ((c <<< 28) ||| d) :: out))
    (chosen >>> 28, chosen &&& 0xfffffff, ([] : List UInt64))).2.2.reverse

/-- The round function: each box takes six overlapping bits of the half, mixed with the key. -/
def mangle (half : UInt32) (key : UInt64) : UInt32 :=
  (List.range 8).foldl
    (fun out j =>
      let six := (Word.rotl32 half ((4 * j + 31) % 32).toUInt32 >>> 26).toUInt64
      let v := six ^^^ ((key >>> (42 - 6 * j).toUInt64) &&& 63)
      out ^^^ spread.getD (64 * j + v.toNat) 0)
    0

/-- One pass of DES over a block with the round keys in the order of use. -/
def pass (keys : List UInt64) (x : UInt64) : UInt64 :=
  let y := gather 64 initialPermutation x
  let (l, r) := keys.foldl (fun (l, r) k => (r, l ^^^ mangle r k))
    ((y >>> 32).toUInt32, y.toUInt32)
  gather 64 finalPermutation ((r.toUInt64 <<< 32) ||| l.toUInt64)

/-- The key as three DES keys. -/
def expandKey (key : Bytes) : Bytes × Bytes × Bytes :=
  if key.length = 8 then (key, key, key)
  else if key.length = 16 then (key.take 8, key.drop 8, key.take 8)
  else (key.take 8, (key.drop 8).take 8, key.drop 16)

end Cryptogram.TripleDes

namespace Cryptogram

/-- Triple DES under a key of 8, 16 or 24 octets. -/
def BlockCipher.tripleDes (key : Bytes) : BlockCipher :=
  let (k1, k2, k3) := TripleDes.expandKey key
  let s1 := TripleDes.roundKeys k1
  let s2 := TripleDes.roundKeys k2
  let s3 := TripleDes.roundKeys k3
  let r1 := s1.reverse
  let r2 := s2.reverse
  let r3 := s3.reverse
  { size := 8
    encrypt := fun block => Word.be64 (TripleDes.pass s3 (TripleDes.pass r2
      (TripleDes.pass s1 (Word.be64At block 0))))
    decrypt := fun block => Word.be64 (TripleDes.pass r1 (TripleDes.pass s2
      (TripleDes.pass r3 (Word.be64At block 0))))
    length_encrypt := fun _ => rfl
    length_decrypt := fun _ => rfl }

end Cryptogram
