import Cryptogram.Word

/-!
# BLAKE2b

The unkeyed hash of 1 to 64 octets.  The final block is marked instead of padded with a length.
-/

namespace Cryptogram.Blake2b

/-- The first 64 bits of the fractional parts of the square roots of the first eight primes. -/
def initial : Array UInt64 :=
  #[0x6a09e667f3bcc908, 0xbb67ae8584caa73b, 0x3c6ef372fe94f82b, 0xa54ff53a5f1d36f1,
    0x510e527fade682d1, 0x9b05688c2b3e6c1f, 0x1f83d9abfb41bd6b, 0x5be0cd19137e2179]

/-- The order of the message words in the ten distinct rounds. -/
def order : Array (Array Nat) :=
  #[#[0, 1, 2, 3, 4, 5, 6, 7, 8, 9, 10, 11, 12, 13, 14, 15],
    #[14, 10, 4, 8, 9, 15, 13, 6, 1, 12, 0, 2, 11, 7, 5, 3],
    #[11, 8, 12, 0, 5, 2, 15, 13, 10, 14, 3, 6, 7, 1, 9, 4],
    #[7, 9, 3, 1, 13, 12, 11, 14, 2, 6, 5, 10, 4, 0, 15, 8],
    #[9, 0, 5, 7, 2, 4, 10, 15, 14, 1, 11, 12, 6, 8, 3, 13],
    #[2, 12, 6, 10, 0, 11, 8, 3, 4, 13, 7, 5, 15, 14, 1, 9],
    #[12, 5, 1, 15, 14, 13, 4, 10, 0, 7, 6, 3, 9, 2, 8, 11],
    #[13, 11, 7, 14, 12, 1, 3, 9, 5, 0, 15, 4, 8, 6, 2, 10],
    #[6, 15, 14, 9, 11, 3, 0, 8, 12, 2, 13, 7, 1, 4, 10, 5],
    #[10, 2, 8, 4, 7, 6, 1, 5, 15, 11, 9, 14, 3, 12, 13, 0]]

/-- The word positions that the eight mixings of a round work on. -/
def quads : List (Nat × Nat × Nat × Nat) :=
  [(0, 4, 8, 12), (1, 5, 9, 13), (2, 6, 10, 14), (3, 7, 11, 15),
    (0, 5, 10, 15), (1, 6, 11, 12), (2, 7, 8, 13), (3, 4, 9, 14)]

/-- Mixes two message words into four words of the working vector. -/
def mix (v : Array UInt64) (a b c d : Nat) (x y : UInt64) : Array UInt64 :=
  let va := v.getD a 0 + v.getD b 0 + x
  let vd := Word.rotr64 (v.getD d 0 ^^^ va) 32
  let vc := v.getD c 0 + vd
  let vb := Word.rotr64 (v.getD b 0 ^^^ vc) 24
  let va := va + vb + y
  let vd := Word.rotr64 (vd ^^^ va) 16
  let vc := vc + vd
  let vb := Word.rotr64 (vb ^^^ vc) 63
  (((v.setIfInBounds a va).setIfInBounds b vb).setIfInBounds c vc).setIfInBounds d vd

/-- One of the twelve rounds. -/
def round (words : Array UInt64) (v : Array UInt64) (r : Nat) : Array UInt64 :=
  let picked := order.getD (r % 10) #[]
  quads.zipIdx.foldl
    (fun v (q, i) =>
      mix v q.1 q.2.1 q.2.2.1 q.2.2.2 (words.getD (picked.getD (2 * i) 0) 0)
        (words.getD (picked.getD (2 * i + 1) 0) 0)) v

/-- The chaining words after a block, given how many octets the message has up to its end. -/
def compress (h : Array UInt64) (block : Bytes) (count : Nat) (final : Bool) : Array UInt64 :=
  let words := (Word.wordsLe64 (block ++ Bytes.zeros (128 - block.length))).toArray
  let v := h ++ initial
  let v := v.modify 12 (· ^^^ count.toUInt64)
  let v := v.modify 13 (· ^^^ (count >>> 64).toUInt64)
  let v := if final then v.modify 14 (~~~·) else v
  let v := (List.range 12).foldl (round words) v
  Array.ofFn fun i : Fin 8 => h.getD i 0 ^^^ v.getD i 0 ^^^ v.getD (i + 8) 0

/-- The chaining words after all blocks; `count` octets came before. -/
def absorb (h : Array UInt64) (count : Nat) : List Bytes → Array UInt64
  | [] => h
  | [last] => compress h last (count + last.length) true
  | block :: rest => absorb (compress h block (count + 128) false) (count + 128) rest

/-- The BLAKE2b hash of `size` octets. -/
def hash (size : Nat) (message : Bytes) : Bytes :=
  let h := initial.modify 0 (· ^^^ (0x01010000 ^^^ size.toUInt64))
  let all := if message = [] then [[]] else message.blocks 128
  ((absorb h 0 all).toList.flatMap Word.le64).take size

end Cryptogram.Blake2b
