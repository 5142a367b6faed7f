import Cryptogram.BlockCipher.Basic

/-!
# IDEA

Eight rounds that mix exclusive or, addition modulo `2 ^ 16` and multiplication modulo
`2 ^ 16 + 1`.
-/

namespace Cryptogram.Idea

/-- Multiplication modulo `2 ^ 16 + 1`, where the word zero stands for `2 ^ 16`. -/
def mul (x y : UInt16) : UInt16 :=
  let lift := fun w : UInt16 => if w = 0 then 65536 else w.toNat
  (lift x * lift y % 65537).toUInt16

/-- The 52 subkeys: the words of the key, which rotates by 25 bits after every eight. -/
def expand (key : Bytes) : Array UInt16 :=
  let k := Bytes.toNat key
  Array.ofFn fun i : Fin 52 =>
    let turn := 25 * (i.val / 8) % 128
    let rotated := (k <<< turn ||| k >>> (128 - turn)) % (1 <<< 128)
    (rotated >>> (112 - 16 * (i.val % 8))).toUInt16

/-- One round on the four words of a block. -/
def round (k : Array UInt16) (s : UInt16 × UInt16 × UInt16 × UInt16) (i : Nat) :
    UInt16 × UInt16 × UInt16 × UInt16 :=
  let key := fun j => k.getD (6 * i + j) 0
  let (a, b, c, d) := s
  let a := mul a (key 0)
  let b := b + key 1
  let c := c + key 2
  let d := mul d (key 3)
  let t := mul (key 4) (a ^^^ c)
  let u := mul (key 5) (t + (b ^^^ d))
  let t := t + u
  (a ^^^ u, c ^^^ u, b ^^^ t, d ^^^ t)

/-- Encrypts a block with the expanded key. -/
def encryptBlock (k : Array UInt16) (block : Bytes) : Bytes :=
  let word := fun i =>
    ((block.getD (2 * i) 0).toUInt16 <<< 8) ||| (block.getD (2 * i + 1) 0).toUInt16
  let octets := fun w : UInt16 => [(w >>> 8).toUInt8, w.toUInt8]
  let (a, b, c, d) := (List.range 8).foldl (round k) (word 0, word 1, word 2, word 3)
  octets (mul a (k.getD 48 0)) ++ octets (c + k.getD 49 0) ++ octets (b + k.getD 50 0) ++
    octets (mul d (k.getD 51 0))

end Cryptogram.Idea

namespace Cryptogram

/-- IDEA under a key of 16 octets. -/
def BlockFunction.idea (key : Bytes) : BlockFunction :=
  let k := Idea.expand key
  ⟨8, Idea.encryptBlock k, fun _ => rfl⟩

end Cryptogram
