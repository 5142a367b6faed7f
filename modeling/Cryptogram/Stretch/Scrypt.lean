import Cryptogram.Digest.Sha256
import Cryptogram.Stretch.Pbkdf2

/-!
# Scrypt

Memory-hard key stretching: every lane is mixed with earlier states of itself.
-/

namespace Cryptogram.Scrypt

/-- The word positions of the eight quarter rounds of a double round. -/
def quads : List (Nat × Nat × Nat × Nat) :=
  [(0, 4, 8, 12), (5, 9, 13, 1), (10, 14, 2, 6), (15, 3, 7, 11),
    (0, 1, 2, 3), (5, 6, 7, 4), (10, 11, 8, 9), (15, 12, 13, 14)]

/-- One quarter round of Salsa20. -/
def quarter (x : Array UInt32) (q : Nat × Nat × Nat × Nat) : Array UInt32 :=
  let (a, b, c, d) := q
  let xa := x.getD a 0
  let xd := x.getD d 0
  let xb := x.getD b 0 ^^^ Word.rotl32 (xa + xd) 7
  let xc := x.getD c 0 ^^^ Word.rotl32 (xb + xa) 9
  let xd := xd ^^^ Word.rotl32 (xc + xb) 13
  let xa := xa ^^^ Word.rotl32 (xd + xc) 18
  (((x.setIfInBounds a xa).setIfInBounds b xb).setIfInBounds c xc).setIfInBounds d xd

/-- Salsa20 with eight rounds on sixteen words. -/
def salsa (x : Array UInt32) : Array UInt32 :=
  let y := (List.range 4).foldl (fun y _ => quads.foldl quarter y) x
  Array.zipWith (· + ·) x y

/-- Sixteen words from position `start`. -/
def wordsAt (b : Array UInt32) (start : Nat) : Array UInt32 := b.extract start (start + 16)

/-- Mixes the `2 * r` groups of sixteen words; the even groups come first in the result. -/
def mixBlock (r : Nat) (b : Array UInt32) : Array UInt32 :=
  let last := wordsAt b (16 * (2 * r - 1))
  let (_, even, odd) := (List.range (2 * r)).foldl
    (fun (x, even, odd) i =>
      let x := salsa (Array.zipWith (· ^^^ ·) x (wordsAt b (16 * i)))
      if i % 2 = 0 then (x, even ++ x, odd) else (x, even, odd ++ x))
    (last, #[], #[])
  even ++ odd

/-- The number in the first two words of the last group of sixteen. -/
def integerify (r : Nat) (b : Array UInt32) : Nat :=
  let at_ := 16 * (2 * r - 1)
  (b.getD at_ 0).toNat + (b.getD (at_ + 1) 0).toNat * 0x100000000

/-- Mixes one lane through `n` remembered states. -/
def mixLane (r n : Nat) (lane : Array UInt32) : Array UInt32 :=
  let (x, states) := (List.range n).foldl
    (fun (x, states) _ => (mixBlock r x, states.push x)) (lane, (#[] : Array (Array UInt32)))
  (List.range n).foldl
    (fun x _ =>
      let past := states.getD (integerify r x % n) #[]
      mixBlock r (Array.zipWith (· ^^^ ·) x past))
    x

/-- The first `length` octets derived with cost `n`, block factor `r` and `p` lanes. -/
def derive (password salt : Bytes) (n r p length : Nat) : Bytes :=
  let b := Pbkdf2.derive .sha256 password salt 1 (p * 128 * r)
  let mixed := (b.blocks (128 * r)).flatMap fun lane =>
    (mixLane r n (Word.wordsLe32 lane).toArray).toList.flatMap Word.le32
  Pbkdf2.derive .sha256 password mixed 1 length

end Cryptogram.Scrypt
