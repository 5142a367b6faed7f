import Cryptogram.BlockCipher.Basic

/-!
# Counter mode

The key stream is the sequence of the images of numbered blocks.  A piece of a message that begins
at octet `position` is combined with the key stream from that octet on, so encryption and decryption
are the same and a message may be given in pieces.
-/

namespace Cryptogram.Counter

/-- The `length` octets of the key stream from `position` on; `counter` numbers the blocks. -/
def keystream (f : BlockFunction) (counter : Nat → Bytes) (position length : Nat) : Bytes :=
  let first := position / f.size
  let last := (position + length + f.size - 1) / f.size
  (((List.range' first (last - first)).flatMap fun i => f.apply (counter i)).drop
    (position % f.size)).take length

/-- A piece of a message combined with the key stream from `position` on. -/
def apply (f : BlockFunction) (counter : Nat → Bytes) (position : Nat) (piece : Bytes) : Bytes :=
  Bytes.xor piece (keystream f counter position piece.length)

/-- The counter that counts over the whole block, from a first block on. -/
def wide (first : Bytes) (i : Nat) : Bytes := Bytes.ofNat first.length (Bytes.toNat first + i)

/-- The counter that counts over the last four octets of a block, from a first block on. -/
def narrow (first : Bytes) (i : Nat) : Bytes :=
  first.take (first.length - 4) ++
    Bytes.ofNat 4 (Bytes.toNat (first.drop (first.length - 4)) + i)

end Cryptogram.Counter
