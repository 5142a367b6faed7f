import Cryptogram.Bytes

/-!
# Padding to whole blocks

A message is filled up with octets that all tell their number, at least one.  Padding a message in
pieces lets whole blocks through and keeps back what does not fill a block.  Removing the padding
from a message in pieces keeps back the last whole block seen so far, since it may be the padding.
-/

namespace Cryptogram.Padding

/-- The octets that follow a message of the given length. -/
def trailer (size length : Nat) : Bytes :=
  let n := size - length % size
  List.replicate n n.toUInt8

def pad (size : Nat) (message : Bytes) : Bytes := message ++ trailer size message.length

/-- The whole blocks of what was kept back and a piece, and what is kept back after it. -/
def collect (size : Nat) (held piece : Bytes) : Bytes × Bytes :=
  let data := held ++ piece
  let cut := data.length / size * size
  (data.take cut, data.drop cut)

/-- The last block of a message without the padding, if it ends in one. -/
def unpadBlock? (size : Nat) (block : Bytes) : Option Bytes :=
  if block.length ≠ size then none
  else match block.getLast? with
    | none => none
    | some last =>
      let n := last.toNat
      if 1 ≤ n ∧ n ≤ size ∧ block.drop (size - n) = List.replicate n last then
        some (block.take (size - n))
      else none

/-- What is known not to be padding when `held` was kept back before a piece, and what is kept back
after it. -/
def release (size : Nat) (held piece : Bytes) : Bytes × Bytes :=
  let data := held ++ piece
  let cut := (data.length / size - 1) * size
  (data.take cut, data.drop cut)

end Cryptogram.Padding
