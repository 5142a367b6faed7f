import Cryptogram.Failure

/-!
# Numbers

A number is written as its count of bits, in two octets, and the octets that it needs (RFC 4880,
section 3.2).
-/

namespace Cryptogram.Mpi

/-- The number of bits that a number needs. -/
def bitLength (n : Nat) : Nat := if n = 0 then 0 else n.log2 + 1

/-- The least number of octets that hold so many bits. -/
def octetCount (bits : Nat) : Nat := (bits + 7) / 8

/-- The octets that a number needs. -/
def octets (n : Nat) : Bytes := Bytes.ofNat (octetCount (bitLength n)) n

/-- The octets of a number that is not negative and has fewer than 2^16 bits. -/
def write (value : Int) : Except Failure Bytes :=
  let bits := bitLength value.natAbs
  if 65535 < bits then .error .fieldOverflow
  else if value < 0 then .error .negativeNumber
  else .ok (Bytes.ofNat 2 bits ++ octets value.natAbs)

/-- The octets of the number at the front of `data`, and what follows them. -/
def read (data : Bytes) : Except Failure (Bytes × Bytes) :=
  match data with
  | a :: b :: rest =>
    let size := octetCount (a.toNat * 256 + b.toNat)
    if rest.length < size then .error (.mpiCut size rest.length)
    else .ok (rest.take size, rest.drop size)
  | _ => .error .mpiShort

/-- The octets of the number at an offset of `data`, and the offset of what follows them. -/
def readAt (data : Bytes) (offset : Nat) : Except Failure (Bytes × Nat) := do
  let (octets, rest) ← read (data.drop offset)
  return (octets, data.length - rest.length)

end Cryptogram.Mpi
