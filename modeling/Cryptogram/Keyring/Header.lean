import Cryptogram.OpenPgp.Packet

/-!
# Headers in keyrings

Keyrings are read leniently: where the octets of a length or of a body are cut, what is there counts.
Only a header without any length octet is refused.
-/

namespace Cryptogram.Keyring

/-- How many octets a field has; a field of negative size ends so many octets before the end. -/
def extent (size : Int) (data : Bytes) : Nat :=
  if 0 ≤ size then size.toNat else data.length - (-size).toNat

def field (size : Int) (data : Bytes) : Bytes := data.take (extent size data)

def behind (size : Int) (data : Bytes) : Bytes := data.drop (extent size data)

/-- The length octets at the front of `data`, as far as they are there, and what follows them. -/
def readExtent? (data : Bytes) : Option (Packet.Extent × Bytes) :=
  match data with
  | [] => none
  | o :: rest =>
    let n := o.toNat
    if n < 192 then some (⟨n, false, 1⟩, rest)
    else if n < 224 then
      some (⟨(n - 192) * 256 + Bytes.toNat (rest.take 1) + 192, false, 2⟩, rest.drop 1)
    else if n = 255 then some (⟨Bytes.toNat (rest.take 4), false, 5⟩, rest.drop 4)
    else some (⟨1 <<< (n % 32), true, 1⟩, rest)

/-- The size of a body of at most `fuel` parts, and the data without the length octets of the
parts. -/
def readParts? : (fuel : Nat) → (data : Bytes) → Option (Nat × Bytes)
  | 0, _ => none
  | fuel + 1, data => do
    let (extent, rest) ← readExtent? data
    if extent.continued then
      let (size, more) ← readParts? fuel (rest.drop extent.size)
      return (extent.size + size, rest.take extent.size ++ more)
    else return (extent.size, rest)

/-- The size of a body in the new format, and the data without the length octets. -/
def readSize? (data : Bytes) : Option (Nat × Bytes) := readParts? data.length data

/-- The tag of a packet and the size of its body. -/
structure Header where
  tag : Nat
  size : Nat
  deriving DecidableEq, Repr

/-- The header at the front of `data`, and what follows it.  The highest bit is not looked at. -/
def Header.read? (data : Bytes) : Option (Header × Bytes) :=
  match data with
  | [] => none
  | first :: rest =>
    let n := first.toNat
    if 64 ≤ n % 128 then (readSize? rest).map fun (size, rest) => (⟨n % 64, size⟩, rest)
    else
      let tag := n % 64 / 4
      if n % 4 = 3 then some (⟨tag, rest.length⟩, rest)
      else
        let width := 1 <<< (n % 4)
        some (⟨tag, Bytes.toNat (rest.take width)⟩, rest.drop width)

/-- The number at the front of `data`, as far as its octets are there, and what follows it. -/
def readNumber (data : Bytes) : Nat × Bytes :=
  let size := (Bytes.toNat (data.take 2) + 7) / 8
  let rest := data.drop 2
  (Bytes.toNat (rest.take size), rest.drop size)

/-- So many numbers at the front of `data`, and what follows them. -/
def readNumbers : (count : Nat) → Bytes → List Nat × Bytes
  | 0, data => ([], data)
  | count + 1, data =>
    let (n, rest) := readNumber data
    let (ns, rest) := readNumbers count rest
    (n :: ns, rest)

end Cryptogram.Keyring
