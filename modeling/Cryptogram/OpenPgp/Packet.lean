import Cryptogram.Failure

/-!
# Packets

An OpenPGP stream is a sequence of packets, each with a tag and a body (RFC 4880, section 4.2).  A
header of the new format has length octets for one part of the body at a time, where all parts but
the last have a power of two as their size.  A header of the old format tells the number of its
length octets, or that the body runs to the end of the stream.

`Packet.read` splits a stream into its packets; `Packet.write` writes a packet with a header of the
new format and a single part.
-/

namespace Cryptogram

/-- A packet with its parts put together. -/
structure Packet where
  tag : Nat
  body : Bytes
  deriving DecidableEq, Repr

namespace Packet

/-! ## Reading -/

/-- What the length octets of a part say. -/
structure Extent where
  /-- The number of octets of the part. -/
  size : Nat
  /-- Whether another part follows. -/
  continued : Bool
  /-- The number of length octets. -/
  width : Nat
  deriving DecidableEq, Repr

/-- The length octets at the front of `data`, and what follows them. -/
def readExtent (offset : Nat) (data : Bytes) : Except Failure (Extent × Bytes) :=
  match data with
  | [] => .error (.lengthMissing offset)
  | o :: rest =>
    let n := o.toNat
    if n < 192 then .ok (⟨n, false, 1⟩, rest)
    else if n < 224 then
      match rest with
      | y :: rest => .ok (⟨(n - 192) * 256 + y.toNat + 192, false, 2⟩, rest)
      | [] => .error (.twoOctetLengthCut offset)
    else if n = 255 then
      match rest with
      | a :: b :: c :: d :: rest => .ok (⟨Bytes.toNat [a, b, c, d], false, 5⟩, rest)
      | _ => .error (.fiveOctetLengthCut offset)
    else .ok (⟨1 <<< (n % 32), true, 1⟩, rest)

/-- The first `size` octets, and what follows them. -/
def takePart (offset size : Nat) (data : Bytes) : Except Failure (Bytes × Bytes) :=
  let part := data.take size
  if part.length = size then .ok (part, data.drop size)
  else .error (.bodyCut size part.length offset)

/-- A body and where it ends in the stream. -/
structure Reach where
  body : Bytes
  /-- The number of octets of the stream up to the end of the body. -/
  offset : Nat
  /-- What follows the body. -/
  rest : Bytes
  deriving DecidableEq, Repr

/-- A body of the new format that has at most `fuel` parts. -/
def readParts : (fuel offset : Nat) → (data : Bytes) → Except Failure Reach
  | 0, offset, _ => .error (.lengthMissing offset)
  | fuel + 1, offset, data => do
    let (extent, rest) ← readExtent offset data
    let start := offset + extent.width
    let (part, rest) ← takePart start extent.size rest
    if extent.continued then
      let more ← readParts fuel (start + extent.size) rest
      return { more with body := part ++ more.body }
    else return ⟨part, start + extent.size, rest⟩

/-- A body of the old format, whose header has one, two or four length octets or none. -/
def readOld (type offset : Nat) (data : Bytes) : Except Failure Reach :=
  if type = 3 then .ok ⟨data, offset + data.length, []⟩
  else
    let width := 1 <<< type
    let octets := data.take width
    if octets.length < width then .error (.oldLengthCut offset)
    else do
      let size := Bytes.toNat octets
      let (body, rest) ← takePart (offset + width) size (data.drop width)
      return ⟨body, offset + width + size, rest⟩

/-- The tag in the first octet of a header and the body behind it. -/
def readOne (fuel offset : Nat) (first : UInt8) (data : Bytes) : Except Failure (Nat × Reach) :=
  let n := first.toNat
  if 192 ≤ n then (readParts fuel (offset + 1) data).map fun reach => (n % 64, reach)
  else if 128 ≤ n then
    (readOld (n % 4) (offset + 1) data).map fun reach => (n % 64 / 4, reach)
  else .error (.packetHeader first offset)

/-- The packets of a stream of at most `fuel` octets. -/
def readWithin : (fuel offset : Nat) → (data : Bytes) → Except Failure (List Packet)
  | _, _, [] => .ok []
  | 0, offset, first :: _ => .error (.packetHeader first offset)
  | fuel + 1, offset, first :: data => do
    let (tag, reach) ← readOne (fuel + 1) offset first data
    let packets ← readWithin fuel reach.offset reach.rest
    return ⟨tag, reach.body⟩ :: packets

def read (data : Bytes) : Except Failure (List Packet) := readWithin data.length 0 data

/-! ## Writing -/

/-- The shortest length octets for a body of fewer than 2^32 octets. -/
def lengthOctets (size : Nat) : Bytes :=
  if size < 192 then [size.toUInt8]
  else if size < 8384 then [((size - 192) / 256 + 192).toUInt8, (size - 192).toUInt8]
  else 0xff :: Bytes.ofNat 4 size

/-- A packet with a header of the new format. -/
def encode (p : Packet) : Bytes := (0xc0 ||| p.tag.toUInt8) :: lengthOctets p.body.length ++ p.body

/-- A packet whose tag fits an octet and whose size fits a header. -/
def write (tag : Int) (body : Bytes) : Except Failure Bytes :=
  if tag < 0 ∨ 255 < tag then .error .octetRange
  else if 0x100000000 ≤ body.length then .error .fieldOverflow
  else .ok (encode ⟨tag.toNat, body⟩)

end Packet

end Cryptogram
