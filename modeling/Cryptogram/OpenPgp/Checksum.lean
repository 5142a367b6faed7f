import Cryptogram.Bytes

/-!
# The checksum of armor

The remainder of a message as a polynomial over two elements, modulo a generator of degree 24
(RFC 4880, section 6.1).
-/

namespace Cryptogram.Crc24

/-- The generator without its highest power. -/
def generator : BitVec 24 := 0x864cfb#24

/-- The remainder before the first octet. -/
def seed : BitVec 24 := 0xb704ce#24

/-- A remainder times the variable. -/
def step (r : BitVec 24) : BitVec 24 := if r.msb then (r <<< 1) ^^^ generator else r <<< 1

def steps : (count : Nat) → BitVec 24 → BitVec 24
  | 0, r => r
  | count + 1, r => steps count (step r)

/-- The remainder after one more octet. -/
def absorb (r : BitVec 24) (octet : UInt8) : BitVec 24 :=
  steps 8 (r ^^^ BitVec.ofNat 24 (octet.toNat * 65536))

/-- The remainder of a message. -/
def ofBytes (message : Bytes) : BitVec 24 := message.foldl absorb seed

end Cryptogram.Crc24
