import Cryptogram.Entropy
import Cryptogram.Failure
import Cryptogram.Suite

/-!
# String-to-key

A specifier says how a passphrase is hashed into a key: alone, behind a salt, or as many octets of
the endless repetition of both as a count says (RFC 4880, section 3.7).  The count is written in one
octet, so counts are rounded up to one that can be written.
-/

namespace Cryptogram

/-- How a passphrase is hashed into a key. -/
structure StringToKey where
  /-- Zero for the passphrase alone, one with a salt, three with a salt and a count. -/
  type : Int
  hash : HashName
  salt : Bytes := []
  count : Int := 0
  deriving DecidableEq, Repr

namespace StringToKey

/-- The passphrase alone is hashed. -/
def simple : Int := 0

/-- The passphrase is hashed behind a salt. -/
def salted : Int := 1

/-- Salt and passphrase are hashed over and over. -/
def iterated : Int := 3

/-! ## Counts -/

/-- The count that a coded count stands for: four bits of mantissa below four bits of exponent. -/
def decodeCount (coded : Nat) : Nat := (16 + coded % 16) <<< (coded / 16 + 6)

/-- The coded count that stands for the least count that is not below the given one, or for the
greatest. -/
def encodeCount (count : Int) : Nat :=
  ((List.range 256).find? fun coded => decide (count ≤ decodeCount coded)).getD 255

/-- The count as the reader of a written specifier takes it. -/
def roundCount (count : Int) : Nat := decodeCount (encodeCount count)

/-- A specifier with a fresh salt. -/
def fresh (hash : HashName) (count : Int) (e : Entropy) : StringToKey × Entropy :=
  let (salt, e) := e.draw 8
  (⟨iterated, hash, salt, roundCount count⟩, e)

/-! ## Reading and writing -/

/-- The eight octets of a salt, and what follows them. -/
def readSalt (data : Bytes) : Except Failure (Bytes × Bytes) :=
  if data.length < 8 then .error .s2kSaltCut else .ok (data.take 8, data.drop 8)

/-- The specifier at the front of `data`, and what follows it. -/
def read (data : Bytes) : Except Failure (StringToKey × Bytes) :=
  match data with
  | type :: id :: rest =>
    match HashName.ofId? id.toNat with
    | none => .error (.unknownHash id.toNat)
    | some hash =>
      if type = 0 then .ok (⟨simple, hash, [], 0⟩, rest)
      else if type = 1 then do
        let (salt, rest) ← readSalt rest
        return (⟨salted, hash, salt, 0⟩, rest)
      else if type = 3 then do
        let (salt, rest) ← readSalt rest
        match rest with
        | coded :: rest => return (⟨iterated, hash, salt, decodeCount coded.toNat⟩, rest)
        | [] => .error .s2kCountMissing
      else .error (.s2kType type.toNat)
  | _ => .error .s2kCut

def write (s : StringToKey) : Except Failure Bytes :=
  if s.type < 0 ∨ 255 < s.type then .error .octetRange
  else
    let head := [s.type.toNat.toUInt8, s.hash.id.toUInt8]
    if s.type = simple then .ok head
    else if s.type = salted then .ok (head ++ s.salt)
    else if s.type = iterated then .ok (head ++ s.salt ++ [(encodeCount s.count).toUInt8])
    else .error (.s2kTypeUnwritable s.type)

/-! ## Keys -/

/-- The number of octets of the widest key. -/
def maxKeySize : Nat := 32

/-- The types of which keys can be derived; the two that are reserved use their salt. -/
def derivable : List Int := [0, 1, 2, 3, 101]

/-- What is hashed once or repeatedly. -/
def seed (s : StringToKey) (passphrase : Bytes) : Bytes :=
  if s.type = simple then passphrase else s.salt ++ passphrase

/-- What is hashed: the seed, or as much of its repetition as the count says, but all of it at
least once. -/
def message (s : StringToKey) (passphrase : Bytes) : Bytes :=
  let seed := s.seed passphrase
  if s.type = iterated then seed.cycle (max (roundCount s.count) seed.length) else seed

/-- `count` hashes of a message, the i-th of them behind i zero octets. -/
def hashes (d : Digest) (message : Bytes) (count : Nat) : Bytes :=
  (List.range count).flatMap fun i => d.hash (Bytes.zeros i ++ message)

/-- The octets of the widest key. -/
def widest (suite : Suite) (s : StringToKey) (passphrase : Bytes) : Bytes :=
  let d := suite.digest s.hash
  (hashes d (s.message passphrase) ((maxKeySize + d.size - 1) / d.size)).take maxKeySize

/-- The key of `keySize` octets, which is the front of the widest key; a negative size leaves out as
many octets at its end. -/
def derive (suite : Suite) (s : StringToKey) (passphrase : Bytes) (keySize : Int) :
    Except Failure Bytes :=
  if maxKeySize < keySize then .error (.s2kKeySize keySize)
  else if s.type ∉ derivable then .error .unknownNumber
  else if s.seed passphrase = [] then .error .nothingToHash
  else
    let wanted := if 0 ≤ keySize then keySize else maxKeySize + keySize
    .ok ((widest suite s passphrase).take wanted.toNat)

end StringToKey

end Cryptogram
