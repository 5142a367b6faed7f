import Cryptogram.Keyring.Protection
import Cryptogram.OpenPgp.Number

/-!
# Keys in keyrings

The packet of one key or subkey of version 4, public or secret.  A key is known by its fingerprint,
the hash of its public part, and by the last eight octets of that.
-/

namespace Cryptogram.Keyring

/-- The kinds of public-key algorithms that a keyring may hold. -/
inductive KeyKind
  | rsa
  | dsa
  | elgamal
  | curve
  /-- Keys that are not looked into. -/
  | other
  deriving DecidableEq, Repr

/-- The kind of the algorithm with a number. -/
def KeyKind.ofId? (id : Nat) : Option KeyKind :=
  if [1, 2, 3].contains id then some .rsa
  else if id = 17 then some .dsa
  else if [16, 20].contains id then some .elgamal
  else if [18, 19, 22].contains id then some .curve
  else if [0, 21].contains id then some .other
  else none

/-- The key of one packet. -/
structure KeyPacket where
  /-- The date. -/
  created : Nat
  /-- The number of the algorithm. -/
  algorithm : Nat
  /-- The public part as it is hashed. -/
  publicPart : Bytes
  /-- The public numbers. -/
  numbers : List Nat
  /-- The secret part of a secret key. -/
  secret : Option SecretPart
  deriving DecidableEq, Repr

namespace KeyPacket

/-- A number as it is hashed. -/
def numberOctets (n : Nat) : Bytes := Bytes.ofNat 2 (Mpi.bitLength n) ++ Mpi.octets n

/-! ## Public parts -/

/-- The names of the elliptic curves. -/
def curves : List Bytes :=
  [[0x2a, 0x86, 0x48, 0xce, 0x3d, 0x03, 0x01, 0x07], [0x2b, 0x81, 0x04, 0x00, 0x22],
    [0x2b, 0x81, 0x04, 0x00, 0x23], [0x2b, 0x81, 0x04, 0x00, 0x0a],
    [0x2b, 0x24, 0x03, 0x03, 0x02, 0x08, 0x01, 0x01, 0x07],
    [0x2b, 0x24, 0x03, 0x03, 0x02, 0x08, 0x01, 0x01, 0x0b],
    [0x2b, 0x24, 0x03, 0x03, 0x02, 0x08, 0x01, 0x01, 0x0d],
    [0x2b, 0x06, 0x01, 0x04, 0x01, 0xda, 0x47, 0x0f, 0x01],
    [0x2b, 0x06, 0x01, 0x04, 0x01, 0x97, 0x55, 0x01, 0x05, 0x01]]

/-- The number of octets that describe the key derivation of a key for key agreement. -/
def agreementSize : Nat := 4

/-- The public part of a key on a curve: the name of the curve, a point, and with key agreement a
key derivation. -/
def readCurve? (algorithm : Nat) (data : Bytes) : Option (Bytes × Bytes) :=
  match data with
  | [] => none
  | size :: rest =>
    let curve := rest.take size.toNat
    if curve ∉ curves then none
    else
      let (point, rest) := readNumber (rest.drop size.toNat)
      let extra := if algorithm = 18 then rest.take agreementSize else []
      if point = 0 ∨ (algorithm = 18 ∧ extra.length < agreementSize) then none
      else some (size :: curve ++ numberOctets point ++ extra, rest.drop extra.length)

/-- A public part as it is hashed, its numbers, and what follows it. -/
def readPublic? (kind : KeyKind) (algorithm : Nat) (data : Bytes) :
    Option (Bytes × List Nat × Bytes) :=
  let numbered (count : Nat) :=
    let (numbers, rest) := readNumbers count data
    some (numbers.flatMap numberOctets, numbers, rest)
  match kind with
  | .rsa => numbered 2
  | .dsa => numbered 4
  | .elgamal => numbered 3
  | .curve => (readCurve? algorithm data).map fun (octets, rest) => (octets, [], rest)
  | .other => some (data, [], [])

/-- The number of secret numbers. -/
def secretCount : KeyKind → Nat
  | .rsa => 4
  | _ => 1

/-- The secret part behind the public part. -/
def readSecret? (kind : KeyKind) (data : Bytes) : Option SecretPart :=
  if kind = .other then some .unread else SecretPart.read? (secretCount kind) data

/-- The key at the front of `data`, which stands behind the version of a packet of the given size,
and what follows it. -/
def read? (isSecret : Bool) (size : Nat) (data : Bytes) : Option (KeyPacket × Bytes) :=
  match data.drop 4 with
  | [] => none
  | id :: rest => do
    let algorithm := id.toNat
    let kind ← KeyKind.ofId? algorithm
    let materialSize : Int := size - 6
    let (octets, numbers, remainder) ← readPublic? kind algorithm (field materialSize rest)
    let secret ← if isSecret then (readSecret? kind remainder).map some else some none
    return (⟨Bytes.toNat (data.take 4), algorithm, octets, numbers, secret⟩,
      behind materialSize rest)

/-! ## Identity -/

/-- Whether the packet holds no secret part. -/
def isPublic (k : KeyPacket) : Bool := k.secret.isNone

def hashed (k : KeyPacket) : Bytes :=
  0x99 :: Bytes.ofNat 2 (k.publicPart.length + 6) ++ 4 :: Bytes.ofNat 4 k.created ++
    k.algorithm.toUInt8 :: k.publicPart

def fingerprint (suite : Suite) (k : KeyPacket) : Bytes := (suite.digest .sha1).hash k.hashed

/-- The octets by which packets refer to the key. -/
def keyId (suite : Suite) (k : KeyPacket) : Bytes := (k.fingerprint suite).drop 12

/-- Whether messages can be encrypted to the key. -/
def encrypts (k : KeyPacket) : Bool := k.algorithm == 1 || k.algorithm == 2

end KeyPacket

end Cryptogram.Keyring
