import Cryptogram.Failure

/-!
# RSA

Keys of the RSA cryptosystem, and messages encrypted to them with the padding of PKCS #1,
version 1.5: a zero octet, a two, at least eight octets that are not zero, a zero octet, and the
message.
-/

namespace Cryptogram.Rsa

/-- A power of a number modulo another. -/
def modPow (base exponent modulus : Nat) : Nat :=
  let bits := (List.range (exponent.log2 + 1)).reverse.map exponent.testBit
  bits.foldl (fun r b => let square := r * r % modulus; if b then square * base % modulus else square)
    (1 % modulus)

structure PublicKey where
  modulus : Nat
  exponent : Nat
  deriving DecidableEq, Repr

namespace PublicKey

/-- The number of bits of the modulus. -/
def bits (k : PublicKey) : Nat := if k.modulus = 0 then 0 else k.modulus.log2 + 1

/-- The number of octets of a message encrypted to the key. -/
def size (k : PublicKey) : Nat := (k.bits + 7) / 8

/-- Whether the numbers can be those of a key. -/
def sound (k : PublicKey) : Bool :=
  3 ≤ k.modulus && 3 ≤ k.exponent && k.exponent < k.modulus && k.exponent % 2 == 1

/-- The key with these numbers. -/
def make (modulus exponent : Nat) : Except Failure PublicKey :=
  let k : PublicKey := ⟨modulus, exponent⟩
  if k.sound then .ok k else .error .rsaNumbers

/-- A message with its padding, if the key is long enough. -/
def pad? (k : PublicKey) (noise : Nat → UInt8) (message : Bytes) : Option Bytes :=
  if k.size < message.length + 11 then none
  else
    let filler := (List.range (k.size - message.length - 3)).map fun i =>
      if noise i = 0 then 1 else noise i
    some ([0, 2] ++ filler ++ [0] ++ message)

/-- A message encrypted to the key. -/
def encrypt (k : PublicKey) (noise : Nat → UInt8) (message : Bytes) : Except Failure Bytes :=
  match k.pad? noise message with
  | some padded =>
    .ok (Bytes.ofNat k.size (modPow (Bytes.toNat padded) k.exponent k.modulus))
  | none => .error .payloadTooLong

end PublicKey

/-- A private key, with its public half. -/
structure PrivateKey where
  half : PublicKey
  exponent : Nat
  deriving DecidableEq, Repr

namespace PrivateKey

/-- Whether the numbers belong together, given the factors of the modulus. -/
def sound (k : PrivateKey) (p q : Nat) : Bool :=
  k.half.sound && 1 < p && 1 < q && p * q == k.half.modulus && Nat.gcd p q == 1 &&
    k.exponent < k.half.modulus &&
    k.half.exponent * k.exponent % Nat.lcm (p - 1) (q - 1) == 1

/-- The key with these numbers. -/
def make (modulus publicExponent exponent p q : Nat) : Except Failure PrivateKey :=
  let k : PrivateKey := ⟨⟨modulus, publicExponent⟩, exponent⟩
  if k.sound p q then .ok k else .error .rsaNumbers

/-- What stands behind the padding. -/
def unpad? (padded : Bytes) : Option Bytes :=
  match padded with
  | 0 :: 2 :: rest =>
    let filler := rest.takeWhile (· != 0)
    match rest.dropWhile (· != 0) with
    | _ :: message => if 8 ≤ filler.length then some message else none
    | [] => none
  | _ => none

/-- The message that octets of the size of the key decrypt to; none if they were not encrypted to
it. -/
def decrypt? (k : PrivateKey) (encrypted : Bytes) : Option Bytes :=
  let n := Bytes.toNat encrypted
  if encrypted.length ≠ k.half.size ∨ k.half.modulus ≤ n then none
  else unpad? (Bytes.ofNat k.half.size (modPow n k.exponent k.half.modulus))

end PrivateKey

end Cryptogram.Rsa
