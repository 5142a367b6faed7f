import Cryptogram.Cipher.Primitive
import Cryptogram.Mode.Feedback
import Cryptogram.OpenPgp.SessionKey

/-!
# Encrypted data

The body of a packet that holds other packets, encrypted under a session key by cipher feedback.
A random block with its last two octets repeated stands in front, so that a wrong key is noticed.
With integrity protection, a hash of everything follows at the end (RFC 4880, section 5.13); without
it, feedback starts anew behind the repeated octets (section 5.7).
-/

namespace Cryptogram.Sealed

/-- A block and its last two octets again. -/
def lead (block : Bytes) : Bytes := block ++ block.drop (block.length - 2)

/-- Whether the last two octets of the block in front are repeated. -/
def leads (blockSize : Nat) (plain : Bytes) : Bool :=
  (plain.drop (blockSize - 2)).take 2 == (plain.drop blockSize).take 2

/-- Feedback under a session key starts from a block of zeros. -/
def zeroBlock (k : SessionKey) : Bytes := Bytes.zeros k.algorithm.blockSize

/-! ## With integrity protection -/

def version : UInt8 := 1

/-- The header of the packet with the hash. -/
def hashHeader : Bytes := [0xd3, 0x14]

/-- The number of octets of the hash. -/
def hashSize : Nat := 20

/-- The number of octets of the packet with the hash. -/
def trailerSize : Nat := hashHeader.length + hashSize

/-- What is hashed: everything in front of the hash. -/
def covered (block inner : Bytes) : Bytes := lead block ++ inner ++ hashHeader

/-- The plaintext of a packet with integrity protection. -/
def plaintext (suite : Suite) (block inner : Bytes) : Bytes :=
  covered block inner ++ (suite.digest .sha1).hash (covered block inner)

/-- The body with integrity protection that starts from a random block. -/
def encrypt (suite : Suite) (k : SessionKey) (block inner : Bytes) : Except Failure Bytes := do
  let f ← suite.feedback k.algorithm k.key (zeroBlock k)
  return version :: Feedback.encrypt f (zeroBlock k) (plaintext suite block inner)

/-- Whether the plaintext has its hash at the end. -/
def checkHash (suite : Suite) (plain : Bytes) : Except Failure Unit :=
  let trailer := plain.drop (plain.length - trailerSize)
  if trailer.take 2 ≠ hashHeader then .error (.mdcHeader (trailer.take 2))
  else if (suite.digest .sha1).hash (plain.take (plain.length - hashSize)) ≠ trailer.drop 2 then
    .error .mdcMismatch
  else .ok ()

/-- The packets in a body with integrity protection. -/
def decrypt (suite : Suite) (k : SessionKey) (body : Bytes) : Except Failure Bytes :=
  match body with
  | [] => .error .seipdEmpty
  | first :: ciphertext =>
    let blockSize := k.algorithm.blockSize
    let least := blockSize + 2 + trailerSize
    if first ≠ version then .error (.seipdVersion first.toNat)
    else if ciphertext.length < least then .error (.encryptedShort ciphertext.length least)
    else do
      let f ← suite.feedback k.algorithm k.key (zeroBlock k)
      let plain := Feedback.decrypt f (zeroBlock k) ciphertext
      if !leads blockSize plain then .error .feedbackCheck
      else
        checkHash suite plain
        return (plain.take (plain.length - trailerSize)).drop (blockSize + 2)

/-! ## Without integrity protection -/

/-- The packets in a body without integrity protection. -/
def decryptBare (suite : Suite) (k : SessionKey) (body : Bytes) : Except Failure Bytes :=
  let blockSize := k.algorithm.blockSize
  let leadSize := blockSize + 2
  if body.length < leadSize then .error (.encryptedShort body.length leadSize)
  else do
    let f ← suite.feedback k.algorithm k.key (zeroBlock k)
    let front := body.take leadSize
    if !leads blockSize (Feedback.decrypt f (zeroBlock k) front) then .error .feedbackCheck
    else return Feedback.decrypt f (front.drop 2) (body.drop leadSize)

end Cryptogram.Sealed
