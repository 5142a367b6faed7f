import Cryptogram.Failure

/-!
# Session keys

The key under which one message is encrypted, together with its algorithm.  Encrypted to a public
key, it stands between the number of the algorithm and a checksum.
-/

namespace Cryptogram

/-- The key of one message. -/
structure SessionKey where
  algorithm : Symmetric
  key : Bytes
  deriving DecidableEq, Repr

namespace SessionKey

/-- A key of the size that its algorithm asks for; one without a usable cipher asks for none. -/
def make (algorithm : Symmetric) (key : Bytes) : Except Failure SessionKey :=
  if algorithm.keySize ≠ 0 ∧ key.length ≠ algorithm.keySize then
    .error (.sessionKeySize algorithm key.length)
  else .ok ⟨algorithm, key⟩

/-- The sum of the octets modulo 2^16. -/
def checksum (k : SessionKey) : Nat := Bytes.sum k.key % 65536

/-- The algorithm, the key and the checksum. -/
def payload (k : SessionKey) : Bytes :=
  k.algorithm.id.toUInt8 :: k.key ++ Bytes.ofNat 2 k.checksum

/-- The session key that a payload holds. -/
def ofPayload (payload : Bytes) : Except Failure SessionKey :=
  match payload with
  | id :: rest =>
    if rest.length < 2 then .error (.payloadShort payload.length)
    else match Symmetric.ofId? id.toNat with
      | none => .error (.payloadAlgorithm id.toNat)
      | some algorithm =>
        let k : SessionKey := ⟨algorithm, rest.take (rest.length - 2)⟩
        if k.key.length ≠ algorithm.keySize then
          .error (.payloadKeySize k.key.length algorithm)
        else if Bytes.toNat (rest.drop (rest.length - 2)) ≠ k.checksum then
          .error .payloadChecksum
        else .ok k
  | [] => .error (.payloadShort 0)

/-- The algorithm and the size of the key, in words. -/
def text (k : SessionKey) : String :=
  let name := k.algorithm.name
  let size := k.key.length
  s!"SessionKey({name}, <{size} bytes>)"

end SessionKey

end Cryptogram
