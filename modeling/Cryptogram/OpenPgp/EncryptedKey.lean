import Cryptogram.OpenPgp.Packet
import Cryptogram.OpenPgp.StringToKey

/-!
# Encrypted session keys

The packets in front of an encrypted message that hold its session key: encrypted under a key that
is derived from a passphrase (`Skesk`), or encrypted to a public key (`Pkesk`).
-/

namespace Cryptogram

def octet (n : Int) : Except Failure UInt8 :=
  if n < 0 ∨ 255 < n then .error .octetRange else .ok n.toNat.toUInt8

/-- A session key encrypted under a passphrase. -/
structure Skesk where
  version : Int
  algorithm : Symmetric
  s2k : StringToKey
  /-- The encrypted session key; empty where the derived key is the session key. -/
  encrypted : Bytes
  deriving DecidableEq, Repr

namespace Skesk

/-- The version that is read. -/
def version4 : Nat := 4

/-- The packet with a body. -/
def ofBody (body : Bytes) : Except Failure Skesk :=
  match body with
  | version :: id :: rest =>
    if rest.length < 2 then .error (.skeskShort body.length)
    else if version.toNat ≠ version4 then .error (.skeskVersion version.toNat)
    else match Symmetric.ofId? id.toNat with
      | none => .error (.unknownSymmetric id.toNat)
      | some algorithm => do
        let (s2k, encrypted) ← StringToKey.read rest
        return ⟨version4, algorithm, s2k, encrypted⟩
  | _ => .error (.skeskShort body.length)

def body (p : Skesk) : Except Failure Bytes := do
  let version ← octet p.version
  let s2k ← p.s2k.write
  return version :: p.algorithm.id.toUInt8 :: s2k ++ p.encrypted

def write (p : Skesk) : Except Failure Bytes := do
  Packet.write Tag.skesk (← p.body)

end Skesk

/-- A session key encrypted to a public key. -/
structure Pkesk where
  version : Int
  /-- The eight octets by which the recipient's key is known, or zeros for any key. -/
  keyId : Bytes
  algorithm : PublicKeyAlgorithm
  encrypted : Bytes
  deriving DecidableEq, Repr

namespace Pkesk

/-- The version that is read. -/
def version3 : Nat := 3

/-- The packet with a body. -/
def ofBody (body : Bytes) : Except Failure Pkesk :=
  match body with
  | version :: rest =>
    match rest.drop 8 with
    | id :: encrypted =>
      if version.toNat ≠ version3 then .error (.pkeskVersion version.toNat)
      else match PublicKeyAlgorithm.ofId? id.toNat with
        | none => .error (.unknownPublicKey id.toNat)
        | some algorithm => .ok ⟨version3, rest.take 8, algorithm, encrypted⟩
    | [] => .error (.pkeskShort body.length)
  | [] => .error (.pkeskShort 0)

def body (p : Pkesk) : Except Failure Bytes := do
  let version ← octet p.version
  return version :: p.keyId ++ p.algorithm.id.toUInt8 :: p.encrypted

def write (p : Pkesk) : Except Failure Bytes := do
  Packet.write Tag.pkesk (← p.body)

end Pkesk

end Cryptogram
