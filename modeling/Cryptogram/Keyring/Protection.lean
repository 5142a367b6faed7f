import Cryptogram.Keyring.Header
import Cryptogram.Cipher.Primitive
import Cryptogram.Mode.Feedback
import Cryptogram.OpenPgp.StringToKey

/-!
# Protected secrets

The secret numbers of a key stand in its packet as they are, or encrypted under a passphrase with a
hash or a sum of the numbers behind them (RFC 4880, section 5.5.3).
-/

namespace Cryptogram.Keyring

/-- Secret numbers that a passphrase protects. -/
structure Protection where
  /-- Whether a hash follows the numbers, rather than a sum. -/
  hashed : Bool
  cipher : Symmetric
  /-- The type of the string-to-key. -/
  type : Nat
  /-- The number of its hash function. -/
  hash : Nat
  salt : Bytes
  count : Nat
  iv : Bytes
  encrypted : Bytes
  deriving DecidableEq, Repr

/-- The secret part of a key. -/
inductive SecretPart
  /-- Numbers that are not protected. -/
  | plain (numbers : List Nat)
  | guarded (protection : Protection)
  /-- Something that is not looked into. -/
  | unread
  deriving DecidableEq, Repr

namespace Protection

/-- The ciphers that may protect a key. -/
def ciphers : List Symmetric := Symmetric.all.filter fun a => a != .safer && a != .des

/-- The greatest number of a hash function. -/
def maxHash : Nat := 11

/-- The mark of a key whose secret is kept elsewhere. -/
def absentMark : Bytes := 0 :: Bytes.ofAscii "GNU"

/-- The type of string-to-key that goes with the mark. -/
def absentType : Nat := 101

/-- What stands behind the mark. -/
def readAbsent? (data : Bytes) : Option Bytes :=
  if data.take 4 ≠ absentMark then none
  else match data.drop 4 with
    | [] => none
    | kind :: rest =>
      if kind = 1 then some rest
      else if kind = 2 then
        match rest with
        | [] => none
        | size :: rest => some (rest.drop (min size.toNat 16))
      else none

/-- The octet that says how the numbers are protected was read; this reads what follows it. -/
def read? (hashed : Bool) (data : Bytes) : Option Protection :=
  match data with
  | id :: type :: rest => do
    let cipher ← Symmetric.ofId? id.toNat
    let type := type.toNat
    if cipher ∉ ciphers then none
    else if type = absentType then
      return ⟨hashed, cipher, type, 0, [], 0, [], ← readAbsent? rest⟩
    else if 3 < type then none
    else match rest with
      | [] => none
      | hash :: rest =>
        if maxHash < hash.toNat then none
        else
          let saltSize := if type = 0 then 0 else 8
          let salt := rest.take saltSize
          let rest := rest.drop saltSize
          let (count, rest) ←
            if type = 3 then
              match rest with
              | [] => none
              | coded :: rest => some (StringToKey.decodeCount coded.toNat, rest)
            else some (0, rest)
          if cipher.blockSize = 0 then none
          else
            return ⟨hashed, cipher, type, hash.toNat, salt, count, rest.take cipher.blockSize,
              rest.drop cipher.blockSize⟩
  | _ => none

/-- The number of octets behind the numbers. -/
def tailSize (p : Protection) : Nat := if p.hashed then 20 else 2

/-- Whether the octets end with the hash or the sum of the others. -/
def isIntact (suite : Suite) (p : Protection) (plain : Bytes) : Bool :=
  let body := plain.take (plain.length - p.tailSize)
  let tail := plain.drop (plain.length - p.tailSize)
  if p.hashed then (suite.digest .sha1).hash body == tail
  else Bytes.toNat tail == Bytes.sum body % 65536

/-- The decrypted octets, if the passphrase is the one that protects them. -/
def unlock (suite : Suite) (location : String) (passphrase : Bytes) (p : Protection) :
    Except Failure (Option Bytes) :=
  if p.cipher.keySize = 0 then .error (.cannotUnlock location)
  else match HashName.ofId? p.hash with
    | none => .error .unknownNumber
    | some hash => do
      let s2k : StringToKey := ⟨p.type, hash, p.salt, p.count⟩
      let key ← s2k.derive suite passphrase p.cipher.keySize
      if p.cipher.primitive?.isNone then return none
      else
        let f ← suite.feedback p.cipher key p.iv
        let plain := Feedback.decrypt f p.iv p.encrypted
        return if p.isIntact suite plain then some plain else none

end Protection

/-- The secret part of a key with so many secret numbers. -/
def SecretPart.read? (count : Nat) (data : Bytes) : Option SecretPart :=
  match data with
  | [] => none
  | usage :: rest =>
    if usage = 254 then (Protection.read? true rest).map .guarded
    else if usage = 255 then (Protection.read? false rest).map .guarded
    else some (.plain (readNumbers count rest).1)

end Cryptogram.Keyring
