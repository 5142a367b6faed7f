import Cryptogram.Keyring.Ring
import Cryptogram.OpenPgp.Keys

/-!
# Private keyrings

A passphrase opens a secret key when it opens the primary key and every subkey.  The RSA keys of
those that it opens make up a private keyring, in the order of the ring; the others are left out.
-/

namespace Cryptogram.Keyring

/-- The secret numbers of a packet of an opened key. -/
def KeyPacket.secretNumbers : KeyPacket → Option (List Nat) → Except Failure (List Nat)
  | _, some numbers => .ok numbers
  | ⟨_, _, _, _, none⟩, none => .error .missingOperation
  | ⟨_, _, _, _, some (.plain numbers)⟩, none => .ok numbers
  | _, none => .ok [0, 0, 0, 0]

/-- The private RSA key of a packet with such secret numbers: the exponent and the two factors of the
modulus come first. -/
def rsaPrivateKey (k : KeyPacket) (secret : List Nat) : Except Failure Rsa.PrivateKey :=
  match k.numbers, secret with
  | [modulus, exponent], d :: p :: q :: _ =>
    if p ≤ 1 ∨ q = 1 then .error .zeroModulus else Rsa.PrivateKey.make modulus exponent d p q
  | _, _ => .error .rsaNumbers

/-- The private RSA keys of the packets of an opened key, each with the numbers that a passphrase has
revealed. -/
def decryptionKeys (suite : Suite) (packets : List (KeyPacket × Option (List Nat))) :
    Except Failure (List DecryptionKey) :=
  (packets.filter fun e => e.1.encrypts).mapM fun (k, revealed) => do
    let secret ← k.secretNumbers revealed
    return ⟨k.keyId suite, ← rsaPrivateKey k secret⟩

/-- The secret numbers of a packet that a passphrase reveals, if it does. -/
def reveal (suite : Suite) (location : String) (passphrase : Bytes) (k : KeyPacket) :
    Except Failure (Option (List Nat)) :=
  match k.secret with
  | none => .error .missingOperation
  | some (.plain _) => .error .wrongType
  | some .unread => .error (.cannotUnlock location)
  | some (.guarded protection) => do
    let plain? ← protection.unlock suite location passphrase
    return plain?.map fun plain => (readNumbers 4 plain).1

/-- The secret numbers of all packets, if a passphrase reveals them all. -/
def revealAll (suite : Suite) (location : String) (passphrase : Bytes) :
    List KeyPacket → Except Failure (Option (List (KeyPacket × Option (List Nat))))
  | [] => .ok (some [])
  | k :: rest => do
    match ← reveal suite location passphrase k with
    | none => return none
    | some numbers =>
      let more? ← revealAll suite location passphrase rest
      return more?.map fun more => (k, some numbers) :: more

/-- The private RSA keys of a key, if a passphrase opens it; any opens a key that is not
protected. -/
def RingKey.unlock (suite : Suite) (location : String) (passphrase : Bytes) (k : RingKey) :
    Except Failure (Option (List DecryptionKey)) := do
  let revealed? ←
    match k.primary.secret with
    | some (.guarded _) => revealAll suite location passphrase k.packets
    | _ => .ok (some (k.packets.map fun packet => (packet, none)))
  match revealed? with
  | none => return none
  | some packets => return some (← decryptionKeys suite packets)

/-- The private RSA keys of the secret keys that a passphrase opens, at least one of which it has to
open. -/
def unlockAll (suite : Suite) (location : String) (passphrase : Bytes) (keys : List RingKey) :
    Except Failure PrivateKeyring := do
  let secret := keys.filter fun k => !k.isPublic
  if secret = [] then .error (.noSecretKeys location)
  else
    let opened := (← secret.mapM (RingKey.unlock suite location passphrase)).filterMap id
    if opened = [] then .error (.wrongPassphrase location) else return ⟨opened.flatten⟩

/-- The private keyring that a passphrase opens. -/
def readPrivate (suite : Suite) (location : String) (passphrase data : Bytes) :
    Except Failure PrivateKeyring := do
  unlockAll suite location passphrase (← Ring.read suite location data)

end Cryptogram.Keyring
