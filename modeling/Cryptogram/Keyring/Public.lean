import Cryptogram.Keyring.Ring
import Cryptogram.OpenPgp.Keys

/-!
# Recipients

Who asks for a recipient gives a user id, a name, an address, or a part of one.  A text that is a
whole user id, name or address of some key is not looked for in parts.  `PublicEntry.select` answers
only if exactly one key of the keyring matches.
-/

namespace Cryptogram.Keyring

/-- What a keyring says about one recipient. -/
structure PublicEntry where
  /-- The texts by which the recipient is found. -/
  handles : List (List Char)
  /-- The fingerprint of the primary key. -/
  fingerprint : Bytes
  /-- The key for messages to the recipient, and its key id. -/
  encryption : Option (Bytes × Rsa.PublicKey)
  deriving DecidableEq, Repr

namespace PublicEntry

/-- The texts by which a key with these user ids is found. -/
def handlesOf (userIds : List (List Char)) : Except Failure (List (List Char)) :=
  match userIds.mapM UserId.split? with
  | some parts => .ok (parts.flatMap UserId.handles)
  | none => .error .missingOperation

/-- The public RSA key in a packet. -/
def rsaKey (k : KeyPacket) : Except Failure Rsa.PublicKey :=
  match k.numbers with
  | [modulus, exponent] => Rsa.PublicKey.make modulus exponent
  | _ => .error .rsaNumbers

/-- The packet with the key for messages: the first subkey of a kind that encrypts, or else the
primary key. -/
def encryptionPacket? (k : RingKey) : Option KeyPacket :=
  ((k.subkeys.map Prod.snd).find? KeyPacket.encrypts).or
    (if k.primary.encrypts then some k.primary else none)

/-- What a key says about its owner; a secret key has to be secret in all its parts. -/
def ofKey (suite : Suite) (k : RingKey) : Except Failure PublicEntry :=
  if !k.isPublic && k.subkeys.any fun e => e.2.isPublic then .error .wrongType
  else do
    let handles ← handlesOf k.userIds
    let fingerprint := k.primary.fingerprint suite
    match encryptionPacket? k with
    | none => return ⟨handles, fingerprint, none⟩
    | some packet =>
      let key ← rsaKey packet
      return ⟨handles, fingerprint, some (packet.keyId suite, key)⟩

/-- The recipients in a keyring. -/
def readAll (suite : Suite) (location : String) (data : Bytes) : Except Failure (List PublicEntry) := do
  (← Ring.read suite location data).mapM (ofKey suite)

/-- Whether a text stands somewhere in another. -/
def occursIn (part : List Char) : List Char → Bool
  | [] => part.isEmpty
  | c :: rest => part.isPrefixOf (c :: rest) || occursIn part rest

/-- Whether a text is one of the handles. -/
def isNamed (userId : List Char) (entry : PublicEntry) : Bool := entry.handles.contains userId

/-- Whether a text stands in one of the handles. -/
def mentions (userId : List Char) (entry : PublicEntry) : Bool :=
  entry.handles.any (occursIn userId)

def candidates (entries : List PublicEntry) (userId : List Char) : List PublicEntry :=
  let named := entries.filter (isNamed userId)
  if named = [] then entries.filter (mentions userId) else named

/-- The key of the only recipient that matches. -/
def select (location userId : String) (entries : List PublicEntry) : Except Failure EncryptionKey :=
  match candidates entries userId.toList with
  | [] => .error (.noPublicKey location)
  | [entry] =>
    match entry.encryption with
    | some (keyId, key) => .ok ⟨userId, keyId, entry.fingerprint, key⟩
    | none => .error (.noRsaKey location)
  | several => .error (.severalPublicKeys several.length location)

end PublicEntry

end Cryptogram.Keyring
