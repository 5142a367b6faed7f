import Cryptogram.OpenPgp.Armor
import Cryptogram.OpenPgp.Compressed
import Cryptogram.OpenPgp.EncryptedKey
import Cryptogram.OpenPgp.Keys
import Cryptogram.OpenPgp.Literal
import Cryptogram.OpenPgp.Number
import Cryptogram.OpenPgp.Sealed

/-!
# Messages

An encrypted message is a sequence of packets: encrypted session keys, and then encrypted data in
which a literal data packet stands, perhaps compressed.  `Message.encrypt` writes a message with one
session key and integrity protection; `Message.decrypt` reads one with any number of session keys and
takes the first that opens it.
-/

namespace Cryptogram.Message

/-! ## Writing -/

/-- For whom a message is encrypted. -/
inductive Recipient
  /-- For those who know a password. -/
  | password (octets : Bytes)
  /-- For the owner of a key. -/
  | publicKey (key : EncryptionKey)
  deriving DecidableEq, Repr

/-- How a message is written. -/
structure Form where
  cipher : Symmetric := .preferred
  recipient : Option Recipient
  /-- Whether the message is put in armor. -/
  armored : Bool := false
  /-- The date of the literal data packet. -/
  time : Int
  deriving DecidableEq, Repr

/-- The session key encrypted under a password. -/
def passwordPacket (suite : Suite) (settings : Settings) (k : SessionKey) (password : Bytes)
    (e : Entropy) : Except Failure (Bytes × Entropy) :=
  match HashName.ofId? settings.s2kHash.toNat with
  | none => .error .unknownNumber
  | some hash => do
    let (s2k, e) := StringToKey.fresh hash settings.s2kCount e
    let key ← s2k.derive suite password k.algorithm.keySize
    let f ← suite.feedback k.algorithm key (Sealed.zeroBlock k)
    let encrypted :=
      Feedback.encrypt f (Sealed.zeroBlock k) (k.algorithm.id.toUInt8 :: k.key)
    let packet ← Skesk.write ⟨Skesk.version4, k.algorithm, s2k, encrypted⟩
    return (packet, e)

/-- The session key encrypted to a public key. -/
def publicKeyPacket (k : SessionKey) (recipient : EncryptionKey) (e : Entropy) :
    Except Failure Bytes := do
  let encrypted ← recipient.key.encrypt e.noise k.payload
  let number ← Mpi.write (Bytes.toNat encrypted)
  Pkesk.write ⟨Pkesk.version3, recipient.keyId, .rsa, number⟩

/-- The encrypted session key for a recipient. -/
def keyPacket (suite : Suite) (settings : Settings) (k : SessionKey) (recipient : Option Recipient)
    (e : Entropy) : Except Failure (Bytes × Entropy) :=
  match recipient with
  | none => .error .noEncryptionKey
  | some (.password octets) => passwordPacket suite settings k octets e
  | some (.publicKey key) => (publicKeyPacket k key e).map fun packet => (packet, e)

/-- A message with the given content. -/
def encrypt (suite : Suite) (settings : Settings) (form : Form) (content : Bytes) (e : Entropy) :
    Except Failure (Bytes × Entropy) := do
  let (key, e) := e.draw form.cipher.keySize
  let k : SessionKey := ⟨form.cipher, key⟩
  let (head, e) ← keyPacket suite settings k form.recipient e
  let literal ← Literal.write ⟨'b', settings.literalName, form.time, content⟩
  let (block, e) := e.draw form.cipher.blockSize
  let data ← Packet.write Tag.seipd (← Sealed.encrypt suite k block literal)
  let message := head ++ data
  return (if form.armored then Armor.write message else message, e)

/-! ## The packets of a message -/

/-- The packets of an encrypted message. -/
structure Envelope where
  skesks : List Skesk
  pkesks : List Pkesk
  /-- The packet of encrypted data. -/
  data : Packet
  deriving DecidableEq, Repr

/-- Whether a packet holds encrypted data. -/
def isData (p : Packet) : Bool := p.tag == Tag.seipd || p.tag == Tag.encrypted

/-- The session keys in front of the first encrypted data; what follows that is ignored. -/
def Envelope.ofPackets : List Packet → Except Failure Envelope
  | [] => .error .noEncryptedData
  | p :: rest =>
    if p.tag = Tag.skesk then do
      let skesk ← Skesk.ofBody p.body
      let envelope ← ofPackets rest
      return { envelope with skesks := skesk :: envelope.skesks }
    else if p.tag = Tag.pkesk then do
      let pkesk ← Pkesk.ofBody p.body
      let envelope ← ofPackets rest
      return { envelope with pkesks := pkesk :: envelope.pkesks }
    else if isData p then .ok ⟨[], [], p⟩
    else if p.tag = Tag.marker then ofPackets rest
    else .error (.unexpectedPacket p.tag)

/-- The packets of a message that may be in armor. -/
def packets (message : Bytes) : Except Failure (List Packet) := do
  Packet.read (← Armor.strip message)

/-- The packets of an encrypted message that may be in armor. -/
def Envelope.read (message : Bytes) : Except Failure Envelope := do
  ofPackets (← packets message)

/-- The algorithm in the first session key that is encrypted under a password. -/
def declared : List Packet → Except Failure Symmetric
  | [] => .error .noSkesk
  | p :: rest =>
    if p.tag = Tag.skesk then (Skesk.ofBody p.body).map Skesk.algorithm
    else if isData p then .error .noSkesk
    else declared rest

/-- The algorithm that a message declares for its password. -/
def algorithm (message : Bytes) : Except Failure Symmetric := do
  declared (← packets message)

/-! ## Session keys -/

/-- What may open a message. -/
inductive Opener
  | password (octets : Bytes)
  | keyring (ring : PrivateKeyring)
  deriving DecidableEq, Repr

/-- The session key that a password gives. -/
def openSkesk (suite : Suite) (password : Bytes) (p : Skesk) : Except Failure SessionKey := do
  let key ← p.s2k.derive suite password p.algorithm.keySize
  if p.encrypted = [] then return ⟨p.algorithm, key⟩
  else
    let start := Bytes.zeros p.algorithm.blockSize
    let f ← suite.feedback p.algorithm key start
    match Feedback.decrypt f start p.encrypted with
    | [] => .error .sessionKeyAlgorithm
    | id :: key =>
      match Symmetric.ofId? id.toNat with
      | none => .error .sessionKeyAlgorithm
      | some algorithm =>
        if key.length ≠ algorithm.keySize then .error (.sessionKeyLength algorithm)
        else return ⟨algorithm, key⟩

/-- The session key that a private key gives, if the octets were encrypted to it. -/
def openWith? (encrypted : Bytes) (k : DecryptionKey) : Option SessionKey := do
  let payload ← k.key.decrypt? (encrypted.padLeft k.key.half.size)
  (SessionKey.ofPayload payload).toOption

/-- The session keys that the private keys of a keyring give. -/
def openPkesk (ring : PrivateKeyring) (p : Pkesk) : Except Failure (List SessionKey) :=
  if !p.algorithm.encryptsWithRsa then .ok []
  else do
    let (encrypted, _) ← Mpi.read p.encrypted
    return (ring.find p.keyId).filterMap (openWith? encrypted)

/-- The results in order; failures of a class are set aside, and the last of them is kept, while any
other failure ends everything. -/
def gather {α β : Type} (aside : ErrorClass) (f : α → Except Failure β) :
    (last : Option Failure) → List α → Except Failure (List β × Option Failure)
  | last, [] => .ok ([], last)
  | last, a :: rest =>
    match f a with
    | .ok b => (gather aside f last rest).map fun (bs, last) => (b :: bs, last)
    | .error e => if e.kind.isA aside then gather aside f (some e) rest else .error e

/-- The session keys that an opener gives, at least one. -/
def sessionKeys (suite : Suite) (opener : Option Opener) (envelope : Envelope) :
    Except Failure (List SessionKey) := do
  let skesks := envelope.skesks.length
  let pkesks := envelope.pkesks.length
  match opener with
  | none => .error (.noDecryptionKey skesks pkesks)
  | some (.password octets) =>
    match ← gather .sessionKey (openSkesk suite octets) none envelope.skesks with
    | ([], none) => .error (.noSkeskForPassword skesks pkesks)
    | ([], some e) => .error e
    | (keys, _) => return keys
  | some (.keyring ring) =>
    match (← envelope.pkesks.mapM (openPkesk ring)).flatten with
    | [] => .error (.noKeyForRecipients skesks pkesks)
    | keys => return keys

/-! ## Content -/

/-- The packets in encrypted data. -/
def openData (suite : Suite) (data : Packet) (k : SessionKey) : Except Failure Bytes :=
  if data.tag = Tag.seipd then Sealed.decrypt suite k data.body
  else Sealed.decryptBare suite k data.body

/-- The first result; failed decryptions are set aside, and the last of them is the failure if there
is no result, while any other failure ends everything. -/
def firstOpened {α β : Type} (f : α → Except Failure β) : (last : Failure) → List α → Except Failure β
  | last, [] => .error last
  | _, a :: rest =>
    match f a with
    | .ok b => .ok b
    | .error e => if e.kind.isA .decryption then firstOpened f e rest else .error e

/-- Whether a packet in front of the literal data is skipped. -/
def isSkipped (p : Packet) : Bool :=
  p.tag == Tag.marker || p.tag == Tag.onePassSignature || p.tag == Tag.signature

/-- The literal data in packets that are compressed fewer than `fuel` times. -/
def literalWithin : (fuel : Nat) → (inner : Bytes) → Except Failure Literal
  | 0, _ => .error .nestedTooDeeply
  | fuel + 1, inner => do
    match (← Packet.read inner).dropWhile isSkipped with
    | [] => .error .noLiteral
    | p :: _ =>
      if p.tag = Tag.literal then Literal.ofBody p.body
      else if p.tag = Tag.compressed then literalWithin fuel (← decompress p.body)
      else .error (.unexpectedInner p.tag)

/-- How often packets may be compressed. -/
def maxNesting : Nat := 990

/-- The literal data in packets. -/
def literal (inner : Bytes) : Except Failure Literal := literalWithin maxNesting inner

/-- The content of a message, which may be in armor. -/
def decrypt (suite : Suite) (opener : Option Opener) (message : Bytes) : Except Failure Literal := do
  let envelope ← Envelope.read message
  let keys ← sessionKeys suite opener envelope
  literal (← firstOpened (openData suite envelope.data) .noSessionKeyFits keys)

end Cryptogram.Message
