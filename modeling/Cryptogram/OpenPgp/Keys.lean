import Cryptogram.OpenPgp.Rsa
import Cryptogram.Text.Hex

/-!
# Keys for messages

The public key of a recipient, as it was found in a keyring, and the private keys that a passphrase
has opened.
-/

namespace Cryptogram

structure EncryptionKey where
  /-- The text by which the recipient was asked for. -/
  userId : String
  /-- The eight octets by which packets refer to the key. -/
  keyId : Bytes
  /-- The fingerprint of the recipient's primary key. -/
  fingerprint : Bytes
  key : Rsa.PublicKey
  deriving DecidableEq, Repr

structure DecryptionKey where
  /-- The eight octets by which packets refer to the key. -/
  keyId : Bytes
  key : Rsa.PrivateKey
  deriving DecidableEq, Repr

/-- What may be shown of a private key. -/
def DecryptionKey.text (k : DecryptionKey) : String :=
  let keyId := Text.hex k.keyId
  s!"PrivateDecryptionKey(key_id={keyId})"

/-- Private keys, in the order of their keyring. -/
structure PrivateKeyring where
  keys : List DecryptionKey
  deriving DecidableEq, Repr

namespace PrivateKeyring

/-- The key id that stands for any key. -/
def anyKeyId : Bytes := Bytes.zeros 8

/-- The keys that a key id refers to. -/
def find (ring : PrivateKeyring) (keyId : Bytes) : List DecryptionKey :=
  if keyId = anyKeyId then ring.keys else ring.keys.filter fun k => k.keyId = keyId

def size (ring : PrivateKeyring) : Nat := ring.keys.length

end PrivateKeyring

end Cryptogram
