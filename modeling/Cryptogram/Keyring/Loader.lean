import Cryptogram.Cache
import Cryptogram.Keyring.Private
import Cryptogram.Keyring.Public
import Cryptogram.Keyring.Source

/-!
# Loading keys

A loader finds keys in the keyrings of a shelf.  It remembers the recipients of public keyrings by a
hash of their octets, so that a keyring that has changed is read again.
-/

namespace Cryptogram.Keyring

/-- A shelf of keyrings with a memory. -/
structure Loader where
  shelf : Shelf := {}
  cache : Cache Bytes (List PublicEntry)

namespace Loader

/-- The recipients in a keyring, and the cache afterwards. -/
def entries (suite : Suite) (l : Loader) (location : String) (data : Bytes) :
    Except Failure (List PublicEntry) × Loader :=
  let (entries, cache) :=
    l.cache.getOrLoad ((suite.digest .sha256).hash data) fun _ =>
      PublicEntry.readAll suite location data
  (entries, { l with cache := cache })

/-- The key of a recipient, and the loader afterwards. -/
def publicKey (suite : Suite) (l : Loader) (location userId : String) :
    Except Failure EncryptionKey × Loader :=
  match l.shelf.read location with
  | .error e => (.error e, l)
  | .ok data =>
    let (entries, l) := l.entries suite location data
    (entries >>= PublicEntry.select location userId, l)

/-- The private keyring that a passphrase opens. -/
def privateKeyring (suite : Suite) (l : Loader) (location : String) (passphrase : Bytes) :
    Except Failure PrivateKeyring := do
  readPrivate suite location passphrase (← l.shelf.read location)

end Loader

end Cryptogram.Keyring
