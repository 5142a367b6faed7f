import Cryptogram.Digest.Basic

/-!
# Keyed hashing

Message authentication with a hash function: the key is mixed into an inner and an outer hash.
-/

namespace Cryptogram.Digest

/-- The key filled up to one block; a longer key is hashed first. -/
def blockKey (d : Digest) (key : Bytes) : Bytes :=
  let short := if key.length > d.block then d.hash key else key
  short ++ Bytes.zeros (d.block - short.length)

/-- The authentication code of a message under a key. -/
def hmac (d : Digest) (key message : Bytes) : Bytes :=
  let k := d.blockKey key
  d.hash (k.map (· ^^^ 0x5c) ++ d.hash (k.map (· ^^^ 0x36) ++ message))

@[simp] theorem length_hmac (d : Digest) (key message : Bytes) :
    (d.hmac key message).length = d.size :=
  d.length_hash _

end Cryptogram.Digest
