import Cryptogram.BlockCipher.Aes
import Cryptogram.BlockCipher.Camellia
import Cryptogram.BlockCipher.Cast5
import Cryptogram.BlockCipher.Idea
import Cryptogram.BlockCipher.Rc2
import Cryptogram.BlockCipher.TripleDes
import Cryptogram.Digest.Md5
import Cryptogram.Digest.Name
import Cryptogram.Digest.Ripemd160
import Cryptogram.Digest.Sha1
import Cryptogram.Digest.Sha512
import Cryptogram.Stretch.Argon2
import Cryptogram.Stretch.Bcrypt
import Cryptogram.Stretch.Scrypt

/-!
# Suites of primitives

The formats and protocols of this library are defined over an arbitrary suite of hash functions,
block ciphers and key stretching functions: their laws do not depend on how a block is enciphered.
`Suite.standard` is the suite of the standard algorithms.
-/

namespace Cryptogram

/-- Hash functions, block ciphers under a key, and key stretching functions. -/
structure Suite where
  digest : HashName → Digest
  aes : (key : Bytes) → BlockCipher
  tripleDes : (key : Bytes) → BlockCipher
  rc2 : (effectiveBits : Nat) → (key : Bytes) → BlockCipher
  cast5 : (key : Bytes) → BlockFunction
  blowfish : (key : Bytes) → BlockFunction
  idea : (key : Bytes) → BlockFunction
  camellia : (key : Bytes) → BlockFunction
  pbkdf2 : (password salt : Bytes) → (iterations length : Nat) → Bytes
  /-- The digits of the hash, unless the salt is malformed. -/
  bcrypt : (cost : Nat) → (salt : List Char) → (password : Bytes) → Option (List Char)
  /-- The key, unless the parameters are out of reach. -/
  scrypt : (password salt : Bytes) → (n r p length : Nat) → Option Bytes
  /-- The key, unless the parameters are refused. -/
  argon2 : (layout : Argon2.Layout) → (password salt : Bytes) → (length : Nat) → Option Bytes
  size_digest : ∀ h, (digest h).size = h.size
  block_digest : ∀ h, (digest h).block = h.block
  size_aes : ∀ key, (aes key).size = 16
  size_tripleDes : ∀ key, (tripleDes key).size = 8
  size_rc2 : ∀ bits key, (rc2 bits key).size = 8
  size_cast5 : ∀ key, (cast5 key).size = 8
  size_blowfish : ∀ key, (blowfish key).size = 8
  size_idea : ∀ key, (idea key).size = 8
  size_camellia : ∀ key, (camellia key).size = 16

namespace Suite

attribute [simp] size_digest block_digest size_aes size_tripleDes size_rc2 size_cast5 size_blowfish
  size_idea size_camellia

/-- The ciphers that run backwards do so under every key. -/
structure Invertible (suite : Suite) : Prop where
  aes : ∀ key, (suite.aes key).Invertible
  tripleDes : ∀ key, (suite.tripleDes key).Invertible
  rc2 : ∀ bits key, (suite.rc2 bits key).Invertible

/-- The greatest amount of memory in octets that key stretching may take. -/
def memoryLimit : Nat := 0x1000000000

/-- Scrypt, unless its parameters violate the limits of the function or take too much memory. -/
def boundedScrypt (password salt : Bytes) (n r p length : Nat) : Option Bytes :=
  if n ≥ 1 <<< min 64 (16 * r) ∨ p * r ≥ 0x40000000 ∨ 128 * n * r > memoryLimit then none
  else some (Scrypt.derive password salt n r p length)

/-- Argon2id, unless the salt or the output is too short. -/
def boundedArgon2 (layout : Argon2.Layout) (password salt : Bytes) (length : Nat) : Option Bytes :=
  if salt.length < 8 ∨ length < 4 then none else some (Argon2.derive layout password salt length)

def standardDigest : HashName → Digest
  | .md5 => .md5
  | .sha1 => .sha1
  | .ripemd160 => .ripemd160
  | .sha224 => .sha224
  | .sha256 => .sha256
  | .sha384 => .sha384
  | .sha512 => .sha512

def standard : Suite where
  digest := standardDigest
  aes := .aes
  tripleDes := .tripleDes
  rc2 := .rc2
  cast5 := .cast5
  blowfish := .blowfish
  idea := .idea
  camellia := .camellia
  pbkdf2 := Pbkdf2.derive .sha512
  bcrypt := Bcrypt.hash?
  scrypt := boundedScrypt
  argon2 := boundedArgon2
  size_digest h := by cases h <;> rfl
  block_digest h := by cases h <;> rfl
  size_aes _ := rfl
  size_tripleDes _ := rfl
  size_rc2 _ _ := rfl
  size_cast5 _ := rfl
  size_blowfish _ := rfl
  size_idea _ := rfl
  size_camellia _ := rfl

end Suite

end Cryptogram
