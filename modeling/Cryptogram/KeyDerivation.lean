import Cryptogram.Method

/-!
# Key derivation functions

The closed catalog of the ways in which a password becomes a key.  The legacy and the OpenSSL
functions serve the password-based methods; the strong ones, and a raw key without derivation, serve
the keyed methods.
-/

namespace Cryptogram

/-- A way to come by a key. -/
inductive KeyDerivation
  /-- The key itself is given. -/
  | rawKey
  | legacy
  | opensslBytesToKey
  | bcrypt
  | scrypt
  | pbkdf2
  | argon2
  deriving DecidableEq, Repr

namespace KeyDerivation

/-- Every derivation, in the order of the catalog. -/
def all : List KeyDerivation :=
  [.rawKey, .legacy, .opensslBytesToKey, .bcrypt, .scrypt, .pbkdf2, .argon2]

def name : KeyDerivation → String
  | .rawKey => "NONE"
  | .legacy => "NIFI_LEGACY"
  | .opensslBytesToKey => "OPENSSL_EVP_BYTES_TO_KEY"
  | .bcrypt => "BCRYPT"
  | .scrypt => "SCRYPT"
  | .pbkdf2 => "PBKDF2"
  | .argon2 => "ARGON2"

def displayName : KeyDerivation → String
  | .rawKey => "None"
  | .legacy => "NiFi Legacy KDF"
  | .opensslBytesToKey => "OpenSSL EVP_BytesToKey"
  | .bcrypt => "Bcrypt"
  | .scrypt => "Scrypt"
  | .pbkdf2 => "PBKDF2"
  | .argon2 => "Argon2"

def description : KeyDerivation → String
  | .rawKey => "The cipher is given a raw key conforming to the algorithm specifications"
  | .legacy => "MD5 @ 1000 iterations"
  | .opensslBytesToKey => "Single iteration MD5 compatible with PKCS#5 v1.5"
  | .bcrypt => "Bcrypt with configurable work factor"
  | .scrypt => "Scrypt with configurable cost parameters"
  | .pbkdf2 => "PBKDF2 with configurable hash function and iteration count"
  | .argon2 => "Argon2id with configurable cost parameters"

/-- Whether the derivation is deliberately expensive. -/
def strong : KeyDerivation → Bool
  | .bcrypt => true
  | .scrypt => true
  | .pbkdf2 => true
  | .argon2 => true
  | _ => false

/-- The length of the salt; that of the legacy derivation depends on the method. -/
def ownSaltLength : KeyDerivation → Nat
  | .rawKey => 0
  | .legacy => 0
  | .opensslBytesToKey => 8
  | _ => 16

/-- The number of salt octets that the derivation takes for a method. -/
def saltLength (kdf : KeyDerivation) (method : Method) : Nat :=
  if kdf = .legacy then method.legacySaltLength else kdf.ownSaltLength

/-- The derivations of password-based methods. -/
def forPassword : List KeyDerivation := [.legacy, .opensslBytesToKey]

/-- The derivations of keyed methods. -/
def forKeyed : List KeyDerivation := [.bcrypt, .scrypt, .pbkdf2, .argon2, .rawKey]

def ofName? (name : String) : Option KeyDerivation := all.find? fun k => k.name = name

end KeyDerivation

end Cryptogram
