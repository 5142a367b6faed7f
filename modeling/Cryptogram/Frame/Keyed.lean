import Cryptogram.Cipher.Transfer
import Cryptogram.Derivation
import Cryptogram.Entropy
import Cryptogram.Source

/-!
# Frames of keyed methods

An initial vector and a delimiter stand in front of the ciphertext; with a derived key, a salt and a
delimiter stand in front of these.  The mode with tags writes its tag behind the ciphertext.
-/

namespace Cryptogram.Keyed

/-- What follows a salt. -/
def saltDelimiter : Bytes := Bytes.ofAscii "NiFiSALT"

/-- What follows an initial vector. -/
def ivDelimiter : Bytes := Bytes.ofAscii "NiFiIV"

/-- The number of octets of an initial vector. -/
def ivLength : Nat := 16

/-- Where the key comes from. -/
inductive Secret
  /-- The key itself. -/
  | raw (key : Bytes)
  /-- A password for a strong derivation. -/
  | password (octets : Bytes) (kdf : KeyDerivation)
  deriving DecidableEq, Repr

namespace Secret

/-- The source of the key for a method and a derivation, from what was given. -/
def check (method : Method) (kdf : KeyDerivation) (key password : Option Bytes) :
    Except Failure Secret :=
  if !method.keyed then .error (.notKeyed method)
  else if kdf = .rawKey then
    match key with
    | none => .error (.rawKeyMissing method)
    | some key =>
      if Method.rawKeyBits.contains (8 * key.length) then .ok (.raw key)
      else .error (.rawKeyBits method (8 * key.length))
  else if !kdf.strong then .error (.notStrong method kdf)
  else match password with
    | none => .error (.passwordMissing method kdf)
    | some password => .ok (.password password kdf)

/-- The number of salt octets, if there is a salt. -/
def saltLength? : Secret → Option Nat
  | .raw _ => none
  | .password _ kdf => some kdf.ownSaltLength

/-- The key under a salt. -/
def key (suite : Suite) (method : Method) (settings : Settings) (salt : Bytes) :
    Secret → Except Failure Bytes
  | .raw key => .ok key
  | .password octets kdf =>
    (Derivation.derive suite octets salt kdf method settings).map DerivedKey.key

end Secret

/-- The number of octets of the tag behind the ciphertext. -/
def tagLength (method : Method) : Nat := if method.mode = .gcm then Galois.tagLength else 0

/-- Encrypts content; the salt takes part only where there is one. -/
def encrypt (suite : Suite) (method : Method) (secret : Secret) (salt iv : Bytes)
    (settings : Settings) (source : Source) : Transfer Unit := do
  let salt := if secret.saltLength?.isSome then salt else []
  if secret.saltLength?.isSome then Transfer.write (salt ++ saltDelimiter)
  Transfer.write (iv ++ ivDelimiter)
  let key ← secret.key suite method settings salt
  let cipher ← suite.methodCipher method key iv
  let final ← cipher.encryptPieces method.padSize (source.chunks settings.bufferSize.toNat)
  if tagLength method ≠ 0 then Transfer.write (final.tag?.getD [])

/-- Encrypts content under a given salt and initial vector, or under ones that are drawn. -/
def encryptFresh (suite : Suite) (method : Method) (secret : Secret) (salt iv : Option Bytes)
    (settings : Settings) (source : Source) (entropy : Entropy) : Transfer Unit × Entropy :=
  let (salt, entropy) :=
    match secret.saltLength? with
    | some length => entropy.drawUnless salt length
    | none => ([], entropy)
  let (iv, entropy) := entropy.drawUnless iv ivLength
  (encrypt suite method secret salt iv settings source, entropy)

/-- Reads a field and its delimiter. -/
def readField (length : Nat) (delimiter : Bytes) (what : Missing) (undelimited : Failure)
    (source : Source) : Except Failure (Bytes × Source) :=
  let (data, source) := source.readExactly (length + delimiter.length)
  if data.length < length + delimiter.length then
    .error (.undersized what (length + delimiter.length) data.length)
  else if data.drop length ≠ delimiter then .error undelimited
  else .ok (data.take length, source)

/-- Reads the salt, where there is one, and the initial vector. -/
def openFrame (secret : Secret) (source : Source) : Except Failure (Bytes × Bytes × Source) := do
  let (salt, source) ←
    match secret.saltLength? with
    | some length => readField length saltDelimiter .salt .missingSaltDelimiter source
    | none => .ok ([], source)
  let (iv, source) ← readField ivLength ivDelimiter .iv .missingIvDelimiter source
  return (salt, iv, source)

def decrypt (suite : Suite) (method : Method) (secret : Secret) (settings : Settings)
    (source : Source) : Transfer Unit := do
  let (salt, iv, source) ← openFrame secret source
  let key ← secret.key suite method settings salt
  let cipher ← suite.methodCipher method key iv
  cipher.decryptPieces method.padSize (tagLength method) (source.chunks settings.bufferSize.toNat)

end Cryptogram.Keyed
