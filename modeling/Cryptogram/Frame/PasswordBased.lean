import Cryptogram.Cipher.Transfer
import Cryptogram.Derivation
import Cryptogram.Entropy
import Cryptogram.Source

/-!
# Frames of password-based methods

The legacy derivation writes the salt and then the ciphertext.  The OpenSSL derivation writes a
marker and the salt, or the ciphertext alone when there is no salt.
-/

namespace Cryptogram.PasswordBased

/-- The marker in front of a salt. -/
def marker : Bytes := Bytes.ofAscii "Salted__"

/-- The number of salt octets behind the marker. -/
def markedSaltLength : Nat := 8

/-- Whether a method and a derivation make such frames. -/
def check (method : Method) (kdf : KeyDerivation) : Except Failure Unit :=
  if method.keyed || method.isOpenPgp then .error (.notPasswordBased method)
  else if KeyDerivation.forPassword.contains kdf then .ok ()
  else .error (.cannotFrame kdf)

/-- What stands in front of the ciphertext. -/
def header (kdf : KeyDerivation) (salt : Bytes) : Bytes :=
  if kdf = .opensslBytesToKey then if salt = [] then [] else marker ++ salt else salt

/-- Encrypts content under a password and a salt. -/
def encrypt (suite : Suite) (method : Method) (kdf : KeyDerivation) (password salt : Bytes)
    (settings : Settings) (source : Source) : Transfer Unit := do
  let derived ← Derivation.derive suite password salt kdf method settings
  Transfer.write (header kdf salt)
  let cipher ← suite.methodCipher method derived.key derived.iv
  let _ ← cipher.encryptPieces method.padSize (source.chunks settings.bufferSize.toNat)

/-- Encrypts content under a given salt, or under one that is drawn. -/
def encryptFresh (suite : Suite) (method : Method) (kdf : KeyDerivation) (password : Bytes)
    (salt : Option Bytes) (settings : Settings) (source : Source) (entropy : Entropy) :
    Transfer Unit × Entropy :=
  let (salt, entropy) := entropy.drawUnless salt (kdf.saltLength method)
  (encrypt suite method kdf password salt settings source, entropy)

/-- What a frame begins with: the salt, and ciphertext that was read along with it. -/
structure Opening where
  salt : Bytes
  head : Bytes
  deriving DecidableEq, Repr

/-- Reads the marker and the salt.  Input without the marker has no salt, and what was read is
ciphertext; padded ciphertext is never shorter than the marker. -/
def openMarked (padded : Bool) (source : Source) : Except Failure (Opening × Source) :=
  let (leading, source) := source.readExactly marker.length
  if leading.length < marker.length && padded then
    .error (.undersized .saltHeader marker.length leading.length)
  else if leading ≠ marker then .ok (⟨[], leading⟩, source)
  else
    let (salt, source) := source.readExactly markedSaltLength
    if salt.length < markedSaltLength then
      .error (.undersized .opensslSalt (marker.length + markedSaltLength)
        (leading.length + salt.length))
    else .ok (⟨salt, []⟩, source)

def openBare (length : Nat) (source : Source) : Except Failure (Opening × Source) :=
  let (salt, source) := source.readExactly length
  if salt.length < length then .error (.undersized .salt length salt.length)
  else .ok (⟨salt, []⟩, source)

/-- Reads what stands in front of the ciphertext. -/
def openFrame (method : Method) (kdf : KeyDerivation) (source : Source) :
    Except Failure (Opening × Source) :=
  if kdf = .opensslBytesToKey then openMarked (method.padSize ≠ 0) source
  else openBare (kdf.saltLength method) source

/-- Decrypts a frame under a password. -/
def decrypt (suite : Suite) (method : Method) (kdf : KeyDerivation) (password : Bytes)
    (settings : Settings) (source : Source) : Transfer Unit := do
  let (opening, source) ← openFrame method kdf source
  let derived ← Derivation.derive suite password opening.salt kdf method settings
  let cipher ← suite.methodCipher method derived.key derived.iv
  cipher.decryptPieces method.padSize 0
    (opening.head :: source.chunks settings.bufferSize.toNat)

end Cryptogram.PasswordBased
