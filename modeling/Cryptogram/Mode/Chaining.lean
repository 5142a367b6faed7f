import Cryptogram.BlockCipher.Basic
import Cryptogram.Mode.Buffered

/-!
# Cipher block chaining

Each block is combined with the ciphertext block before it, the first with the initial vector.
-/

namespace Cryptogram.Chaining

/-- The ciphertext of blocks behind the ciphertext block `previous`, and its last block. -/
def encryptFrom (c : BlockCipher) : (previous : Bytes) → List Bytes → Bytes × Bytes
  | previous, [] => ([], previous)
  | previous, block :: rest =>
    let encrypted := c.encrypt (Bytes.xor block previous)
    let (out, last) := encryptFrom c encrypted rest
    (encrypted ++ out, last)

/-- The plaintext of blocks behind the ciphertext block `previous`, and the last of the blocks. -/
def decryptFrom (c : BlockCipher) : (previous : Bytes) → List Bytes → Bytes × Bytes
  | previous, [] => ([], previous)
  | previous, block :: rest =>
    let (out, last) := decryptFrom c block rest
    (Bytes.xor (c.decrypt block) previous ++ out, last)

def encrypt (c : BlockCipher) (iv data : Bytes) : Bytes :=
  (encryptFrom c iv (data.blocks c.size)).1

def decrypt (c : BlockCipher) (iv data : Bytes) : Bytes :=
  (decryptFrom c iv (data.blocks c.size)).1

/-- Encryption as a transform whose state is the ciphertext block before. -/
def encryptor (c : BlockCipher) : BlockTransform Bytes :=
  ⟨c.size, fun previous data => encryptFrom c previous (data.blocks c.size)⟩

/-- Decryption as a transform whose state is the ciphertext block before. -/
def decryptor (c : BlockCipher) : BlockTransform Bytes :=
  ⟨c.size, fun previous data => decryptFrom c previous (data.blocks c.size)⟩

end Cryptogram.Chaining
