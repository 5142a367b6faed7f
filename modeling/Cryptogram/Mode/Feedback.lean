import Cryptogram.BlockCipher.Basic

/-!
# Cipher feedback

Each block is combined with the image of the ciphertext block before it, the first with the image of
the initial vector.  The last block may be shorter.  Only the forward direction of a cipher is used.
-/

namespace Cryptogram.Feedback

/-- The ciphertext of blocks behind the ciphertext block `previous`. -/
def encryptFrom (f : BlockFunction) : (previous : Bytes) → List Bytes → Bytes
  | _, [] => []
  | previous, block :: rest =>
    let encrypted := Bytes.xor block (f.apply previous)
    encrypted ++ encryptFrom f encrypted rest

/-- The plaintext of blocks behind the ciphertext block `previous`. -/
def decryptFrom (f : BlockFunction) : (previous : Bytes) → List Bytes → Bytes
  | _, [] => []
  | previous, block :: rest => Bytes.xor block (f.apply previous) ++ decryptFrom f block rest

def encrypt (f : BlockFunction) (iv data : Bytes) : Bytes := encryptFrom f iv (data.blocks f.size)

def decrypt (f : BlockFunction) (iv data : Bytes) : Bytes := decryptFrom f iv (data.blocks f.size)

end Cryptogram.Feedback
