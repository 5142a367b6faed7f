import Cryptogram.Word

/-!
# Block ciphers under a key

A mode that only ever runs a cipher forwards (counter and feedback modes) needs a block function; a
mode that runs it backwards needs its inverse too.  Whether the second function really inverts the
first is a hypothesis (`BlockCipher.Invertible`) of the statements that depend on it.
-/

namespace Cryptogram

/-- A function on blocks of fixed size: a cipher under a key, in its forward direction. -/
structure BlockFunction where
  /-- The number of octets of a block. -/
  size : Nat
  /-- The image of a block. -/
  apply : Bytes → Bytes
  length_apply : ∀ block, (apply block).length = size

attribute [simp] BlockFunction.length_apply

/-- A cipher under a key, in both directions. -/
structure BlockCipher where
  /-- The number of octets of a block. -/
  size : Nat
  /-- The ciphertext of a block. -/
  encrypt : Bytes → Bytes
  /-- The plaintext of a block. -/
  decrypt : Bytes → Bytes
  length_encrypt : ∀ block, (encrypt block).length = size
  length_decrypt : ∀ block, (decrypt block).length = size

attribute [simp] BlockCipher.length_encrypt BlockCipher.length_decrypt

namespace BlockCipher

def forward (c : BlockCipher) : BlockFunction := ⟨c.size, c.encrypt, c.length_encrypt⟩

/-- The two directions undo each other on blocks of the right size. -/
structure Invertible (c : BlockCipher) : Prop where
  decrypt_encrypt : ∀ block, block.length = c.size → c.decrypt (c.encrypt block) = block
  encrypt_decrypt : ∀ block, block.length = c.size → c.encrypt (c.decrypt block) = block

end BlockCipher

end Cryptogram
