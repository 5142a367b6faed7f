import Cryptogram.Mode.Chaining
import Cryptogram.Proofs.Mode.Buffered

/-!
# Laws of cipher block chaining

Both directions can stop after any block (`resumable_encryptor`, `resumable_decryptor`).  Where the
cipher is invertible, encryption and decryption of whole blocks undo each other (`decrypt_encrypt`,
`encrypt_decrypt`).
-/

namespace Cryptogram.Chaining

variable {c : BlockCipher}

theorem encryptFrom_append (previous : Bytes) (a b : List Bytes) :
    encryptFrom c previous (a ++ b) =
      ((encryptFrom c previous a).1 ++ (encryptFrom c (encryptFrom c previous a).2 b).1,
        (encryptFrom c (encryptFrom c previous a).2 b).2) := by
  induction a generalizing previous with
  | nil => rfl
  | cons block a ih => simp only [List.cons_append, encryptFrom, ih, List.append_assoc]

theorem decryptFrom_append (previous : Bytes) (a b : List Bytes) :
    decryptFrom c previous (a ++ b) =
      ((decryptFrom c previous a).1 ++ (decryptFrom c (decryptFrom c previous a).2 b).1,
        (decryptFrom c (decryptFrom c previous a).2 b).2) := by
  induction a generalizing previous with
  | nil => rfl
  | cons block a ih => simp only [List.cons_append, decryptFrom, ih, List.append_assoc]

theorem resumable_encryptor (h : 0 < c.size) : (encryptor c).Resumable where
  pos := h
  nil s := by simp only [encryptor, Bytes.blocks_nil, encryptFrom]
  append s a b ha := by
    have cut : (a ++ b).blocks c.size = a.blocks c.size ++ b.blocks c.size := Bytes.blocks_append ha b
    simp only [encryptor, cut, encryptFrom_append]

theorem resumable_decryptor (h : 0 < c.size) : (decryptor c).Resumable where
  pos := h
  nil s := by simp only [decryptor, Bytes.blocks_nil, decryptFrom]
  append s a b ha := by
    have cut : (a ++ b).blocks c.size = a.blocks c.size ++ b.blocks c.size := Bytes.blocks_append ha b
    simp only [decryptor, cut, decryptFrom_append]

theorem length_encryptFrom (previous : Bytes) (blocks : List Bytes) :
    (encryptFrom c previous blocks).1.length = blocks.length * c.size := by
  induction blocks generalizing previous with
  | nil => simp [encryptFrom]
  | cons block blocks ih =>
    simp only [encryptFrom, List.length_append, c.length_encrypt, ih, List.length_cons]
    ring

theorem length_decryptFrom {previous : Bytes} (hp : previous.length = c.size) {blocks : List Bytes}
    (hb : ∀ block ∈ blocks, block.length = c.size) :
    (decryptFrom c previous blocks).1.length = blocks.length * c.size := by
  induction blocks generalizing previous with
  | nil => simp [decryptFrom]
  | cons block blocks ih =>
    obtain ⟨first, others⟩ := List.forall_mem_cons.1 hb
    simp only [decryptFrom, List.length_append, Bytes.length_xor, c.length_decrypt, hp, Nat.min_self,
      ih first others, List.length_cons]
    ring

theorem length_encrypt (h : 0 < c.size) (iv : Bytes) {data : Bytes} (hd : c.size ∣ data.length) :
    (encrypt c iv data).length = data.length := by
  rw [encrypt, length_encryptFrom, Bytes.length_blocks h hd]

theorem length_decrypt (h : 0 < c.size) {iv data : Bytes} (hi : iv.length = c.size)
    (hd : c.size ∣ data.length) : (decrypt c iv data).length = data.length := by
  rw [decrypt, length_decryptFrom hi fun _ hb => Bytes.length_of_mem_blocks hd hb,
    Bytes.length_blocks h hd]

theorem decryptFrom_encryptFrom (hc : c.Invertible) (h : 0 < c.size) {previous : Bytes}
    (hp : previous.length = c.size) {blocks : List Bytes}
    (hb : ∀ block ∈ blocks, block.length = c.size) :
    (decryptFrom c previous ((encryptFrom c previous blocks).1.blocks c.size)).1 = blocks.flatten := by
  induction blocks generalizing previous with
  | nil => simp [encryptFrom, decryptFrom]
  | cons block blocks ih =>
    obtain ⟨first, others⟩ := List.forall_mem_cons.1 hb
    have width : (Bytes.xor block previous).length = c.size := by
      rw [Bytes.length_xor, first, hp, Nat.min_self]
    simp only [encryptFrom]
    rw [Bytes.blocks_cons_append h (c.length_encrypt _), decryptFrom]
    dsimp only
    rw [ih (c.length_encrypt _) others, hc.decrypt_encrypt _ width,
      Bytes.xor_xor_cancel (first.trans hp.symm).le, List.flatten_cons]

/-- Decryption undoes encryption on whole blocks. -/
theorem decrypt_encrypt (hc : c.Invertible) (h : 0 < c.size) {iv data : Bytes}
    (hi : iv.length = c.size) (hd : c.size ∣ data.length) :
    decrypt c iv (encrypt c iv data) = data := by
  rw [decrypt, encrypt,
    decryptFrom_encryptFrom hc h hi fun _ hb => Bytes.length_of_mem_blocks hd hb,
    Bytes.flatten_blocks h]

theorem encryptFrom_decryptFrom (hc : c.Invertible) (h : 0 < c.size) {previous : Bytes}
    (hp : previous.length = c.size) {blocks : List Bytes}
    (hb : ∀ block ∈ blocks, block.length = c.size) :
    (encryptFrom c previous ((decryptFrom c previous blocks).1.blocks c.size)).1 = blocks.flatten := by
  induction blocks generalizing previous with
  | nil => simp [encryptFrom, decryptFrom]
  | cons block blocks ih =>
    obtain ⟨first, others⟩ := List.forall_mem_cons.1 hb
    have image := c.length_decrypt block
    have width : (Bytes.xor (c.decrypt block) previous).length = c.size := by
      rw [Bytes.length_xor, image, hp, Nat.min_self]
    -- The ciphertext block that comes back is the one that masks the next block.
    have back : c.encrypt (Bytes.xor (Bytes.xor (c.decrypt block) previous) previous) = block := by
      rw [Bytes.xor_xor_cancel (image.trans hp.symm).le, hc.encrypt_decrypt _ first]
    simp only [decryptFrom]
    rw [Bytes.blocks_cons_append h width, encryptFrom]
    dsimp only
    rw [back, ih first others, List.flatten_cons]

/-- Encryption undoes decryption on whole blocks. -/
theorem encrypt_decrypt (hc : c.Invertible) (h : 0 < c.size) {iv data : Bytes}
    (hi : iv.length = c.size) (hd : c.size ∣ data.length) :
    encrypt c iv (decrypt c iv data) = data := by
  rw [encrypt, decrypt,
    encryptFrom_decryptFrom hc h hi fun _ hb => Bytes.length_of_mem_blocks hd hb,
    Bytes.flatten_blocks h]

end Cryptogram.Chaining
