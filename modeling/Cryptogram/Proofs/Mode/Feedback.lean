import Cryptogram.Mode.Feedback
import Cryptogram.Proofs.Octets

/-!
# Laws of cipher feedback

Over any block function, ciphertext and plaintext have the same length (`length_encrypt`,
`length_decrypt`), and encryption and decryption undo each other (`decrypt_encrypt`,
`encrypt_decrypt`).
-/

namespace Cryptogram.Feedback

variable {f : BlockFunction}

/-! ## One block -/

theorem length_xor_apply (previous : Bytes) {block : Bytes} (h : block.length ≤ f.size) :
    (Bytes.xor block (f.apply previous)).length = block.length := by
  rw [Bytes.length_xor, f.length_apply, Nat.min_eq_left h]

theorem xor_apply_ne_nil (previous : Bytes) {block : Bytes} (h : block.length ≤ f.size)
    (ne : block ≠ []) : Bytes.xor block (f.apply previous) ≠ [] := by
  rw [← List.length_pos_iff, length_xor_apply previous h]
  exact List.length_pos_iff.2 ne

theorem xor_apply_xor_apply (previous : Bytes) {block : Bytes} (h : block.length ≤ f.size) :
    Bytes.xor (Bytes.xor block (f.apply previous)) (f.apply previous) = block :=
  Bytes.xor_xor_cancel (by rw [f.length_apply]; exact h)

/-! ## Lengths -/

theorem length_encryptFrom (previous : Bytes) {blocks : List Bytes}
    (h : ∀ block ∈ blocks, block.length ≤ f.size) :
    (encryptFrom f previous blocks).length = (blocks.map List.length).sum := by
  induction blocks generalizing previous with
  | nil => rfl
  | cons block blocks ih =>
    obtain ⟨first, others⟩ := List.forall_mem_cons.1 h
    simp only [encryptFrom]
    rw [List.length_append, length_xor_apply _ first, ih _ others, List.map_cons, List.sum_cons]

@[simp] theorem length_encrypt (h : 0 < f.size) (iv data : Bytes) :
    (encrypt f iv data).length = data.length := by
  rw [encrypt, length_encryptFrom _ fun _ hb => Bytes.length_le_of_mem_blocks h hb,
    ← List.length_flatten, Bytes.flatten_blocks h]

theorem length_decryptFrom (previous : Bytes) {blocks : List Bytes}
    (h : ∀ block ∈ blocks, block.length ≤ f.size) :
    (decryptFrom f previous blocks).length = (blocks.map List.length).sum := by
  induction blocks generalizing previous with
  | nil => rfl
  | cons block blocks ih =>
    obtain ⟨first, others⟩ := List.forall_mem_cons.1 h
    simp only [decryptFrom]
    rw [List.length_append, length_xor_apply _ first, ih _ others, List.map_cons, List.sum_cons]

@[simp] theorem length_decrypt (h : 0 < f.size) (iv data : Bytes) :
    (decrypt f iv data).length = data.length := by
  rw [decrypt, length_decryptFrom _ fun _ hb => Bytes.length_le_of_mem_blocks h hb,
    ← List.length_flatten, Bytes.flatten_blocks h]

/-! ## There and back -/

theorem decryptFrom_encryptFrom (h : 0 < f.size) (previous data : Bytes) :
    decryptFrom f previous ((encryptFrom f previous (data.blocks f.size)).blocks f.size) = data := by
  induction data using Bytes.block_induction h generalizing previous with
  | nil => simp [encryptFrom, decryptFrom]
  | short data ne hl =>
    have width := length_xor_apply previous hl.le
    rw [Bytes.blocks_of_length_le ne hl.le]
    simp only [encryptFrom, List.append_nil]
    rw [Bytes.blocks_of_length_le (xor_apply_ne_nil previous hl.le ne) (by omega)]
    simp only [decryptFrom, List.append_nil]
    exact xor_apply_xor_apply previous hl.le
  | whole block rest hb ih =>
    have width := length_xor_apply previous hb.le
    rw [Bytes.blocks_cons_append h hb]
    simp only [encryptFrom]
    rw [Bytes.blocks_cons_append h (width.trans hb), decryptFrom, ih,
      xor_apply_xor_apply previous hb.le]

/-- Decryption undoes encryption. -/
theorem decrypt_encrypt (h : 0 < f.size) (iv data : Bytes) :
    decrypt f iv (encrypt f iv data) = data :=
  decryptFrom_encryptFrom h iv data

theorem encryptFrom_decryptFrom (h : 0 < f.size) (previous data : Bytes) :
    encryptFrom f previous ((decryptFrom f previous (data.blocks f.size)).blocks f.size) = data := by
  induction data using Bytes.block_induction h generalizing previous with
  | nil => simp [encryptFrom, decryptFrom]
  | short data ne hl =>
    have width := length_xor_apply previous hl.le
    rw [Bytes.blocks_of_length_le ne hl.le]
    simp only [decryptFrom, List.append_nil]
    rw [Bytes.blocks_of_length_le (xor_apply_ne_nil previous hl.le ne) (by omega)]
    simp only [encryptFrom, List.append_nil]
    exact xor_apply_xor_apply previous hl.le
  | whole block rest hb ih =>
    have width := length_xor_apply previous hb.le
    rw [Bytes.blocks_cons_append h hb]
    simp only [decryptFrom]
    rw [Bytes.blocks_cons_append h (width.trans hb)]
    -- The next block is masked by the ciphertext block that has come back.
    simp only [encryptFrom]
    rw [xor_apply_xor_apply previous hb.le, ih]

/-- Encryption undoes decryption. -/
theorem encrypt_decrypt (h : 0 < f.size) (iv data : Bytes) :
    encrypt f iv (decrypt f iv data) = data :=
  encryptFrom_decryptFrom h iv data

end Cryptogram.Feedback
