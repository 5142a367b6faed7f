import Cryptogram.Proofs.OpenPgp.Integrity

/-!
# Data without integrity protection

Feedback starts anew behind the repeated octets, from the last block of their ciphertext
(`bareOctets`).  A body opens to what such octets were written around, for exactly one block
(`decryptBare_iff_bareOctets`); a body that is too short, or whose octets are not repeated, fails for
just that.
-/

namespace Cryptogram.Sealed

variable {suite : Suite} {k : SessionKey} {f : BlockFunction} {block body : Bytes} {size : Nat}

/-! ## The repeated octets -/

theorem leads_lead (two : 2 ≤ block.length) : leads block.length (lead block) = true := by
  simpa only [List.append_nil] using leads_lead_append two []

theorem take_lead (block : Bytes) : (lead block).take block.length = block := by
  rw [lead, List.take_left]

/-- Octets of the right number repeat two of them exactly if they are a block with its last two
octets again. -/
theorem leads_iff {plain : Bytes} (two : 2 ≤ size) (length : plain.length = size + 2) :
    leads size plain = true ↔ ∃ block : Bytes, block.length = size ∧ plain = lead block := by
  constructor
  · intro repeated
    refine ⟨plain.take size, ?_, ?_⟩
    · rw [List.length_take]
      omega
    · rw [lead_take two length.ge repeated, List.take_of_length_le length.le]
  · rintro ⟨block, rfl, rfl⟩
    exact leads_lead two

/-! ## The octets of a body -/

/-- The octets of a body around packets: by cipher feedback from zeros, a block with its last two
octets repeated, and by feedback from the last octets of that, as many as a block has, the packets. -/
def bareOctets (f : BlockFunction) (block inner : Bytes) : Bytes :=
  let front := Feedback.encrypt f (Bytes.zeros block.length) (block ++ block.drop (block.length - 2))
  front ++ Feedback.encrypt f (front.drop (front.length - block.length)) inner

/-- The part of the octets in front of the packets. -/
def bareFront (f : BlockFunction) (block : Bytes) : Bytes :=
  Feedback.encrypt f (Bytes.zeros block.length) (lead block)

theorem length_bareFront (pos : 0 < f.size) (two : 2 ≤ block.length) :
    (bareFront f block).length = block.length + 2 := by
  rw [bareFront, Feedback.length_encrypt pos, length_lead two]

theorem bareOctets_eq (pos : 0 < f.size) (two : 2 ≤ block.length) (inner : Bytes) :
    bareOctets f block inner =
      bareFront f block ++ Feedback.encrypt f ((bareFront f block).drop 2) inner := by
  have window : (bareFront f block).length - block.length = 2 := by
    rw [length_bareFront pos two]
    omega
  show bareFront f block ++ Feedback.encrypt f
    ((bareFront f block).drop ((bareFront f block).length - block.length)) inner = _
  rw [window]

theorem take_bareOctets (pos : 0 < f.size) (two : 2 ≤ block.length) (inner : Bytes) :
    (bareOctets f block inner).take (block.length + 2) = bareFront f block := by
  rw [bareOctets_eq pos two, List.take_left' (length_bareFront pos two)]

theorem drop_bareOctets (pos : 0 < f.size) (two : 2 ≤ block.length) (inner : Bytes) :
    (bareOctets f block inner).drop (block.length + 2) =
      Feedback.encrypt f ((bareFront f block).drop 2) inner := by
  rw [bareOctets_eq pos two, List.drop_left' (length_bareFront pos two)]

/-- The block is told from the octets. -/
theorem take_decrypt_bareOctets (pos : 0 < f.size) (two : 2 ≤ block.length) (inner : Bytes) :
    (Feedback.decrypt f (Bytes.zeros block.length)
      ((bareOctets f block inner).take (block.length + 2))).take block.length = block := by
  rw [take_bareOctets pos two, bareFront, Feedback.decrypt_encrypt pos, take_lead]

/-- A body is made of the octets around a block if its front comes from that block. -/
theorem bareOctets_decrypt (pos : 0 < f.size) (two : 2 ≤ block.length)
    (front : Feedback.decrypt f (Bytes.zeros block.length) (body.take (block.length + 2)) =
      lead block) :
    bareOctets f block (Feedback.decrypt f ((body.take (block.length + 2)).drop 2)
      (body.drop (block.length + 2))) = body := by
  have written : bareFront f block = body.take (block.length + 2) := by
    rw [bareFront, ← front, Feedback.encrypt_decrypt pos]
  rw [bareOctets_eq pos two, written, Feedback.encrypt_decrypt pos, List.take_append_drop]

/-! ## Decryption -/

theorem decryptBare_eq (found : suite.feedback k.algorithm k.key (zeroBlock k) = .ok f)
    (body : Bytes) : decryptBare suite k body =
      let leadSize := k.algorithm.blockSize + 2
      if body.length < leadSize then .error (.encryptedShort body.length leadSize)
      else if leads k.algorithm.blockSize (Feedback.decrypt f (zeroBlock k) (body.take leadSize))
      then .ok (Feedback.decrypt f ((body.take leadSize).drop 2) (body.drop leadSize))
      else .error .feedbackCheck := by
  rw [decryptBare, found]
  simp only [bind, Except.bind, Bool.not_eq_true', pure, Except.pure]
  cases leads k.algorithm.blockSize (Feedback.decrypt f (zeroBlock k)
    (body.take (k.algorithm.blockSize + 2))) <;> rfl

theorem decryptBare_bareOctets (found : suite.feedback k.algorithm k.key (zeroBlock k) = .ok f)
    (pos : 0 < f.size) (hb : block.length = k.algorithm.blockSize) (two : 2 ≤ block.length)
    (inner : Bytes) : decryptBare suite k (bareOctets f block inner) = .ok inner := by
  have enough : ¬ (bareOctets f block inner).length < block.length + 2 := by
    rw [bareOctets_eq pos two, List.length_append, length_bareFront pos two]
    omega
  rw [decryptBare_eq found]
  dsimp only
  rw [zeroBlock, ← hb, if_neg enough, take_bareOctets pos two, drop_bareOctets pos two, bareFront,
    Feedback.decrypt_encrypt pos, Feedback.decrypt_encrypt pos, leads_lead two]
  rfl

/-- A body opens to packets exactly if it is made of the octets around them, for exactly one block;
and it fails for its length if it has less than a block and two octets, and for its repeated octets
if they are not repeated. -/
theorem decryptBare_iff_bareOctets (suite : Suite) (hs : k.algorithm.supported = true)
    (hk : k.key.length = k.algorithm.keySize) :
    ∃ f : BlockFunction, suite.feedback k.algorithm k.key (zeroBlock k) = .ok f ∧
      f.size = k.algorithm.blockSize ∧
      (∀ block inner : Bytes, block.length = k.algorithm.blockSize →
        decryptBare suite k (bareOctets f block inner) = .ok inner) ∧
      (∀ body inner : Bytes, decryptBare suite k body = .ok inner →
        ∃! block : Bytes, block.length = k.algorithm.blockSize ∧ body = bareOctets f block inner) ∧
      (∀ body : Bytes, body.length < k.algorithm.blockSize + 2 →
        ∃ e, decryptBare suite k body = .error e ∧ e.kind = .own .pgpFormat) ∧
      (∀ body : Bytes, k.algorithm.blockSize + 2 ≤ body.length →
        (¬ ∃ block : Bytes, block.length = k.algorithm.blockSize ∧
          Feedback.decrypt f (Bytes.zeros k.algorithm.blockSize)
            (body.take (k.algorithm.blockSize + 2)) = block ++ block.drop (block.length - 2)) →
        ∃ e, decryptBare suite k body = .error e ∧ e.kind = .own .decryption) := by
  obtain ⟨f, size, usable⟩ := suite.exists_feedback hs hk
  obtain ⟨eight, -⟩ := Symmetric.blockSize_le hs
  have found := usable _ (length_zeroBlock k)
  have pos : 0 < f.size := by omega
  have width {body : Bytes} (enough : k.algorithm.blockSize + 2 ≤ body.length) :
      (Feedback.decrypt f (zeroBlock k) (body.take (k.algorithm.blockSize + 2))).length =
        k.algorithm.blockSize + 2 := by
    rw [Feedback.length_decrypt pos, List.length_take]
    omega
  refine ⟨f, found, size, fun block inner hb => ?_, fun body inner opened => ?_,
    fun body short => ?_, fun body enough foreign => ?_⟩
  · exact decryptBare_bareOctets found pos hb (by omega) inner
  · rw [decryptBare_eq found] at opened
    dsimp only at opened
    split_ifs at opened with short repeated
    obtain ⟨block, hb, front⟩ := (leads_iff (by omega) (width (by omega))).1 repeated
    cases opened
    refine ⟨block, ⟨hb, ?_⟩, ?_⟩
    · rw [zeroBlock, ← hb] at front
      rw [← hb, bareOctets_decrypt pos (by omega) front]
    · rintro other ⟨length, written⟩
      have two : 2 ≤ other.length := by omega
      rw [← take_decrypt_bareOctets pos two _, ← written, length]
      rw [zeroBlock] at front
      rw [front, ← hb, take_lead]
  · refine ⟨.encryptedShort body.length (k.algorithm.blockSize + 2), ?_, rfl⟩
    rw [decryptBare_eq found]
    exact if_pos short
  · have unrepeated := mt (leads_iff (by omega) (width enough)).1 foreign
    refine ⟨.feedbackCheck, ?_, rfl⟩
    rw [decryptBare_eq found]
    dsimp only
    rw [if_neg (by omega), if_neg unrepeated]

/-- A body under CAST5 whose packets fill one block and a part of the next. -/
theorem decryptBare_iff_bareOctets_cast5 :
    let k : SessionKey := ⟨.cast5, List.replicate 16 7⟩
    let body : Bytes := [181, 106, 215, 145, 46, 52, 204, 175, 245, 43, 69, 123, 178, 151, 233, 188,
      135, 113, 100, 167]
    k.algorithm.supported = true ∧ k.key.length = k.algorithm.keySize ∧
      ∃ f : BlockFunction, Suite.standard.feedback k.algorithm k.key (zeroBlock k) = .ok f ∧
        ∃! block : Bytes, block.length = k.algorithm.blockSize ∧
          body = bareOctets f block [0xcb, 0x08, 0x62, 0, 0, 0, 0, 0, 104, 105] := by
  intro k body
  have supported : k.algorithm.supported = true := by decide
  have width : k.key.length = k.algorithm.keySize := by decide
  have opened : decryptBare .standard k body = .ok [0xcb, 0x08, 0x62, 0, 0, 0, 0, 0, 104, 105] := by
    decide +kernel
  obtain ⟨f, found, -, -, unique, -⟩ := decryptBare_iff_bareOctets .standard supported width
  exact ⟨supported, width, f, found, unique body _ opened⟩

end Cryptogram.Sealed
