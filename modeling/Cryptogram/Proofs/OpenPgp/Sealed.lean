import Cryptogram.OpenPgp.Sealed
import Cryptogram.Proofs.Mode.Feedback

/-!
# Encrypted data there and back

Encryption with integrity protection writes the octets of a body around packets (`encrypt_eq`), and
decryption finds the packets in them (`decrypt_octets`).  How decryption of other bodies ends is told by
`decrypt_cases`.
-/

namespace Cryptogram

/-! ## Ciphers of algorithms -/

theorem Symmetric.exists_primitive {a : Symmetric} (h : a.supported = true) :
    ∃ p, a.primitive? = some p ∧ p.accepts (8 * a.keySize) = true := by
  unfold Symmetric.supported at h
  cases e : a.primitive? with
  | none => simp [e] at h
  | some p =>
    simp only [e, Bool.and_eq_true] at h
    exact ⟨p, rfl, h.2⟩

theorem Suite.size_forward (suite : Suite) {a : Symmetric} {p : Primitive} (h : a.primitive? = some p)
    (key : Bytes) : (suite.forward p key).size = a.blockSize := by
  cases a <;> cases h <;> simp [Suite.forward, BlockCipher.forward, Symmetric.blockSize]

theorem Symmetric.blockSize_le {a : Symmetric} (h : a.supported = true) :
    8 ≤ a.blockSize ∧ a.blockSize ≤ 16 := by
  cases a <;> cases h <;> decide

theorem Symmetric.keySize_le {a : Symmetric} : a.keySize ≤ 32 := by
  cases a <;> decide

/-- A supported algorithm has a block function under every key of its size. -/
theorem Suite.exists_feedback (suite : Suite) {a : Symmetric} (h : a.supported = true) {key : Bytes}
    (hk : key.length = a.keySize) : ∃ f : BlockFunction, f.size = a.blockSize ∧
      ∀ iv : Bytes, iv.length = a.blockSize → suite.feedback a key iv = .ok f := by
  obtain ⟨p, hp, accepts⟩ := Symmetric.exists_primitive h
  have size := suite.size_forward hp key
  refine ⟨suite.forward p key, size, fun iv hi => ?_⟩
  have found : a.primitiveFor key = .ok p := by
    simp only [Symmetric.primitiveFor, hp, hk, accepts, if_true]
  have both : suite.symmetric a key = .ok (suite.forward p key) := by
    rw [Suite.symmetric, found]
    rfl
  rw [Suite.feedback, both]
  simp only [bind, Except.bind, hi, size, if_true]

theorem Suite.size_of_feedback {suite : Suite} {a : Symmetric} {key iv : Bytes} {f : BlockFunction}
    (h : suite.feedback a key iv = .ok f) : f.size = iv.length := by
  rw [Suite.feedback] at h
  cases symmetric : suite.symmetric a key with
  | error e =>
    rw [symmetric] at h
    cases h
  | ok g =>
    rw [symmetric] at h
    simp only [bind, Except.bind] at h
    split_ifs at h with size
    cases h
    exact size.symm

namespace Sealed

variable {suite : Suite} {k : SessionKey}

theorem length_zeroBlock (k : SessionKey) : (zeroBlock k).length = k.algorithm.blockSize :=
  Bytes.length_zeros _

/-! ## The plaintext -/

variable {block : Bytes} (inner : Bytes)

theorem length_lead (h : 2 ≤ block.length) : (lead block).length = block.length + 2 := by
  rw [lead, List.length_append, List.length_drop]
  omega

theorem length_covered (h : 2 ≤ block.length) :
    (covered block inner).length = block.length + 2 + inner.length + 2 := by
  have header : hashHeader.length = 2 := rfl
  rw [covered, List.length_append, List.length_append, length_lead h, header]

theorem length_digest (message : Bytes) : ((suite.digest .sha1).hash message).length = hashSize := by
  rw [Digest.length_hash, suite.size_digest]
  rfl

theorem length_plaintext (suite : Suite) (inner : Bytes) (h : 2 ≤ block.length) :
    (plaintext suite block inner).length = block.length + 2 + inner.length + trailerSize := by
  rw [plaintext, List.length_append, length_covered inner h, length_digest]
  rfl

/-- What stands in front of the hash and its header. -/
theorem plaintext_eq : plaintext suite block inner = lead block ++ inner ++
    (hashHeader ++ (suite.digest .sha1).hash (covered block inner)) := by
  rw [plaintext, covered]
  simp only [List.append_assoc]

/-- A block with its last two octets again repeats them, whatever follows. -/
theorem leads_lead_append (h : 2 ≤ block.length) (rest : Bytes) :
    leads block.length (lead block ++ rest) = true := by
  have layout : lead block ++ rest = block ++ (block.drop (block.length - 2) ++ rest) := by
    rw [lead, List.append_assoc]
  have two : (block.drop (block.length - 2)).length = 2 := by
    rw [List.length_drop]
    omega
  have once : ((lead block ++ rest).drop (block.length - 2)).take 2 =
      block.drop (block.length - 2) := by
    rw [layout, List.drop_append_of_le_length (Nat.sub_le _ _), List.take_left' two]
  have again : ((lead block ++ rest).drop block.length).take 2 = block.drop (block.length - 2) := by
    rw [layout, List.drop_left, List.take_left' two]
  rw [leads, once, again, beq_self_eq_true]

theorem leads_plaintext (h : 2 ≤ block.length) :
    leads block.length (plaintext suite block inner) = true := by
  rw [plaintext_eq, List.append_assoc]
  exact leads_lead_append h _

theorem length_front (h : 2 ≤ block.length) :
    (plaintext suite block inner).length - trailerSize = (lead block ++ inner).length := by
  rw [length_plaintext suite inner h, List.length_append, length_lead h]
  omega

theorem checkHash_plaintext (h : 2 ≤ block.length) :
    checkHash suite (plaintext suite block inner) = .ok () := by
  have trailer : (plaintext suite block inner).drop
      ((plaintext suite block inner).length - trailerSize) =
        hashHeader ++ (suite.digest .sha1).hash (covered block inner) := by
    rw [length_front inner h, plaintext_eq, List.drop_left]
  have hashed : (plaintext suite block inner).take
      ((plaintext suite block inner).length - hashSize) = covered block inner := by
    have width := length_plaintext suite inner h
    rw [plaintext, List.length_append, length_digest, Nat.add_sub_cancel, List.take_left]
  have header : hashHeader.length = 2 := rfl
  rw [checkHash, trailer, hashed, List.take_left' header, List.drop_left' header,
    if_neg (not_not.2 rfl), if_neg (not_not.2 rfl)]

theorem inner_plaintext (h : 2 ≤ block.length) :
    ((plaintext suite block inner).take ((plaintext suite block inner).length - trailerSize)).drop
      (block.length + 2) = inner := by
  rw [length_front inner h, plaintext_eq, List.take_left, List.drop_left' (length_lead h)]

/-! ## The body -/

theorem checkHash_cases (suite : Suite) (plain : Bytes) :
    checkHash suite plain = .ok () ∨
      ∃ e, checkHash suite plain = .error e ∧ e.kind = .own .integrity := by
  rw [checkHash]
  split_ifs
  · exact .inr ⟨_, rfl, rfl⟩
  · exact .inr ⟨_, rfl, rfl⟩
  · exact .inl rfl

/-- Decryption of a body fails for its format, for want of a cipher, for its repeated octets or for its
hash; otherwise it passes every check. -/
theorem decrypt_cases (suite : Suite) (k : SessionKey) (body : Bytes) :
    (∃ e, decrypt suite k body = .error e ∧ e.kind = .own .pgpFormat) ∨
      (∃ e, suite.feedback k.algorithm k.key (zeroBlock k) = .error e ∧
        decrypt suite k body = .error e) ∨
      decrypt suite k body = .error .feedbackCheck ∨
      (∃ e, decrypt suite k body = .error e ∧ e.kind = .own .integrity) ∨
      ∃ f ciphertext plain, suite.feedback k.algorithm k.key (zeroBlock k) = .ok f ∧
        body = version :: ciphertext ∧
        k.algorithm.blockSize + 2 + trailerSize ≤ ciphertext.length ∧
        plain = Feedback.decrypt f (zeroBlock k) ciphertext ∧
        leads k.algorithm.blockSize plain = true ∧ checkHash suite plain = .ok () ∧
        decrypt suite k body =
          .ok ((plain.take (plain.length - trailerSize)).drop (k.algorithm.blockSize + 2)) := by
  cases body with
  | nil => exact .inl ⟨_, rfl, rfl⟩
  | cons first ciphertext =>
    rw [decrypt]
    dsimp only
    split_ifs with other short
    · exact .inl ⟨_, rfl, rfl⟩
    · exact .inl ⟨_, rfl, rfl⟩
    cases found : suite.feedback k.algorithm k.key (zeroBlock k) with
    | error e => exact .inr (.inl ⟨e, rfl, rfl⟩)
    | ok f =>
      simp only [bind, Except.bind]
      cases front : leads k.algorithm.blockSize (Feedback.decrypt f (zeroBlock k) ciphertext) with
      | false => exact .inr (.inr (.inl rfl))
      | true =>
        rcases checkHash_cases suite (Feedback.decrypt f (zeroBlock k) ciphertext) with
          back | ⟨e, back, kind⟩
        · refine .inr (.inr (.inr (.inr ⟨f, ciphertext, _, rfl, ?_, by omega, rfl, front, back, ?_⟩)))
          · rw [not_not.1 other]
          · rw [back]
            rfl
        · rw [back]
          exact .inr (.inr (.inr (.inl ⟨e, rfl, kind⟩)))

/-- The octets of a body around packets: a version and, by cipher feedback, a block with its last two
octets repeated, the packets, the header of a hash, and the hash of all that. -/
def octets (suite : Suite) (f : BlockFunction) (block inner : Bytes) : Bytes :=
  let front := block ++ block.drop (block.length - 2) ++ inner ++ [0xd3, 0x14]
  1 :: Feedback.encrypt f (Bytes.zeros block.length) (front ++ (suite.digest .sha1).hash front)

variable {f : BlockFunction}

theorem octets_eq (hb : block.length = k.algorithm.blockSize) : octets suite f block inner =
    version :: Feedback.encrypt f (zeroBlock k) (plaintext suite block inner) := by
  rw [zeroBlock, ← hb]
  rfl

theorem encrypt_eq (found : suite.feedback k.algorithm k.key (zeroBlock k) = .ok f)
    (hb : block.length = k.algorithm.blockSize) :
    encrypt suite k block inner = .ok (octets suite f block inner) := by
  rw [encrypt, found, octets_eq inner hb]
  rfl

theorem length_octets (suite : Suite) (pos : 0 < f.size) (two : 2 ≤ block.length) :
    (octets suite f block inner).length = 1 + (block.length + 2) + inner.length + trailerSize := by
  have written : octets suite f block inner = version ::
      Feedback.encrypt f (Bytes.zeros block.length) (plaintext suite block inner) := rfl
  rw [written, List.length_cons, Feedback.length_encrypt pos, length_plaintext suite inner two]
  omega

/-- The packets are found in the octets. -/
theorem decrypt_octets (found : suite.feedback k.algorithm k.key (zeroBlock k) = .ok f)
    (pos : 0 < f.size) (hb : block.length = k.algorithm.blockSize) (two : 2 ≤ block.length) :
    decrypt suite k (octets suite f block inner) = .ok inner := by
  have enough : ¬ (Feedback.encrypt f (zeroBlock k) (plaintext suite block inner)).length <
      k.algorithm.blockSize + 2 + trailerSize := by
    rw [Feedback.length_encrypt pos, length_plaintext suite inner two, hb]
    omega
  rw [octets_eq inner hb, decrypt]
  dsimp only
  rw [if_neg (not_not.2 rfl), if_neg enough, found]
  simp only [bind, Except.bind, Feedback.decrypt_encrypt pos]
  rw [← hb, leads_plaintext inner two, checkHash_plaintext inner two, inner_plaintext inner two]
  rfl

/-- Encryption with integrity protection gives a body that is as long as its parts and opens. -/
theorem exists_encrypt (suite : Suite) (hs : k.algorithm.supported = true)
    (hk : k.key.length = k.algorithm.keySize) (hb : block.length = k.algorithm.blockSize) :
    ∃ body, encrypt suite k block inner = .ok body ∧
      body.length = 1 + (k.algorithm.blockSize + 2) + inner.length + trailerSize ∧
      decrypt suite k body = .ok inner := by
  obtain ⟨f, size, found⟩ := suite.exists_feedback hs hk
  obtain ⟨eight, -⟩ := Symmetric.blockSize_le hs
  have zero := found _ (length_zeroBlock k)
  have pos : 0 < f.size := by omega
  have two : 2 ≤ block.length := by omega
  have length := length_octets inner suite pos two
  rw [hb] at length
  exact ⟨_, encrypt_eq inner zero hb, length, decrypt_octets inner zero pos hb two⟩

end Sealed

end Cryptogram
