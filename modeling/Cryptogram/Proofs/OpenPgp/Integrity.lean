import Cryptogram.Proofs.OpenPgp.Sealed

/-!
# What passes for integrity-protected data

A body with integrity protection is opened exactly when encryption writes it around what is found in
it, for some random block (`decrypt_eq_ok_iff_wraps`).  The plaintext is cut into the repeated
octets, the packets and the hash without gap or overlap (`eq_plaintext`), so no octet stays outside
the hash.
-/

namespace Cryptogram.Sealed

variable {suite : Suite} {k : SessionKey}

/-- Whether encryption writes a body around packets, for some random block. -/
def Wraps (suite : Suite) (k : SessionKey) (inner body : Bytes) : Prop :=
  ∃ block : Bytes, block.length = k.algorithm.blockSize ∧ encrypt suite k block inner = .ok body

/-! ## The plaintext -/

/-- The repeated octets are those of a block in front. -/
theorem lead_take {size : Nat} {plain : Bytes} (two : 2 ≤ size) (least : size + 2 ≤ plain.length)
    (h : leads size plain = true) : lead (plain.take size) = plain.take (size + 2) := by
  have repeated : (plain.drop (size - 2)).take 2 = (plain.drop size).take 2 := by
    simpa only [leads, beq_iff_eq] using h
  have width : (plain.take size).length = size := by
    rw [List.length_take]
    omega
  have last : size - (size - 2) = 2 := by omega
  rw [lead, width, List.drop_take, last, repeated, List.take_add]

/-- What a checked hash and its header stand behind. -/
theorem checkHash_ok {plain : Bytes} (h : checkHash suite plain = .ok ()) :
    (plain.drop (plain.length - trailerSize)).take 2 = hashHeader ∧
      (suite.digest .sha1).hash (plain.take (plain.length - hashSize)) =
        (plain.drop (plain.length - trailerSize)).drop 2 := by
  rw [checkHash] at h
  split_ifs at h with header hash
  exact ⟨not_not.1 header, not_not.1 hash⟩

/-- A plaintext that passes both checks is the one that encryption makes. -/
theorem eq_plaintext {size : Nat} {plain : Bytes} (two : 2 ≤ size)
    (least : size + 2 + trailerSize ≤ plain.length) (front : leads size plain = true)
    (back : checkHash suite plain = .ok ()) :
    plain = plaintext suite (plain.take size)
      ((plain.take (plain.length - trailerSize)).drop (size + 2)) := by
  have trailer : trailerSize = 22 := rfl
  have hash : hashSize = 20 := rfl
  obtain ⟨header, digest⟩ := checkHash_ok back
  have first : lead (plain.take size) = (plain.take (plain.length - trailerSize)).take (size + 2) := by
    rw [lead_take two (by omega) front, List.take_take, Nat.min_eq_left (by omega)]
  have inFront : covered (plain.take size)
      ((plain.take (plain.length - trailerSize)).drop (size + 2)) =
        plain.take (plain.length - hashSize) := by
    have cut : plain.length - hashSize = plain.length - trailerSize + 2 := by omega
    rw [covered, first, List.take_append_drop, ← header, cut, List.take_add]
  have behind : (plain.drop (plain.length - trailerSize)).drop 2 =
      plain.drop (plain.length - hashSize) := by
    have cut : plain.length - trailerSize + 2 = plain.length - hashSize := by omega
    rw [List.drop_drop, cut]
  rw [plaintext, inFront, digest, behind, List.take_append_drop]

/-! ## The body -/

/-- A body opens to what encryption has written it around, or the failure is one of the format, of
the repeated octets or of the hash. -/
theorem wraps_or_error (suite : Suite) (hs : k.algorithm.supported = true)
    (hk : k.key.length = k.algorithm.keySize) (body : Bytes) :
    (∃ inner, decrypt suite k body = .ok inner ∧ Wraps suite k inner body) ∨
      ∃ e, decrypt suite k body = .error e ∧
        (e.kind = .own .pgpFormat ∨ e.kind = .own .decryption ∨ e.kind = .own .integrity) := by
  obtain ⟨f, size, usable⟩ := suite.exists_feedback hs hk
  obtain ⟨eight, -⟩ := Symmetric.blockSize_le hs
  have zero := usable _ (length_zeroBlock k)
  have pos : 0 < f.size := by omega
  rcases decrypt_cases suite k body with ⟨e, failed, kind⟩ | ⟨e, missing, -⟩ | failed |
    ⟨e, failed, kind⟩ | ⟨g, ciphertext, plain, found, rfl, least, hplain, front, back, opened⟩
  · exact .inr ⟨e, failed, .inl kind⟩
  · rw [zero] at missing
    cases missing
  · exact .inr ⟨_, failed, .inr (.inl rfl)⟩
  · exact .inr ⟨e, failed, .inr (.inr kind)⟩
  · obtain rfl : f = g := Except.ok.inj (zero.symm.trans found)
    have length : plain.length = ciphertext.length := by rw [hplain, Feedback.length_decrypt pos]
    have drawn : (plain.take k.algorithm.blockSize).length = k.algorithm.blockSize := by
      rw [List.length_take]
      omega
    have whole := eq_plaintext (by omega) (by omega) front back
    refine .inl ⟨_, opened, plain.take k.algorithm.blockSize, drawn, ?_⟩
    rw [encrypt_eq _ zero drawn, octets_eq _ drawn, ← whole, hplain, Feedback.encrypt_decrypt pos]

/-- Packets are released from a body exactly when encryption writes the body around them, and what it
writes are the octets of such a body.  In every other case the failure is of the format, of the
decryption or of the integrity. -/
theorem decrypt_eq_ok_iff_wraps (suite : Suite) (hs : k.algorithm.supported = true)
    (hk : k.key.length = k.algorithm.keySize) (body : Bytes) :
    (∀ inner, decrypt suite k body = .ok inner ↔ Wraps suite k inner body) ∧
      (∃ f, suite.feedback k.algorithm k.key (zeroBlock k) = .ok f ∧
        ∀ block inner : Bytes, block.length = k.algorithm.blockSize →
          encrypt suite k block inner = .ok (octets suite f block inner)) ∧
      ((¬ ∃ inner, Wraps suite k inner body) → ∃ e, decrypt suite k body = .error e ∧
        (e.kind = .own .pgpFormat ∨ e.kind = .own .decryption ∨ e.kind = .own .integrity)) := by
  have verdict := wraps_or_error suite hs hk body
  refine ⟨fun inner => ⟨fun opened => ?_, ?_⟩, ?_, fun foreign => ?_⟩
  · rcases verdict with ⟨inner', opened', wraps⟩ | ⟨e, failed, -⟩
    · obtain rfl : inner' = inner := Except.ok.inj (opened'.symm.trans opened)
      exact wraps
    · rw [failed] at opened
      cases opened
  · rintro ⟨block, length, written⟩
    obtain ⟨body', written', -, opened⟩ := exists_encrypt inner suite hs hk length
    obtain rfl : body' = body := Except.ok.inj (written'.symm.trans written)
    exact opened
  · obtain ⟨f, -, found⟩ := suite.exists_feedback hs hk
    have zero := found _ (length_zeroBlock k)
    exact ⟨f, zero, fun block inner length => encrypt_eq inner zero length⟩
  · exact verdict.resolve_left fun ⟨inner, _, wraps⟩ => foreign ⟨inner, wraps⟩

/-- A body under CAST5 that opens to the packets it was written around, and to no others. -/
theorem decrypt_eq_ok_iff_wraps_cast5 :
    Symmetric.cast5.supported = true ∧
      (List.replicate 16 7 : Bytes).length = Symmetric.cast5.keySize ∧
      ∃ body, encrypt .standard ⟨.cast5, List.replicate 16 7⟩ (List.replicate 8 1) [0xb4, 0] = .ok body ∧
        ∀ inner, decrypt .standard ⟨.cast5, List.replicate 16 7⟩ body = .ok inner ↔
          Wraps .standard ⟨.cast5, List.replicate 16 7⟩ inner body := by
  have supported : Symmetric.cast5.supported = true := by decide
  have width : (List.replicate 16 7 : Bytes).length = Symmetric.cast5.keySize := by decide
  obtain ⟨-, ⟨f, -, written⟩, -⟩ :=
    decrypt_eq_ok_iff_wraps .standard (k := ⟨.cast5, List.replicate 16 7⟩) supported width []
  exact ⟨supported, width, _, written (List.replicate 8 1) [0xb4, 0] rfl,
    (decrypt_eq_ok_iff_wraps .standard supported width _).1⟩

end Cryptogram.Sealed
