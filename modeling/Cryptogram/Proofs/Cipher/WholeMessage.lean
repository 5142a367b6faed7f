import Cryptogram.Proofs.Cipher.Encryption

/-!
# Encryption of whole messages

`StreamCipher.encryptWhole` is what encryption of a message does that is there at once.
`StreamCipher.encryptPieces_eq_encryptWhole` says that encryption in pieces does the same, although
the padder and the cipher each keep back what does not fill a block.  Encryption keeps the length of
the padded message (`StreamCipher.length_encrypted`).
-/

namespace Cryptogram

namespace StreamCipher

variable {c : StreamCipher} {pad tagLength : Nat} {message : Bytes}

/-! ## Encryption at once -/

/-- What encryption of `message` writes, and the tag that it ends with where there are tags. -/
def encryptWhole (c : StreamCipher) (pad : Nat) (message : Bytes) : Transfer (Option Bytes) :=
  match c with
  | .counter f nonce => ⟨Counter.apply f (Counter.wide nonce) 0 message, .ok none⟩
  | .rc4 key => ⟨(Rc4.apply (Rc4.start key) message).1, .ok none⟩
  | .galois f nonce =>
    let ciphertext := Galois.apply f nonce 0 message
    ⟨ciphertext, .ok (some (Galois.tag f nonce ciphertext))⟩
  | .chained cipher iv =>
    if pad = 0 then
      ⟨Chaining.encrypt cipher iv (Buffered.whole cipher.size message),
        if cipher.size ∣ message.length then .ok none else .error .unalignedInput⟩
    else ⟨Chaining.encrypt cipher iv (Padding.pad cipher.size message), .ok none⟩

/-- A message that makes whole blocks, with its padding, is encrypted to as many octets. -/
theorem length_encrypted (h : c.Fits) (aligned : c.Aligned (filled pad message)) :
    (c.encrypted pad message).length = (filled pad message).length := by
  unfold encrypted
  cases c with
  | chained cipher iv =>
    rw [yield, Buffered.whole_of_dvd aligned]
    exact Chaining.length_encrypt h.1 iv aligned
  | counter f nonce => exact Counter.length_apply _ h 0 _
  | galois f nonce =>
    have pos : 0 < f.size := by rw [h]; decide
    exact Galois.length_apply pos nonce 0 _
  | rc4 key => exact Rc4.length_apply _ _

/-- A message that makes whole blocks, with its padding, is encrypted in pieces to what it is
encrypted to at once. -/
theorem map_tag?_encryptPieces (h : c.Fits) (pad : Nat) (pieces : List Bytes)
    (aligned : c.Aligned (filled pad pieces.flatten)) :
    StreamState.tag? <$> c.encryptPieces pad pieces =
      ⟨c.encrypted pad pieces.flatten, .ok (c.tag? (c.encrypted pad pieces.flatten))⟩ := by
  obtain ⟨s, e, tagged⟩ := encryptPieces_flatten h pad pieces aligned
  rw [e, Transfer.map_eq, Except.map, tagged]

theorem encryptPieces_chained {cipher : BlockCipher} {iv : Bytes} (h : (chained cipher iv).Fits)
    (hf : (chained cipher iv).Framed pad tagLength) (pieces : List Bytes) :
    StreamState.tag? <$> (chained cipher iv).encryptPieces pad pieces =
      (chained cipher iv).encryptWhole pad pieces.flatten := by
  rw [encryptWhole]
  obtain ⟨rfl | ⟨rfl, -⟩, -⟩ := hf
  · rw [if_pos rfl]
    by_cases aligned : cipher.size ∣ pieces.flatten.length
    · rw [map_tag?_encryptPieces h 0 pieces aligned, if_pos aligned]
      rfl
    · obtain ⟨s, after, e⟩ := encryptPieces_eq h 0 pieces
      rw [e, Transfer.map_eq, if_neg (mt after.aligned.1 aligned), if_neg aligned]
      rfl
  · have padded : filled cipher.size pieces.flatten = Padding.pad cipher.size pieces.flatten :=
      if_neg h.1.ne'
    have blocks : cipher.size ∣ (filled cipher.size pieces.flatten).length :=
      padded ▸ Padding.dvd_length_pad h.1 _
    rw [map_tag?_encryptPieces h _ pieces blocks, if_neg h.1.ne', encrypted, yield,
      Buffered.whole_of_dvd blocks, padded]
    rfl

/-- Encryption in pieces is encryption at once. -/
theorem encryptPieces_whole (h : c.Fits) (hf : c.Framed pad tagLength) (pieces : List Bytes) :
    StreamState.tag? <$> c.encryptPieces pad pieces = c.encryptWhole pad pieces.flatten := by
  cases c with
  | chained cipher iv => exact encryptPieces_chained h hf pieces
  | counter f nonce =>
    obtain ⟨rfl, -⟩ := hf
    exact map_tag?_encryptPieces h _ pieces trivial
  | galois f nonce =>
    obtain ⟨rfl, -⟩ := hf
    exact map_tag?_encryptPieces h _ pieces trivial
  | rc4 key =>
    obtain ⟨rfl, -⟩ := hf
    exact map_tag?_encryptPieces h _ pieces trivial

/-! ## The ciphers of methods -/

section Methods

variable {suite : Suite} {method : Method} {key iv : Bytes}

/-- Chaining can be used with and without padding, the other modes only without. -/
theorem Serves.exists_framed (h : c.Serves suite method key iv)
    (hp : pad = 0 ∨ method.mode = .cbc ∧ pad = method.blockSize) :
    ∃ tagLength, c.Framed pad tagLength := by
  have unpadded (hm : method.mode ≠ .cbc) : pad = 0 := hp.resolve_right fun both => hm both.1
  cases h with
  | rc2 hf hi =>
    rw [(Method.chaining_of_rc2 hf).2.1] at hp
    refine ⟨0, ?_, rfl⟩
    rw [suite.size_rc2]
    exact hp.imp_right fun both => ⟨both.2, by decide⟩
  | chained hm hprim hi =>
    have small : method.blockSize ≤ 255 := by cases method <;> decide
    refine ⟨0, ?_, rfl⟩
    rw [suite.size_bothWays hprim (Method.blocks_of_cbc hm hprim).1]
    exact hp.imp_right fun both => ⟨both.2, small⟩
  | counter hm _ _ => exact ⟨0, unpadded (by rw [hm]; decide), rfl⟩
  | galois hm _ => exact ⟨Galois.tagLength, unpadded (by rw [hm]; decide), rfl⟩
  | rc4 hm => exact ⟨0, unpadded (by rw [hm]; decide), rfl⟩

/-- Whether a message makes whole blocks of a method in chaining mode. -/
theorem Serves.aligned_iff (h : c.Serves suite method key iv) (hm : method.mode = .cbc) :
    c.Aligned message ↔ method.blockSize ∣ message.length := by
  cases h with
  | rc2 hf hi => rw [Aligned, suite.size_rc2, (Method.chaining_of_rc2 hf).2.1]
  | chained _ hp hi =>
    rw [Aligned, suite.size_bothWays hp (Method.blocks_of_cbc hm hp).1]
    rfl
  | counter mode _ _ => rw [hm] at mode; cases mode
  | galois mode _ => rw [hm] at mode; cases mode
  | rc4 mode => rw [hm] at mode; cases mode

theorem Serves.aligned_of_unchained (h : c.Serves suite method key iv) (hm : method.mode ≠ .cbc)
    (message : Bytes) : c.Aligned message := by
  cases h with
  | rc2 hf hi => exact absurd (Method.chaining_of_rc2 hf).1 hm
  | chained mode _ _ => exact absurd mode hm
  | counter _ _ _ => trivial
  | galois _ _ => trivial
  | rc4 _ => trivial

/-- Whatever pieces a message is read in, encryption writes what encryption of the whole message
writes, and ends as it ends.  The padding fills up the last block, or is a whole one; without
chaining the length is kept; and chaining without padding fails on part of a block. -/
theorem encryptPieces_eq_encryptWhole (hc : suite.methodCipher method key iv = .ok c)
    (hp : pad = 0 ∨ method.mode = .cbc ∧ pad = method.blockSize) (source : Source) {bufferSize : Nat}
    (hb : 1 ≤ bufferSize) :
    StreamState.tag? <$> c.encryptPieces pad (source.chunks bufferSize) =
        c.encryptWhole pad source.rest ∧
      (pad ≠ 0 → ∃ n, 1 ≤ n ∧ n ≤ pad ∧ pad ∣ source.rest.length + n ∧
        (pad ∣ source.rest.length → n = pad) ∧
        Padding.pad pad source.rest = source.rest ++ List.replicate n n.toUInt8) ∧
      (method.mode ≠ .cbc →
        (c.encryptPieces pad (source.chunks bufferSize)).written.length = source.rest.length) ∧
      (method.mode = .cbc → pad = 0 →
        ((c.encryptPieces pad (source.chunks bufferSize)).answer = .error .unalignedInput ↔
          ¬ method.blockSize ∣ source.rest.length)) ∧
      Failure.unalignedInput.kind = .own .format := by
  have serves := Suite.methodCipher_serves hc
  obtain ⟨tagLength, framed⟩ := serves.exists_framed hp
  obtain ⟨s, after, e⟩ := encryptPieces_eq serves.fits pad (source.chunks bufferSize)
  have same := encryptPieces_whole serves.fits framed (source.chunks bufferSize)
  rw [source.flatten_chunks hb] at after e same
  refine ⟨same, fun padded => Padding.exists_pad_eq (Nat.pos_of_ne_zero padded) _, fun hm => ?_,
    fun hm unpadded => ?_, rfl⟩
  · have unpadded : pad = 0 := hp.resolve_right fun both => hm both.1
    rw [e, length_encrypted serves.fits (serves.aligned_of_unchained hm _), filled, if_pos unpadded]
  · have whole := after.aligned
    rw [filled, if_pos unpadded, serves.aligned_iff hm] at whole
    rw [e, ← whole]
    cases s.aligned with
    | true => exact iff_of_false nofun (not_not.2 rfl)
    | false => exact iff_of_true rfl nofun

/-- Two whole blocks that are read octet by octet, and a third one for the padding. -/
theorem encryptPieces_eq_encryptWhole_rc2 :
    Suite.standard.methodCipher .md5Rc2 (Bytes.zeros 8) (Bytes.zeros 8) =
        .ok (.chained (.rc2 64 (Bytes.zeros 8)) (Bytes.zeros 8)) ∧
      (8 = 0 ∨ Method.md5Rc2.mode = .cbc ∧ 8 = Method.md5Rc2.blockSize) ∧ 1 ≤ 3 ∧
      StreamState.tag? <$> (chained (.rc2 64 (Bytes.zeros 8)) (Bytes.zeros 8)).encryptPieces 8
          ((⟨Bytes.zeros 16, 0, fun _ => some 1⟩ : Source).chunks 3) =
        ⟨Chaining.encrypt (.rc2 64 (Bytes.zeros 8)) (Bytes.zeros 8)
          (Bytes.zeros 16 ++ [8, 8, 8, 8, 8, 8, 8, 8]), .ok none⟩ := by
  have built : Suite.standard.methodCipher .md5Rc2 (Bytes.zeros 8) (Bytes.zeros 8) =
      .ok (.chained (.rc2 64 (Bytes.zeros 8)) (Bytes.zeros 8)) := rfl
  exact ⟨built, .inr ⟨rfl, rfl⟩, by decide,
    (encryptPieces_eq_encryptWhole built (.inr ⟨rfl, rfl⟩)
      ⟨Bytes.zeros 16, 0, fun _ => some 1⟩ (by decide : 1 ≤ 3)).1⟩

end Methods

end StreamCipher

end Cryptogram
