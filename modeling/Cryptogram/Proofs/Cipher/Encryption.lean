import Cryptogram.Proofs.Cipher.Decryption

/-!
# Encryption in pieces, and there and back

Encryption in pieces writes what the whole padded message yields (`encryptPieces_flatten`).  When a
tag is put behind it where there are tags, decryption gives the message back
(`decryptWhole_encrypted`), and nothing else is decrypted to the message
(`eq_encrypted_of_decryptWhole`).
-/

namespace Cryptogram

namespace StreamCipher

/-! ## Encryption at once -/

/-- The message as it goes into the cipher: padded to blocks of `pad` octets unless that is zero. -/
def filled (pad : Nat) (message : Bytes) : Bytes :=
  if pad = 0 then message else Padding.pad pad message

/-- What encryption writes. -/
def encrypted (c : StreamCipher) (pad : Nat) (message : Bytes) : Bytes :=
  c.yield .encrypt (filled pad message)

/-- The tag of a ciphertext, in the mode that has tags. -/
def tag? (c : StreamCipher) (ciphertext : Bytes) : Option Bytes :=
  match c with
  | .galois f nonce => some (Galois.tag f nonce ciphertext)
  | _ => none

/-- Whether the cipher can be undone; all but chaining undo themselves. -/
def Invertible : StreamCipher → Prop
  | .chained cipher _ => cipher.Invertible
  | _ => True

variable {c : StreamCipher} {pad tagLength : Nat} {message : Bytes}

theorem Framed.tag?_eq_none (hf : c.Framed pad 0) (ciphertext : Bytes) : c.tag? ciphertext = none := by
  cases c with
  | galois f nonce => exact absurd hf.2 (by decide)
  | _ => rfl

/-- The padder holds on to what does not fill a block, and in the end nothing is missing. -/
theorem flatten_paddedFrom (pad : Nat) (held : Bytes) (pieces : List Bytes) :
    (paddedFrom pad held pieces).flatten = Padding.pad pad (held ++ pieces.flatten) := by
  induction pieces generalizing held with
  | nil => rw [paddedFrom, List.flatten_singleton, List.flatten_nil, List.append_nil]
  | cons piece pieces ih =>
    have whole := Padding.dvd_length_collect pad held piece
    have split := Padding.collect_append pad held piece
    rw [paddedFrom, List.flatten_cons, ih, ← Padding.pad_append whole, ← List.append_assoc, split,
      List.flatten_cons, List.append_assoc]

theorem flatten_paddedPieces (pad : Nat) (pieces : List Bytes) :
    (paddedPieces pad pieces).flatten = filled pad pieces.flatten := by
  unfold paddedPieces filled
  split_ifs with h
  · rfl
  · exact flatten_paddedFrom pad [] pieces

theorem After.tag? {input : Bytes} {s : StreamState} (ha : After .encrypt input c s) :
    s.tag? = c.tag? (c.yield .encrypt input) := by
  cases ha with
  | chained _ => rfl
  | counter => rfl
  | galois h => rw [StreamState.tag?, h]; rfl
  | rc4 => rfl

/-- The pieces of a message make no difference to what is written and to the state that is left. -/
theorem encryptPieces_eq (h : c.Fits) (pad : Nat) (pieces : List Bytes) :
    ∃ s, After .encrypt (filled pad pieces.flatten) c s ∧
      c.encryptPieces pad pieces = ⟨c.encrypted pad pieces.flatten,
        if s.aligned then .ok s else .error .unalignedInput⟩ := by
  obtain ⟨after, out⟩ : After .encrypt (paddedPieces pad pieces).flatten c _ ∧ _ :=
    feed_eq h (paddedPieces pad pieces)
  rw [flatten_paddedPieces] at after out
  refine ⟨_, after, ?_⟩
  unfold encryptPieces
  dsimp only
  rw [Transfer.write_bind, out]
  split_ifs
  · exact congrArg (Transfer.mk · _) (List.append_nil _)
  · exact congrArg (Transfer.mk · _) (List.append_nil _)

/-- A message that makes whole blocks, with its padding, is encrypted without failure. -/
theorem encryptPieces_flatten (h : c.Fits) (pad : Nat) (pieces : List Bytes)
    (aligned : c.Aligned (filled pad pieces.flatten)) :
    ∃ s, c.encryptPieces pad pieces = ⟨c.encrypted pad pieces.flatten, .ok s⟩ ∧
      s.tag? = c.tag? (c.encrypted pad pieces.flatten) := by
  obtain ⟨s, after, e⟩ := encryptPieces_eq h pad pieces
  rw [if_pos (after.aligned.2 aligned)] at e
  exact ⟨s, e, after.tag?⟩

/-! ## There and back -/

/-- Only a message that is not padded has to make whole blocks. -/
theorem aligned_filled (h : c.Fits) (hf : c.Framed pad tagLength)
    (hm : pad = 0 → c.Aligned message) : c.Aligned (filled pad message) := by
  unfold filled
  split_ifs with unpadded
  · exact hm unpadded
  · cases c with
    | chained cipher iv =>
      obtain ⟨none | ⟨rfl, -⟩, -⟩ := hf
      · exact absurd none unpadded
      · exact Padding.dvd_length_pad h.1 message
    | counter f nonce => trivial
    | galois f nonce => trivial
    | rc4 key => trivial

theorem decryptWhole_chained {cipher : BlockCipher} {iv : Bytes} (h : (chained cipher iv).Fits)
    (hf : (chained cipher iv).Framed pad tagLength) (hi : cipher.Invertible)
    (aligned : cipher.size ∣ (filled pad message).length) :
    (chained cipher iv).decryptWhole pad ((chained cipher iv).encrypted pad message) =
      ⟨message, .ok ()⟩ := by
  have whole : (chained cipher iv).encrypted pad message =
      Chaining.encrypt cipher iv (filled pad message) := by
    rw [encrypted, yield, Buffered.whole_of_dvd aligned]
  have blocks : cipher.size ∣ (Chaining.encrypt cipher iv (filled pad message)).length := by
    rwa [Chaining.length_encrypt h.1 iv aligned]
  unfold decryptWhole
  dsimp only
  rw [whole, Buffered.whole_of_dvd blocks, Chaining.decrypt_encrypt hi h.1 h.2 aligned,
    if_neg (not_not.2 blocks)]
  obtain ⟨rfl | ⟨rfl, hs⟩, -⟩ := hf
  · rw [if_pos rfl]
    rfl
  · have padded : filled cipher.size message = Padding.pad cipher.size message :=
      if_neg h.1.ne'
    rw [if_neg h.1.ne', padded, (Padding.unpad?_eq_some h.1 hs).2 rfl]

theorem decryptWhole_galois {f : BlockFunction} {nonce : Bytes} (h : f.size = Galois.tagLength)
    (message : Bytes) : (galois f nonce).decryptWhole 0 (Galois.apply f nonce 0 message ++
      Galois.tag f nonce (Galois.apply f nonce 0 message)) = ⟨message, .ok ()⟩ := by
  set ciphertext := Galois.apply f nonce 0 message with hc
  set tag := Galois.tag f nonce ciphertext with ht
  have pos : 0 < f.size := by rw [h]; decide
  have width : tag.length = 16 := Galois.length_tag h nonce ciphertext
  have total : (ciphertext ++ tag).length = ciphertext.length + 16 := by
    rw [List.length_append, width]
  have front : body 16 (ciphertext ++ tag) = ciphertext := by
    rw [body, total, Nat.add_sub_cancel, List.take_left]
  have back : ending 16 (ciphertext ++ tag) = tag := by
    rw [ending, total, Nat.add_sub_cancel, List.drop_left]
  unfold decryptWhole
  dsimp only
  rw [if_neg (by omega), front, back, if_pos ht, hc, Galois.apply_apply pos]

/-- Decryption of a ciphertext with its tag gives the message back. -/
theorem decryptWhole_encrypted (h : c.Fits) (hf : c.Framed pad tagLength) (hi : c.Invertible)
    (aligned : c.Aligned (filled pad message)) :
    c.decryptWhole pad (c.encrypted pad message ++ (c.tag? (c.encrypted pad message)).getD []) =
      ⟨message, .ok ()⟩ := by
  cases c with
  | chained cipher iv =>
    show (chained cipher iv).decryptWhole pad ((chained cipher iv).encrypted pad message ++ []) = _
    rw [List.append_nil]
    exact decryptWhole_chained h hf hi aligned
  | counter f nonce =>
    obtain ⟨rfl, -⟩ := hf
    show (⟨Counter.apply f (Counter.wide nonce) 0
      (Counter.apply f (Counter.wide nonce) 0 message ++ []), .ok ()⟩ : Transfer Unit) = _
    rw [List.append_nil, Counter.apply_apply _ h]
  | galois f nonce =>
    obtain ⟨rfl, -⟩ := hf
    exact decryptWhole_galois h message
  | rc4 key =>
    obtain ⟨rfl, -⟩ := hf
    show (⟨(Rc4.apply (Rc4.start key) ((Rc4.apply (Rc4.start key) message).1 ++ [])).1,
      .ok ()⟩ : Transfer Unit) = _
    rw [List.append_nil, Rc4.apply_apply]

/-! ## Back and there -/

/-- What chaining decrypts without failure is the encryption of what comes out. -/
theorem eq_encrypted_of_chained {cipher : BlockCipher} {iv input : Bytes}
    (h : (chained cipher iv).Fits) (hf : (chained cipher iv).Framed pad tagLength)
    (hi : cipher.Invertible) (hd : (chained cipher iv).decryptWhole pad input = ⟨message, .ok ()⟩) :
    cipher.size ∣ (filled pad message).length ∧ input = (chained cipher iv).encrypted pad message := by
  obtain ⟨aligned, fill⟩ : cipher.size ∣ input.length ∧
      filled pad message = Chaining.decrypt cipher iv input := by
    unfold decryptWhole at hd
    dsimp only at hd
    by_cases aligned : cipher.size ∣ input.length
    · rw [if_neg (not_not.2 aligned), Buffered.whole_of_dvd aligned] at hd
      by_cases unpadded : pad = 0
      · rw [if_pos unpadded] at hd
        cases hd
        exact ⟨aligned, if_pos unpadded⟩
      · obtain ⟨rfl, hs⟩ := hf.1.resolve_left unpadded
        rw [if_neg unpadded] at hd
        cases found : Padding.unpad? cipher.size (Chaining.decrypt cipher iv input) with
        | none =>
          rw [found] at hd
          cases hd
        | some rest =>
          rw [found] at hd
          cases hd
          exact ⟨aligned, (if_neg unpadded).trans ((Padding.unpad?_eq_some h.1 hs).1 found).symm⟩
    · rw [if_pos aligned] at hd
      cases hd
  have blocks : cipher.size ∣ (filled pad message).length := by
    rwa [fill, Chaining.length_decrypt h.1 h.2 aligned]
  refine ⟨blocks, ?_⟩
  rw [encrypted, yield, Buffered.whole_of_dvd blocks, fill,
    Chaining.encrypt_decrypt hi h.1 h.2 aligned]

theorem eq_encrypted_of_galois {f : BlockFunction} {nonce input : Bytes}
    (h : f.size = Galois.tagLength) (hd : (galois f nonce).decryptWhole 0 input = ⟨message, .ok ()⟩) :
    input = Galois.apply f nonce 0 message ++ Galois.tag f nonce (Galois.apply f nonce 0 message) := by
  have pos : 0 < f.size := by rw [h]; decide
  unfold decryptWhole at hd
  dsimp only at hd
  split_ifs at hd with short genuine
  · cases hd
  · cases hd
    rw [Galois.apply_apply pos, ← genuine, body_append_ending]
  · cases hd

/-- Whatever is decrypted without failure is the encryption of what comes out, with its tag. -/
theorem eq_encrypted_of_decryptWhole {input : Bytes} (h : c.Fits) (hf : c.Framed pad tagLength)
    (hi : c.Invertible) (hd : c.decryptWhole pad input = ⟨message, .ok ()⟩) :
    c.Aligned (filled pad message) ∧
      input = c.encrypted pad message ++ (c.tag? (c.encrypted pad message)).getD [] := by
  cases c with
  | chained cipher iv =>
    obtain ⟨blocks, whole⟩ := eq_encrypted_of_chained h hf hi hd
    exact ⟨blocks, whole.trans (List.append_nil _).symm⟩
  | counter f nonce =>
    obtain ⟨rfl, -⟩ := hf
    cases hd
    refine ⟨trivial, ?_⟩
    show input = Counter.apply f (Counter.wide nonce) 0
      (Counter.apply f (Counter.wide nonce) 0 input) ++ []
    rw [List.append_nil, Counter.apply_apply _ h]
  | galois f nonce =>
    obtain ⟨rfl, -⟩ := hf
    exact ⟨trivial, eq_encrypted_of_galois h hd⟩
  | rc4 key =>
    obtain ⟨rfl, -⟩ := hf
    cases hd
    refine ⟨trivial, ?_⟩
    show input = (Rc4.apply (Rc4.start key) (Rc4.apply (Rc4.start key) input).1).1 ++ []
    rw [List.append_nil, Rc4.apply_apply]

/-! ## The ciphers of methods -/

namespace Serves

variable {suite : Suite} {method : Method} {key iv : Bytes}

theorem invertible (h : c.Serves suite method key iv) (hs : suite.Invertible) : c.Invertible := by
  cases h with
  | rc2 hf hi => exact hs.rc2 _ _
  | @chained p hm hp hi =>
    unfold Suite.bothWays
    cases p with
    | tripleDes => exact hs.tripleDes key
    | _ => exact hs.aes key
  | counter hm hp hi => trivial
  | galois hm hp => trivial
  | rc4 hm => trivial

/-- The only method that takes whole blocks alone is chaining without padding. -/
theorem aligned_filled (h : c.Serves suite method key iv)
    (hm : method = .aesCbcUnpadded → 16 ∣ message.length) :
    c.Aligned (filled method.padSize message) := by
  refine StreamCipher.aligned_filled h.fits h.framed fun unpadded => ?_
  cases h with
  | rc2 hf hi =>
    rw [(Method.chaining_of_rc2 hf).2.2] at unpadded
    cases unpadded
  | @chained p mode hp hi =>
    have size := suite.size_bothWays hp (Method.blocks_of_cbc mode hp).1 key
    have only : method = .aesCbcUnpadded := by
      cases method <;> first | rfl | exact absurd unpadded (by decide) | cases mode
    subst only
    show (suite.bothWays p key).size ∣ message.length
    rw [size]
    exact hm rfl
  | counter mode hp hi => trivial
  | galois mode hp => trivial
  | rc4 mode => trivial

/-- A source is encrypted in chunks as at once. -/
theorem encryptPieces_chunks (h : c.Serves suite method key iv) {size : Nat} (hs : 1 ≤ size)
    (source : Source) (hm : method = .aesCbcUnpadded → 16 ∣ source.rest.length) :
    ∃ s, c.encryptPieces method.padSize (source.chunks size) =
        ⟨c.encrypted method.padSize source.rest, .ok s⟩ ∧
      s.tag? = c.tag? (c.encrypted method.padSize source.rest) := by
  have aligned := h.aligned_filled hm
  rw [← source.flatten_chunks hs] at aligned ⊢
  exact encryptPieces_flatten h.fits method.padSize _ aligned

/-- Ciphertext that comes in pieces, with its tag behind it, is decrypted to the message. -/
theorem decryptPieces_encrypted (h : c.Serves suite method key iv) (hs : suite.Invertible)
    (hm : method = .aesCbcUnpadded → 16 ∣ message.length) {pieces : List Bytes}
    (hp : pieces.flatten = c.encrypted method.padSize message ++
      (c.tag? (c.encrypted method.padSize message)).getD []) :
    c.decryptPieces method.padSize (Keyed.tagLength method) pieces = ⟨message, .ok ()⟩ := by
  rw [decryptPieces_flatten h.fits h.framed, hp]
  exact decryptWhole_encrypted h.fits h.framed (h.invertible hs) (h.aligned_filled hm)

/-- Pieces that are decrypted to a message are what encryption of the message writes, in whatever
pieces that is read, with the tag behind it. -/
theorem encryptPieces_decrypted (h : c.Serves suite method key iv) (hs : suite.Invertible)
    {pieces : List Bytes}
    (hd : c.decryptPieces method.padSize (Keyed.tagLength method) pieces = ⟨message, .ok ()⟩)
    {pieces' : List Bytes} (hp : pieces'.flatten = message) :
    ∃ ciphertext s, c.encryptPieces method.padSize pieces' = ⟨ciphertext, .ok s⟩ ∧
      s.tag? = c.tag? ciphertext ∧ pieces.flatten = ciphertext ++ (c.tag? ciphertext).getD [] := by
  rw [decryptPieces_flatten h.fits h.framed] at hd
  obtain ⟨aligned, whole⟩ := eq_encrypted_of_decryptWhole h.fits h.framed (h.invertible hs) hd
  rw [← hp] at aligned whole
  obtain ⟨s, written, tagged⟩ := encryptPieces_flatten h.fits method.padSize pieces' aligned
  exact ⟨_, s, written, tagged, whole⟩

theorem tag?_of_untagged (h : c.Serves suite method key iv) (hm : Keyed.tagLength method = 0)
    (ciphertext : Bytes) : c.tag? ciphertext = none := by
  have framed := h.framed
  rw [hm] at framed
  exact framed.tag?_eq_none ciphertext

end Serves

end StreamCipher

/-- The lengths of keys and initial vectors with which the cipher of a method is built. -/
structure Method.Suits (method : Method) (key iv : Bytes) : Prop where
  supported : method.supported = true
  notOpenPgp : method.isOpenPgp = false
  key : key.length = method.keySize ∨
    method.keyed = true ∧ Method.rawKeyBits.contains (8 * key.length) = true
  iv : iv.length = method.blockSize

theorem Method.exists_primitive {method : Method} (supported : method.supported = true)
    (notOpenPgp : method.isOpenPgp = false) (hf : method.family ≠ .rc2) :
    ∃ p, method.family.primitive? = some p ∧ p.accepts (8 * method.keySize) = true ∧
      (method.keyed = true → p = .aes) := by
  cases method <;> first
    | exact ⟨_, rfl, rfl, by decide⟩
    | exact absurd notOpenPgp (by decide)
    | exact absurd supported (by decide)
    | exact absurd rfl hf

theorem Method.Suits.primitiveFor {method : Method} {key iv : Bytes} (h : method.Suits key iv)
    (hf : method.family ≠ .rc2) : ∃ p, method.family.primitiveFor key = .ok p := by
  obtain ⟨p, hp, size, aes⟩ := Method.exists_primitive h.supported h.notOpenPgp hf
  have accepts : p.accepts (8 * key.length) = true := by
    rcases h.key with width | ⟨keyed, width⟩
    · rwa [width]
    · rw [aes keyed]
      exact width
  unfold Family.primitiveFor
  rw [hp]
  exact ⟨p, if_pos accepts⟩

theorem Suite.exists_methodCipher (suite : Suite) {method : Method} {key iv : Bytes}
    (h : method.Suits key iv) : ∃ c, suite.methodCipher method key iv = .ok c := by
  unfold Suite.methodCipher
  by_cases hf : method.family = .rc2
  · have sizes : 5 ≤ method.keySize ∧ method.keySize ≤ 128 ∧ 40 ≤ method.keyBits ∧
        method.keyBits ≤ 1024 ∧ method.keyed = false ∧ method.blockSize = 8 := by
      cases method <;> cases hf <;> decide
    obtain ⟨least, most, bits, bits', keyed, block⟩ := sizes
    have width : key.length = method.keySize := by
      rcases h.key with width | ⟨given, -⟩
      · exact width
      · rw [keyed] at given
        cases given
    have hi := h.iv
    rw [if_pos hf, Suite.chainedRc2, if_neg (by omega), if_neg (by omega), if_neg (by omega)]
    exact ⟨_, rfl⟩
  · obtain ⟨p, hp⟩ := h.primitiveFor hf
    rw [if_neg hf, hp]
    simp only [bind, Except.bind]
    have hi := h.iv
    cases hm : method.mode with
    | cbc => exact ⟨_, if_pos hi⟩
    | ctr => exact ⟨_, if_pos hi⟩
    | gcm =>
      have block : method.blockSize = 16 := by cases method <;> cases hm; rfl
      exact ⟨_, if_pos (by omega)⟩
    | stream => exact ⟨_, rfl⟩
    | none =>
      have written := h.notOpenPgp
      cases method <;> cases hm <;> cases written

end Cryptogram
