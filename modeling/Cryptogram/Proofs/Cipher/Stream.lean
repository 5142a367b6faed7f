import Cryptogram.Cipher.Stream
import Cryptogram.Proofs.Mode.Chaining
import Cryptogram.Proofs.Mode.Counter
import Cryptogram.Proofs.Mode.Rc4

/-!
# Streams and whole messages

The pieces in which a cipher takes in a message make no difference: `StreamCipher.yield` is what the
message yields at once, and `StreamCipher.feed_eq` says that pieces yield the same.
`StreamCipher.Serves.fits` gives the sizes of the ciphers that are built for methods.
-/

namespace Cryptogram

namespace StreamCipher

/-- The sizes that a cipher relies on. -/
def Fits : StreamCipher → Prop
  | .chained cipher iv => 0 < cipher.size ∧ iv.length = cipher.size
  | .counter f _ => 0 < f.size
  | .galois f _ => f.size = Galois.tagLength
  | .rc4 _ => True

/-- What a message yields that is taken in at once. -/
def yield (direction : Direction) (c : StreamCipher) (input : Bytes) : Bytes :=
  match c with
  | .chained cipher iv =>
    let whole := Buffered.whole cipher.size input
    match direction with
    | .encrypt => Chaining.encrypt cipher iv whole
    | .decrypt => Chaining.decrypt cipher iv whole
  | .counter f nonce => Counter.apply f (Counter.wide nonce) 0 input
  | .galois f nonce => Galois.apply f nonce 0 input
  | .rc4 key => (Rc4.apply (Rc4.start key) input).1

/-- The ciphertext among what a message in Galois/counter mode is and what it yields. -/
def ciphertext (direction : Direction) (f : BlockFunction) (nonce input : Bytes) : Bytes :=
  match direction with
  | .encrypt => Galois.apply f nonce 0 input
  | .decrypt => input

/-- The transform of a chained cipher. -/
def transform (direction : Direction) (cipher : BlockCipher) : BlockTransform Bytes :=
  match direction with
  | .encrypt => Chaining.encryptor cipher
  | .decrypt => Chaining.decryptor cipher

theorem transform_size (direction : Direction) (cipher : BlockCipher) :
    (transform direction cipher).size = cipher.size := by
  cases direction <;> rfl

theorem update_chained (direction : Direction) (cipher : BlockCipher) (buffered : Buffered Bytes)
    (piece : Bytes) : (StreamState.chained cipher buffered).update direction piece =
      ((buffered.update (transform direction cipher) piece).1,
        .chained cipher (buffered.update (transform direction cipher) piece).2) := by
  cases direction <;> rfl

theorem resumable_transform (direction : Direction) {cipher : BlockCipher} (h : 0 < cipher.size) :
    (transform direction cipher).Resumable := by
  cases direction with
  | encrypt => exact Chaining.resumable_encryptor h
  | decrypt => exact Chaining.resumable_decryptor h

theorem yield_chained (direction : Direction) (cipher : BlockCipher) (iv input : Bytes) :
    (chained cipher iv).yield direction input =
      ((transform direction cipher).apply iv
        (Buffered.whole (transform direction cipher).size input)).1 := by
  cases direction <;> rfl

/-- What the state of a cipher is when it has taken in `input`. -/
inductive After (direction : Direction) (input : Bytes) : StreamCipher → StreamState → Prop
  | chained {cipher : BlockCipher} {iv : Bytes} {buffered : Buffered Bytes}
      (h : Buffered.After (transform direction cipher) iv input buffered) :
      After direction input (.chained cipher iv) (.chained cipher buffered)
  | counter {f : BlockFunction} {nonce : Bytes} :
      After direction input (.counter f nonce) (.counter f nonce input.length)
  | galois {f : BlockFunction} {nonce : Bytes} {pieces : List Bytes}
      (h : pieces.reverse.flatten = ciphertext direction f nonce input) :
      After direction input (.galois f nonce) (.galois f nonce input.length pieces)
  | rc4 {key : Bytes} :
      After direction input (.rc4 key) (.rc4 (Rc4.apply (Rc4.start key) input).2)

variable {direction : Direction} {c : StreamCipher} {s : StreamState} {input : Bytes}

theorem after_start (direction : Direction) (h : c.Fits) : After direction [] c c.start := by
  cases c with
  | chained cipher iv =>
    exact .chained (Buffered.After.start (resumable_transform direction h.1) iv)
  | counter f nonce => exact .counter
  | galois f nonce => exact .galois (by cases direction <;> rfl)
  | rc4 key =>
    have none : (Rc4.apply (Rc4.start key) []).2 = Rc4.start key := by rw [Rc4.apply_nil]
    rw [start, ← none]
    exact .rc4

theorem yield_nil (direction : Direction) (h : c.Fits) : c.yield direction [] = [] := by
  cases c with
  | chained cipher iv =>
    have none : Buffered.whole (transform direction cipher).size [] = [] := List.take_nil
    rw [yield_chained, none, (resumable_transform direction h.1).nil]
  | counter f nonce => rfl
  | galois f nonce => rfl
  | rc4 key => rfl

/-- What a piece adds to the ciphertext. -/
def encryptedPiece (direction : Direction) (f : BlockFunction) (nonce : Bytes) (position : Nat)
    (piece : Bytes) : Bytes :=
  match direction with
  | .encrypt => Galois.apply f nonce position piece
  | .decrypt => piece

theorem ciphertext_append {f : BlockFunction} (h : 0 < f.size) (nonce a b : Bytes) :
    ciphertext direction f nonce (a ++ b) =
      ciphertext direction f nonce a ++ encryptedPiece direction f nonce a.length b := by
  cases direction with
  | encrypt =>
    have := Galois.apply_append h nonce 0 a b
    rwa [Nat.zero_add] at this
  | decrypt => rfl

/-- One more piece: the state goes on, and the piece yields what the message yields more. -/
theorem After.update (h : c.Fits) (ha : After direction input c s) (piece : Bytes) :
    After direction (input ++ piece) c (s.update direction piece).2 ∧
      c.yield direction (input ++ piece) =
        c.yield direction input ++ (s.update direction piece).1 := by
  cases ha with
  | @chained cipher iv buffered hb =>
    obtain ⟨next, out⟩ := hb.update (resumable_transform direction h.1) piece
    rw [update_chained, yield_chained, yield_chained]
    exact ⟨.chained next, out⟩
  | @counter f nonce =>
    have out := Counter.apply_append (Counter.wide nonce) h 0 input piece
    rw [Nat.zero_add] at out
    refine ⟨?_, out⟩
    rw [StreamState.update, ← List.length_append]
    exact .counter
  | @galois f nonce pieces hp =>
    have pos : 0 < f.size := by rw [h]; decide
    have out := Galois.apply_append pos nonce 0 input piece
    rw [Nat.zero_add] at out
    have next : ((StreamState.galois f nonce input.length pieces).update direction piece).2 =
        .galois f nonce (input ++ piece).length
          (encryptedPiece direction f nonce input.length piece :: pieces) := by
      rw [List.length_append]
      cases direction <;> rfl
    refine ⟨?_, out⟩
    rw [next]
    refine .galois ?_
    rw [ciphertext_append pos, List.reverse_cons, List.flatten_append, hp, List.flatten_singleton]
  | @rc4 key =>
    have step := Rc4.apply_append (Rc4.start key) input piece
    have next : ((StreamState.rc4 (Rc4.apply (Rc4.start key) input).2).update direction piece).2 =
        .rc4 (Rc4.apply (Rc4.start key) (input ++ piece)).2 := by rw [step]; rfl
    refine ⟨?_, ?_⟩
    · rw [next]
      exact .rc4
    · rw [yield, yield, step]
      rfl

theorem After.feed (h : c.Fits) (ha : After direction input c s) (pieces : List Bytes) :
    After direction (input ++ pieces.flatten) c (s.feed direction pieces).2 ∧
      c.yield direction (input ++ pieces.flatten) =
        c.yield direction input ++ (s.feed direction pieces).1 := by
  induction pieces generalizing input s with
  | nil => simpa [StreamState.feed] using ha
  | cons piece pieces ih =>
    obtain ⟨next, out⟩ := ha.update h piece
    obtain ⟨last, more⟩ := ih next
    rw [List.flatten_cons, ← List.append_assoc]
    refine ⟨last, ?_⟩
    rw [more, out, List.append_assoc]
    rfl

/-- The pieces in which a message is taken in make no difference. -/
theorem feed_eq (h : c.Fits) (pieces : List Bytes) :
    After direction pieces.flatten c (c.start.feed direction pieces).2 ∧
      (c.start.feed direction pieces).1 = c.yield direction pieces.flatten := by
  obtain ⟨last, out⟩ := (after_start direction h).feed h pieces
  rw [List.nil_append] at last out
  rw [yield_nil direction h, List.nil_append] at out
  exact ⟨last, out.symm⟩

/-- Whether all of a message makes whole blocks, where there are blocks. -/
def Aligned (c : StreamCipher) (input : Bytes) : Prop :=
  match c with
  | .chained cipher _ => cipher.size ∣ input.length
  | _ => True

theorem After.aligned (ha : After direction input c s) : s.aligned = true ↔ c.Aligned input := by
  cases ha with
  | @chained cipher iv buffered hb =>
    have := hb.aligned
    rwa [transform_size] at this
  | counter => exact iff_of_true rfl trivial
  | galois _ => exact iff_of_true rfl trivial
  | rc4 => exact iff_of_true rfl trivial

theorem After.tag {f : BlockFunction} {nonce : Bytes} (ha : After direction input (.galois f nonce) s) :
    s.tag? = some (Galois.tag f nonce (ciphertext direction f nonce input)) := by
  cases ha with
  | galois h => rw [StreamState.tag?, h]

end StreamCipher

/-! ## The ciphers of methods -/

theorem Suite.size_forward_pos (suite : Suite) (p : Primitive) (key : Bytes) :
    0 < (suite.forward p key).size := by
  cases p <;> simp [Suite.forward, BlockCipher.forward]

theorem Suite.size_forward_of_aes (suite : Suite) (key : Bytes) :
    (suite.forward .aes key).size = 16 := by
  simp [Suite.forward, BlockCipher.forward]

theorem Suite.size_bothWays (suite : Suite) {family : Family} {p : Primitive}
    (h : family.primitive? = some p) (hp : p ≠ .rc4) (key : Bytes) :
    (suite.bothWays p key).size = family.blockSize := by
  cases family <;> cases h <;> first | exact absurd rfl hp | simp [Suite.bothWays, Family.blockSize]

theorem Family.primitive?_of_primitiveFor {family : Family} {key : Bytes} {p : Primitive}
    (h : family.primitiveFor key = .ok p) :
    family.primitive? = some p ∧ p.accepts (8 * key.length) = true := by
  unfold Family.primitiveFor at h
  split at h
  · cases h
  · split_ifs at h with accepts
    cases h
    exact ⟨‹_›, accepts⟩

/-- The ciphers of a method. -/
inductive StreamCipher.Serves (suite : Suite) (method : Method) (key iv : Bytes) : StreamCipher → Prop
  | rc2 (hf : method.family = .rc2) (hi : iv.length = 8) :
      Serves suite method key iv (.chained (suite.rc2 method.keyBits key) iv)
  | chained {p : Primitive} (hm : method.mode = .cbc) (hp : method.family.primitive? = some p)
      (hi : iv.length = method.blockSize) :
      Serves suite method key iv (.chained (suite.bothWays p key) iv)
  | counter {p : Primitive} (hm : method.mode = .ctr) (hp : method.family.primitive? = some p)
      (hi : iv.length = method.blockSize) :
      Serves suite method key iv (.counter (suite.forward p key) iv)
  | galois {p : Primitive} (hm : method.mode = .gcm) (hp : method.family.primitive? = some p) :
      Serves suite method key iv (.galois (suite.forward p key) iv)
  | rc4 (hm : method.mode = .stream) : Serves suite method key iv (.rc4 key)

theorem Suite.chainedRc2_eq {suite : Suite} {effectiveBits : Int} {key iv : Bytes} {c : StreamCipher}
    (h : suite.chainedRc2 effectiveBits key iv = .ok c) :
    iv.length = 8 ∧ c = .chained (suite.rc2 effectiveBits.toNat key) iv := by
  unfold Suite.chainedRc2 at h
  dsimp only at h
  split_ifs at h with size bits width
  cases h
  exact ⟨not_not.1 width, rfl⟩

theorem Suite.methodCipher_serves {suite : Suite} {method : Method} {key iv : Bytes}
    {c : StreamCipher} (h : suite.methodCipher method key iv = .ok c) :
    c.Serves suite method key iv := by
  unfold Suite.methodCipher at h
  by_cases rc2 : method.family = .rc2
  · rw [if_pos rc2] at h
    obtain ⟨width, rfl⟩ := Suite.chainedRc2_eq h
    exact .rc2 rc2 width
  rw [if_neg rc2] at h
  cases e : method.family.primitiveFor key with
  | error f =>
    rw [e] at h
    cases h
  | ok p =>
    have hp := (Family.primitive?_of_primitiveFor e).1
    rw [e] at h
    simp only [bind, Except.bind] at h
    cases hm : method.mode with
    | cbc =>
      simp only [hm] at h
      split_ifs at h with hi
      cases h
      exact .chained hm hp hi
    | ctr =>
      simp only [hm] at h
      split_ifs at h with hi
      cases h
      exact .counter hm hp hi
    | gcm =>
      simp only [hm] at h
      split_ifs at h
      cases h
      exact .galois hm hp
    | stream =>
      simp only [hm] at h
      cases h
      exact .rc4 hm
    | none =>
      simp only [hm] at h
      cases h

theorem Method.blocks_of_cbc {method : Method} {p : Primitive} (hm : method.mode = .cbc)
    (hp : method.family.primitive? = some p) : p ≠ .rc4 ∧ 0 < method.blockSize := by
  cases method <;> cases hp <;> first | exact ⟨nofun, by decide⟩ | cases hm

theorem Method.chaining_of_rc2 {method : Method} (hf : method.family = .rc2) :
    method.mode = .cbc ∧ method.blockSize = 8 ∧ method.padSize = 8 := by
  cases method <;> cases hf <;> exact ⟨rfl, rfl, rfl⟩

theorem Method.primitive_of_gcm {method : Method} {p : Primitive} (hm : method.mode = .gcm)
    (hp : method.family.primitive? = some p) : p = .aes := by
  cases method <;> cases hm
  cases hp
  rfl

namespace StreamCipher.Serves

variable {suite : Suite} {method : Method} {key iv : Bytes} {c : StreamCipher}

theorem fits (h : c.Serves suite method key iv) : c.Fits := by
  cases h with
  | rc2 hf hi => exact ⟨by rw [suite.size_rc2]; decide, by rw [suite.size_rc2, hi]⟩
  | chained hm hp hi =>
    obtain ⟨ne, pos⟩ := Method.blocks_of_cbc hm hp
    have size := suite.size_bothWays hp ne key
    exact ⟨size ▸ pos, hi.trans size.symm⟩
  | counter hm hp hi => exact suite.size_forward_pos _ key
  | galois hm hp =>
    obtain rfl := Method.primitive_of_gcm hm hp
    exact suite.size_forward_of_aes key
  | rc4 hm => trivial

end StreamCipher.Serves

end Cryptogram
