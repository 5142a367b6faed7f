import Cryptogram.Frame.Keyed
import Cryptogram.Proofs.Cipher.Stream
import Cryptogram.Proofs.Padding
import Cryptogram.Proofs.Source
import Cryptogram.Proofs.Transfer

/-!
# Decryption in pieces and at once

`StreamCipher.decryptWhole` is what decryption of a message does that is there at once.
`StreamCipher.decryptPieces_flatten` says that decryption in pieces does the same: what may be the
tag, what does not fill a block and what may be padding are kept back, but all of it comes out in the
end, also when the decryption fails.
-/

namespace Cryptogram.StreamCipher

/-! ## Decryption at once -/

/-- The input without what may be the tag. -/
def body (tagLength : Nat) (input : Bytes) : Bytes := input.take (input.length - tagLength)

/-- What may be the tag. -/
def ending (tagLength : Nat) (input : Bytes) : Bytes := input.drop (input.length - tagLength)

/-- What decryption of `input` writes, and how it ends. -/
def decryptWhole (c : StreamCipher) (pad : Nat) (input : Bytes) : Transfer Unit :=
  match c with
  | .counter f nonce => ⟨Counter.apply f (Counter.wide nonce) 0 input, .ok ()⟩
  | .rc4 key => ⟨(Rc4.apply (Rc4.start key) input).1, .ok ()⟩
  | .galois f nonce =>
    if input.length < 16 then ⟨[], .error (.undersized .tag 16 input.length)⟩
    else
      let ciphertext := body 16 input
      ⟨Galois.apply f nonce 0 ciphertext,
        if ending 16 input = Galois.tag f nonce ciphertext then .ok () else .error .tagMismatch⟩
  | .chained cipher iv =>
    let plain := Chaining.decrypt cipher iv (Buffered.whole cipher.size input)
    let failed (f : Failure) : Transfer Unit :=
      ⟨if pad = 0 then plain else plain.take (plain.length - cipher.size), .error f⟩
    if ¬ cipher.size ∣ input.length then failed .unalignedCiphertext
    else if pad = 0 then ⟨plain, .ok ()⟩
    else match Padding.unpad? cipher.size plain with
      | some message => ⟨message, .ok ()⟩
      | none => failed .badPadding

/-- The padding and the tag that go with a cipher. -/
def Framed (pad tagLength : Nat) : StreamCipher → Prop
  | .chained cipher _ => (pad = 0 ∨ pad = cipher.size ∧ cipher.size ≤ 255) ∧ tagLength = 0
  | .galois _ _ => pad = 0 ∧ tagLength = Galois.tagLength
  | _ => pad = 0 ∧ tagLength = 0

/-! ## What is kept back -/

theorem body_append_ending (tagLength : Nat) (input : Bytes) :
    body tagLength input ++ ending tagLength input = input :=
  List.take_append_drop _ _

theorem length_body (tagLength : Nat) (input : Bytes) :
    (body tagLength input).length = input.length - tagLength :=
  List.length_take_of_le (Nat.sub_le _ _)

@[simp] theorem body_zero (input : Bytes) : body 0 input = input := List.take_length

/-- Behind input of which something is known not to be the tag, all that is kept back counts. -/
theorem body_append (tagLength : Nat) (input piece : Bytes) :
    body tagLength (input ++ piece) =
        body tagLength input ++ body tagLength (ending tagLength input ++ piece) ∧
      ending tagLength (input ++ piece) = ending tagLength (ending tagLength input ++ piece) := by
  have split := body_append_ending tagLength input
  have front := length_body tagLength input
  have total : input.length = (body tagLength input).length + (ending tagLength input).length := by
    rw [← List.length_append, split]
  have whole : input ++ piece = body tagLength input ++ (ending tagLength input ++ piece) := by
    rw [← List.append_assoc, split]
  have cut : (input ++ piece).length - tagLength = (body tagLength input).length +
      ((ending tagLength input ++ piece).length - tagLength) := by
    simp only [List.length_append]
    omega
  constructor
  · rw [body, cut, whole, List.take_length_add_append]
    rfl
  · rw [ending, cut, whole, List.drop_length_add_append]
    rfl

/-- What is put out of a plaintext as long as more may follow. -/
def shown (pad : Nat) (plain : Bytes) : Bytes :=
  if pad = 0 then plain else Padding.released pad plain

/-- What is kept back of a plaintext. -/
def withheld (pad : Nat) (plain : Bytes) : Bytes :=
  if pad = 0 then [] else Padding.keptBack pad plain

/-- What a decryption is when it has taken in `input`. -/
structure Decryption.After (pad tagLength : Nat) (c : StreamCipher) (input : Bytes)
    (d : Decryption) : Prop where
  state : StreamCipher.After .decrypt (body tagLength input) c d.state
  held : d.held = withheld pad (c.yield .decrypt (body tagLength input))
  pending : d.pending = ending tagLength input

namespace Decryption

variable {pad tagLength : Nat} {c : StreamCipher} {input : Bytes} {d : Decryption}

theorem after_start (pad tagLength : Nat) (h : c.Fits) :
    After pad tagLength c [] ⟨c.start, [], []⟩ := by
  have none : body tagLength [] = [] := List.take_nil
  refine ⟨?_, ?_, List.drop_nil.symm⟩
  · rw [none]
    exact StreamCipher.after_start .decrypt h
  · rw [none, yield_nil .decrypt h, withheld, Padding.keptBack, List.drop_nil, ite_self]

/-- Another piece goes through the three buffers: what was kept back for the tag, for a block and
for the padding comes in front of it. -/
theorem After.update (h : c.Fits) (ha : After pad tagLength c input d) (piece : Bytes) :
    After pad tagLength c (input ++ piece) (d.update pad tagLength piece).2 ∧
      shown pad (c.yield .decrypt (body tagLength (input ++ piece))) =
        shown pad (c.yield .decrypt (body tagLength input)) ++ (d.update pad tagLength piece).1 := by
  obtain ⟨front, back⟩ := body_append tagLength input piece
  rw [← ha.pending] at front back
  obtain ⟨state, out⟩ := ha.state.update h (body tagLength (d.pending ++ piece))
  rw [← front] at state out
  unfold Decryption.update
  dsimp only
  split_ifs with cut unpadded
  · have none : body tagLength (d.pending ++ piece) = [] := by rw [body, cut, List.take_zero]
    rw [none, List.append_nil] at front
    rw [front, List.append_nil]
    refine ⟨⟨front ▸ ha.state, front ▸ ha.held, ?_⟩, rfl⟩
    rw [back, ending, cut, List.drop_zero]
  · refine ⟨⟨state, ?_, back.symm⟩, ?_⟩
    · rw [withheld, if_pos unpadded]
    · rw [shown, shown, if_pos unpadded, if_pos unpadded]
      exact out
  · have pos := Nat.pos_of_ne_zero unpadded
    have held := ha.held
    rw [withheld, if_neg unpadded] at held
    refine ⟨⟨state, ?_, back.symm⟩, ?_⟩
    · rw [withheld, if_neg unpadded, out, Padding.keptBack_append pos, ← held]
      rfl
    · rw [shown, shown, if_neg unpadded, if_neg unpadded, out, Padding.released_append pos, ← held]
      rfl

theorem After.feed (h : c.Fits) (ha : After pad tagLength c input d) (pieces : List Bytes) :
    After pad tagLength c (input ++ pieces.flatten) (d.feed pad tagLength pieces).2 ∧
      shown pad (c.yield .decrypt (body tagLength (input ++ pieces.flatten))) =
        shown pad (c.yield .decrypt (body tagLength input)) ++ (d.feed pad tagLength pieces).1 := by
  induction pieces generalizing input d with
  | nil => simpa [Decryption.feed] using ha
  | cons piece pieces ih =>
    obtain ⟨next, out⟩ := ha.update h piece
    obtain ⟨last, more⟩ := ih next
    rw [List.flatten_cons, ← List.append_assoc]
    refine ⟨last, ?_⟩
    rw [more, out, List.append_assoc]
    rfl

theorem feed_eq (h : c.Fits) (pad tagLength : Nat) (pieces : List Bytes) :
    After pad tagLength c pieces.flatten (feed pad tagLength ⟨c.start, [], []⟩ pieces).2 ∧
      (feed pad tagLength ⟨c.start, [], []⟩ pieces).1 =
        shown pad (c.yield .decrypt (body tagLength pieces.flatten)) := by
  obtain ⟨last, out⟩ := (after_start pad tagLength h).feed h pieces
  have none : body tagLength [] = [] := List.take_nil
  have nothing : shown pad [] = [] := by rw [shown, Padding.released, List.take_nil, ite_self]
  rw [List.nil_append] at last out
  rw [none, yield_nil .decrypt h, nothing, List.nil_append] at out
  exact ⟨last, out.symm⟩

/-! ## The end of a decryption -/

theorem checkUntagged_eq {s : StreamState} (hs : StreamCipher.After .decrypt input c s)
    (hc : ∀ f nonce, c ≠ .galois f nonce) :
    checkUntagged s = if s.aligned then .ok () else .error .unalignedCiphertext := by
  cases hs with
  | chained _ => rfl
  | counter => rfl
  | @galois f nonce => exact absurd rfl (hc f nonce)
  | rc4 => rfl

theorem After.check_aligned (ha : After pad 0 c input d) (hc : ∀ f nonce, c ≠ .galois f nonce)
    (h : c.Aligned input) : d.check 0 = .ok () := by
  have aligned := ha.state.aligned
  rw [body_zero] at aligned
  rw [check, if_pos rfl, checkUntagged_eq ha.state hc, if_pos (aligned.2 h)]

theorem After.check_unaligned (ha : After pad 0 c input d) (hc : ∀ f nonce, c ≠ .galois f nonce)
    (h : ¬ c.Aligned input) : d.check 0 = .error .unalignedCiphertext := by
  have aligned := ha.state.aligned
  rw [body_zero] at aligned
  rw [check, if_pos rfl, checkUntagged_eq ha.state hc, if_neg (mt aligned.1 h)]

theorem After.check_galois {f : BlockFunction} {nonce : Bytes}
    (ha : After pad 16 (.galois f nonce) input d) :
    d.check 16 =
      if input.length < 16 then .error (.undersized .tag 16 input.length)
      else if ending 16 input = Galois.tag f nonce (body 16 input) then .ok ()
      else .error .tagMismatch := by
  have width : d.pending.length = input.length - (input.length - 16) := by
    rw [ha.pending, ending, List.length_drop]
  have tag : d.state.tag? = some (Galois.tag f nonce (body 16 input)) := ha.state.tag
  rw [check, if_neg (by decide)]
  by_cases short : input.length < 16
  · have all : d.pending.length = input.length := by omega
    rw [if_pos short, all, if_pos short]
  · have full : d.pending.length = Galois.tagLength := by rw [width, Galois.tagLength]; omega
    have enough : ¬ d.pending.length < 16 := by omega
    rw [if_neg short, if_neg enough, checkTagged, tag]
    dsimp only
    rw [if_neg (not_not.2 full), ha.pending]

end Decryption

/-! ## Pieces -/

theorem decryptPieces_eq {c : StreamCipher} {pad tagLength : Nat} {pieces : List Bytes} {out : Bytes}
    {d : Decryption} (h : Decryption.feed pad tagLength ⟨c.start, [], []⟩ pieces = (out, d)) :
    c.decryptPieces pad tagLength pieces =
      match d.check tagLength with
      | .error f => ⟨out, .error f⟩
      | .ok () =>
        match d.last pad with
        | .error f => ⟨out, .error f⟩
        | .ok rest => ⟨out ++ rest, .ok ()⟩ := by
  rw [decryptPieces, h]
  dsimp only
  rw [Transfer.write_bind]
  cases d.check tagLength with
  | error f =>
    rw [Transfer.lift_error_bind, List.append_nil]
  | ok u =>
    rw [Transfer.lift_ok_bind]
    cases d.last pad with
    | error f => rw [Transfer.lift_error_bind, List.append_nil]
    | ok rest => rfl

theorem decryptPieces_unpadded {c : StreamCipher} (h : c.Fits) (hc : ∀ f nonce, c ≠ .galois f nonce)
    (pieces : List Bytes) :
    (c.Aligned pieces.flatten → c.decryptPieces 0 0 pieces =
      ⟨c.yield .decrypt pieces.flatten, .ok ()⟩) ∧
    (¬ c.Aligned pieces.flatten → c.decryptPieces 0 0 pieces =
      ⟨c.yield .decrypt pieces.flatten, .error .unalignedCiphertext⟩) := by
  obtain ⟨after, out⟩ := Decryption.feed_eq h 0 0 pieces
  rw [body_zero, shown, if_pos rfl] at out
  constructor
  · intro aligned
    rw [decryptPieces_eq rfl, after.check_aligned hc aligned, out]
    simp only [Decryption.last, if_true, List.append_nil]
  · intro unaligned
    rw [decryptPieces_eq rfl, after.check_unaligned hc unaligned, out]

theorem decryptPieces_galois {f : BlockFunction} (h : f.size = Galois.tagLength) (nonce : Bytes)
    (pieces : List Bytes) : (galois f nonce).decryptPieces 0 Galois.tagLength pieces =
      (galois f nonce).decryptWhole 0 pieces.flatten := by
  have fits : (galois f nonce).Fits := h
  obtain ⟨after, out⟩ := Decryption.feed_eq fits 0 16 pieces
  rw [shown, if_pos rfl] at out
  have yield (input : Bytes) : (galois f nonce).yield .decrypt input = Galois.apply f nonce 0 input := rfl
  rw [Galois.tagLength, decryptPieces_eq rfl, after.check_galois, out, yield, decryptWhole]
  by_cases short : pieces.flatten.length < 16
  · have none : body 16 pieces.flatten = [] := by
      rw [body, Nat.sub_eq_zero_of_le short.le, List.take_zero]
    simp only [if_pos short, none, Galois.apply_nil]
  by_cases tag : ending 16 pieces.flatten = Galois.tag f nonce (body 16 pieces.flatten)
  · simp only [if_neg short, if_pos tag, Decryption.last, if_true, List.append_nil]
  · simp only [if_neg short, if_neg tag]

theorem decryptPieces_padded {cipher : BlockCipher} {iv : Bytes} (h : (chained cipher iv).Fits)
    (hs : cipher.size ≤ 255) (pieces : List Bytes) :
    (chained cipher iv).decryptPieces cipher.size 0 pieces =
      (chained cipher iv).decryptWhole cipher.size pieces.flatten := by
  set plain := Chaining.decrypt cipher iv (Buffered.whole cipher.size pieces.flatten) with hplain
  have padded : cipher.size ≠ 0 := h.1.ne'
  have whole := Buffered.dvd_length_whole cipher.size pieces.flatten
  have blocks : cipher.size ∣ plain.length := by rwa [hplain, Chaining.length_decrypt h.1 h.2 whole]
  obtain ⟨after, out⟩ := Decryption.feed_eq h cipher.size 0 pieces
  have yield : (chained cipher iv).yield .decrypt (body 0 pieces.flatten) = plain := by
    rw [body_zero, hplain]
    rfl
  have held := after.held
  rw [yield, withheld, if_neg padded] at held
  rw [yield, shown, if_neg padded, Padding.released_of_dvd blocks] at out
  rw [decryptPieces_eq rfl, out, decryptWhole, ← hplain]
  by_cases aligned : cipher.size ∣ pieces.flatten.length
  · rw [after.check_aligned nofun aligned, if_neg (not_not.2 aligned), if_neg padded,
      Padding.unpad?_eq_map h.1 hs blocks, Padding.released_of_dvd blocks]
    dsimp only
    rw [Decryption.last, if_neg padded, held]
    cases Padding.unpadBlock? cipher.size (Padding.keptBack cipher.size plain) with
    | none => simp only [Option.map_none, if_neg padded]
    | some rest => rfl
  · rw [after.check_unaligned nofun aligned, if_pos aligned]
    simp only [if_neg padded]

/-- Decryption in pieces is decryption at once. -/
theorem decryptPieces_flatten {c : StreamCipher} {pad tagLength : Nat} (h : c.Fits)
    (hf : c.Framed pad tagLength) (pieces : List Bytes) :
    c.decryptPieces pad tagLength pieces = c.decryptWhole pad pieces.flatten := by
  cases c with
  | chained cipher iv =>
    obtain ⟨rfl | ⟨rfl, hs⟩, rfl⟩ := hf
    · obtain ⟨whole, part⟩ := decryptPieces_unpadded h nofun pieces
      by_cases aligned : cipher.size ∣ pieces.flatten.length
      · rw [whole aligned, decryptWhole, if_neg (not_not.2 aligned), if_pos rfl]
        rfl
      · rw [part aligned, decryptWhole, if_pos aligned]
        rfl
    · exact decryptPieces_padded h hs pieces
  | counter f nonce =>
    obtain ⟨rfl, rfl⟩ := hf
    exact (decryptPieces_unpadded h nofun pieces).1 trivial
  | galois f nonce =>
    obtain ⟨rfl, rfl⟩ := hf
    exact decryptPieces_galois h nonce pieces
  | rc4 key =>
    obtain ⟨rfl, rfl⟩ := hf
    exact (decryptPieces_unpadded h nofun pieces).1 trivial

/-! ## The ciphers of methods -/

theorem Serves.framed {suite : Suite} {method : Method} {key iv : Bytes} {c : StreamCipher}
    (h : c.Serves suite method key iv) : c.Framed method.padSize (Keyed.tagLength method) := by
  cases h with
  | rc2 hf hi =>
    have sizes : method.padSize = 8 ∧ Keyed.tagLength method = 0 := by
      cases method <;> cases hf <;> decide
    rw [Framed, suite.size_rc2]
    exact ⟨.inr ⟨sizes.1, by decide⟩, sizes.2⟩
  | chained hm hp hi =>
    obtain ⟨ne, -⟩ := Method.blocks_of_cbc hm hp
    have sizes : (method.padSize = 0 ∨ method.padSize = method.blockSize ∧ method.blockSize ≤ 255) ∧
        Keyed.tagLength method = 0 := by
      cases method <;> cases hm <;> decide
    rw [Framed, suite.size_bothWays hp ne]
    exact sizes
  | counter hm hp hi =>
    cases method <;> cases hm
    exact ⟨rfl, rfl⟩
  | galois hm hp =>
    cases method <;> cases hm
    exact ⟨rfl, rfl⟩
  | rc4 hm =>
    cases method <;> cases hm <;> exact ⟨rfl, rfl⟩

/-- Whatever pieces a message comes in, decryption writes what decryption of the whole message
writes, and ends as it ends.  A padded plaintext is told from others by `Padding.pad`, and each
failure has its class. -/
theorem decryptPieces_eq_decryptWhole {suite : Suite} {method : Method} {key iv : Bytes}
    {c : StreamCipher} (hc : suite.methodCipher method key iv = .ok c) (head : Bytes)
    (source : Source) {bufferSize : Nat} (hb : 1 ≤ bufferSize) :
    c.decryptPieces method.padSize (Keyed.tagLength method) (head :: source.chunks bufferSize) =
        c.decryptWhole method.padSize (head ++ source.rest) ∧
      (∀ size plain message, 0 < size → size ≤ 255 →
        (Padding.unpad? size plain = some message ↔ plain = Padding.pad size message)) ∧
      (∀ length, (Failure.undersized .tag 16 length).kind = .own .undersizedInput) ∧
      Failure.tagMismatch.kind = .own .integrity ∧
      Failure.unalignedCiphertext.kind = .own .format ∧
      Failure.badPadding.kind = .own .decryption := by
  have serves := Suite.methodCipher_serves hc
  refine ⟨?_, fun _ _ _ h hs => Padding.unpad?_eq_some h hs, fun _ => rfl, rfl, rfl, rfl⟩
  rw [decryptPieces_flatten serves.fits serves.framed, List.flatten_cons, source.flatten_chunks hb]

theorem decryptPieces_eq_decryptWhole_aesCbc :
    Suite.standard.methodCipher .aesCbc (Bytes.zeros 16) (Bytes.zeros 16) =
        .ok (.chained (.aes (Bytes.zeros 16)) (Bytes.zeros 16)) ∧ 1 ≤ 3 ∧
      (chained (.aes (Bytes.zeros 16)) (Bytes.zeros 16)).decryptPieces 16 0
          ([1, 2] :: (⟨[3, 4, 5], 0, fun _ => some 1⟩ : Source).chunks 3) =
        (chained (.aes (Bytes.zeros 16)) (Bytes.zeros 16)).decryptWhole 16 [1, 2, 3, 4, 5] := by
  have built : Suite.standard.methodCipher .aesCbc (Bytes.zeros 16) (Bytes.zeros 16) =
      .ok (.chained (.aes (Bytes.zeros 16)) (Bytes.zeros 16)) := rfl
  exact ⟨built, by decide,
    (decryptPieces_eq_decryptWhole built [1, 2] ⟨[3, 4, 5], 0, fun _ => some 1⟩ (by decide)).1⟩

end Cryptogram.StreamCipher
