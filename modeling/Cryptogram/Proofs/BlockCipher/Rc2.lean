import Mathlib.Tactic.IntervalCases
import Cryptogram.BlockCipher.Rc2
import Cryptogram.Proofs.BlockCipher.Basic

/-!
# RC2 backwards

Every round of RC2 adds to one word after the other what the other words and the key give, so it can
be undone word by word in reverse order (`unmix_mix`, `unmash_mash`).
-/

namespace Cryptogram.Rc2

/-! ## Words -/

theorem getLsbD_rotl16 (x : UInt16) {n : UInt16} (h : 0 < n.toNat) (h' : n.toNat < 16) {i : Nat}
    (hi : i < 16) :
    (rotl16 x n).toBitVec.getLsbD i = x.toBitVec.getLsbD ((i + 16 - n.toNat) % 16) := by
  have left : (n.toBitVec % 16).toNat = n.toNat := by
    simp [BitVec.toNat_umod]
    omega
  have right : ((16 - n).toBitVec % 16).toNat = 16 - n.toNat := by
    simp [BitVec.toNat_umod]
    omega
  unfold rotl16
  rw [UInt16.toBitVec_or, UInt16.toBitVec_shiftLeft, UInt16.toBitVec_shiftRight, BitVec.getLsbD_or,
    BitVec.shiftLeft_eq', BitVec.ushiftRight_eq', left, right, BitVec.getLsbD_shiftLeft,
    BitVec.getLsbD_ushiftRight]
  by_cases front : i < n.toNat
  · have place : (i + 16 - n.toNat) % 16 = 16 - n.toNat + i := by omega
    simp [front, place]
  · have place : (i + 16 - n.toNat) % 16 = i - n.toNat := by omega
    have out : x.toBitVec.getLsbD (16 - n.toNat + i) = false := BitVec.getLsbD_of_ge _ _ (by omega)
    simp [front, place, out, hi]

/-- Two rotations that go around the word together leave it as it is. -/
theorem rotl16_rotl16 (x : UInt16) {m n : UInt16} (hm : 0 < m.toNat) (hn : 0 < n.toNat)
    (around : m.toNat + n.toNat = 16) : rotl16 (rotl16 x m) n = x := by
  apply UInt16.eq_of_toBitVec_eq
  apply BitVec.eq_of_getLsbD_eq
  intro i hi
  rw [getLsbD_rotl16 _ hn (by omega) hi, getLsbD_rotl16 _ hm (by omega) (Nat.mod_lt _ (by decide))]
  congr 1
  omega

theorem add_sub (x k p q : UInt16) : x + k + p + q - k - p - q = x := by grind

theorem sub_add (x k p q : UInt16) : x - k - p - q + k + p + q = x := by grind

/-- The word of two octets, least significant first. -/
def word (low high : UInt8) : UInt16 := low.toUInt16 ||| (high.toUInt16 <<< 8)

theorem word_octets (x : UInt16) : word x.toUInt8 (x >>> 8).toUInt8 = x := by
  apply UInt16.eq_of_toBitVec_eq
  simp only [word, UInt16.toBitVec_or, UInt16.toBitVec_shiftLeft, UInt16.toBitVec_shiftRight,
    UInt16.toBitVec_toUInt8, UInt8.toBitVec_toUInt16]
  ext i hi
  interval_cases i <;> simp

theorem low_word (low high : UInt8) : (word low high).toUInt8 = low := by
  apply UInt8.eq_of_toBitVec_eq
  simp only [word, UInt16.toBitVec_or, UInt16.toBitVec_shiftLeft, UInt16.toBitVec_toUInt8,
    UInt8.toBitVec_toUInt16]
  ext i hi
  interval_cases i <;> simp

theorem high_word (low high : UInt8) : (word low high >>> 8).toUInt8 = high := by
  apply UInt8.eq_of_toBitVec_eq
  simp only [word, UInt16.toBitVec_or, UInt16.toBitVec_shiftLeft, UInt16.toBitVec_shiftRight,
    UInt16.toBitVec_toUInt8, UInt8.toBitVec_toUInt16]
  ext i hi
  interval_cases i <;> simp

theorem State.ofBlock_octets (s : State) : State.ofBlock s.octets = s := by
  obtain ⟨a, b, c, d⟩ := s
  have words : State.ofBlock (State.octets ⟨a, b, c, d⟩) =
      ⟨word a.toUInt8 (a >>> 8).toUInt8, word b.toUInt8 (b >>> 8).toUInt8,
        word c.toUInt8 (c >>> 8).toUInt8, word d.toUInt8 (d >>> 8).toUInt8⟩ := rfl
  rw [words, word_octets, word_octets, word_octets, word_octets]

theorem State.octets_ofBlock {block : Bytes} (h : block.length = 8) :
    (State.ofBlock block).octets = block := by
  match block with
  | [a, b, c, d, e, f, g, i] =>
    have words : State.ofBlock [a, b, c, d, e, f, g, i] = ⟨word a b, word c d, word e f, word g i⟩ :=
      rfl
    rw [words]
    simp only [State.octets, low_word, high_word]

/-! ## Rounds -/

theorem unmix_mix (k : Array UInt16) (s : State) (j : Nat) : unmix k (mix k s j) j = s := by
  unfold mix unmix
  simp (disch := decide) only [rotl16_rotl16, add_sub]

theorem mix_unmix (k : Array UInt16) (s : State) (j : Nat) : mix k (unmix k s j) j = s := by
  unfold mix unmix
  simp (disch := decide) only [rotl16_rotl16, sub_add]

theorem unmash_mash (k : Array UInt16) (s : State) : unmash k (mash k s) = s := by
  simp only [mash, unmash, UInt16.add_sub_cancel]

theorem mash_unmash (k : Array UInt16) (s : State) : mash k (unmash k s) = s := by
  simp only [mash, unmash, UInt16.sub_add_cancel]

theorem unmixes_mixes (k : Array UInt16) (first count : Nat) (s : State) :
    unmixes k first count (mixes k first count s) = s :=
  BlockCipher.foldl_reverse_foldl (P := fun _ => True) (v := id) (fun _ _ _ => trivial)
    (fun s r _ => unmix_mix k s (4 * r)) _ trivial

theorem mixes_unmixes (k : Array UInt16) (first count : Nat) (s : State) :
    mixes k first count (unmixes k first count s) = s := by
  have forwards := BlockCipher.foldl_reverse_foldl (P := fun _ => True) (v := id)
    (f := fun s r => unmix k s (4 * r)) (g := fun s r => mix k s (4 * r)) (fun _ _ _ => trivial)
    (fun s r _ => mix_unmix k s (4 * r)) (List.range' first count).reverse (s := s) trivial
  rwa [List.reverse_reverse] at forwards

end Cryptogram.Rc2

namespace Cryptogram

/-- RC2 can be undone under every key and every effective key length. -/
theorem BlockCipher.invertible_rc2 (effectiveBits : Nat) (key : Bytes) :
    (rc2 effectiveBits key).Invertible where
  decrypt_encrypt block h := by
    simp only [rc2, Rc2.State.ofBlock_octets, Rc2.unmixes_mixes, Rc2.unmash_mash]
    exact Rc2.State.octets_ofBlock h
  encrypt_decrypt block h := by
    simp only [rc2, Rc2.State.ofBlock_octets, Rc2.mixes_unmixes, Rc2.mash_unmash]
    exact Rc2.State.octets_ofBlock h

end Cryptogram
