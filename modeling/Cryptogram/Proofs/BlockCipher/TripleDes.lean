import Mathlib.Data.List.Induction
import Mathlib.Tactic.Ring
import Cryptogram.BlockCipher.TripleDes
import Cryptogram.Proofs.BlockCipher.Basic
import Cryptogram.Proofs.Word

/-!
# Triple DES backwards

The two outer permutations of DES undo each other (`gather_gather`), and rounds with the halves
exchanged run backwards, whatever the round function is (`foldl_swap`).  So a pass with the round keys
in reverse order undoes a pass (`pass_reverse`).
-/

namespace Cryptogram.TripleDes

/-! ## Permutations -/

/-- What one position adds to the bits gathered so far. -/
def gatherStep (width x out p : UInt64) : UInt64 := (out <<< 1) ||| ((x >>> (width - p)) &&& 1)

theorem gather_eq (width : UInt64) (positions : List UInt64) (x : UInt64) :
    gather width positions x = positions.foldl (gatherStep width x) 0 := rfl

/-- The bit, counted from the least significant one, at a position. -/
def place (width p : UInt64) : Nat := (width - p).toNat % 64

theorem getLsbD_gatherStep (width x out p : UInt64) {i : Nat} (hi : i < 64) :
    (gatherStep width x out p).toBitVec.getLsbD i =
      if i = 0 then x.toBitVec.getLsbD (place width p) else out.toBitVec.getLsbD (i - 1) := by
  have shift : ((width - p).toBitVec % 64).toNat = place width p := rfl
  unfold gatherStep
  rw [UInt64.toBitVec_or, UInt64.toBitVec_and, UInt64.toBitVec_shiftLeft,
    UInt64.toBitVec_shiftRight, BitVec.getLsbD_or, BitVec.getLsbD_and, BitVec.shiftLeft_eq',
    BitVec.ushiftRight_eq', shift, BitVec.getLsbD_shiftLeft, BitVec.getLsbD_ushiftRight]
  cases i with
  | zero => simp
  | succ i => simp [hi]

/-- The bits that are gathered, least significant first, stand at the positions in reverse order. -/
theorem getLsbD_gather (width : UInt64) (positions : List UInt64) (x : UInt64) {i : Nat}
    (hi : i < positions.length) (h : positions.length ≤ 64) :
    (gather width positions x).toBitVec.getLsbD i =
      x.toBitVec.getLsbD (place width (positions.reverse.getD i 0)) := by
  rw [gather_eq]
  induction positions using List.reverseRecOn generalizing i with
  | nil => cases hi
  | append_singleton positions p ih =>
    rw [List.length_append, List.length_singleton] at hi h
    rw [List.foldl_append, List.foldl_cons, List.foldl_nil, getLsbD_gatherStep _ _ _ _ (by omega),
      List.reverse_append, List.reverse_singleton, List.singleton_append]
    cases i with
    | zero => rfl
    | succ i =>
      rw [if_neg (Nat.succ_ne_zero i), Nat.add_sub_cancel, ih (by omega) (by omega)]
      rfl

/-- Permutations of all bits undo each other when the places of each lead back through the other. -/
theorem gather_gather {p q : List UInt64} (hp : p.length = 64) (hq : q.length = 64)
    (back : ∀ i : Fin 64, place 64 (p.reverse.getD (place 64 (q.reverse.getD i 0)) 0) = i)
    (x : UInt64) : gather 64 q (gather 64 p x) = x := by
  apply UInt64.eq_of_toBitVec_eq
  apply BitVec.eq_of_getLsbD_eq
  intro i hi
  have small : place 64 (q.reverse.getD i 0) < 64 := Nat.mod_lt _ (by decide)
  rw [getLsbD_gather 64 q _ (by omega) (by omega), getLsbD_gather 64 p _ (by omega) (by omega)]
  exact congrArg _ (back ⟨i, hi⟩)

theorem final_initial (x : UInt64) :
    gather 64 finalPermutation (gather 64 initialPermutation x) = x :=
  gather_gather rfl rfl (by decide) x

theorem initial_final (x : UInt64) :
    gather 64 initialPermutation (gather 64 finalPermutation x) = x :=
  gather_gather rfl rfl (by decide) x

/-! ## Rounds -/

/-- A round on both halves. -/
def round (halves : UInt32 × UInt32) (key : UInt64) : UInt32 × UInt32 :=
  (halves.2, halves.1 ^^^ mangle halves.2 key)

/-- With the halves exchanged, the rounds run backwards. -/
theorem foldl_swap (keys : List UInt64) (halves : UInt32 × UInt32) :
    keys.reverse.foldl round (keys.foldl round halves).swap = halves.swap := by
  refine BlockCipher.foldl_reverse_foldl (P := fun _ => True) (v := Prod.swap) (fun _ _ _ => trivial)
    (fun s k _ => ?_) keys trivial
  obtain ⟨l, r⟩ := s
  simp only [round, Prod.swap_prod_mk]
  rw [UInt32.xor_assoc, UInt32.xor_self, UInt32.xor_zero]

/-- The halves of a block. -/
def split (x : UInt64) : UInt32 × UInt32 := ((x >>> 32).toUInt32, x.toUInt32)

/-- The block of two halves. -/
def join (halves : UInt32 × UInt32) : UInt64 := (halves.1.toUInt64 <<< 32) ||| halves.2.toUInt64

theorem toNat_join (halves : UInt32 × UInt32) :
    (join halves).toNat = halves.1.toNat * 0x100000000 + halves.2.toNat :=
  Word.toNat_halves halves.1 halves.2

theorem split_join (halves : UInt32 × UInt32) : split (join halves) = halves := by
  have high := halves.1.toNat_lt
  have low := halves.2.toNat_lt
  have whole := toNat_join halves
  refine Prod.ext (UInt32.toNat_inj.1 ?_) (UInt32.toNat_inj.1 ?_)
  · show ((join halves >>> 32).toUInt32).toNat = _
    rw [UInt64.toNat_toUInt32, UInt64.toNat_shiftRight, whole]
    show (halves.1.toNat * 0x100000000 + halves.2.toNat) >>> 32 % 0x100000000 = _
    rw [Nat.shiftRight_eq_div_pow]
    omega
  · show ((join halves).toUInt32).toNat = _
    rw [UInt64.toNat_toUInt32, whole]
    omega

theorem join_split (x : UInt64) : join (split x) = x := by
  have hx := x.toNat_lt
  apply UInt64.toNat_inj.1
  rw [toNat_join]
  show ((x >>> 32).toUInt32).toNat * 0x100000000 + x.toUInt32.toNat = _
  rw [UInt64.toNat_toUInt32, UInt64.toNat_toUInt32, UInt64.toNat_shiftRight]
  show x.toNat >>> 32 % 0x100000000 * 0x100000000 + x.toNat % 0x100000000 = _
  rw [Nat.shiftRight_eq_div_pow]
  omega

/-! ## Passes -/

theorem pass_eq (keys : List UInt64) (x : UInt64) :
    pass keys x = gather 64 finalPermutation
      (join (keys.foldl round (split (gather 64 initialPermutation x))).swap) := rfl

/-- The round keys in reverse order undo a pass. -/
theorem pass_reverse (keys : List UInt64) (x : UInt64) : pass keys.reverse (pass keys x) = x := by
  rw [pass_eq, pass_eq, initial_final, split_join, foldl_swap, Prod.swap_swap, join_split,
    final_initial]

theorem reverse_pass (keys : List UInt64) (x : UInt64) : pass keys (pass keys.reverse x) = x := by
  have back := pass_reverse keys.reverse x
  rwa [List.reverse_reverse] at back

end Cryptogram.TripleDes

namespace Cryptogram

/-- Triple DES can be undone under every key. -/
theorem BlockCipher.invertible_tripleDes (key : Bytes) : (tripleDes key).Invertible where
  decrypt_encrypt block h := by
    simp only [tripleDes, Word.be64At_be64, TripleDes.pass_reverse, TripleDes.reverse_pass]
    exact Word.be64_be64At h
  encrypt_decrypt block h := by
    simp only [tripleDes, Word.be64At_be64, TripleDes.pass_reverse, TripleDes.reverse_pass]
    exact Word.be64_be64At h

end Cryptogram
