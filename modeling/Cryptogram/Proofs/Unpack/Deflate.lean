import Cryptogram.Proofs.Unpack.Huffman
import Cryptogram.Unpack.Deflate

/-!
# Deflated octets that are cut

Blocks and frames are made of steady decoders: each step of the three loops, over symbols, over lengths
of words and over blocks, takes a bit.  Octets that were not packed are passed on from the beginning of
one, which is what makes passing them on steady (`stored_eq`).
-/

namespace Cryptogram.Deflate

open Decoder

/-! ## Packed blocks -/

theorem steady_spread (codes : List (Nat × Nat)) (symbol : Nat) : Steady 0 (spread codes symbol) := by
  unfold spread
  cases codes[symbol]? with
  | none => exact steady_fail
  | some entry => exact (steady_lowNumber entry.2).bind fun n => steady_pure _

theorem steady_step (codes : Codes) (u : Unit) : Steady 1 (step codes u) := by
  refine (codes.literals.steady_symbol .lowFirst).andThen fun n => ?_
  split_ifs
  · exact (steady_emit _).bind fun _ => steady_pure _
  · exact steady_pure _
  · refine (steady_spread _ _).bind fun length => ?_
    refine (codes.distances.steady_symbol .lowFirst).zero.bind fun symbol => ?_
    refine (steady_spread _ _).bind fun distance => ?_
    exact (steady_copy distance length).bind fun _ => steady_pure _

theorem steady_lengthsStep {code : Huffman} (words : 1 ≤ code.counts.length) (count : Nat)
    (read : List Nat) : Steady 1 (lengthsStep code count read) := by
  have first := code.steady_symbol? .lowFirst
  rw [Nat.min_eq_right words] at first
  have ended (read : List Nat) : Steady 0 (if read.length < count then pure (.inl read)
      else if read.length = count then pure (.inr read.reverse)
      else fail : Decoder (List Nat ⊕ List Nat)) := by
    split_ifs
    · exact steady_pure _
    · exact steady_pure _
    · exact steady_fail
  refine first.andThen fun n => ?_
  dsimp only
  split_ifs
  · exact (steady_pure _).bind ended
  · refine (steady_lowNumber 2).bind fun times => ?_
    cases read with
    | nil => exact steady_fail.bind ended
    | cons last read => exact (steady_pure _).bind ended
  · exact (steady_lowNumber 3).bind fun times => (steady_pure _).bind ended
  · exact (steady_lowNumber 7).bind fun times => (steady_pure _).bind ended

theorem steady_ownCodes : Steady 0 ownCodes := by
  refine (steady_lowNumber 5).bind fun literals => ?_
  refine (steady_lowNumber 5).bind fun distances => ?_
  refine (steady_lowNumber 4).bind fun given => ?_
  refine (steady_require _).bind fun _ => ?_
  refine (steady_replicate (steady_lowNumber 3) _).bind fun widths => ?_
  refine (steady_require _).bind fun _ => ?_
  refine (steady_loop (steady_lengthsStep (Huffman.le_length_counts 1 _) _) []).bind fun lengths => ?_
  refine (steady_require _).bind fun _ => ?_
  exact (steady_require _).bind fun _ => steady_pure _

/-! ## Blocks that are not packed -/

/-- Puts out the next octet, as a whole even if it was begun. -/
def passOctet : Decoder Unit := fun s =>
  match s.rest with
  | [] => .cut s.out
  | octet :: tail => .done () ⟨0, tail, s.out.push octet⟩

theorem steady_passOctet : Steady 0 passOctet where
  behind s hs := by
    obtain ⟨used, rest, out⟩ := s
    have lt := hs.used_lt
    cases rest with
    | nil => exact Reading.behind_cut List.prefix_rfl
    | cons octet tail =>
      refine Reading.behind_done _ (prefix_push octet out) ⟨Nat.zero_lt_succ _, fun _ => rfl⟩ ?_
      simp only [Unpacking.bits, List.length_cons] at lt ⊢
      omega
  agrees s q hs := by
    obtain ⟨used, rest, out⟩ := s
    cases rest with
    | nil =>
      show Reading.Begins out (passOctet ⟨used, q, out⟩)
      cases q with
      | nil => exact List.prefix_rfl
      | cons octet tail => exact prefix_push octet out
    | cons octet tail => rfl

theorem passOn_eq (size : Nat) {s : Unpacking} (whole : s.used = 0) :
    passOn size s = (replicate passOctet size >>= fun _ => pure ()) s := by
  induction size generalizing s with
  | zero => rfl
  | succ size ih =>
    obtain ⟨used, rest, out⟩ := s
    cases rest with
    | nil => rfl
    | cons octet tail =>
      cases whole
      show passOn size ⟨0, tail, out.push octet⟩ = _
      rw [ih rfl, bind_apply, bind_apply]
      simp only [replicate, bind_apply, passOctet]
      cases replicate passOctet size ⟨0, tail, out.push octet⟩ with
      | done more s => rfl
      | cut out => rfl
      | invalid => rfl

theorem used_bit {order : BitOrder} {s s' : Unpacking} {b : Bool} (hs : s.used < 8)
    (h : bit order s = .done b s') : s'.used = (s.used + 1) % 8 := by
  obtain ⟨used, rest, out⟩ := s
  cases rest with
  | nil => cases h
  | cons octet tail =>
    rw [bit_cons] at h
    split_ifs at h with more
    · cases h
      exact (Nat.mod_eq_of_lt (Nat.succ_lt_succ more)).symm
    · cases h
      show 0 = (used + 1) % 8
      simp only at hs
      omega

theorem used_lowNumber {width n : Nat} {s s' : Unpacking} (hs : s.used < 8)
    (h : lowNumber width s = .done n s') : s'.used = (s.used + width) % 8 := by
  induction width generalizing n s with
  | zero =>
    cases h
    exact (Nat.mod_eq_of_lt hs).symm
  | succ width ih =>
    obtain ⟨b, t, first, rest⟩ := bind_eq_done_iff.1 h
    obtain ⟨m, u, others, ⟨⟩⟩ := bind_eq_done_iff.1 rest
    have one := used_bit hs first
    rw [ih (one ▸ Nat.mod_lt _ (by decide)) others, one]
    omega

theorem used_align {s s' : Unpacking} {u : Unit} (h : align s = .done u s') : s'.used = 0 := by
  rw [align_eq] at h
  cases h
  split_ifs with whole
  · exact whole
  · rfl

theorem eq_of_require {condition : Bool} {s s' : Unpacking} {u : Unit}
    (h : require condition s = .done u s') : s' = s := by
  unfold require at h
  split_ifs at h
  · cases h
    rfl
  · cases h

/-- Passing on begins at the beginning of an octet, since the octet before it is given up and two numbers
of 16 bits follow. -/
theorem stored_eq : stored = do
    align
    let size ← lowNumber 16
    let complement ← lowNumber 16
    require (size + complement = 65535)
    let _ ← replicate passOctet size
    return () := by
  funext s
  refine bind_congr_of_done fun _ s₁ aligned => ?_
  refine bind_congr_of_done fun size s₂ first => ?_
  refine bind_congr_of_done fun complement s₃ second => ?_
  refine bind_congr_of_done fun _ s₄ held => ?_
  have start := used_align aligned
  have middle := used_lowNumber (start ▸ Nat.zero_lt_succ 7) first
  rw [start] at middle
  have behind := used_lowNumber (middle ▸ Nat.zero_lt_succ 7) second
  rw [middle] at behind
  exact passOn_eq size (eq_of_require held ▸ behind)

theorem steady_stored : Steady 0 stored := by
  rw [stored_eq]
  refine steady_align.bind fun _ => (steady_lowNumber 16).bind fun size => ?_
  refine (steady_lowNumber 16).bind fun complement => (steady_require _).bind fun _ => ?_
  exact (steady_replicate steady_passOctet size).bind fun _ => steady_pure ()

/-! ## Blocks and frames -/

theorem steady_block (u : Unit) : Steady 1 (block u) := by
  refine (steady_bit .lowFirst).andThen fun final => (steady_lowNumber 2).bind fun kind => ?_
  have ended (d : Decoder Unit) (h : Steady 0 d) : Steady 0 (d >>= fun _ =>
      pure (if final then .inr () else .inl ()) : Decoder (Unit ⊕ Unit)) :=
    h.bind fun _ => steady_pure _
  dsimp only
  split
  · exact ended _ steady_stored
  · exact ended _ (steady_loop (steady_step fixedCodes) ())
  · exact steady_ownCodes.bind fun codes => ended _ (steady_loop (steady_step codes) ())
  · exact ended _ steady_fail

theorem steady_blocks : Steady 0 blocks := steady_loop steady_block ()

theorem steady_framed : Steady 0 framed := by
  refine (steady_lowNumber 8).bind fun method => (steady_lowNumber 8).bind fun flags => ?_
  refine (steady_require _).bind fun _ => steady_blocks.bind fun _ => steady_align.bind fun _ => ?_
  refine (steady_replicate (steady_lowNumber 8) 4).bind fun sum => ?_
  exact steady_produced.bind fun out => steady_require _

end Cryptogram.Deflate
