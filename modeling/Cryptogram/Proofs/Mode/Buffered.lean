import Mathlib.Tactic.Ring
import Cryptogram.Mode.Buffered
import Cryptogram.Proofs.Octets

/-!
# Whole blocks out of arbitrary pieces, and at once

A transform that can go on where it stopped puts out, for pieces of any length, what it makes of the
whole blocks of all of them together (`Buffered.After.update`).
-/

namespace Cryptogram

variable {σ : Type}

/-- The transform can stop after any block and go on later. -/
structure BlockTransform.Resumable (t : BlockTransform σ) : Prop where
  pos : 0 < t.size
  nil : ∀ s, t.apply s [] = ([], s)
  append : ∀ s a b, t.size ∣ a.length →
    t.apply s (a ++ b) = ((t.apply s a).1 ++ (t.apply (t.apply s a).2 b).1, (t.apply (t.apply s a).2 b).2)

namespace Buffered

/-- The whole blocks at the front of a string. -/
def whole (size : Nat) (bytes : Bytes) : Bytes := bytes.take (wholeLength size bytes)

/-- What follows the whole blocks. -/
def remainder (size : Nat) (bytes : Bytes) : Bytes := bytes.drop (wholeLength size bytes)

theorem whole_append_remainder (size : Nat) (bytes : Bytes) :
    whole size bytes ++ remainder size bytes = bytes :=
  List.take_append_drop _ _

theorem length_whole (size : Nat) (bytes : Bytes) :
    (whole size bytes).length = wholeLength size bytes :=
  List.length_take_of_le (Nat.sub_le _ _)

theorem dvd_wholeLength (size : Nat) (bytes : Bytes) : size ∣ wholeLength size bytes :=
  Nat.dvd_sub_mod _

theorem dvd_length_whole (size : Nat) (bytes : Bytes) : size ∣ (whole size bytes).length := by
  rw [length_whole]
  exact dvd_wholeLength size bytes

theorem whole_of_dvd {size : Nat} {bytes : Bytes} (h : size ∣ bytes.length) :
    whole size bytes = bytes := by
  rw [whole, wholeLength, Nat.mod_eq_zero_of_dvd h, Nat.sub_zero, List.take_length]

theorem remainder_eq_nil {size : Nat} {bytes : Bytes} :
    remainder size bytes = [] ↔ size ∣ bytes.length := by
  have := Nat.mod_le bytes.length size
  rw [remainder, List.drop_eq_nil_iff, wholeLength, Nat.dvd_iff_mod_eq_zero]
  omega

/-- Whole blocks in front of a string are whole blocks of the string. -/
theorem wholeLength_append {size : Nat} {a : Bytes} (h : size ∣ a.length) (b : Bytes) :
    wholeLength size (a ++ b) = a.length + wholeLength size b := by
  obtain ⟨k, hk⟩ := h
  have := Nat.mod_le b.length size
  rw [wholeLength, wholeLength, List.length_append, hk, Nat.mul_add_mod]
  omega

theorem whole_append {size : Nat} {a : Bytes} (h : size ∣ a.length) (b : Bytes) :
    whole size (a ++ b) = a ++ whole size b := by
  rw [whole, wholeLength_append h, List.take_length_add_append]
  rfl

theorem remainder_append {size : Nat} {a : Bytes} (h : size ∣ a.length) (b : Bytes) :
    remainder size (a ++ b) = remainder size b := by
  rw [remainder, wholeLength_append h, List.drop_length_add_append]
  rfl

/-- What the transform is when it has taken in `input`, starting from the state `s`. -/
structure After (t : BlockTransform σ) (s : σ) (input : Bytes) (b : Buffered σ) : Prop where
  state : b.state = (t.apply s (whole t.size input)).2
  pending : b.pending = remainder t.size input

namespace After

variable {t : BlockTransform σ} {s : σ} {input : Bytes} {b : Buffered σ}

theorem start (ht : t.Resumable) (s : σ) : After t s [] ⟨s, []⟩ := by
  have none : whole t.size [] = [] := List.take_nil
  refine ⟨?_, List.drop_nil.symm⟩
  rw [none, ht.nil]

/-- One more piece puts out the blocks that it completes. -/
theorem update (ht : t.Resumable) (h : After t s input b) (piece : Bytes) :
    After t s (input ++ piece) (b.update t piece).2 ∧
      (t.apply s (whole t.size (input ++ piece))).1 =
        (t.apply s (whole t.size input)).1 ++ (b.update t piece).1 := by
  have front := dvd_length_whole t.size input
  have split : input ++ piece = whole t.size input ++ (b.pending ++ piece) := by
    rw [h.pending, ← List.append_assoc, whole_append_remainder]
  have blocks : whole t.size (input ++ piece) =
      whole t.size input ++ whole t.size (b.pending ++ piece) := by
    rw [split, whole_append front]
  have rest : remainder t.size (input ++ piece) = remainder t.size (b.pending ++ piece) := by
    rw [split, remainder_append front]
  have step := ht.append s (whole t.size input) (whole t.size (b.pending ++ piece)) front
  rw [← blocks, ← h.state] at step
  unfold Buffered.update
  dsimp only
  split_ifs with cut
  · have none : whole t.size (b.pending ++ piece) = [] := by rw [whole, cut, List.take_zero]
    rw [none, ht.nil, List.append_nil] at step
    refine ⟨⟨?_, ?_⟩, ?_⟩
    · rw [step]
    · rw [rest, remainder, cut, List.drop_zero]
    · rw [step, List.append_nil]
  · refine ⟨⟨?_, rest.symm⟩, ?_⟩
    · rw [step]
      rfl
    · rw [step]
      rfl

theorem aligned (h : After t s input b) : b.aligned = true ↔ t.size ∣ input.length := by
  rw [Buffered.aligned, h.pending, List.isEmpty_iff, remainder_eq_nil]

end After

end Buffered

end Cryptogram
