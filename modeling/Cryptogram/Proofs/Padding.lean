import Mathlib.Tactic.Ring
import Cryptogram.Padding
import Cryptogram.Proofs.Octets

/-!
# Padding at once

A padder lets whole blocks through and nothing else (`dvd_length_collect`), so what it puts in front of
the padding does not change the padding (`pad_append`).  Padding can be taken off in one way only
(`pad_injective`).  A message that is released in pieces
comes out without its last whole block and what follows it (`released_append`), and the last block
decides whether the message is padded (`unpad?_eq_map`).
-/

namespace Cryptogram.Padding

/-! ## Whole messages -/

/-- The number of octets of the padding. -/
def trailerLength (size length : Nat) : Nat := size - length % size

theorem trailer_eq (size length : Nat) :
    trailer size length =
      List.replicate (trailerLength size length) (trailerLength size length).toUInt8 := rfl

theorem trailerLength_pos {size : Nat} (h : 0 < size) (length : Nat) :
    0 < trailerLength size length := by
  have := Nat.mod_lt length h
  unfold trailerLength
  omega

theorem trailerLength_le (size length : Nat) : trailerLength size length ≤ size := Nat.sub_le _ _

theorem length_trailer (size length : Nat) :
    (trailer size length).length = trailerLength size length := by
  rw [trailer_eq, List.length_replicate]

theorem length_pad (size : Nat) (message : Bytes) :
    (pad size message).length = message.length + trailerLength size message.length := by
  rw [pad, List.length_append, length_trailer]

/-- A padded message consists of whole blocks. -/
theorem dvd_length_pad {size : Nat} (h : 0 < size) (message : Bytes) :
    size ∣ (pad size message).length := by
  have rest := Nat.mod_lt message.length h
  have split := Nat.div_add_mod message.length size
  refine ⟨message.length / size + 1, ?_⟩
  rw [length_pad, trailerLength, Nat.mul_add, Nat.mul_one]
  omega

theorem getLast?_pad {size : Nat} (h : 0 < size) (message : Bytes) :
    (pad size message).getLast? = some (trailerLength size message.length).toUInt8 := by
  have pos := trailerLength_pos h message.length
  rw [pad, trailer_eq, List.getLast?_append, List.getLast?_replicate, if_neg (by omega)]
  rfl

/-- The message whose padding the octets are, if there is one. -/
def unpad? (size : Nat) (octets : Bytes) : Option Bytes :=
  match octets.getLast? with
  | none => none
  | some last =>
    let message := octets.take (octets.length - last.toNat)
    if octets = pad size message then some message else none

/-- A message is found if and only if the octets are its padding. -/
theorem unpad?_eq_some {size : Nat} (h : 0 < size) (hs : size ≤ 255) {octets message : Bytes} :
    unpad? size octets = some message ↔ octets = pad size message := by
  constructor
  · intro found
    unfold unpad? at found
    split at found
    · cases found
    · dsimp only at found
      split_ifs at found with e
      cases found
      exact e
  · rintro rfl
    have le := trailerLength_le size message.length
    have octet : (trailerLength size message.length).toUInt8.toNat =
        trailerLength size message.length := Bytes.toNat_toUInt8_of_lt (by omega)
    have front : (pad size message).take
        ((pad size message).length - trailerLength size message.length) = message := by
      rw [length_pad, Nat.add_sub_cancel, pad, List.take_left]
    rw [unpad?, getLast?_pad h]
    dsimp only
    rw [octet, front, if_pos rfl]

theorem pad_injective {size : Nat} (h : 0 < size) (hs : size ≤ 255) :
    Function.Injective (pad size) := by
  intro a b e
  have found := (unpad?_eq_some h hs).2 e
  rw [(unpad?_eq_some h hs).2 rfl, Option.some.injEq] at found
  exact found

theorem pad_append {size : Nat} {a : Bytes} (h : size ∣ a.length) (b : Bytes) :
    pad size (a ++ b) = a ++ pad size b := by
  obtain ⟨k, hk⟩ := h
  have same : trailer size (a ++ b).length = trailer size b.length := by
    rw [trailer, trailer, List.length_append, hk, Nat.mul_add_mod]
  rw [pad, same, List.append_assoc, pad]

/-- The padding has at least one octet and at most a block, and fills up the last block; so it is a
whole block behind whole blocks. -/
theorem exists_pad_eq {size : Nat} (h : 0 < size) (message : Bytes) :
    ∃ n, 1 ≤ n ∧ n ≤ size ∧ size ∣ message.length + n ∧ (size ∣ message.length → n = size) ∧
      pad size message = message ++ List.replicate n n.toUInt8 := by
  have blocks := dvd_length_pad h message
  rw [length_pad] at blocks
  refine ⟨trailerLength size message.length, trailerLength_pos h _, trailerLength_le _ _, blocks,
    fun whole => ?_, rfl⟩
  rw [trailerLength, Nat.mod_eq_zero_of_dvd whole, Nat.sub_zero]

/-! ## Messages in pieces -/

theorem collect_append (size : Nat) (held piece : Bytes) :
    (collect size held piece).1 ++ (collect size held piece).2 = held ++ piece :=
  List.take_append_drop _ _

theorem dvd_length_collect (size : Nat) (held piece : Bytes) :
    size ∣ (collect size held piece).1.length := by
  have whole : (collect size held piece).1.length = (held ++ piece).length / size * size :=
    List.length_take_of_le (Nat.div_mul_le_self _ _)
  rw [whole]
  exact Nat.dvd_mul_left size _

/-- The number of octets that are certain not to be padding. -/
def releasedLength (size : Nat) (plain : Bytes) : Nat := (plain.length / size - 1) * size

/-- What is certain not to be padding. -/
def released (size : Nat) (plain : Bytes) : Bytes := plain.take (releasedLength size plain)

/-- What may be padding. -/
def keptBack (size : Nat) (plain : Bytes) : Bytes := plain.drop (releasedLength size plain)

theorem released_append_keptBack (size : Nat) (plain : Bytes) :
    released size plain ++ keptBack size plain = plain :=
  List.take_append_drop _ _

theorem releasedLength_le (size : Nat) (plain : Bytes) :
    releasedLength size plain ≤ plain.length :=
  (Nat.mul_le_mul_right size (Nat.sub_le _ 1)).trans (Nat.div_mul_le_self _ _)

theorem length_released (size : Nat) (plain : Bytes) :
    (released size plain).length = releasedLength size plain :=
  List.length_take_of_le (releasedLength_le size plain)

theorem dvd_length_released (size : Nat) (plain : Bytes) : size ∣ (released size plain).length := by
  rw [length_released]
  exact Nat.dvd_mul_left size _

theorem release_eq (size : Nat) (data piece : Bytes) :
    release size data piece = (released size (data ++ piece), keptBack size (data ++ piece)) := rfl

/-- Behind whole blocks, at least one of which is kept back, the same octets are certain. -/
theorem releasedLength_append {size : Nat} (h : 0 < size) (plain piece : Bytes) :
    releasedLength size (plain ++ piece) =
      releasedLength size plain + releasedLength size (keptBack size plain ++ piece) := by
  set blocks := plain.length / size with hblocks
  have split := released_append_keptBack size plain
  have total := congrArg List.length split
  rw [List.length_append, length_released] at total
  have more : blocks ≤ (plain ++ piece).length / size := by
    rw [List.length_append]
    exact Nat.div_le_div_right (Nat.le_add_right _ _)
  have part : (plain ++ piece).length =
      (keptBack size plain ++ piece).length + size * (blocks - 1) := by
    rw [releasedLength, ← hblocks, Nat.mul_comm] at total
    rw [List.length_append, List.length_append, ← total]
    omega
  have quotient : (plain ++ piece).length / size =
      (keptBack size plain ++ piece).length / size + (blocks - 1) := by
    rw [part, Nat.add_mul_div_left _ _ h]
  rw [releasedLength, releasedLength, releasedLength, ← hblocks, quotient, ← Nat.add_mul]
  congr 1
  omega

/-- What is certain after another piece. -/
theorem released_append {size : Nat} (h : 0 < size) (plain piece : Bytes) :
    released size (plain ++ piece) =
      released size plain ++ (release size (keptBack size plain) piece).1 := by
  have split : plain ++ piece = released size plain ++ (keptBack size plain ++ piece) := by
    rw [← List.append_assoc, released_append_keptBack]
  rw [release_eq, released, releasedLength_append h, ← length_released size plain, split,
    List.take_length_add_append]
  rfl

/-- What is kept back after another piece. -/
theorem keptBack_append {size : Nat} (h : 0 < size) (plain piece : Bytes) :
    keptBack size (plain ++ piece) = (release size (keptBack size plain) piece).2 := by
  have split : plain ++ piece = released size plain ++ (keptBack size plain ++ piece) := by
    rw [← List.append_assoc, released_append_keptBack]
  rw [release_eq, keptBack, releasedLength_append h, ← length_released size plain, split,
    List.drop_length_add_append]
  rfl

/-- What is certain of whole blocks is everything but the last of them. -/
theorem released_of_dvd {size : Nat} {plain : Bytes} (h : size ∣ plain.length) :
    released size plain = plain.take (plain.length - size) := by
  rw [released, releasedLength, Nat.sub_mul, Nat.div_mul_cancel h, Nat.one_mul]

theorem length_keptBack {size : Nat} {plain : Bytes} (h : size ∣ plain.length) (ne : plain ≠ []) :
    (keptBack size plain).length = size := by
  have := Nat.le_of_dvd (List.length_pos_iff.2 ne) h
  rw [keptBack, List.length_drop, releasedLength, Nat.sub_mul, Nat.div_mul_cancel h, Nat.one_mul]
  omega

/-! ## The last block -/

theorem unpadBlock?_eq_some {size : Nat} (h : 0 < size) (hs : size ≤ 255) {block rest : Bytes} :
    unpadBlock? size block = some rest ↔ block.length = size ∧ block = pad size rest := by
  constructor
  · intro found
    unfold unpadBlock? at found
    split at found
    · cases found
    rename_i whole
    rw [ne_eq, not_not] at whole
    split at found
    · cases found
    rename_i last _
    dsimp only at found
    split_ifs at found with fits
    obtain ⟨least, most, tail⟩ := fits
    cases found
    have count : trailerLength size (block.take (size - last.toNat)).length = last.toNat := by
      rw [trailerLength, List.length_take_of_le (by omega), Nat.mod_eq_of_lt (by omega)]
      omega
    refine ⟨whole, ?_⟩
    conv_lhs => rw [← List.take_append_drop (size - last.toNat) block]
    rw [pad, trailer_eq, count, Bytes.toUInt8_toNat, tail]
  · rintro ⟨whole, padded⟩
    set n := trailerLength size rest.length with hn
    have pos := trailerLength_pos h rest.length
    have le := trailerLength_le size rest.length
    have octet : n.toUInt8.toNat = n := Bytes.toNat_toUInt8_of_lt (by omega)
    have total : size = rest.length + n := by rw [← length_pad, ← padded, whole]
    have front : size - n = rest.length := by omega
    have last : block.getLast? = some n.toUInt8 := by rw [padded, getLast?_pad h]
    have tail : block.drop (size - n) = List.replicate n n.toUInt8 := by
      rw [front, padded, pad, List.drop_left]
      rfl
    unfold unpadBlock?
    rw [if_neg (by omega), last]
    dsimp only
    rw [octet, if_pos ⟨pos, le, tail⟩, front, padded, pad, List.take_left]

/-- Whether the message is padded shows in the last block. -/
theorem unpad?_eq_map {size : Nat} (h : 0 < size) (hs : size ≤ 255) {plain : Bytes}
    (hd : size ∣ plain.length) :
    unpad? size plain = (unpadBlock? size (keptBack size plain)).map (released size plain ++ ·) := by
  apply Option.ext
  intro message
  rw [unpad?_eq_some h hs, Option.map_eq_some_iff]
  have split := released_append_keptBack size plain
  have front := dvd_length_released size plain
  constructor
  · intro padded
    have ne : plain ≠ [] := by
      intro none
      have pos := trailerLength_pos h message.length
      have total := length_pad size message
      rw [← padded, none, List.length_nil] at total
      omega
    have last := length_keptBack hd ne
    have total := congrArg List.length split
    have short := length_pad size message
    have le := trailerLength_le size message.length
    rw [← padded] at short
    rw [List.length_append, last] at total
    have begins : released size plain = message.take (released size plain).length := by
      have := congrArg (List.take (released size plain).length) (split.trans padded)
      rwa [List.take_left, pad, List.take_append_of_le_length (by omega)] at this
    obtain ⟨rest, rfl⟩ : ∃ rest, message = released size plain ++ rest :=
      ⟨message.drop (released size plain).length, by
        rw [congrArg (· ++ message.drop (released size plain).length) begins,
          List.take_append_drop]⟩
    refine ⟨rest, (unpadBlock?_eq_some h hs).2 ⟨last, ?_⟩, rfl⟩
    rw [pad_append front] at padded
    exact List.append_cancel_left (split.trans padded)
  · rintro ⟨rest, found, rfl⟩
    rw [pad_append front, ← ((unpadBlock?_eq_some h hs).1 found).2, split]

end Cryptogram.Padding
