import Mathlib.Tactic.Ring
import Cryptogram.Mode.Galois
import Cryptogram.Proofs.Octets

/-!
# Laws of counter mode

The key stream has one octet for each position of the message (`keystream_eq`), so a message can be
cut anywhere (`apply_append`) and the mode undoes itself (`apply_apply`).
-/

namespace Cryptogram.Counter

variable {f : BlockFunction} (counter : Nat → Bytes)

/-- The octet of the key stream at a position. -/
def octet (f : BlockFunction) (counter : Nat → Bytes) (i : Nat) : UInt8 :=
  (f.apply (counter (i / f.size))).getD (i % f.size) 0

/-- Each octet of the key stream depends on its position only. -/
theorem keystream_eq (h : 0 < f.size) (position length : Nat) :
    keystream f counter position length =
      (List.range' position length).map (octet f counter) := by
  set first := position / f.size with hfirst
  set count := (position + length + f.size - 1) / f.size - first with hcount
  have blocks (i : Nat) : (f.apply (counter i)).length = f.size := f.length_apply _
  have total := Bytes.length_flatMap blocks (List.range' first count)
  rw [List.length_range'] at total
  have start := Nat.div_add_mod position f.size
  have enough : position % f.size + length ≤ count * f.size := by
    have last := Nat.div_add_mod (position + length + f.size - 1) f.size
    have small := Nat.mod_lt (position + length + f.size - 1) h
    rw [hcount, Nat.sub_mul, Nat.mul_comm _ f.size, Nat.mul_comm _ f.size, hfirst]
    omega
  refine List.ext_getElem ?_ ?_
  · rw [keystream, List.length_take, List.length_drop, total, List.length_map, List.length_range']
    omega
  · intro i hi hi'
    rw [List.length_map, List.length_range'] at hi'
    have place := Bytes.getD_flatMap_range' h blocks first count (position % f.size + i) (by omega)
    have number : first + (position % f.size + i) / f.size = (position + i) / f.size := by
      conv_rhs => rw [← start, Nat.add_assoc, Nat.mul_add_div h]
    have offset : (position % f.size + i) % f.size = (position + i) % f.size := Nat.mod_add_mod _ _ _
    rw [List.getD_eq_getElem _ _ (by omega), number, offset] at place
    simp only [keystream, List.getElem_take, List.getElem_drop, List.getElem_map,
      List.getElem_range', Nat.one_mul]
    exact place

@[simp] theorem length_keystream (h : 0 < f.size) (position length : Nat) :
    (keystream f counter position length).length = length := by
  rw [keystream_eq counter h, List.length_map, List.length_range']

@[simp] theorem length_apply (h : 0 < f.size) (position : Nat) (piece : Bytes) :
    (apply f counter position piece).length = piece.length := by
  rw [apply, Bytes.length_xor, length_keystream counter h, Nat.min_self]

theorem apply_nil (position : Nat) : apply f counter position [] = [] := rfl

/-- A message can be cut anywhere. -/
theorem apply_append (h : 0 < f.size) (position : Nat) (a b : Bytes) :
    apply f counter position (a ++ b) =
      apply f counter position a ++ apply f counter (position + a.length) b := by
  have cut : keystream f counter position (a ++ b).length =
      keystream f counter position a.length ++
        keystream f counter (position + a.length) b.length := by
    rw [keystream_eq counter h, keystream_eq counter h, keystream_eq counter h, List.length_append,
      ← List.map_append, List.range'_append_1]
  rw [apply, cut, Bytes.xor_append (length_keystream counter h _ _).symm]
  rfl

/-- Applied twice, the key stream vanishes. -/
theorem apply_apply (h : 0 < f.size) (position : Nat) (piece : Bytes) :
    apply f counter position (apply f counter position piece) = piece := by
  have length := length_apply counter h position piece
  conv_lhs => rw [apply, length]
  rw [apply, Bytes.xor_xor_cancel]
  rw [length_keystream counter h]

end Cryptogram.Counter

namespace Cryptogram.Galois

variable {f : BlockFunction}

theorem apply_nil (nonce : Bytes) (position : Nat) : apply f nonce position [] = [] := rfl

theorem apply_append (h : 0 < f.size) (nonce : Bytes) (position : Nat) (a b : Bytes) :
    apply f nonce position (a ++ b) =
      apply f nonce position a ++ apply f nonce (position + a.length) b :=
  Counter.apply_append _ h position a b

theorem apply_apply (h : 0 < f.size) (nonce : Bytes) (position : Nat) (piece : Bytes) :
    apply f nonce position (apply f nonce position piece) = piece :=
  Counter.apply_apply _ h position piece

theorem length_apply (h : 0 < f.size) (nonce : Bytes) (position : Nat) (piece : Bytes) :
    (apply f nonce position piece).length = piece.length :=
  Counter.length_apply _ h position piece

theorem length_octets (x : Element) : (octets x).length = tagLength := rfl

theorem length_tag (h : f.size = tagLength) (nonce ciphertext : Bytes) :
    (tag f nonce ciphertext).length = tagLength := by
  rw [tag, Bytes.length_xor, length_octets, f.length_apply, h, Nat.min_self]

end Cryptogram.Galois
