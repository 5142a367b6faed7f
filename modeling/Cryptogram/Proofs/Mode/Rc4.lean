import Mathlib.Tactic.Ring
import Cryptogram.Mode.Rc4
import Cryptogram.Proofs.Octets

/-!
# Laws of RC4

A message can be cut anywhere (`apply_append`), and the same key stream undoes itself
(`apply_apply`).
-/

namespace Cryptogram.Rc4

/-- What `apply` does with each octet: the result is put in front of the results so far. -/
def step (p : Bytes × State) (b : UInt8) : Bytes × State :=
  ((b ^^^ (next p.2).1) :: p.1, (next p.2).2)

theorem apply_eq (s : State) (piece : Bytes) :
    apply s piece = ((piece.foldl step ([], s)).1.reverse, (piece.foldl step ([], s)).2) := rfl

theorem foldl_step (piece out : Bytes) (s : State) :
    piece.foldl step (out, s) =
      ((piece.foldl step ([], s)).1 ++ out, (piece.foldl step ([], s)).2) := by
  induction piece generalizing out s with
  | nil => rfl
  | cons b piece ih =>
    have first (out : Bytes) : step (out, s) b = ((b ^^^ (next s).1) :: out, (next s).2) := rfl
    rw [List.foldl_cons, List.foldl_cons, first, first, ih, ih [b ^^^ (next s).1], List.append_assoc,
      List.singleton_append]

theorem apply_nil (s : State) : apply s [] = ([], s) := rfl

theorem apply_cons (s : State) (b : UInt8) (piece : Bytes) :
    apply s (b :: piece) =
      ((b ^^^ (next s).1) :: (apply (next s).2 piece).1, (apply (next s).2 piece).2) := by
  have first : step ([], s) b = ([b ^^^ (next s).1], (next s).2) := rfl
  rw [apply_eq, List.foldl_cons, first, foldl_step, List.reverse_append]
  rfl

theorem length_apply (s : State) (piece : Bytes) : (apply s piece).1.length = piece.length := by
  induction piece generalizing s with
  | nil => rfl
  | cons b piece ih => rw [apply_cons, List.length_cons, ih, List.length_cons]

/-- A message can be cut anywhere. -/
theorem apply_append (s : State) (a b : Bytes) :
    apply s (a ++ b) =
      ((apply s a).1 ++ (apply (apply s a).2 b).1, (apply (apply s a).2 b).2) := by
  induction a generalizing s with
  | nil => rfl
  | cons x a ih => rw [List.cons_append, apply_cons, ih, apply_cons, List.cons_append]

/-- Applied twice, the key stream vanishes. -/
theorem apply_apply (s : State) (piece : Bytes) : (apply s (apply s piece).1).1 = piece := by
  induction piece generalizing s with
  | nil => rfl
  | cons b piece ih => rw [apply_cons, apply_cons, ih, UInt8.xor_assoc, UInt8.xor_self, UInt8.xor_zero]

end Cryptogram.Rc4
