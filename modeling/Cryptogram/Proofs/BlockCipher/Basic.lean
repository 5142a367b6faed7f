import Mathlib.Tactic.Ring
import Cryptogram.BlockCipher.Basic

/-!
# Rounds forwards and backwards

A cipher that undoes each round undoes all of them in reverse order
(`BlockCipher.foldl_reverse_foldl`).
-/

namespace Cryptogram.BlockCipher

/-- The rounds `g` in reverse order undo the rounds `f`, where each undoes one as seen through `v`. -/
theorem foldl_reverse_foldl {σ τ κ : Type} {P : σ → Prop} {f : σ → κ → σ} {g : τ → κ → τ} {v : σ → τ}
    (keep : ∀ s k, P s → P (f s k)) (undo : ∀ s k, P s → g (v (f s k)) k = v s) (keys : List κ)
    {s : σ} (hs : P s) : keys.reverse.foldl g (v (keys.foldl f s)) = v s := by
  induction keys generalizing s with
  | nil => rfl
  | cons k keys ih =>
    rw [List.reverse_cons, List.foldl_append, List.foldl_cons, List.foldl_cons, List.foldl_nil,
      ih (keep s k hs)]
    exact undo s k hs

end Cryptogram.BlockCipher
