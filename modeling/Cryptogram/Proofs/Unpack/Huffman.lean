import Cryptogram.Proofs.Unpack.Decoder
import Cryptogram.Unpack.Huffman

/-!
# Words of a code in octets that are cut

The next symbol of a code is read by a steady decoder, which takes a bit if it finds one
(`steady_symbol`).
-/

namespace Cryptogram

open Decoder

namespace Huffman

theorem steady_symbolFrom (order : BitOrder) (symbols : Array Nat) (counts : List Nat)
    (ahead index : Nat) :
    Steady (min counts.length 1) (symbolFrom order symbols counts ahead index) := by
  induction counts generalizing ahead index with
  | nil => exact steady_pure none
  | cons count counts ih =>
    rw [List.length_cons, Nat.min_eq_right (Nat.le_add_left 1 _)]
    refine (steady_bit order).andThen fun b => ?_
    dsimp only
    split_ifs
    · exact steady_pure _
    · exact (ih _ _).zero

theorem steady_symbol? (h : Huffman) (order : BitOrder) :
    Steady (min h.counts.length 1) (h.symbol? order) :=
  steady_symbolFrom order h.symbols h.counts 0 0

/-- A symbol takes a bit, for a code without words has none. -/
theorem steady_symbol (h : Huffman) (order : BitOrder) : Steady 1 (h.symbol order) := by
  have read : Steady (min h.counts.length 1) (h.symbol order) := by
    refine (h.steady_symbol? order).andThen fun n => ?_
    cases n with
    | none => exact steady_fail
    | some n => exact steady_pure n
  cases words : h.counts with
  | nil =>
    have nothing : h.symbol order = fail := by
      funext s
      simp only [symbol, symbol?, words]
      rfl
    rw [nothing]
    exact steady_fail
  | cons count counts =>
    refine read.mono ?_
    rw [words, List.length_cons]
    omega

theorem le_foldl_max (lengths : List Nat) (least : Nat) : least ≤ lengths.foldl max least := by
  induction lengths generalizing least with
  | nil => exact Nat.le_refl least
  | cons length lengths ih => exact Nat.le_trans (Nat.le_max_left least length) (ih _)

theorem le_length_counts (least : Nat) (lengths : List Nat) :
    least ≤ (ofLengths least lengths).counts.length := by
  simp only [ofLengths, List.length_map, List.length_range]
  exact le_foldl_max lengths least

end Huffman

end Cryptogram
