import Mathlib.Logic.Function.Iterate
import Cryptogram.Proofs.Derivation

/-!
# Chained hashes

A block of a chain is the iterated hash of the block before it and the seed.  Hashing goes on until
there are enough octets, and a key and an initial vector are cut from the front of the blocks one
after the other, wherever one block ends and the next begins.  Two times eight octets are in the first
block, which is all that the older scheme makes (`bytesToKey_eq_links`).
-/

namespace Cryptogram

/-- A hash that is applied a positive number of times. -/
theorem Digest.iterate_eq (d : Digest) {count : Nat} (h : 0 < count) (message : Bytes) :
    d.iterate count message = d.hash^[count] message := by
  obtain ⟨count, rfl⟩ : ∃ n, count = n + 1 := ⟨count - 1, by omega⟩
  have rounds : (((count + 1 : Nat) : Int) - 1).toNat = count := by omega
  rw [iterate, rounds, List.foldl_const, List.length_range, Function.iterate_succ_apply]

namespace Derivation

/-! ## Blocks of a chain -/

/-- The blocks of the chain of a password and a salt; the one in front of all others is empty. -/
def link (d : Digest) (password salt : Bytes) (iterations : Nat) : Nat → Bytes
  | 0 => []
  | i + 1 => d.hash^[iterations] (link d password salt iterations i ++ password ++ salt)

/-- So many blocks of the chain, one after another. -/
def links (d : Digest) (password salt : Bytes) (iterations count : Nat) : Bytes :=
  (List.range count).flatMap fun i => link d password salt iterations (i + 1)

variable {d : Digest} {password salt : Bytes} {iterations : Nat}

theorem link_succ (h : 0 < iterations) (i : Nat) : link d password salt iterations (i + 1) =
    d.iterate iterations (link d password salt iterations i ++ (password ++ salt)) := by
  rw [d.iterate_eq h, ← List.append_assoc]
  rfl

theorem length_links (h : 0 < iterations) (count : Nat) :
    (links d password salt iterations count).length = count * d.size := by
  have each (i : Nat) : (link d password salt iterations (i + 1)).length = d.size := by
    rw [link_succ h, Digest.length_iterate]
  rw [links, Bytes.length_flatMap each, List.length_range]

/-- A chain goes on behind any of its blocks. -/
theorem chain_link (h : 0 < iterations) (count i : Nat) :
    chain d (password ++ salt) iterations count (link d password salt iterations i) =
      (List.range' i count).flatMap fun i => link d password salt iterations (i + 1) := by
  induction count generalizing i with
  | zero => rfl
  | succ count ih =>
    rw [chain, ← link_succ h, ih, List.range'_succ, List.flatMap_cons]

theorem chain_eq_links (h : 0 < iterations) (count : Nat) :
    chain d (password ++ salt) iterations count [] = links d password salt iterations count := by
  rw [links, List.range_eq_range', ← chain_link h]
  rfl

/-! ## Enough blocks -/

/-- Fewer blocks do not have so many octets. -/
theorem mul_lt_of_lt_blockCount {size length fewer : Nat} (h : fewer < blockCount size length) :
    fewer * size < length := by
  rcases Nat.eq_zero_or_pos size with rfl | pos
  · simp [blockCount] at h
  have next : (fewer + 1) * size ≤ length + size - 1 := (Nat.le_div_iff_mul_le pos).1 h
  rw [Nat.add_mul, Nat.one_mul] at next
  omega

/-- A string that is not longer than a block and not empty takes one. -/
theorem blockCount_eq_one {size length : Nat} (h : 0 < length) (h' : length ≤ size) :
    blockCount size length = 1 := by
  have least : 0 < blockCount size length := Nat.div_pos (by omega) (by omega)
  have most : ¬ 1 < blockCount size length := by
    intro more
    have := mul_lt_of_lt_blockCount more
    omega
  omega

/-- Hashing ends with the first block with which there are enough octets.  The key and the initial
vector are the front of the blocks one after the other, both in full, and with eight octets each they
are those of the older scheme. -/
theorem bytesToKey_eq_links {d : Digest} (pos : 0 < d.size) (password salt : Bytes) :
    (∀ keyLength ivLength iterations : Nat, 0 < iterations →
      let derived := bytesToKey d password salt keyLength ivLength iterations
      ∃ rounds,
        (∀ fewer < rounds,
          (links d password salt iterations fewer).length < keyLength + ivLength) ∧
        keyLength + ivLength ≤ (links d password salt iterations rounds).length ∧
        derived.key ++ derived.iv =
          (links d password salt iterations rounds).take (keyLength + ivLength) ∧
        derived.key.length = keyLength ∧ derived.iv.length = ivLength) ∧
      (16 ≤ d.size → ∀ iterations : Int,
        pbkdf1 d password salt iterations = bytesToKey d password salt 8 8 iterations) := by
  constructor
  · intro keyLength ivLength iterations h derived
    refine ⟨blockCount d.size (keyLength + ivLength), fun fewer less => ?_, ?_, ?_,
      length_bytesToKey pos _ _ _ _ _⟩
    · rw [length_links h]
      exact mul_lt_of_lt_blockCount less
    · rw [length_links h]
      exact le_blockCount_mul pos _
    · rw [List.take_add, ← chain_eq_links h]
      rfl
  · intro wide iterations
    have one : blockCount d.size (8 + 8) = 1 := blockCount_eq_one (by decide) wide
    rw [bytesToKey, one, chain, chain, List.nil_append, List.append_nil, pbkdf1]

/-- A key of sixteen octets takes the first block of MD5 and an initial vector of eight the front of
the second. -/
theorem bytesToKey_eq_links_two :
    let first := Digest.md5.hash (Digest.md5.hash [112, 119, 1])
    let second := Digest.md5.hash (Digest.md5.hash (first ++ [112, 119, 1]))
    0 < Digest.md5.size ∧
      (bytesToKey .md5 [112, 119] [1] 16 8 2).key ++ (bytesToKey .md5 [112, 119] [1] 16 8 2).iv =
        (first ++ second).take 24 ∧
      16 ≤ Digest.md5.size ∧
      pbkdf1 .md5 [112, 119] [1] 5 = bytesToKey .md5 [112, 119] [1] 8 8 5 := by
  intro first second
  have pos : 0 < Digest.md5.size := by decide
  have wide : 16 ≤ Digest.md5.size := by decide
  obtain ⟨cut, older⟩ := bytesToKey_eq_links pos [112, 119] [1]
  obtain ⟨rounds, less, enough, octets, -⟩ := cut 16 8 2 (by decide)
  have size (count : Nat) : (links .md5 [112, 119] [1] 2 count).length = count * 16 :=
    length_links (by decide) count
  have two : rounds = 2 := by
    have upper : ¬ 2 < rounds := fun more => absurd (less 2 more) (by rw [size]; decide)
    rw [size] at enough
    omega
  have blocks : links .md5 [112, 119] [1] 2 2 = first ++ second := by
    rw [← List.append_nil second]
    rfl
  rw [two, blocks] at octets
  exact ⟨pos, octets, wide, older wide 5⟩

end Derivation

end Cryptogram
