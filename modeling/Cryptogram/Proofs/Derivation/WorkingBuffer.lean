import Cryptogram.Proofs.Derivation.HashChain

/-!
# Derivation from a working buffer

The key material for a purpose is put together from the hashes of a buffer that changes from block to
block (RFC 7292, appendix B.2).  `Buffers` says what the buffers are: salt and password, repeated up to
whole blocks, and then always the buffer before, with the repeated output and one added to each of its
blocks.  There is one such sequence of buffers, all of the same length, and the derivation takes the
front of its outputs (`pkcs12_eq_outputs`).
-/

namespace Cryptogram.Derivation

/-! ## Blocks of a buffer -/

/-- As many octets are told by their number. -/
theorem eq_of_toNat {a b : Bytes} (length : a.length = b.length)
    (h : Bytes.toNat a = Bytes.toNat b) : a = b := by
  rw [← Bytes.ofNat_toNat a, length, h, Bytes.ofNat_toNat]

theorem pow_octets (size : Nat) : 256 ^ size = 2 ^ (8 * size) := (Nat.pow_mul 2 8 size).symm

/-- A block of a buffer that is cut into blocks of `size` octets. -/
def blockAt (size : Nat) (buffer : Bytes) (j : Nat) : Bytes := (buffer.drop (size * j)).take size

section Blocks

variable {size : Nat} {buffer block rest : Bytes}

theorem blockAt_zero (h : block.length = size) (rest : Bytes) :
    blockAt size (block ++ rest) 0 = block := by
  rw [blockAt, Nat.mul_zero, List.drop_zero, List.take_left' h]

theorem blockAt_succ (h : block.length = size) (rest : Bytes) (j : Nat) :
    blockAt size (block ++ rest) (j + 1) = blockAt size rest j := by
  have split : size * (j + 1) = block.length + size * j := by
    rw [h]
    ring
  rw [blockAt, split, List.drop_append, List.drop_eq_nil_of_le (by omega), List.nil_append,
    Nat.add_sub_cancel_left, blockAt]

theorem length_blockAt (whole : size ∣ buffer.length) {j : Nat} (h : size * j < buffer.length) :
    (blockAt size buffer j).length = size := by
  obtain ⟨count, total⟩ := whole
  have inside : j < count := Nat.lt_of_mul_lt_mul_left (total ▸ h)
  have next : size * (j + 1) ≤ buffer.length := total ▸ Nat.mul_le_mul_left size inside
  rw [Nat.mul_add, Nat.mul_one] at next
  rw [blockAt, List.length_take, List.length_drop]
  omega

theorem getElem?_blockAt {k : Nat} (h : k < size) (buffer : Bytes) (j : Nat) :
    (blockAt size buffer j)[k]? = buffer[size * j + k]? := by
  rw [blockAt, List.getElem?_take_of_lt h, List.getElem?_drop]

/-- A buffer is told by its blocks. -/
theorem eq_of_blockAt (pos : 0 < size) {a b : Bytes} (length : a.length = b.length)
    (h : ∀ j, size * j < a.length → blockAt size a j = blockAt size b j) : a = b := by
  refine List.ext_getElem? fun i => ?_
  by_cases inside : i < a.length
  · have place := Nat.div_add_mod i size
    have small := Nat.mod_lt i pos
    have same := congrArg (·[i % size]?) (h (i / size) (by omega))
    simp only [getElem?_blockAt small, place] at same
    exact same
  · rw [List.getElem?_eq_none (by omega), List.getElem?_eq_none (by omega)]

/-- What is put in the place of each block stands in the place of that block. -/
theorem blockAt_flatMap_blocks (pos : 0 < size) {f : Bytes → Bytes} (hf : ∀ b, (f b).length = size)
    (whole : size ∣ buffer.length) {j : Nat} (h : size * j < buffer.length) :
    blockAt size ((buffer.blocks size).flatMap f) j = f (blockAt size buffer j) := by
  induction buffer using Bytes.block_induction pos generalizing j with
  | nil => simp at h
  | short bytes ne less => exact absurd (Nat.le_of_dvd (List.length_pos_iff.2 ne) whole) (by omega)
  | whole block rest width ih =>
    rw [Bytes.blocks_cons_append pos width, List.flatMap_cons]
    cases j with
    | zero => rw [blockAt_zero (hf block), blockAt_zero width]
    | succ j =>
      rw [List.length_append, width] at whole h
      rw [blockAt_succ (hf block), blockAt_succ width]
      refine ih ((Nat.dvd_add_right (Nat.dvd_refl size)).1 whole) ?_
      rw [Nat.mul_add, Nat.mul_one] at h
      omega

end Blocks

/-! ## Repeated strings -/

/-- A string repeated up to the next whole number of blocks; the empty string stays empty. -/
structure Filled (size : Nat) (bytes filled : Bytes) : Prop where
  whole : size ∣ filled.length
  least : bytes.length ≤ filled.length
  most : filled.length < bytes.length + size
  octets : filled = (List.range filled.length).map bytes.endless

theorem filled_fill {size : Nat} (pos : 0 < size) (bytes : Bytes) :
    Filled size bytes (fill size bytes) := by
  by_cases e : bytes = []
  · subst e
    rw [fill, Bytes.cycle, if_pos rfl]
    exact ⟨Nat.dvd_zero _, le_rfl, by simpa using pos, rfl⟩
  have repeated : fill size bytes =
      (List.range (size * blockCount size bytes.length)).map bytes.endless :=
    Bytes.cycle_eq e _
  have length : (fill size bytes).length = size * blockCount size bytes.length := by
    rw [repeated, List.length_map, List.length_range]
  have least := le_blockCount_mul pos bytes.length
  have most : blockCount size bytes.length * size ≤ bytes.length + size - 1 :=
    Nat.div_mul_le_self _ _
  rw [Nat.mul_comm] at least most
  exact ⟨length ▸ Nat.dvd_mul_right _ _, by omega, by omega, by rw [length, ← repeated]⟩

theorem Filled.unique {size : Nat} {bytes a b : Bytes} (ha : Filled size bytes a)
    (hb : Filled size bytes b) : a = b := by
  -- There is one multiple of the size between the length of the string and the next block.
  have le {a b : Bytes} (ha : Filled size bytes a) (hb : Filled size bytes b) :
      a.length ≤ b.length := by
    have less : a.length < b.length + size := by
      have := ha.most
      have := hb.least
      omega
    obtain ⟨m, hm⟩ := ha.whole
    obtain ⟨n, hn⟩ := hb.whole
    rw [hm, hn, ← Nat.mul_succ] at less
    rw [hm, hn]
    exact Nat.mul_le_mul_left size (Nat.le_of_lt_succ (Nat.lt_of_mul_lt_mul_left less))
  have length := Nat.le_antisymm (le ha hb) (le hb ha)
  rw [ha.octets, hb.octets, length]

/-- A string that is not longer than a block is repeated up to one. -/
theorem fill_of_length_le {size : Nat} {bytes : Bytes} (pos : 0 < bytes.length)
    (h : bytes.length ≤ size) : fill size bytes = (List.range size).map bytes.endless := by
  rw [fill, blockCount_eq_one pos h, Nat.mul_one, Bytes.cycle_eq (List.length_pos_iff.1 pos)]

/-! ## Buffers -/

/-- The output that a working buffer gives: the hash, applied again and again, of a block that tells
the purpose in front of the buffer. -/
def outputOf (d : Digest) (purpose : UInt8) (iterations : Nat) (buffer : Bytes) : Bytes :=
  d.hash^[iterations] (List.replicate d.block purpose ++ buffer)

/-- The working buffers of a derivation, one for each output. -/
structure Buffers (d : Digest) (password salt : Bytes) (purpose : UInt8) (iterations : Nat)
    (buffer : Nat → Bytes) : Prop where
  /-- The first buffer is the salt and the password, both up to whole blocks. -/
  start : ∃ s p, Filled d.block salt s ∧ Filled d.block password p ∧ buffer 0 = s ++ p
  length : ∀ i, (buffer (i + 1)).length = (buffer i).length
  /-- The repeated output and one are added to each block, and what is carried out of it is lost. -/
  sum : ∀ i j, d.block * j < (buffer i).length →
    Bytes.toNat (blockAt d.block (buffer (i + 1)) j) =
      (Bytes.toNat (blockAt d.block (buffer i) j) +
        Bytes.toNat ((List.range d.block).map (outputOf d purpose iterations (buffer i)).endless) +
          1) % 2 ^ (8 * d.block)

variable {d : Digest} {password salt : Bytes} {purpose : UInt8} {iterations : Nat}

/-- All buffers have the same whole number of blocks. -/
theorem Buffers.length_eq {buffer : Nat → Bytes} (h : Buffers d password salt purpose iterations buffer)
    (i : Nat) : (buffer i).length = (buffer 0).length ∧ d.block ∣ (buffer i).length := by
  induction i with
  | zero =>
    obtain ⟨s, p, hs, hp, start⟩ := h.start
    rw [start, List.length_append]
    exact ⟨rfl, Nat.dvd_add hs.whole hp.whole⟩
  | succ i ih => rwa [h.length i]

/-- No other buffers come of a password and a salt. -/
theorem Buffers.unique (pos : 0 < d.block) {a b : Nat → Bytes}
    (ha : Buffers d password salt purpose iterations a)
    (hb : Buffers d password salt purpose iterations b) : a = b := by
  refine funext fun i => ?_
  induction i with
  | zero =>
    obtain ⟨s, p, hs, hp, start⟩ := ha.start
    obtain ⟨s', p', hs', hp', start'⟩ := hb.start
    rw [start, start', hs.unique hs', hp.unique hp']
  | succ i ih =>
    have length : (a (i + 1)).length = (b (i + 1)).length := by rw [ha.length, hb.length, ih]
    refine eq_of_blockAt pos length fun j inside => ?_
    have width := length_blockAt (ha.length_eq (i + 1)).2 inside
    have width' := length_blockAt (hb.length_eq (i + 1)).2 (length ▸ inside)
    have same : Bytes.toNat (blockAt d.block (a (i + 1)) j) =
        Bytes.toNat (blockAt d.block (b (i + 1)) j) := by
      rw [ha.sum i j (ha.length i ▸ inside), hb.sum i j (ih ▸ ha.length i ▸ inside), ih]
    exact eq_of_toNat (width.trans width'.symm) same

/-- Ones in all bits overflow, and what is left in their place is the repeated output. -/
theorem Buffers.of_ones {buffer : Nat → Bytes} (pos : 0 < d.block)
    (h : Buffers d password salt purpose iterations buffer) {i : Nat}
    (width : (buffer i).length = d.block) (ones : Bytes.toNat (buffer i) + 1 = 2 ^ (8 * d.block)) :
    buffer (i + 1) = (List.range d.block).map (outputOf d purpose iterations (buffer i)).endless := by
  have repeated :
      ((List.range d.block).map (outputOf d purpose iterations (buffer i)).endless).length =
        d.block := by
    rw [List.length_map, List.length_range]
  have least := Bytes.toNat_lt
    ((List.range d.block).map (outputOf d purpose iterations (buffer i)).endless)
  rw [repeated, pow_octets] at least
  have single {bytes : Bytes} (h : bytes.length = d.block) : blockAt d.block bytes 0 = bytes :=
    List.take_of_length_le h.le
  have width' := (h.length i).trans width
  have sum := h.sum i 0 (by omega)
  rw [single width, single width', Nat.add_right_comm, ones, Nat.add_mod_left,
    Nat.mod_eq_of_lt least] at sum
  exact eq_of_toNat (width'.trans repeated.symm) sum

/-! ## The buffers of a run -/

/-- The buffers that a derivation runs through. -/
def runBuffer (d : Digest) (password salt : Bytes) (purpose : UInt8) (iterations : Nat) : Nat → Bytes
  | 0 => fill d.block salt ++ fill d.block password
  | i + 1 =>
    nextBuffer d.block (outputOf d purpose iterations (runBuffer d password salt purpose iterations i))
      (runBuffer d password salt purpose iterations i)

theorem length_outputOf (h : 0 < iterations) (buffer : Bytes) :
    (outputOf d purpose iterations buffer).length = d.size := by
  rw [outputOf, ← d.iterate_eq h, Digest.length_iterate]

theorem length_nextBuffer {size : Nat} (pos : 0 < size) {buffer : Bytes}
    (whole : size ∣ buffer.length) (output : Bytes) :
    (nextBuffer size output buffer).length = buffer.length := by
  rw [nextBuffer, Bytes.length_flatMap (fun _ => Bytes.length_ofNat _ _), Bytes.length_blocks pos whole]

theorem toNat_blockAt_nextBuffer {size : Nat} {buffer output : Bytes} (pos : 0 < output.length)
    (narrow : output.length ≤ size) (whole : size ∣ buffer.length) {j : Nat}
    (h : size * j < buffer.length) :
    Bytes.toNat (blockAt size (nextBuffer size output buffer) j) =
      (Bytes.toNat (blockAt size buffer j) +
        Bytes.toNat ((List.range size).map output.endless) + 1) % 2 ^ (8 * size) := by
  rw [nextBuffer, blockAt_flatMap_blocks (by omega) (fun _ => Bytes.length_ofNat _ _) whole h,
    Bytes.toNat_ofNat, fill_of_length_le pos narrow, pow_octets,
    Nat.add_assoc]

theorem dvd_length_runBuffer (pos : 0 < d.block) (i : Nat) :
    d.block ∣ (runBuffer d password salt purpose iterations i).length := by
  induction i with
  | zero =>
    rw [runBuffer, List.length_append]
    exact Nat.dvd_add (filled_fill pos salt).whole (filled_fill pos password).whole
  | succ i ih => rwa [runBuffer, length_nextBuffer pos ih]

theorem buffers_runBuffer (pos : 0 < d.size) (narrow : d.size ≤ d.block) (h : 0 < iterations) :
    Buffers d password salt purpose iterations
      (runBuffer d password salt purpose iterations) := by
  have block : 0 < d.block := by omega
  refine ⟨⟨_, _, filled_fill block salt, filled_fill block password, rfl⟩, fun i => ?_,
    fun i j inside => ?_⟩
  · rw [runBuffer, length_nextBuffer block (dvd_length_runBuffer block i)]
  · have size : (outputOf d purpose iterations
        (runBuffer d password salt purpose iterations i)).length = d.size :=
      length_outputOf h _
    rw [runBuffer]
    exact toNat_blockAt_nextBuffer (size ▸ pos) (size ▸ narrow) (dvd_length_runBuffer block i) inside

theorem pkcs12Blocks_runBuffer (h : 0 < iterations) (count i : Nat) :
    pkcs12Blocks d (List.replicate d.block purpose) iterations count
        (runBuffer d password salt purpose iterations i) =
      (List.range' i count).flatMap fun i =>
        outputOf d purpose iterations (runBuffer d password salt purpose iterations i) := by
  induction count generalizing i with
  | zero => rfl
  | succ count ih =>
    rw [pkcs12Blocks, d.iterate_eq h, List.range'_succ, List.flatMap_cons, ← ih]
    rfl

theorem pkcs12_eq (h : 0 < iterations) (length : Nat) :
    pkcs12 d password salt purpose iterations length =
      ((List.range (blockCount d.size length)).flatMap fun i =>
        outputOf d purpose iterations (runBuffer d password salt purpose iterations i)).take
          length := by
  rw [pkcs12, List.range_eq_range', ← pkcs12Blocks_runBuffer h]
  rfl

/-- The octets that are derived for a purpose are the front of the outputs of the working buffers, as
many as are asked for; the buffers keep their number of blocks.  Fewer octets are the front of more. -/
theorem pkcs12_eq_outputs {d : Digest} (pos : 0 < d.size) (narrow : d.size ≤ d.block)
    (password salt : Bytes) (purpose : UInt8) {iterations : Nat} (h : 0 < iterations) :
    ∃ buffer, Buffers d password salt purpose iterations buffer ∧
      (∀ other, Buffers d password salt purpose iterations other → other = buffer) ∧
      (∀ i, (buffer i).length = (buffer 0).length ∧ d.block ∣ (buffer i).length) ∧
      (∀ length, (pkcs12 d password salt purpose iterations length).length = length ∧
        ∀ count, length ≤ count * d.size →
          pkcs12 d password salt purpose iterations length =
            ((List.range count).flatMap fun i =>
              outputOf d purpose iterations (buffer i)).take length) ∧
      ∀ shorter longer, shorter ≤ longer →
        pkcs12 d password salt purpose iterations shorter <+:
          pkcs12 d password salt purpose iterations longer := by
  have buffers : Buffers d password salt purpose iterations
      (runBuffer d password salt purpose iterations) :=
    buffers_runBuffer pos narrow h
  have each (i : Nat) :
      (outputOf d purpose iterations (runBuffer d password salt purpose iterations i)).length =
        d.size :=
    length_outputOf h _
  -- However many blocks are made, an octet of the output is told by its position.
  have front {length count : Nat} (enough : length ≤ count * d.size) :
      pkcs12 d password salt purpose iterations length =
        ((List.range count).flatMap fun i =>
          outputOf d purpose iterations (runBuffer d password salt purpose iterations i)).take
            length := by
    rw [pkcs12_eq h, Bytes.take_flatMap_range pos each (le_blockCount_mul pos length),
      Bytes.take_flatMap_range pos each enough]
  refine ⟨_, buffers, fun other ho => ho.unique (by omega) buffers, buffers.length_eq,
    fun length => ⟨length_pkcs12 pos _ _ _ _ _, fun count => front⟩, fun shorter longer le => ?_⟩
  have enough := le_blockCount_mul pos longer
  rw [front (le.trans enough), front enough, ← Nat.min_eq_left le, ← List.take_take]
  exact List.take_prefix _ _

/-- A salt of ones overflows in the second buffer. -/
theorem pkcs12_eq_outputs_overflow :
    let first := Digest.md5.hash (List.replicate 64 1 ++ List.replicate 64 0xff)
    0 < Digest.md5.size ∧ Digest.md5.size ≤ Digest.md5.block ∧
      pkcs12 .md5 [] (List.replicate 64 0xff) 1 1 32 =
        first ++ Digest.md5.hash (List.replicate 64 1 ++ (List.range 64).map first.endless) := by
  intro first
  have pos : 0 < Digest.md5.size := by decide
  have narrow : Digest.md5.size ≤ Digest.md5.block := by decide
  obtain ⟨buffer, buffers, -, -, output, -⟩ :=
    pkcs12_eq_outputs pos narrow [] (List.replicate 64 0xff) 1 (show 0 < 1 by decide)
  have start : buffer 0 = List.replicate 64 0xff := by
    obtain ⟨s, p, hs, hp, start⟩ := buffers.start
    have salt : Filled 64 (List.replicate 64 0xff) (List.replicate 64 0xff) :=
      ⟨by decide, le_rfl, by decide, by decide⟩
    have password : Filled 64 [] [] := ⟨by decide, le_rfl, by decide, rfl⟩
    rw [start, hs.unique salt, hp.unique password, List.append_nil]
  have front : outputOf .md5 1 1 (buffer 0) = first := by
    rw [start]
    rfl
  have second : buffer 1 = (List.range 64).map first.endless := by
    rw [← front]
    exact buffers.of_ones (by decide) (by rw [start]; rfl) (by rw [start]; decide +kernel)
  have octets : pkcs12 .md5 [] (List.replicate 64 0xff) 1 1 32 =
      (outputOf .md5 1 1 (buffer 0) ++ (outputOf .md5 1 1 (buffer 1) ++ [])).take 32 :=
    (output 32).2 2 (by decide)
  have both : (outputOf .md5 1 1 (buffer 0) ++ (outputOf .md5 1 1 (buffer 1) ++ [])).length ≤ 32 := by
    rw [List.append_nil, List.length_append, length_outputOf (by decide), length_outputOf (by decide)]
    decide
  rw [List.take_of_length_le both, List.append_nil, front, second] at octets
  exact ⟨pos, narrow, octets⟩

end Cryptogram.Derivation
