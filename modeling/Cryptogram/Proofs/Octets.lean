import Mathlib.Data.List.GetD
import Mathlib.Data.List.Induction
import Mathlib.Tactic.Ring
import Cryptogram.Bytes

/-!
# Laws of octet strings

Big-endian numbers, sums, exclusive or, strings of one size, repetition, and cutting into blocks.  A
string is the concatenation of its blocks (`flatten_blocks`), and whole blocks in front are cut off
first (`blocks_append`).  The octets of a repetition are told by their positions (`cycle_eq`).
-/

namespace Cryptogram.Bytes

/-! ## Single octets -/

theorem forall_octet {P : UInt8 → Prop} (h : ∀ n : Fin 256, P (UInt8.ofNat n)) (b : UInt8) : P b := by
  have := h ⟨b.toNat, b.toNat_lt⟩
  rwa [UInt8.ofNat_toNat] at this

theorem toNat_toUInt8_of_lt {n : Nat} (h : n < 256) : n.toUInt8.toNat = n := by
  simp only [Nat.toUInt8, UInt8.toNat_ofNat']
  omega

@[simp] theorem toUInt8_toNat (b : UInt8) : b.toNat.toUInt8 = b := UInt8.ofNat_toNat

/-! ## Big-endian numbers -/

@[simp] theorem toNat_nil : toNat [] = 0 := rfl

theorem foldl_toNat (bytes : Bytes) (n : Nat) :
    bytes.foldl (fun n b => n * 256 + b.toNat) n = n * 256 ^ bytes.length + toNat bytes := by
  induction bytes generalizing n with
  | nil => simp
  | cons b bytes ih =>
    have head := ih b.toNat
    simp only [toNat, List.foldl_cons, Nat.zero_mul, Nat.zero_add, List.length_cons] at head ⊢
    rw [ih, head, Nat.pow_succ, Nat.add_mul, Nat.mul_assoc, Nat.mul_comm 256, Nat.add_assoc]
    rfl

theorem toNat_append (a b : Bytes) : toNat (a ++ b) = toNat a * 256 ^ b.length + toNat b := by
  rw [toNat, List.foldl_append]
  exact foldl_toNat b _

theorem toNat_cons (b : UInt8) (bytes : Bytes) :
    toNat (b :: bytes) = b.toNat * 256 ^ bytes.length + toNat bytes := by
  have := toNat_append [b] bytes
  simpa [toNat] using this

theorem toNat_zeros (n : Nat) : toNat (zeros n) = 0 := by
  induction n with
  | zero => rfl
  | succ n ih =>
    rw [zeros, List.replicate_succ, toNat_cons]
    simpa [zeros] using ih

theorem toNat_lt (bytes : Bytes) : toNat bytes < 256 ^ bytes.length := by
  induction bytes with
  | nil => simp
  | cons b bytes ih =>
    have hb : b.toNat + 1 ≤ 256 := b.toNat_lt
    have := Nat.mul_le_mul_right (256 ^ bytes.length) hb
    rw [Nat.add_mul] at this
    rw [toNat_cons, List.length_cons, Nat.pow_succ]
    omega

theorem toNat_ofNat (width n : Nat) : toNat (ofNat width n) = n % 256 ^ width := by
  induction width generalizing n with
  | zero => simp [ofNat, Nat.mod_one]
  | succ width ih =>
    have last : toNat [n.toUInt8] = n % 256 := by simp [toNat, Nat.toUInt8]
    rw [ofNat, toNat_append, ih, last, List.length_singleton, Nat.pow_one, Nat.pow_succ,
      Nat.mul_comm (256 ^ width), Nat.mod_mul, Nat.mul_comm, Nat.add_comm]

theorem toNat_ofNat_of_lt {width n : Nat} (h : n < 256 ^ width) : toNat (ofNat width n) = n := by
  rw [toNat_ofNat, Nat.mod_eq_of_lt h]

theorem ofNat_toNat (bytes : Bytes) : ofNat bytes.length (toNat bytes) = bytes := by
  induction bytes using List.reverseRecOn with
  | nil => rfl
  | append_singleton bytes b ih =>
    have hb := b.toNat_lt
    have last : toNat [b] = b.toNat := by simp [toNat]
    have front : (toNat bytes * 256 + b.toNat) / 256 = toNat bytes := by omega
    have back : (toNat bytes * 256 + b.toNat).toUInt8 = b := by
      apply UInt8.toNat_inj.1
      rw [Nat.toUInt8, UInt8.toNat_ofNat']
      omega
    rw [toNat_append, List.length_append, List.length_singleton, Nat.pow_one, last, ofNat, front,
      back, ih]

/-- Octets are filled up from the front to those of the same number. -/
theorem padLeft_eq {width : Nat} {bytes : Bytes} (h : bytes.length ≤ width) :
    bytes.padLeft width = ofNat width (toNat bytes) := by
  have length : (bytes.padLeft width).length = width := by
    rw [padLeft, List.length_append, length_zeros]
    omega
  have same : toNat (bytes.padLeft width) = toNat bytes := by
    rw [padLeft, toNat_append, toNat_zeros, Nat.zero_mul, Nat.zero_add]
  calc bytes.padLeft width
      = ofNat (bytes.padLeft width).length (toNat (bytes.padLeft width)) := (ofNat_toNat _).symm
    _ = ofNat width (toNat bytes) := by rw [length, same]

/-! ## Sums -/

theorem foldl_sum (bytes : Bytes) (n : Nat) :
    bytes.foldl (fun n b => n + b.toNat) n = n + sum bytes := by
  induction bytes generalizing n with
  | nil => rfl
  | cons b bytes ih =>
    rw [sum, List.foldl_cons, List.foldl_cons, ih, ih (0 + b.toNat)]
    omega

theorem sum_cons (b : UInt8) (bytes : Bytes) : sum (b :: bytes) = b.toNat + sum bytes := by
  rw [sum, List.foldl_cons, foldl_sum, Nat.zero_add]

/-- With another octet in a place, the sum gains it and loses the one that was there. -/
theorem sum_set {bytes : Bytes} {i : Nat} (h : i < bytes.length) (b : UInt8) :
    sum (bytes.set i b) + bytes[i].toNat = sum bytes + b.toNat := by
  induction bytes generalizing i with
  | nil => cases h
  | cons c bytes ih =>
    cases i with
    | zero =>
      simp only [List.set_cons_zero, List.getElem_cons_zero, sum_cons]
      omega
    | succ i =>
      have tail := ih (Nat.lt_of_succ_lt_succ h)
      simp only [List.set_cons_succ, List.getElem_cons_succ, sum_cons]
      omega

/-! ## Exclusive or -/

theorem xor_append {a c : Bytes} (h : a.length = c.length) (b d : Bytes) :
    xor (a ++ b) (c ++ d) = xor a c ++ xor b d :=
  List.zipWith_append h

theorem xor_xor_cancel {a b : Bytes} (h : a.length ≤ b.length) : xor (xor a b) b = a := by
  induction a generalizing b with
  | nil => rfl
  | cons x a ih =>
    cases b with
    | nil => simp at h
    | cons y b =>
      have tail := ih (b := b) (by simpa using h)
      simp only [xor, List.zipWith_cons_cons] at tail ⊢
      rw [tail, UInt8.xor_assoc, UInt8.xor_self, UInt8.xor_zero]

/-! ## Strings of one size, one after another -/

theorem length_flatMap {α : Type} {f : α → Bytes} {size : Nat} (h : ∀ x, (f x).length = size)
    (xs : List α) : (xs.flatMap f).length = xs.length * size := by
  induction xs with
  | nil => simp
  | cons x xs ih =>
    rw [List.flatMap_cons, List.length_append, h, ih, List.length_cons]
    ring

theorem getD_flatMap_range' {size : Nat} (h : 0 < size) {g : Nat → Bytes}
    (hg : ∀ i, (g i).length = size) (first count i : Nat) (hi : i < count * size) :
    ((List.range' first count).flatMap g).getD i 0 = (g (first + i / size)).getD (i % size) 0 := by
  induction count generalizing first i with
  | zero => omega
  | succ count ih =>
    rw [Nat.add_mul, Nat.one_mul] at hi
    rw [List.range'_succ, List.flatMap_cons]
    by_cases front : i < size
    · rw [List.getD_append _ _ _ _ (by rw [hg]; exact front), Nat.div_eq_of_lt front,
        Nat.mod_eq_of_lt front, Nat.add_zero]
    · have back := ih (first + 1) (i - size) (by omega)
      have div : i / size = (i - size) / size + 1 := by rw [Nat.div_eq_sub_div h (by omega)]
      have mod : i % size = (i - size) % size := Nat.mod_eq_sub_mod (by omega)
      rw [List.getD_append_right _ _ _ _ (by rw [hg]; omega), hg, back, div, mod, Nat.add_assoc,
        Nat.add_comm 1]

/-- The string that an octet comes from, and its place there, are told by its position. -/
theorem take_flatMap_range {size : Nat} (h : 0 < size) {g : Nat → Bytes}
    (hg : ∀ i, (g i).length = size) {count n : Nat} (hn : n ≤ count * size) :
    ((List.range count).flatMap g).take n =
      (List.range n).map fun i => (g (i / size)).getD (i % size) 0 := by
  have total := length_flatMap hg (List.range count)
  rw [List.length_range] at total
  refine List.ext_getElem ?_ fun i hi _ => ?_
  · rw [List.length_take, total, List.length_map, List.length_range, Nat.min_eq_left hn]
  · rw [List.length_take, total] at hi
    have place := getD_flatMap_range' h hg 0 count i (by omega)
    rw [← List.range_eq_range', Nat.zero_add, List.getD_eq_getElem _ _ (by omega)] at place
    rw [List.getElem_take, place, List.getElem_map, List.getElem_range]

/-! ## Endless repetition -/

/-- The octets of the endless repetition of a string. -/
def endless (bytes : Bytes) (i : Nat) : UInt8 := bytes.getD (i % bytes.length) 0

/-- So many octets of the repetition are those of whole copies of the string and a part of another. -/
theorem cycle_eq {bytes : Bytes} (h : bytes ≠ []) (n : Nat) :
    bytes.cycle n = (List.range n).map bytes.endless := by
  have pos := List.length_pos_iff.2 h
  have split := Nat.div_add_mod' n bytes.length
  have small := Nat.mod_lt n pos
  have copies (count : Nat) : (List.range count).flatMap (fun _ => bytes) =
      (List.replicate count bytes).flatten := by
    rw [List.flatMap_def, List.map_const', List.length_range]
  have whole : (List.replicate (n / bytes.length) bytes).flatten.length =
      n / bytes.length * bytes.length := by
    rw [← copies, length_flatMap (fun _ => rfl), List.length_range]
  have all : (List.replicate (n / bytes.length) bytes).flatten.take n =
      (List.replicate (n / bytes.length) bytes).flatten :=
    List.take_of_length_le (by omega)
  have rest : n - n / bytes.length * bytes.length = n % bytes.length := by omega
  have cut : bytes.cycle n =
      ((List.range (n / bytes.length + 1)).flatMap fun _ => bytes).take n := by
    rw [cycle, if_neg h, copies, List.replicate_succ', List.flatten_append, List.flatten_singleton,
      List.take_append, all, whole, rest]
  have enough : n ≤ (n / bytes.length + 1) * bytes.length := by
    rw [Nat.add_mul]
    omega
  rw [cut]
  exact take_flatMap_range pos (fun _ => rfl) enough

/-! ## Blocks -/

/-- The number of blocks that is allowed for makes no difference once it is large enough. -/
theorem takeBlocks_eq {size : Nat} (hs : 0 < size) {count count' : Nat} {bytes : Bytes}
    (h : bytes.length ≤ count) (h' : bytes.length ≤ count') :
    takeBlocks size count bytes = takeBlocks size count' bytes := by
  induction count generalizing count' bytes with
  | zero =>
    obtain rfl : bytes = [] := List.length_eq_zero_iff.1 (by omega)
    cases count' <;> simp [takeBlocks]
  | succ count ih =>
    by_cases e : bytes = []
    · subst e
      cases count' <;> simp [takeBlocks]
    · have pos := List.length_pos_iff.2 e
      obtain ⟨count', rfl⟩ : ∃ n, count' = n + 1 := ⟨count' - 1, by omega⟩
      have less : (bytes.drop size).length ≤ count := by rw [List.length_drop]; omega
      have less' : (bytes.drop size).length ≤ count' := by rw [List.length_drop]; omega
      rw [takeBlocks, takeBlocks, if_neg e, if_neg e, ih less less']

@[simp] theorem blocks_nil (size : Nat) : blocks size [] = [] := by
  simp [blocks, takeBlocks]

theorem blocks_of_ne_nil {size : Nat} (hs : 0 < size) {bytes : Bytes} (h : bytes ≠ []) :
    blocks size bytes = bytes.take size :: blocks size (bytes.drop size) := by
  have pos := List.length_pos_iff.2 h
  obtain ⟨count, e⟩ : ∃ n, bytes.length = n + 1 := ⟨bytes.length - 1, by omega⟩
  have less : (bytes.drop size).length ≤ count := by rw [List.length_drop]; omega
  unfold blocks
  rw [if_neg (by omega), if_neg (by omega), e, takeBlocks, if_neg h, takeBlocks_eq hs less le_rfl]

theorem blocks_cons_append {size : Nat} (hs : 0 < size) {block : Bytes} (h : block.length = size)
    (rest : Bytes) : blocks size (block ++ rest) = block :: blocks size rest := by
  have ne : block ++ rest ≠ [] := by
    intro e
    have := congrArg List.length e
    simp only [List.length_append, List.length_nil] at this
    omega
  rw [blocks_of_ne_nil hs ne, List.take_left' h, List.drop_left' h]

theorem blocks_of_length_le {size : Nat} {bytes : Bytes} (h : bytes ≠ []) (hl : bytes.length ≤ size) :
    blocks size bytes = [bytes] := by
  have pos := List.length_pos_iff.2 h
  rw [blocks_of_ne_nil (by omega) h, List.take_of_length_le hl, List.drop_eq_nil_of_le hl, blocks_nil]

/-- Every string is nothing, a short block, or a whole block in front of a string. -/
theorem block_induction {size : Nat} (hs : 0 < size) {P : Bytes → Prop} (nil : P [])
    (short : ∀ bytes, bytes ≠ [] → bytes.length < size → P bytes)
    (whole : ∀ block rest, block.length = size → P rest → P (block ++ rest)) (bytes : Bytes) :
    P bytes := by
  induction e : bytes.length using Nat.strongRecOn generalizing bytes with
  | _ n ih =>
    by_cases hl : bytes.length < size
    · by_cases e : bytes = []
      · exact e ▸ nil
      · exact short bytes e hl
    · have hd : (bytes.drop size).length < n := by rw [List.length_drop]; omega
      have key := whole (bytes.take size) _ (List.length_take_of_le (by omega)) (ih _ hd _ rfl)
      rwa [List.take_append_drop] at key

theorem flatten_blocks {size : Nat} (hs : 0 < size) (bytes : Bytes) :
    (blocks size bytes).flatten = bytes := by
  induction bytes using block_induction hs with
  | nil => simp
  | short bytes ne hl => simp [blocks_of_length_le ne hl.le]
  | whole block rest hb ih => rw [blocks_cons_append hs hb, List.flatten_cons, ih]

/-- Whole blocks in front of a string are cut off first. -/
theorem blocks_append {size : Nat} {a : Bytes} (h : size ∣ a.length) (b : Bytes) :
    blocks size (a ++ b) = blocks size a ++ blocks size b := by
  rcases Nat.eq_zero_or_pos size with rfl | hs
  · simp [blocks]
  induction a using block_induction hs with
  | nil => simp
  | short a ne hl => exact absurd (Nat.le_of_dvd (List.length_pos_iff.2 ne) h) (by omega)
  | whole block rest hb ih =>
    rw [List.length_append, hb, Nat.dvd_add_right (Nat.dvd_refl size)] at h
    rw [List.append_assoc, blocks_cons_append hs hb, blocks_cons_append hs hb, ih h, List.cons_append]

theorem length_of_mem_blocks {size : Nat} {bytes block : Bytes} (h : size ∣ bytes.length)
    (hb : block ∈ blocks size bytes) : block.length = size := by
  rcases Nat.eq_zero_or_pos size with rfl | hs
  · simp [blocks] at hb
  induction bytes using block_induction hs with
  | nil => simp at hb
  | short bytes ne hl => exact absurd (Nat.le_of_dvd (List.length_pos_iff.2 ne) h) (by omega)
  | whole front rest hf ih =>
    rw [List.length_append, hf, Nat.dvd_add_right (Nat.dvd_refl size)] at h
    rw [blocks_cons_append hs hf, List.mem_cons] at hb
    rcases hb with rfl | hb
    · exact hf
    · exact ih h hb

theorem length_le_of_mem_blocks {size : Nat} (hs : 0 < size) {bytes block : Bytes}
    (hb : block ∈ blocks size bytes) : block.length ≤ size := by
  induction bytes using block_induction hs with
  | nil => simp at hb
  | short bytes ne hl =>
    rw [blocks_of_length_le ne hl.le, List.mem_singleton] at hb
    exact hb ▸ hl.le
  | whole front rest hf ih =>
    rw [blocks_cons_append hs hf, List.mem_cons] at hb
    rcases hb with rfl | hb
    · exact hf.le
    · exact ih hb

theorem ne_nil_of_mem_blocks {size : Nat} (h : 0 < size) {bytes block : Bytes}
    (hb : block ∈ blocks size bytes) : block ≠ [] := by
  induction bytes using block_induction h with
  | nil => simp at hb
  | short bytes ne hl =>
    rw [blocks_of_length_le ne hl.le, List.mem_singleton] at hb
    exact hb ▸ ne
  | whole front rest hf ih =>
    rw [blocks_cons_append h hf, List.mem_cons] at hb
    rcases hb with rfl | hb
    · exact List.ne_nil_of_length_pos (by omega)
    · exact ih hb

theorem length_blocks {size : Nat} (h : 0 < size) {bytes : Bytes} (hd : size ∣ bytes.length) :
    (blocks size bytes).length * size = bytes.length := by
  have total := congrArg List.length (flatten_blocks h bytes)
  rw [List.length_flatten] at total
  have each : (blocks size bytes).map List.length = List.replicate (blocks size bytes).length size :=
    List.eq_replicate_iff.2 ⟨List.length_map _, by
      intro n hn
      obtain ⟨block, hb, rfl⟩ := List.mem_map.1 hn
      exact length_of_mem_blocks hd hb⟩
  rwa [each, List.sum_replicate_nat] at total

end Cryptogram.Bytes
