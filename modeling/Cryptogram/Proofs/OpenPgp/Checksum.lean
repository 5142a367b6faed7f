import Mathlib.Data.List.Flatten
import Mathlib.Logic.Function.Basic
import Cryptogram.OpenPgp.Checksum
import Cryptogram.Proofs.Octets

/-!
# Bursts of errors

A remainder takes in a message bit by bit, most significant bit first, and different remainders
stay different whatever bits follow (`foldl_feed_injective`).  As many bits as a remainder has places
can be put there all at once (`foldl_feed`), so that nothing of them is lost.  Therefore different
strings of one length have different checksums if the bits in which they differ lie close together
(`ofBytes_ne`).
-/

namespace Cryptogram

/-! ## Bits -/

namespace Bytes

/-- The bits of an octet, most significant first. -/
def octetBits (b : UInt8) : List Bool := (List.range 8).map fun i => b.toNat.testBit (7 - i)

/-- The bits of a string, most significant first. -/
def bits (bytes : Bytes) : List Bool := bytes.flatMap octetBits

/-- All bits in which two strings differ lie among so many consecutive ones. -/
def DifferWithin (width : Nat) (a b : Bytes) : Prop :=
  ∃ first, ∀ i, a.bits[i]? ≠ b.bits[i]? → first ≤ i ∧ i < first + width

theorem length_octetBits (b : UInt8) : (octetBits b).length = 8 := by
  rw [octetBits, List.length_map, List.length_range]

theorem length_bits (bytes : Bytes) : bytes.bits.length = 8 * bytes.length := by
  induction bytes with
  | nil => rfl
  | cons b bytes ih =>
    rw [bits, List.flatMap_cons, List.length_append, length_octetBits, ← bits, ih, List.length_cons]
    omega

/-- The number that bits denote, most significant first. -/
def ofBits (bits : List Bool) : Nat := bits.foldl (fun n bit => 2 * n + bit.toNat) 0

/-- The lowest bits of a number that has no others denote it. -/
theorem ofBits_testBit {k n : Nat} (h : n < 2 ^ k) :
    ofBits ((List.range k).map fun i => n.testBit (k - 1 - i)) = n := by
  induction k generalizing n with
  | zero =>
    obtain rfl : n = 0 := by omega
    rfl
  | succ k ih =>
    have half := ih (show n / 2 < 2 ^ k by omega)
    have front : (List.range k).map (fun i => n.testBit (k + 1 - 1 - i)) =
        (List.range k).map fun i => (n / 2).testBit (k - 1 - i) := by
      refine List.map_congr_left fun i hi => ?_
      rw [List.mem_range] at hi
      rw [Nat.testBit_div_two]
      congr 1
      omega
    rw [List.range_succ, List.map_append, front, ofBits, List.foldl_append, ← ofBits, half]
    simp only [List.map_cons, List.map_nil, List.foldl_cons, List.foldl_nil, Nat.add_sub_cancel,
      Nat.sub_self, Nat.testBit_zero]
    by_cases odd : n % 2 = 1 <;> simp [odd] <;> omega

theorem ofBits_octetBits (b : UInt8) : ofBits (octetBits b) = b.toNat :=
  ofBits_testBit b.toNat_lt

theorem octetBits_injective : Function.Injective octetBits := by
  intro b b' same
  apply UInt8.toNat_inj.1
  rw [← ofBits_octetBits, same, ofBits_octetBits]

theorem bits_injective : Function.Injective bits := by
  intro a b same
  induction a generalizing b with
  | nil =>
    have size := congrArg List.length same
    rw [length_bits, length_bits, List.length_nil] at size
    exact (List.length_eq_zero_iff.1 (by omega)).symm
  | cons x a ih =>
    cases b with
    | nil => cases same
    | cons y b =>
      rw [bits, bits, List.flatMap_cons, List.flatMap_cons] at same
      have widths : (octetBits x).length = (octetBits y).length := by
        rw [length_octetBits, length_octetBits]
      obtain ⟨first, others⟩ := List.append_inj same widths
      rw [octetBits_injective first, ih others]

/-- Strings differ in bits that lie close together if all but a few consecutive bits are the
same. -/
theorem differWithin_iff {width : Nat} {a b : Bytes} (size : a.length = b.length) :
    DifferWithin width a b ↔ ∃ front a' b' back, a.bits = front ++ a' ++ back ∧
      b.bits = front ++ b' ++ back ∧ a'.length = b'.length ∧ a'.length ≤ width := by
  constructor
  · rintro ⟨first, near⟩
    have front : a.bits.take first = b.bits.take first := by
      apply List.ext_getElem?
      intro i
      rw [List.getElem?_take, List.getElem?_take]
      split_ifs with inside
      · by_contra other
        exact absurd (near i other).1 (by omega)
      · rfl
    have back : (a.bits.drop first).drop width = (b.bits.drop first).drop width := by
      apply List.ext_getElem?
      intro i
      rw [List.drop_drop, List.drop_drop, List.getElem?_drop, List.getElem?_drop]
      by_contra other
      exact absurd (near _ other).2 (by omega)
    refine ⟨a.bits.take first, (a.bits.drop first).take width, (b.bits.drop first).take width,
      (a.bits.drop first).drop width, ?_, ?_, ?_, List.length_take_le _ _⟩
    · rw [List.append_assoc, List.take_append_drop, List.take_append_drop]
    · rw [front, back, List.append_assoc, List.take_append_drop, List.take_append_drop]
    · simp only [List.length_take, List.length_drop, length_bits, size]
  · rintro ⟨front, a', b', back, bitsA, bitsB, size', few⟩
    refine ⟨front.length, fun i other => ?_⟩
    rw [bitsA, bitsB, List.append_assoc, List.append_assoc] at other
    by_contra outside
    apply other
    by_cases before : i < front.length
    · rw [List.getElem?_append_left before, List.getElem?_append_left before]
    · have behind : ∀ {c : List Bool}, c.length = a'.length →
          (front ++ (c ++ back))[i]? = back[i - front.length - a'.length]? := by
        intro c same
        rw [List.getElem?_append_right (by omega), List.getElem?_append_right (by omega), same]
      rw [behind rfl, behind size'.symm]

end Bytes

namespace Crc24

/-! ## Steps -/

/-- What a step takes off where the highest power is present. -/
def carry (high : Bool) : BitVec 24 := if high then generator else 0#24

theorem step_eq (r : BitVec 24) : step r = r <<< 1 ^^^ carry r.msb := by
  rw [step]
  cases r.msb with
  | false => exact BitVec.xor_zero.symm
  | true => rfl

theorem carry_xor (a b : Bool) : carry (a ^^ b) = carry a ^^^ carry b := by
  cases a <;> cases b <;> decide

theorem step_xor (a b : BitVec 24) : step (a ^^^ b) = step a ^^^ step b := by
  rw [step_eq, step_eq a, step_eq b, BitVec.msb_xor, BitVec.shiftLeft_xor_distrib, carry_xor]
  ac_rfl

/-- The generator has a constant term, so what is taken off leaves a trace. -/
theorem eq_zero_of_step {r : BitVec 24} (h : step r = 0#24) : r = 0#24 := by
  have constant := congrArg (BitVec.getLsbD · 0) h
  have low : r.msb = false := by
    rw [step_eq] at constant
    revert constant
    cases r.msb with
    | false => exact fun _ => rfl
    | true => simp [carry, generator]
  apply BitVec.eq_of_getElem_eq
  intro i hi
  by_cases last : i = 23
  · subst last
    simpa [BitVec.msb_eq_getLsbD_last] using low
  · have next := congrArg (BitVec.getLsbD · (i + 1)) h
    rw [step, low] at next
    simpa [show i + 1 < 24 by omega] using next

theorem step_injective : Function.Injective step := by
  intro a b same
  apply BitVec.xor_eq_zero_iff.1
  apply eq_zero_of_step
  rw [step_xor, same, BitVec.xor_self]

theorem steps_injective (count : Nat) : Function.Injective (steps count) := by
  induction count with
  | zero => exact Function.injective_id
  | succ count ih => exact ih.comp step_injective

/-- Halving is undone by a step. -/
theorem step_ushiftRight {r : BitVec 24} (even : r.getLsbD 0 = false) : step (r >>> 1) = r := by
  have high : (r >>> 1).msb = false := by simp
  rw [step, high]
  apply BitVec.eq_of_getLsbD_eq
  intro i hi
  cases i with
  | zero =>
    rw [even]
    simp
  | succ i => simp [hi, Nat.add_comm 1]

/-! ## Bit by bit -/

/-- A bit in the place of the highest power. -/
def top (bit : Bool) : BitVec 24 := if bit then 0x800000#24 else 0#24

/-- The remainder after one more bit. -/
def feed (r : BitVec 24) (bit : Bool) : BitVec 24 := step (r ^^^ top bit)

theorem feed_injective (bit : Bool) : Function.Injective (feed · bit) :=
  fun _ _ same => (BitVec.xor_left_inj _).1 (step_injective same)

/-- Different remainders stay different, whatever bits follow. -/
theorem foldl_feed_injective (bits : List Bool) :
    Function.Injective fun r => bits.foldl feed r := by
  induction bits with
  | nil => exact Function.injective_id
  | cons bit bits ih => exact ih.comp (feed_injective bit)

/-- Bits in the places of the highest powers. -/
def load : List Bool → BitVec 24
  | [] => 0#24
  | bit :: bits => top bit ^^^ load bits >>> 1

theorem getLsbD_top (bit : Bool) {i : Nat} (hi : i < 24) :
    (top bit).getLsbD i = (bit && i == 23) := by
  have each : ∀ bit, ∀ i : Fin 24, (top bit).getLsbD i = (bit && i.val == 23) := by decide
  exact each bit ⟨i, hi⟩

theorem getLsbD_load {bits : List Bool} {i : Nat} (hi : i < 24) :
    (load bits).getLsbD i = bits[23 - i]?.getD false := by
  induction bits generalizing i with
  | nil => exact BitVec.getLsbD_zero
  | cons bit bits ih =>
    rw [load, BitVec.getLsbD_xor, getLsbD_top bit hi, BitVec.getLsbD_ushiftRight]
    by_cases first : i = 23
    · subst first
      simp
    · obtain ⟨j, place⟩ : ∃ j, 23 - i = j + 1 := ⟨22 - i, by omega⟩
      rw [ih (by omega), place, List.getElem?_cons_succ, show 23 - (1 + i) = j by omega,
        beq_false_of_ne first, Bool.and_false, Bool.false_xor]

theorem step_load {bits : List Bool} (few : bits.length < 24) :
    step (load bits >>> 1) = load bits := by
  refine step_ushiftRight ?_
  rw [getLsbD_load (by decide), List.getElem?_eq_none (by omega)]
  rfl

theorem load_inj {a b : List Bool} (size : a.length = b.length) (few : a.length ≤ 24)
    (h : load a = load b) : a = b := by
  induction a generalizing b with
  | nil => exact (List.length_eq_zero_iff.1 size.symm).symm
  | cons x a ih =>
    cases b with
    | nil => cases size
    | cons y b =>
      rw [List.length_cons, List.length_cons, Nat.add_right_cancel_iff] at size
      rw [List.length_cons] at few
      have high := congrArg (BitVec.getLsbD · 23) h
      simp only [load, BitVec.getLsbD_xor, getLsbD_top _ (show 23 < 24 by decide),
        BitVec.getLsbD_ushiftRight] at high
      obtain rfl : x = y := by simpa using high
      -- The first bits cancel, and a step brings the others up to where they were.
      have others := congrArg step ((BitVec.xor_right_inj _).1 h)
      rw [step_load (by omega), step_load (by omega)] at others
      rw [ih size (by omega) others]

/-- Few bits are taken in as if they had all been put in their places before. -/
theorem foldl_feed {bits : List Bool} (few : bits.length ≤ 24) (r : BitVec 24) :
    bits.foldl feed r = steps bits.length (r ^^^ load bits) := by
  induction bits generalizing r with
  | nil => exact BitVec.xor_zero.symm
  | cons bit bits ih =>
    rw [List.length_cons] at few
    rw [List.foldl_cons, ih (by omega), List.length_cons, steps, load, ← BitVec.xor_assoc, step_xor,
      step_load (by omega), feed]

/-- Few bits can be told from the remainder behind them. -/
theorem foldl_feed_inj {a b : List Bool} (size : a.length = b.length) (few : a.length ≤ 24)
    {r : BitVec 24} (h : a.foldl feed r = b.foldl feed r) : a = b := by
  rw [foldl_feed few, foldl_feed (size ▸ few), size] at h
  exact load_inj size few ((BitVec.xor_right_inj _).1 (steps_injective _ h))

/-! ## Strings -/

theorem load_octetBits (octet : UInt8) :
    load (Bytes.octetBits octet) = BitVec.ofNat 24 (octet.toNat * 65536) := by
  apply BitVec.eq_of_getLsbD_eq
  intro i hi
  have shifted : octet.toNat * 65536 = octet.toNat * 2 ^ 16 := rfl
  rw [getLsbD_load hi, BitVec.getLsbD_ofNat, shifted, Nat.testBit_mul_two_pow, Bytes.octetBits,
    List.getElem?_map]
  by_cases high : 16 ≤ i
  · have place : 7 - (23 - i) = i - 16 := by omega
    rw [List.getElem?_range (by omega)]
    simp [hi, high, place]
  · rw [List.getElem?_eq_none (by rw [List.length_range]; omega)]
    simp [high]

theorem absorb_eq (r : BitVec 24) (octet : UInt8) :
    absorb r octet = (Bytes.octetBits octet).foldl feed r := by
  have few : (Bytes.octetBits octet).length ≤ 24 := by
    rw [Bytes.length_octetBits]
    decide
  rw [foldl_feed few, load_octetBits, Bytes.length_octetBits]
  rfl

/-- The checksum takes in one bit after another. -/
theorem ofBytes_eq (message : Bytes) : ofBytes message = message.bits.foldl feed seed := by
  rw [ofBytes, Bytes.bits, List.foldl_flatMap]
  congr 1
  funext r octet
  exact absorb_eq r octet

/-- No burst of errors that is as long as the checksum or shorter leaves it as it was. -/
theorem ofBytes_ne {a b : Bytes} (size : a.length = b.length) (different : a ≠ b)
    (near : Bytes.DifferWithin 24 a b) : ofBytes a ≠ ofBytes b := by
  obtain ⟨front, a', b', back, bitsA, bitsB, size', few⟩ := (Bytes.differWithin_iff size).1 near
  intro same
  -- The bits behind the burst keep the remainders apart, and the burst itself is within the width.
  rw [ofBytes_eq, ofBytes_eq, bitsA, bitsB, List.foldl_append, List.foldl_append, List.foldl_append,
    List.foldl_append] at same
  have inside : a' = b' := foldl_feed_inj size' few (foldl_feed_injective back same)
  apply different
  apply Bytes.bits_injective
  rw [bitsA, bitsB, inside]

end Crc24

end Cryptogram
