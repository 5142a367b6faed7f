import Cryptogram.OpenPgp.Number
import Cryptogram.Proofs.Octets

/-!
# Numbers in packets

A number is written with the count of its bits in front of its octets, of which there are no more
than it needs (`eq_octets_iff`).  The count tells where the number ends, so that numbers are read one
after another, each where the one in front of it ends, and a number that is cut is refused
(`readAllAt_written`).
-/

namespace Cryptogram.Mpi

/-! ## Octets -/

theorem bitLength_le {n bits : Nat} (h : n < 2 ^ bits) : bitLength n ≤ bits := by
  unfold bitLength
  split_ifs with zero
  · exact Nat.zero_le _
  · exact (Nat.log2_lt zero).2 h

theorem lt_pow_bitLength (n : Nat) : n < 2 ^ bitLength n := by
  unfold bitLength
  split_ifs with zero
  · simp [zero]
  · exact Nat.lt_log2_self

theorem length_octets (n : Nat) : (octets n).length = octetCount (bitLength n) :=
  Bytes.length_ofNat _ _

theorem toNat_octets (n : Nat) : Bytes.toNat (octets n) = n := by
  refine Bytes.toNat_ofNat_of_lt ?_
  calc n < 2 ^ bitLength n := lt_pow_bitLength n
    _ ≤ 2 ^ (8 * octetCount (bitLength n)) :=
      Nat.pow_le_pow_right (by decide) (by unfold octetCount; omega)
    _ = 256 ^ octetCount (bitLength n) := by rw [pow_mul]; rfl

/-- A number has no more bits than the octets that denote it. -/
theorem bitLength_toNat_le (bytes : Bytes) : bitLength (Bytes.toNat bytes) ≤ 8 * bytes.length := by
  apply bitLength_le
  rw [pow_mul]
  exact Bytes.toNat_lt bytes

/-- The zeros in front of octets, which their number has lost, are put back. -/
theorem padLeft_octets (bytes : Bytes) :
    (octets (Bytes.toNat bytes)).padLeft bytes.length = bytes := by
  have narrow : (octets (Bytes.toNat bytes)).length ≤ bytes.length := by
    have := bitLength_toNat_le bytes
    rw [length_octets, octetCount]
    omega
  rw [Bytes.padLeft_eq narrow, toNat_octets, Bytes.ofNat_toNat]

theorem head?_octets (n : Nat) : (octets n).head? ≠ some 0 := by
  intro zero
  obtain ⟨rest, layout⟩ := List.head?_eq_some_iff.1 zero
  have denoted : Bytes.toNat rest = n := by
    have := toNat_octets n
    rwa [layout, Bytes.toNat_cons, UInt8.toNat_zero, Nat.zero_mul, Nat.zero_add] at this
  have narrow := bitLength_toNat_le rest
  have size := length_octets n
  rw [denoted] at narrow
  rw [layout, List.length_cons, octetCount] at size
  omega

/-- The octets of a number are those that denote it without a zero in front. -/
theorem eq_octets_iff {bytes : Bytes} {n : Nat} :
    bytes = octets n ↔ Bytes.toNat bytes = n ∧ bytes.head? ≠ some 0 := by
  constructor
  · rintro rfl
    exact ⟨toNat_octets n, head?_octets n⟩
  · rintro ⟨rfl, zero⟩
    -- The octets are the least ones with zeros in front, of which there is none.
    have padded := padLeft_octets bytes
    rw [Bytes.padLeft] at padded
    cases more : bytes.length - (octets (Bytes.toNat bytes)).length with
    | zero =>
      rw [more] at padded
      exact padded.symm
    | succ excess =>
      rw [more] at padded
      rw [← padded] at zero
      exact absurd rfl zero

/-! ## Writing -/

/-- A number in a packet: the count of its bits and its octets. -/
def written (n : Nat) : Bytes := Bytes.ofNat 2 (bitLength n) ++ octets n

theorem length_written (n : Nat) : (written n).length = 2 + octetCount (bitLength n) := by
  rw [written, List.length_append, Bytes.length_ofNat, length_octets]

/-- A number is written if the count of its bits fits two octets. -/
theorem write_eq (n : Nat) :
    write n = if bitLength n < 2 ^ 16 then .ok (written n) else .error .fieldOverflow := by
  have natural : ¬ (n : Int) < 0 := by omega
  unfold write
  dsimp only
  rw [Int.natAbs_natCast]
  by_cases few : bitLength n < 2 ^ 16
  · rw [if_neg (by omega), if_neg natural, if_pos few]
    rfl
  · rw [if_pos (by omega), if_neg few]

theorem write_of_lt {n : Nat} (few : n < 2 ^ 65535) : write n = .ok (written n) := by
  have := bitLength_le few
  rw [write_eq, if_pos (by omega)]

theorem mapM_write {ns : List Nat} (few : ∀ n ∈ ns, n < 2 ^ 65535) :
    ns.mapM (fun n : Nat => write n) = .ok (ns.map written) := by
  induction ns with
  | nil => rfl
  | cons n ns ih =>
    obtain ⟨first, others⟩ := List.forall_mem_cons.1 few
    rw [List.mapM_cons, write_of_lt first, ih others]
    rfl

/-! ## Reading -/

/-- What is written begins with the two octets of the count. -/
theorem exists_written_eq {n : Nat} (few : bitLength n < 2 ^ 16) :
    ∃ a b : UInt8, written n = a :: b :: octets n ∧
      octetCount (a.toNat * 256 + b.toNat) = (octets n).length := by
  obtain ⟨a, b, count⟩ : ∃ a b, Bytes.ofNat 2 (bitLength n) = [a, b] := ⟨_, _, rfl⟩
  have denoted : a.toNat * 256 + b.toNat = bitLength n := by
    have same : Bytes.toNat (Bytes.ofNat 2 (bitLength n)) = bitLength n :=
      Bytes.toNat_ofNat_of_lt few
    rw [count] at same
    simpa [Bytes.toNat] using same
  exact ⟨a, b, by rw [written, count]; rfl, by rw [denoted, length_octets]⟩

/-- A number is read, whatever follows it. -/
theorem read_written_append {n : Nat} (few : bitLength n < 2 ^ 16) (rest : Bytes) :
    read (written n ++ rest) = .ok (octets n, rest) := by
  obtain ⟨a, b, layout, count⟩ := exists_written_eq few
  have whole : ¬ (octets n ++ rest).length < (octets n).length := by
    rw [List.length_append]
    omega
  rw [layout, List.cons_append, List.cons_append, read]
  rw [count, if_neg whole, List.take_left, List.drop_left]

/-- A number that is cut is refused. -/
theorem exists_read_take_written {n : Nat} (few : bitLength n < 2 ^ 16) {size : Nat}
    (cut : size < (written n).length) :
    ∃ f, read ((written n).take size) = .error f ∧ f.kind = .own .pgpFormat := by
  obtain ⟨a, b, layout, count⟩ := exists_written_eq few
  rw [layout] at cut ⊢
  match size with
  | 0 => exact ⟨.mpiShort, rfl, rfl⟩
  | 1 => exact ⟨.mpiShort, rfl, rfl⟩
  | size + 2 =>
    have short : ((octets n).take size).length < (octets n).length := by
      rw [List.length_cons, List.length_cons] at cut
      rw [List.length_take]
      omega
    refine ⟨.mpiCut (octets n).length ((octets n).take size).length, ?_, rfl⟩
    rw [List.take_succ_cons, List.take_succ_cons, read]
    rw [count, if_pos short]

/-! ## One after another -/

/-- So many numbers, each where the one in front of it ends, and where the last of them ends. -/
def readAllAt (data : Bytes) : (count offset : Nat) → Except Failure (List Bytes × Nat)
  | 0, offset => .ok ([], offset)
  | count + 1, offset => do
    let (octets, stop) ← readAt data offset
    let (others, stop) ← readAllAt data count stop
    return (octets :: others, stop)

theorem readAt_written {n : Nat} (few : bitLength n < 2 ^ 16) (before after : Bytes) :
    readAt (before ++ written n ++ after) before.length =
      .ok (octets n, (before ++ written n).length) := by
  have stop : (before ++ written n ++ after).length - after.length =
      (before ++ written n).length := by
    rw [List.length_append, Nat.add_sub_cancel]
  rw [readAt, List.append_assoc, List.drop_left, read_written_append few, ← List.append_assoc]
  exact congrArg (fun stop => Except.ok (octets n, stop)) stop

/-- Numbers are read in order, and what follows them is left. -/
theorem readAllAt_flatMap_written {ns : List Nat} (few : ∀ n ∈ ns, bitLength n < 2 ^ 16)
    (before after : Bytes) :
    readAllAt (before ++ ns.flatMap written ++ after) ns.length before.length =
      .ok (ns.map octets, (before ++ ns.flatMap written).length) := by
  induction ns generalizing before with
  | nil => rw [List.flatMap_nil, List.append_nil]; rfl
  | cons n ns ih =>
    obtain ⟨first, others⟩ := List.forall_mem_cons.1 few
    have layout : before ++ (n :: ns).flatMap written =
        before ++ written n ++ ns.flatMap written := by
      rw [List.flatMap_cons, List.append_assoc]
    have here := readAt_written first before (ns.flatMap written ++ after)
    rw [← List.append_assoc] at here
    rw [layout, List.length_cons, readAllAt, here]
    simp only [bind, Except.bind, ih others]
    rfl

theorem exists_readAt_take_written {n : Nat} (few : bitLength n < 2 ^ 16) {size : Nat}
    (cut : size < (written n).length) (before : Bytes) :
    ∃ f, readAt (before ++ (written n).take size) before.length = .error f ∧
      f.kind = .own .pgpFormat := by
  obtain ⟨f, refused, kind⟩ := exists_read_take_written few cut
  refine ⟨f, ?_, kind⟩
  rw [readAt, List.drop_left, refused]
  rfl

/-- Numbers that are written one after another are read one after another, wherever they stand, as
their least octets.  Where the last of them is cut, all are read but that. -/
theorem readAllAt_written {ns : List Nat} (few : ∀ n ∈ ns, n < 2 ^ 65535) (before after : Bytes) :
    ∃ pieces, ns.mapM (fun n : Nat => write n) = .ok pieces ∧
      readAllAt (before ++ pieces.flatten ++ after) ns.length before.length =
        .ok (ns.map octets, (before ++ pieces.flatten).length) ∧
      (∀ n ∈ ns, ∀ bytes, bytes = octets n ↔ Bytes.toNat bytes = n ∧ bytes.head? ≠ some 0) ∧
      ∀ front last, pieces = front ++ [last] → ∀ size < last.length,
        readAllAt (before ++ front.flatten ++ last.take size) front.length before.length =
          .ok (ns.dropLast.map octets, (before ++ front.flatten).length) ∧
        ∃ f, readAt (before ++ front.flatten ++ last.take size) (before ++ front.flatten).length =
            .error f ∧
          f.kind = .own .pgpFormat := by
  have few' : ∀ n ∈ ns, bitLength n < 2 ^ 16 := fun n hn =>
    (bitLength_le (few n hn)).trans_lt (by decide)
  refine ⟨ns.map written, mapM_write few, ?_, fun n _ bytes => eq_octets_iff, ?_⟩
  · rw [← List.flatMap_def]
    exact readAllAt_flatMap_written few' before after
  · intro front last layout size cut
    obtain ⟨ms, ends, rfl, rfl, single⟩ := List.map_eq_append_iff.1 layout
    obtain ⟨m, rfl, rfl⟩ := List.map_eq_singleton_iff.1 single
    have others : ∀ n ∈ ms, bitLength n < 2 ^ 16 := fun n hn =>
      few' n (List.mem_append_left _ hn)
    rw [← List.flatMap_def, List.length_map, List.dropLast_concat]
    exact ⟨readAllAt_flatMap_written others before _,
      exists_readAt_take_written (few' m (by simp)) cut _⟩

/-- Zero has no octets, and 511 has two of them, with nine bits. -/
theorem readAllAt_zero_and_511 :
    (∀ n ∈ [0, 511], n < 2 ^ 65535) ∧
      ∃ pieces, [0, 511].mapM (fun n : Nat => write n) = .ok pieces ∧
        pieces = [[0, 0], [0, 9, 1, 255]] ∧
        readAllAt ([7] ++ pieces.flatten ++ [0, 9]) 2 1 = .ok ([[], [1, 255]], 7) ∧
        ∃ f, readAt ([7] ++ [0, 0] ++ [0, 9, 1]) 3 = .error f ∧ f.kind = .own .pgpFormat := by
  have few : ∀ n ∈ [0, 511], n < 2 ^ 65535 := by
    intro n hn
    have small : n < 2 ^ 9 := by
      revert n
      decide
    have wide : ∀ bits, 9 ≤ bits → n < 2 ^ bits := fun bits h =>
      small.trans_le (Nat.pow_le_pow_right (by decide) h)
    exact wide 65535 (by decide)
  obtain ⟨pieces, done, whole, -, cut⟩ := readAllAt_written few [7] [0, 9]
  obtain rfl : pieces = [[0, 0], [0, 9, 1, 255]] := Except.ok.inj (done.symm.trans rfl)
  exact ⟨few, _, done, rfl, whole, (cut [[0, 0]] [0, 9, 1, 255] rfl 3 (by decide)).2⟩

end Cryptogram.Mpi
