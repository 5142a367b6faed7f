import Cryptogram.Proofs.OpenPgp.PacketReading

/-!
# Written packets

A packet that is written has a header of the new format and a single part, so a stream of written
packets has a derivation and is read as these packets (`read_flatMap_encode`).
-/

namespace Cryptogram.Packet

/-- The sizes that a header of the new format has room for. -/
structure Writable (p : Packet) : Prop where
  tag : p.tag < 64
  size : p.body.length < 2 ^ 32

theorem toNat_toUInt8_mod (n : Nat) : n.toUInt8.toNat = n % 256 := by
  simp only [Nat.toUInt8, UInt8.toNat_ofNat']

theorem eq_four {octets : Bytes} (h : octets.length = 4) : ∃ a b c d, octets = [a, b, c, d] := by
  match octets with
  | [a, b, c, d] => exact ⟨a, b, c, d, rfl⟩

/-- The length octets of a size denote it. -/
theorem exists_lastLength {size : Nat} (h : size < 2 ^ 32) :
    ∃ x : LastLength, x.octets = lengthOctets size ∧ x.size = size := by
  unfold lengthOctets
  split_ifs with one two
  · have octet := toNat_toUInt8_mod size
    refine ⟨.one size.toUInt8 (by omega), rfl, ?_⟩
    rw [LastLength.size]
    omega
  · have high := toNat_toUInt8_mod ((size - 192) / 256 + 192)
    have low := toNat_toUInt8_mod (size - 192)
    refine ⟨.two _ (size - 192).toUInt8 (by rw [high]; omega) (by rw [high]; omega), rfl, ?_⟩
    rw [LastLength.size]
    omega
  · have room : size < 256 ^ 4 := by omega
    have denoted : Bytes.toNat (Bytes.ofNat 4 size) = size := Bytes.toNat_ofNat_of_lt room
    obtain ⟨a, b, c, d, octets⟩ := eq_four (Bytes.length_ofNat 4 size)
    rw [octets] at denoted ⊢
    exact ⟨.five a b c d, rfl, (LastLength.toNat_five a b c d).symm.trans denoted⟩

theorem exists_sized {p : Packet} (h : p.Writable) :
    ∃ s : Sized, s.octets = encode p ∧ s.packet = p := by
  obtain ⟨length, octets, size⟩ := exists_lastLength h.size
  refine ⟨.new ⟨p.tag, h.tag⟩ [] ⟨length, p.body, size.symm⟩, ?_, rfl⟩
  rw [Sized.octets, LastPart.octets, octets]
  rfl

theorem exists_derivation {ps : List Packet} (h : ∀ p ∈ ps, p.Writable) :
    ∃ d : Derivation, d.octets = ps.flatMap encode ∧ d.packets = ps := by
  induction ps with
  | nil => exact ⟨⟨[], none⟩, rfl, rfl⟩
  | cons p ps ih =>
    obtain ⟨first, others⟩ := List.forall_mem_cons.1 h
    obtain ⟨s, octets, packet⟩ := exists_sized first
    obtain ⟨⟨sized, unsized⟩, octets', packets'⟩ := ih others
    rw [Derivation.octets] at octets'
    rw [Derivation.packets] at packets'
    refine ⟨⟨s :: sized, unsized⟩, ?_, ?_⟩
    · rw [Derivation.octets, List.flatMap_cons, List.append_assoc, octets, octets', List.flatMap_cons]
    · rw [Derivation.packets, List.map_cons, List.cons_append, packet, packets']

/-- A stream of written packets is read as these packets. -/
theorem read_flatMap_encode {ps : List Packet} (h : ∀ p ∈ ps, p.Writable) :
    read (ps.flatMap encode) = .ok ps := by
  obtain ⟨d, octets, packets⟩ := exists_derivation h
  rw [← octets, read, readWithin_octets d le_rfl, packets]

theorem read_encode {p : Packet} (h : p.Writable) : read (encode p) = .ok [p] := by
  have := read_flatMap_encode (List.forall_mem_singleton.2 h)
  rwa [List.flatMap_singleton] at this

theorem write_eq {tag : Nat} (ht : tag < 64) {body : Bytes} (hb : body.length < 2 ^ 32) :
    write tag body = .ok (encode ⟨tag, body⟩) := by
  rw [write, if_neg (by omega), if_neg (by omega), Int.toNat_natCast]

/-- The number of octets of a written packet with a body of so many. -/
def writtenSize (size : Nat) : Nat := 1 + (lengthOctets size).length + size

theorem writtenSize_le (size : Nat) : writtenSize size ≤ 6 + size := by
  have few : (lengthOctets size).length ≤ 5 := by
    unfold lengthOctets
    split_ifs <;> simp [Bytes.length_ofNat]
  rw [writtenSize]
  omega

theorem length_encode (p : Packet) : (encode p).length = writtenSize p.body.length := by
  rw [encode, List.length_append, List.length_cons, writtenSize]
  omega

/-- A written packet does not begin like plain text. -/
theorem encode_eq_cons (p : Packet) : ∃ (b : UInt8) (rest : Bytes), encode p = b :: rest ∧ 192 ≤ b.toNat := by
  refine ⟨_, _, rfl, ?_⟩
  rw [UInt8.toNat_or]
  exact Nat.left_le_or

end Cryptogram.Packet
