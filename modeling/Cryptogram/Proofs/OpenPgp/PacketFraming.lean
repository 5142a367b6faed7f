import Cryptogram.Proofs.OpenPgp.PacketWriting

/-!
# Written packets in front of other octets

Where octets stand in a stream shows in failures alone (`toOption_readWithin`), so a packet in front
of other octets is read along with what these are read as (`toOption_read_sized`).

A header of the new format that serves for every body of a size has the length octets of a last part
(`heads_iff`): with another part in front, an octet of the body would stand in the header.  Of these
headers the written one is the shortest (`lengthOctets_size_or_lt`).
-/

namespace Cryptogram.Packet

/-! ## Offsets -/

theorem toOption_readWithin {fuel : Nat} {data : Bytes} (h : data.length ≤ fuel) (offset : Nat) :
    (readWithin fuel offset data).toOption = (read data).toOption := by
  rcases readWithin_cases h offset with ⟨d, rfl⟩ | ⟨f, e, -⟩
  · rw [read, readWithin_octets d h, readWithin_octets d le_rfl]
  rcases readWithin_cases (Nat.le_refl data.length) 0 with ⟨d, rfl⟩ | ⟨f', e', -⟩
  · rw [readWithin_octets d h] at e
    cases e
  · rw [read, e, e']
    rfl

/-- A packet that tells its end is read along with what stands behind it. -/
theorem toOption_read_sized (p : Sized) (rest : Bytes) :
    (read (p.octets ++ rest)).toOption = (read rest).toOption.map (p.packet :: ·) := by
  have pos := List.length_pos_iff.2 p.octets_ne_nil
  have total : (p.octets ++ rest).length = p.octets.length + rest.length := List.length_append
  obtain ⟨fuel, room⟩ : ∃ n, (p.octets ++ rest).length = n + 1 :=
    ⟨p.octets.length + rest.length - 1, by omega⟩
  have enough : rest.length ≤ fuel := by omega
  rw [← toOption_readWithin enough (0 + p.octets.length), read, room,
    readWithin_sized p (by omega)]
  cases readWithin fuel (0 + p.octets.length) rest <;> rfl

/-- Written packets are read in front of the packets of another stream. -/
theorem read_flatMap_encode_append {ps : List Packet} (h : ∀ p ∈ ps, p.Writable) {tail : Bytes}
    {more : List Packet} (rest : read tail = .ok more) :
    read (ps.flatMap encode ++ tail) = .ok (ps ++ more) := by
  induction ps with
  | nil => exact rest
  | cons p ps ih =>
    obtain ⟨first, others⟩ := List.forall_mem_cons.1 h
    obtain ⟨s, octets, packet⟩ := exists_sized first
    have together := toOption_read_sized s (ps.flatMap encode ++ tail)
    rw [octets, packet, ih others, ← List.append_assoc, ← List.flatMap_cons] at together
    cases whole : read ((p :: ps).flatMap encode ++ tail) with
    | error f =>
      rw [whole] at together
      cases together
    | ok qs =>
      rw [whole] at together
      exact congrArg _ (Option.some.inj together)

/-! ## Headers for bodies of a size -/

/-- A header of the new format which makes one packet with the tag of whatever `size` octets stand
behind it. -/
structure Heads (tag size : Nat) (header : Bytes) : Prop where
  newFormat : ∃ first rest, header = first :: rest ∧ 192 ≤ first.toNat
  read_eq : ∀ body : Bytes, body.length = size → read (header ++ body) = .ok [⟨tag, body⟩]

/-- A stream with a first octet of the new format and only one packet is all parts of its body. -/
theorem exists_parts {first : UInt8} {data : Bytes} {p : Packet} (new : 192 ≤ first.toNat)
    (h : read (first :: data) = .ok [p]) :
    ∃ (tag : Fin 64) (inner : List InnerPart) (last : LastPart), first = newHead tag ∧
      data = inner.flatMap InnerPart.octets ++ last.octets ∧
        p = ⟨tag, inner.flatMap InnerPart.data ++ last.data⟩ := by
  have old (tag : Fin 16) (type : Fin 4) : first ≠ oldHead tag type := by
    rintro rfl
    rw [toNat_oldHead] at new
    omega
  rcases readWithin_cases (Nat.le_refl (first :: data).length) 0 with ⟨d, octets⟩ | ⟨f, e, -⟩
  · rw [read, ← octets, readWithin_octets d le_rfl, Except.ok.injEq] at h
    obtain ⟨_ | ⟨s, sized⟩, unsized⟩ := d
    · rcases unsized with _ | u
      · cases octets
      · exact absurd (List.cons_eq_cons.1 octets).1.symm (old _ _)
    obtain ⟨one, none⟩ := List.cons_eq_cons.1 h
    obtain ⟨none, unsized_nil⟩ := List.append_eq_nil_iff.1 none
    obtain rfl : sized = [] := List.map_eq_nil_iff.1 none
    rcases unsized with _ | u
    · rw [Derivation.octets, List.flatMap_singleton, Unsized.octets, List.append_nil] at octets
      cases s with
      | new tag inner last =>
        obtain ⟨rfl, rfl⟩ := List.cons_eq_cons.1 octets
        exact ⟨tag, inner, last, rfl, rfl, one.symm⟩
      | old tag length body hb => exact absurd (List.cons_eq_cons.1 octets).1.symm (old _ _)
    · cases unsized_nil
  · rw [read, e] at h
    cases h

theorem heads_lastLength (tag : Fin 64) (x : LastLength) :
    Heads tag x.size (newHead tag :: x.octets) := by
  refine ⟨⟨_, _, rfl, by rw [toNat_newHead]; omega⟩, fun body h => ?_⟩
  let d : Derivation := ⟨[.new tag [] ⟨x, body, h⟩], none⟩
  have octets : newHead tag :: x.octets ++ body = d.octets := by
    simp [d, Derivation.octets, Sized.octets, LastPart.octets, Unsized.octets]
  rw [octets, read, readWithin_octets d le_rfl]
  rfl

theorem LastLength.length_octets_pos (x : LastLength) : 0 < x.octets.length := by
  cases x <;> exact Nat.succ_pos _

theorem length_data_le (inner : List InnerPart) :
    (inner.flatMap InnerPart.data).length ≤ (inner.flatMap InnerPart.octets).length := by
  induction inner with
  | nil => exact le_rfl
  | cons p inner ih =>
    simp only [List.flatMap_cons, List.length_append, InnerPart.octets, List.length_cons]
    omega

/-- Where a body has more than one part and no octet of it could announce one, it begins behind the
first length octet, within the header. -/
theorem exists_third_octet {q : InnerPart} {header body tail more : Bytes}
    (data : header ++ body = q.octets ++ tail) (made : body = q.data ++ more)
    (shorter : more.length < tail.length) (small : ∀ o ∈ body, o.toNat < 192) :
    ∃ v ∈ body, header[1]? = some v := by
  obtain ⟨v, others, part⟩ : ∃ v others, q.data = v :: others :=
    List.exists_cons_of_length_pos (by rw [q.length_data]; exact Nat.two_pow_pos _)
  rcases header with _ | ⟨o, header⟩
  · -- The body itself would begin with the length octet.
    have first : q.octet ∈ body := by
      rw [List.nil_append] at data
      rw [data]
      exact List.mem_cons_self
    exact absurd (small _ first) (by have := q.least; omega)
  rcases header with _ | ⟨w, header⟩
  · -- All of the body would be parts, and there is less of it than of these.
    have data : body = q.data ++ tail := (List.cons_eq_cons.1 data).2
    rw [made, List.append_cancel_left_eq] at data
    exact absurd (congrArg List.length data) shorter.ne
  · obtain ⟨-, data⟩ := List.cons_eq_cons.1 data
    rw [part] at data made
    obtain ⟨rfl, -⟩ := List.cons_eq_cons.1 data
    exact ⟨w, made ▸ List.mem_cons_self, rfl⟩

/-- In front of a body of equal octets, a header has the length octets of a last part, or the body
begins within it. -/
theorem definite_or_third {tag size : Nat} {first v : UInt8} {rest : Bytes} (small : v.toNat < 192)
    (new : 192 ≤ first.toNat)
    (h : read (first :: rest ++ List.replicate size v) = .ok [⟨tag, List.replicate size v⟩]) :
    (∃ (t : Fin 64) (x : LastLength), t.val = tag ∧ x.size = size ∧
      first :: rest = newHead t :: x.octets) ∨ rest[1]? = some v := by
  obtain ⟨t, inner, last, rfl, data, made⟩ := exists_parts new h
  obtain ⟨rfl, body⟩ := Packet.mk.inj made
  rcases inner with _ | ⟨q, inner⟩
  · rw [List.flatMap_nil, List.nil_append] at data body
    have width := last.length_data
    rw [← body, List.length_replicate] at width
    rw [LastPart.octets, ← body] at data
    exact .inl ⟨t, last.length, rfl, width.symm, congrArg _ (List.append_cancel_right data)⟩
  · rw [List.flatMap_cons, List.append_assoc] at data body
    have shorter : (inner.flatMap InnerPart.data ++ last.data).length <
        (inner.flatMap InnerPart.octets ++ last.octets).length := by
      have least := length_data_le inner
      have pos := last.length.length_octets_pos
      simp only [LastPart.octets, List.length_append]
      omega
    obtain ⟨w, mem, third⟩ := exists_third_octet data body shorter fun o ho => by
      rwa [List.eq_of_mem_replicate ho]
    rw [List.eq_of_mem_replicate mem] at third
    exact .inr third

/-- A header that serves for every body of a size is the tag and length octets of that size. -/
theorem heads_iff {tag size : Nat} {header : Bytes} : Heads tag size header ↔
    ∃ (t : Fin 64) (x : LastLength), t.val = tag ∧ x.size = size ∧
      header = newHead t :: x.octets := by
  constructor
  · rintro ⟨⟨first, rest, rfl, new⟩, read_eq⟩
    -- A body that begins within the header has one first octet only.
    rcases definite_or_third (show (0 : UInt8).toNat < 192 by decide) new
      (read_eq _ List.length_replicate) with definite | zero
    · exact definite
    rcases definite_or_third (show (1 : UInt8).toNat < 192 by decide) new
      (read_eq _ List.length_replicate) with definite | one
    · exact definite
    · rw [zero] at one
      cases one
  · rintro ⟨t, x, rfl, rfl, rfl⟩
    exact heads_lastLength t x

/-! ## The shortest header -/

theorem lengthOctets_size_or_lt (x : LastLength) :
    lengthOctets x.size = x.octets ∨ (lengthOctets x.size).length < x.octets.length := by
  cases x with
  | one o small =>
    left
    rw [LastLength.size, lengthOctets, if_pos small, Bytes.toUInt8_toNat]
    rfl
  | two o y least most =>
    left
    have range := y.toNat_lt
    have high : ((o.toNat - 192) * 256 + y.toNat + 192 - 192) / 256 + 192 = o.toNat := by omega
    have low : ((o.toNat - 192) * 256 + y.toNat + 192 - 192).toUInt8 = y := by
      apply UInt8.toNat_inj.1
      rw [toNat_toUInt8_mod]
      omega
    rw [LastLength.size, lengthOctets, if_neg (by omega), if_pos (by omega), high, low,
      Bytes.toUInt8_toNat]
    rfl
  | five a b c d =>
    unfold lengthOctets
    split_ifs with one two
    · exact .inr (show 1 < 5 by decide)
    · exact .inr (show 2 < 5 by decide)
    · left
      rw [← LastLength.toNat_five]
      exact congrArg (0xff :: ·) (Bytes.ofNat_toNat [a, b, c, d])

/-- A packet in front of other octets is read along with what these are read as, and both together
fail exactly when these do; so written packets are read again.  Of the headers of the new format that
serve for every body of the size, the written one is the shortest. -/
theorem read_encode_append {p : Packet} (h : p.Writable) :
    write p.tag p.body = .ok (encode p) ∧
      (∀ rest, (read (encode p ++ rest)).toOption = (read rest).toOption.map (p :: ·)) ∧
      (∀ ps : List Packet, (∀ q ∈ ps, q.Writable) → read (ps.flatMap encode) = .ok ps) ∧
      ∃ header, encode p = header ++ p.body ∧ Heads p.tag p.body.length header ∧
        ∀ other, Heads p.tag p.body.length other → other = header ∨ header.length < other.length := by
  refine ⟨write_eq h.tag h.size, fun rest => ?_, fun ps hps => read_flatMap_encode hps,
    newHead ⟨p.tag, h.tag⟩ :: lengthOctets p.body.length, rfl, ?_, fun other heads => ?_⟩
  · obtain ⟨s, octets, packet⟩ := exists_sized h
    rw [← octets, toOption_read_sized, packet]
  · obtain ⟨x, octets, size⟩ := exists_lastLength h.size
    exact heads_iff.2 ⟨⟨p.tag, h.tag⟩, x, rfl, size, congrArg _ octets.symm⟩
  · obtain ⟨t, x, tag, size, rfl⟩ := heads_iff.1 heads
    obtain rfl : t = ⟨p.tag, h.tag⟩ := Fin.ext tag
    rw [← size]
    rcases lengthOctets_size_or_lt x with same | shorter
    · exact .inl (congrArg _ same.symm)
    · exact .inr (Nat.succ_lt_succ shorter)

/-- The least size with two length octets, in front of an octet that begins no packet. -/
theorem read_encode_append_two :
    Packet.Writable ⟨18, Bytes.zeros 192⟩ ∧
      write 18 (Bytes.zeros 192) = .ok (0xd2 :: 192 :: 0 :: Bytes.zeros 192) ∧
      (read (0xd2 :: 192 :: 0 :: Bytes.zeros 192 ++ [0x12])).toOption = none ∧
      (read (0xd2 :: 192 :: 0 :: Bytes.zeros 192 ++ [0xd3, 0])).toOption =
        some [⟨18, Bytes.zeros 192⟩, ⟨19, []⟩] := by
  have writable : Packet.Writable ⟨18, Bytes.zeros 192⟩ := by
    refine ⟨by decide, ?_⟩
    rw [Bytes.zeros, List.length_replicate]
    decide
  have octets : encode ⟨18, Bytes.zeros 192⟩ = 0xd2 :: 192 :: 0 :: Bytes.zeros 192 := by
    rw [encode, show (Bytes.zeros 192).length = 192 from List.length_replicate]
    rfl
  obtain ⟨written, together, -⟩ := read_encode_append writable
  rw [octets] at written together
  exact ⟨writable, written, together [0x12], together [0xd3, 0]⟩

end Cryptogram.Packet
