import Cryptogram.Proofs.OpenPgp.PacketGrammar

/-!
# Reading packet streams

Each reader either finds the form that the grammar gives or fails with a failure of the class
`pgpFormat`: `readExtent_cases`, `takePart_cases`, `readParts_cases`, `readOld_cases` and
`readOne_cases`.  On octets of that form it returns what they denote.  Together this gives
`read_eq_ok_iff_derivation`.
-/

namespace Cryptogram.Packet

/-- The failure says that the stream is malformed. -/
def Malformed (f : Failure) : Prop := f.kind = .own .pgpFormat

/-! ## Length octets and parts -/

theorem LastLength.toNat_five (a b c d : UInt8) :
    Bytes.toNat [a, b, c, d] = (LastLength.five a b c d).size := by
  simp only [Bytes.toNat, List.foldl, LastLength.size]
  ring

theorem readExtent_last (offset : Nat) (x : LastLength) (rest : Bytes) :
    readExtent offset (x.octets ++ rest) = .ok (⟨x.size, false, x.octets.length⟩, rest) := by
  cases x with
  | one o small => simp [readExtent, LastLength.octets, LastLength.size, small]
  | two o y least most =>
    have : ¬ o.toNat < 192 := by omega
    simp [readExtent, LastLength.octets, LastLength.size, this, most]
  | five a b c d => simp [readExtent, LastLength.octets, LastLength.toNat_five]

theorem readExtent_inner (offset : Nat) {o : UInt8} (least : 224 ≤ o.toNat) (most : o.toNat ≤ 254)
    (rest : Bytes) : readExtent offset (o :: rest) = .ok (⟨2 ^ (o.toNat % 32), true, 1⟩, rest) := by
  have h : ¬ o.toNat < 192 := by omega
  have h' : ¬ o.toNat < 224 := by omega
  have h'' : o.toNat ≠ 255 := by omega
  simp only [readExtent, if_neg h, if_neg h', if_neg h'', Nat.one_shiftLeft]

theorem readExtent_cases (offset : Nat) (data : Bytes) :
    (∃ (x : LastLength) (rest : Bytes), data = x.octets ++ rest) ∨
      (∃ (o : UInt8) (rest : Bytes), 224 ≤ o.toNat ∧ o.toNat ≤ 254 ∧ data = o :: rest) ∨
        ∃ f, readExtent offset data = .error f ∧ Malformed f := by
  rcases data with _ | ⟨o, rest⟩
  · exact .inr (.inr ⟨_, rfl, rfl⟩)
  have range := o.toNat_lt
  by_cases small : o.toNat < 192
  · exact .inl ⟨.one o small, rest, rfl⟩
  by_cases most : o.toNat < 224
  · rcases rest with _ | ⟨y, rest⟩
    · refine .inr (.inr ⟨.twoOctetLengthCut offset, ?_, rfl⟩)
      simp only [readExtent, if_neg small, if_pos most]
    · exact .inl ⟨.two o y (by omega) most, rest, rfl⟩
  by_cases full : o.toNat = 255
  · obtain rfl : o = 0xff := UInt8.toNat_inj.1 full
    rcases rest with _ | ⟨a, _ | ⟨b, _ | ⟨c, _ | ⟨d, rest⟩⟩⟩⟩
    · exact .inr (.inr ⟨_, rfl, rfl⟩)
    · exact .inr (.inr ⟨_, rfl, rfl⟩)
    · exact .inr (.inr ⟨_, rfl, rfl⟩)
    · exact .inr (.inr ⟨_, rfl, rfl⟩)
    · exact .inl ⟨.five a b c d, rest, rfl⟩
  · exact .inr (.inl ⟨o, rest, by omega, by omega, rfl⟩)

theorem takePart_append (offset : Nat) {size : Nat} {part : Bytes} (h : part.length = size)
    (rest : Bytes) : takePart offset size (part ++ rest) = .ok (part, rest) := by
  subst h
  simp [takePart]

theorem takePart_cases (offset size : Nat) (data : Bytes) :
    (∃ part rest : Bytes, part.length = size ∧ data = part ++ rest) ∨
      ∃ f, takePart offset size data = .error f ∧ Malformed f := by
  by_cases h : size ≤ data.length
  · exact .inl ⟨data.take size, data.drop size, List.length_take_of_le h,
      (List.take_append_drop size data).symm⟩
  · refine .inr ⟨.bodyCut size (data.take size).length offset, ?_, rfl⟩
    rw [takePart, if_neg]
    rw [List.length_take]
    omega

/-! ## Bodies of the new format -/

theorem readParts_last (fuel offset : Nat) (last : LastPart) (rest : Bytes) :
    readParts (fuel + 1) offset (last.octets ++ rest) =
      .ok ⟨last.data, offset + last.octets.length, rest⟩ := by
  have extent := readExtent_last offset last.length (last.data ++ rest)
  have part := takePart_append (offset + last.length.octets.length) last.length_data rest
  rw [LastPart.octets, List.append_assoc, readParts, extent]
  simp only [bind, Except.bind, pure, Except.pure, part, Bool.false_eq_true, if_false]
  rw [List.length_append, last.length_data, Nat.add_assoc]

theorem readParts_inner (fuel offset : Nat) (p : InnerPart) (rest : Bytes) :
    readParts (fuel + 1) offset (p.octets ++ rest) =
      (readParts fuel (offset + p.octets.length) rest).map fun more =>
        { more with body := p.data ++ more.body } := by
  have extent := readExtent_inner offset p.least p.most (p.data ++ rest)
  have part := takePart_append (offset + 1) p.length_data rest
  have width : offset + p.octets.length = offset + 1 + 2 ^ (p.octet.toNat % 32) := by
    rw [← p.length_data, InnerPart.octets, List.length_cons]
    omega
  rw [width, InnerPart.octets, List.cons_append, readParts, extent]
  simp only [bind, Except.bind, pure, Except.pure, part, if_true]
  cases readParts fuel (offset + 1 + 2 ^ (p.octet.toNat % 32)) rest <;> rfl

theorem readParts_octets {inner : List InnerPart} {fuel : Nat} (h : inner.length < fuel)
    (offset : Nat) (last : LastPart) (rest : Bytes) :
    readParts fuel offset (inner.flatMap InnerPart.octets ++ (last.octets ++ rest)) =
      .ok ⟨inner.flatMap InnerPart.data ++ last.data,
        offset + (inner.flatMap InnerPart.octets ++ last.octets).length, rest⟩ := by
  induction inner generalizing fuel offset with
  | nil =>
    obtain ⟨fuel, rfl⟩ : ∃ n, fuel = n + 1 := ⟨fuel - 1, by omega⟩
    exact readParts_last fuel offset last rest
  | cons p inner ih =>
    obtain ⟨fuel, rfl⟩ : ∃ n, fuel = n + 1 := ⟨fuel - 1, by omega⟩
    rw [List.flatMap_cons, List.append_assoc, readParts_inner, ih (by simpa using h)]
    simp [Except.map, Nat.add_assoc]

theorem readParts_cases {fuel : Nat} {data : Bytes} (h : data.length < fuel) (offset : Nat) :
    (∃ (inner : List InnerPart) (last : LastPart) (rest : Bytes), inner.length < fuel ∧
      data = inner.flatMap InnerPart.octets ++ (last.octets ++ rest)) ∨
      ∃ f, readParts fuel offset data = .error f ∧ Malformed f := by
  induction fuel generalizing data offset with
  | zero => omega
  | succ fuel ih =>
    rcases readExtent_cases offset data with ⟨x, after, rfl⟩ | ⟨o, after, least, most, rfl⟩ | ⟨f, e, hf⟩
    · rcases takePart_cases (offset + x.octets.length) x.size after with ⟨part, rest, hp, rfl⟩ | ⟨f, e, hf⟩
      · refine .inl ⟨[], ⟨x, part, hp⟩, rest, Nat.succ_pos _, ?_⟩
        simp [LastPart.octets]
      · refine .inr ⟨f, ?_, hf⟩
        rw [readParts, readExtent_last]
        simp only [bind, Except.bind, e]
    · rcases takePart_cases (offset + 1) (2 ^ (o.toNat % 32)) after with ⟨part, rest, hp, rfl⟩ | ⟨f, e, hf⟩
      · let p : InnerPart := ⟨o, part, least, most, hp⟩
        have split : o :: (part ++ rest) = p.octets ++ rest := rfl
        have shorter : rest.length < fuel := by
          simp only [List.length_cons, List.length_append] at h
          omega
        rcases ih shorter (offset + p.octets.length) with ⟨inner, last, rest', hi, rfl⟩ | ⟨f, e, hf⟩
        · refine .inl ⟨p :: inner, last, rest', by simpa using hi, ?_⟩
          rw [split, List.flatMap_cons, List.append_assoc]
        · refine .inr ⟨f, ?_, hf⟩
          rw [split, readParts_inner, e]
          rfl
      · refine .inr ⟨f, ?_, hf⟩
        rw [readParts, readExtent_inner offset least most]
        simp only [bind, Except.bind, e]
    · refine .inr ⟨f, ?_, hf⟩
      rw [readParts, e]
      rfl

/-! ## Bodies of the old format -/

theorem OldLength.length_octets (x : OldLength) : x.octets.length = 2 ^ x.type.val := by
  cases x <;> rfl

theorem OldLength.toNat_octets (x : OldLength) : Bytes.toNat x.octets = x.size := by
  cases x <;> simp only [OldLength.octets, OldLength.size, Bytes.toNat, List.foldl] <;> ring

theorem OldLength.exists_octets {type : Fin 4} (ht : type ≠ 3) {octets : Bytes}
    (h : octets.length = 2 ^ type.val) : ∃ x : OldLength, x.type = type ∧ x.octets = octets := by
  match type, octets with
  | 0, [a] => exact ⟨.one a, rfl, rfl⟩
  | 1, [a, b] => exact ⟨.two a b, rfl, rfl⟩
  | 2, [a, b, c, d] => exact ⟨.four a b c d, rfl, rfl⟩
  | 3, _ => exact absurd rfl ht

theorem readOld_octets (offset : Nat) (x : OldLength) {data : Bytes} (h : data.length = x.size)
    (rest : Bytes) : readOld x.type offset (x.octets ++ (data ++ rest)) =
      .ok ⟨data, offset + (x.octets ++ data).length, rest⟩ := by
  have type : ¬ x.type.val = 3 := fun e => x.type_ne_three (Fin.ext e)
  have part := takePart_append (offset + 2 ^ x.type.val) h rest
  rw [readOld, if_neg type]
  simp only [Nat.one_shiftLeft, List.take_left' x.length_octets, List.drop_left' x.length_octets, x.length_octets,
    Nat.lt_irrefl, if_false, x.toNat_octets, part, bind, Except.bind, pure, Except.pure]
  rw [List.length_append, x.length_octets, h, Nat.add_assoc]

theorem readOld_rest (offset : Nat) (data : Bytes) :
    readOld 3 offset data = .ok ⟨data, offset + data.length, []⟩ := rfl

theorem readOld_cases {type : Fin 4} (ht : type ≠ 3) (offset : Nat) (data : Bytes) :
    (∃ (x : OldLength) (body rest : Bytes), x.type = type ∧ body.length = x.size ∧
      data = x.octets ++ (body ++ rest)) ∨ ∃ f, readOld type offset data = .error f ∧ Malformed f := by
  have hv : ¬ type.val = 3 := fun e => ht (Fin.ext e)
  by_cases h : data.length < 2 ^ type.val
  · refine .inr ⟨.oldLengthCut offset, ?_, rfl⟩
    rw [readOld, if_neg hv, Nat.one_shiftLeft]
    dsimp only
    rw [if_pos]
    rw [List.length_take]
    omega
  · have width : (data.take (2 ^ type.val)).length = 2 ^ type.val := List.length_take_of_le (by omega)
    obtain ⟨x, rfl, octets⟩ := OldLength.exists_octets ht width
    obtain ⟨after, rfl⟩ : ∃ after, data = x.octets ++ after :=
      ⟨data.drop _, by rw [octets, List.take_append_drop]⟩
    rcases takePart_cases (offset + 2 ^ x.type.val) x.size after with ⟨body, rest, hb, rfl⟩ | ⟨f, e, hf⟩
    · exact .inl ⟨x, body, rest, rfl, hb, rfl⟩
    · refine .inr ⟨f, ?_, hf⟩
      rw [readOld, if_neg hv]
      simp only [Nat.one_shiftLeft, List.take_left' x.length_octets, List.drop_left' x.length_octets, x.length_octets,
        Nat.lt_irrefl, if_false, x.toNat_octets, e, bind, Except.bind]

/-! ## Packets -/

theorem readOne_new (fuel offset : Nat) (tag : Fin 64) (data : Bytes) :
    readOne fuel offset (newHead tag) data =
      (readParts fuel (offset + 1) data).map fun reach => (tag.val, reach) := by
  have number : (192 + tag.val) % 64 = tag.val := by omega
  rw [readOne, toNat_newHead, if_pos (by omega), number]

theorem readOne_old (fuel offset : Nat) (tag : Fin 16) (type : Fin 4) (data : Bytes) :
    readOne fuel offset (oldHead tag type) data =
      (readOld type (offset + 1) data).map fun reach => (tag.val, reach) := by
  have number : (128 + 4 * tag.val + type.val) % 64 / 4 = tag.val := by omega
  have low : (128 + 4 * tag.val + type.val) % 4 = type.val := by omega
  rw [readOne, toNat_oldHead, if_neg (by omega), if_pos (by omega), number, low]

theorem length_inner_le (inner : List InnerPart) :
    inner.length ≤ (inner.flatMap InnerPart.octets).length := by
  induction inner with
  | nil => exact le_rfl
  | cons p inner ih =>
    simp only [List.flatMap_cons, List.length_cons, List.length_append, InnerPart.octets]
    omega

theorem readWithin_sized (p : Sized) {fuel : Nat} (h : p.octets.length ≤ fuel + 1) (offset : Nat)
    (rest : Bytes) : readWithin (fuel + 1) offset (p.octets ++ rest) =
      (readWithin fuel (offset + p.octets.length) rest).map (p.packet :: ·) := by
  cases p with
  | new tag inner last =>
    have few : inner.length < fuel + 1 := by
      have := length_inner_le inner
      simp only [Sized.octets, List.length_cons, List.length_append] at h
      omega
    have parts := readParts_octets few (offset + 1) last rest
    rw [Sized.octets, List.cons_append, List.append_assoc, readWithin, readOne_new, parts]
    simp only [Sized.packet, bind, Except.bind, Except.map, pure, Except.pure, List.length_cons]
    rw [Nat.add_right_comm, ← Nat.add_assoc]
  | old tag length data hd =>
    have body := readOld_octets (offset + 1) length hd rest
    rw [Sized.octets, List.cons_append, List.append_assoc, readWithin, readOne_old, body]
    simp only [Sized.packet, bind, Except.bind, Except.map, pure, Except.pure, List.length_cons]
    rw [Nat.add_right_comm, ← Nat.add_assoc]

theorem readWithin_nil (fuel offset : Nat) : readWithin fuel offset [] = .ok [] := by
  cases fuel <;> rfl

theorem readWithin_unsized (p : Unsized) (fuel offset : Nat) :
    readWithin (fuel + 1) offset (oldHead p.tag 3 :: p.body) = .ok [⟨p.tag, p.body⟩] := by
  rw [readWithin, readOne_old, show readOld (3 : Fin 4).val = readOld 3 from rfl, readOld_rest]
  simp only [bind, Except.bind, Except.map, pure, Except.pure, readWithin_nil]

theorem Sized.octets_ne_nil (p : Sized) : p.octets ≠ [] := by
  cases p <;> exact List.cons_ne_nil _ _

/-- Reading a stream that has a derivation gives the packets of the derivation. -/
theorem readWithin_octets (d : Derivation) {fuel : Nat} (h : d.octets.length ≤ fuel)
    (offset : Nat) : readWithin fuel offset d.octets = .ok d.packets := by
  obtain ⟨sized, unsized⟩ := d
  simp only [Derivation.octets, Derivation.packets] at h ⊢
  induction sized generalizing fuel offset with
  | nil =>
    rcases unsized with _ | p
    · exact readWithin_nil fuel offset
    · obtain ⟨fuel, rfl⟩ : ∃ n, fuel = n + 1 := ⟨fuel - 1, by
        simp only [Unsized.octets, List.flatMap_nil, List.nil_append, List.length_cons] at h
        omega⟩
      exact readWithin_unsized p fuel offset
  | cons p sized ih =>
    have pos := List.length_pos_iff.2 p.octets_ne_nil
    rw [List.flatMap_cons, List.append_assoc, List.length_append] at h
    obtain ⟨fuel, rfl⟩ : ∃ n, fuel = n + 1 := ⟨fuel - 1, by omega⟩
    rw [List.flatMap_cons, List.append_assoc, readWithin_sized p (by omega), ih _ (by omega)]
    rfl

theorem readWithin_head_error {fuel offset : Nat} {first : UInt8} {data : Bytes} {f : Failure}
    (e : readOne (fuel + 1) offset first data = .error f) :
    readWithin (fuel + 1) offset (first :: data) = .error f := by
  rw [readWithin, e]
  rfl

/-- The first packet of a stream, or the failure to find one. -/
theorem readOne_cases {fuel : Nat} {data : Bytes} (h : data.length < fuel) (offset : Nat)
    (first : UInt8) :
    (∃ (p : Sized) (rest : Bytes), first :: data = p.octets ++ rest) ∨
      (∃ p : Unsized, first :: data = Unsized.octets (some p)) ∨
        ∃ f, readOne fuel offset first data = .error f ∧ Malformed f := by
  by_cases new : 192 ≤ first.toNat
  · obtain ⟨tag, rfl⟩ : ∃ tag, first = newHead tag := ⟨_, eq_newHead new⟩
    rcases readParts_cases h (offset + 1) with ⟨inner, last, rest, -, rfl⟩ | ⟨f, e, hf⟩
    · refine .inl ⟨.new tag inner last, rest, ?_⟩
      rw [Sized.octets, List.cons_append, List.append_assoc]
    · refine .inr (.inr ⟨f, ?_, hf⟩)
      rw [readOne_new, e]
      rfl
  by_cases old : 128 ≤ first.toNat
  · obtain ⟨tag, type, rfl⟩ : ∃ tag type, first = oldHead tag type :=
      ⟨_, _, eq_oldHead old (by omega) ⟨first.toNat % 4, by omega⟩ rfl⟩
    by_cases ht : type = 3
    · subst ht
      exact .inr (.inl ⟨⟨tag, data⟩, rfl⟩)
    · rcases readOld_cases ht (offset + 1) data with ⟨x, body, rest, rfl, hb, rfl⟩ | ⟨f, e, hf⟩
      · refine .inl ⟨.old tag x body hb, rest, ?_⟩
        rw [Sized.octets, List.cons_append, List.append_assoc]
      · refine .inr (.inr ⟨f, ?_, hf⟩)
        rw [readOne_old, e]
        rfl
  · refine .inr (.inr ⟨.packetHeader first offset, ?_, rfl⟩)
    rw [readOne, if_neg new, if_neg old]

theorem readWithin_cases {fuel : Nat} {data : Bytes} (h : data.length ≤ fuel) (offset : Nat) :
    (∃ d : Derivation, d.octets = data) ∨
      ∃ f, readWithin fuel offset data = .error f ∧ Malformed f := by
  induction fuel generalizing data offset with
  | zero =>
    obtain rfl : data = [] := List.length_eq_zero_iff.1 (by omega)
    exact .inl ⟨⟨[], none⟩, rfl⟩
  | succ fuel ih =>
    rcases data with _ | ⟨first, data⟩
    · exact .inl ⟨⟨[], none⟩, rfl⟩
    rw [List.length_cons] at h
    have room : data.length < fuel + 1 := by omega
    rcases readOne_cases room offset first with
      ⟨p, rest, split⟩ | ⟨p, split⟩ | ⟨f, e, hf⟩
    · have pos := List.length_pos_iff.2 p.octets_ne_nil
      have total := congrArg List.length split
      rw [List.length_cons, List.length_append] at total
      have shorter : rest.length ≤ fuel := by omega
      rcases ih shorter (offset + p.octets.length) with ⟨d, rfl⟩ | ⟨f, e, hf⟩
      · refine .inl ⟨⟨p :: d.sized, d.unsized⟩, ?_⟩
        rw [split, Derivation.octets, Derivation.octets, List.flatMap_cons, List.append_assoc]
      · refine .inr ⟨f, ?_, hf⟩
        rw [split, readWithin_sized p (by omega), e]
        rfl
    · exact .inl ⟨⟨[], some p⟩, split.symm⟩
    · exact .inr ⟨f, readWithin_head_error e, hf⟩

/-! ## The fuel -/

theorem readParts_eq {fuel fuel' : Nat} {data : Bytes} (h : data.length < fuel)
    (h' : data.length < fuel') (offset : Nat) :
    readParts fuel offset data = readParts fuel' offset data := by
  induction fuel generalizing fuel' data offset with
  | zero => omega
  | succ fuel ih =>
    obtain ⟨fuel', rfl⟩ : ∃ n, fuel' = n + 1 := ⟨fuel' - 1, by omega⟩
    rcases readExtent_cases offset data with ⟨x, after, rfl⟩ | ⟨o, after, least, most, rfl⟩ | ⟨f, e, -⟩
    · rw [readParts, readParts, readExtent_last]
      simp only [bind, Except.bind, Bool.false_eq_true, if_false]
    · rcases takePart_cases (offset + 1) (2 ^ (o.toNat % 32)) after with ⟨part, rest, hp, rfl⟩ | ⟨f, e, -⟩
      · let p : InnerPart := ⟨o, part, least, most, hp⟩
        have split : o :: (part ++ rest) = p.octets ++ rest := rfl
        simp only [List.length_cons, List.length_append] at h h'
        have shorter : rest.length < fuel := by omega
        have shorter' : rest.length < fuel' := by omega
        rw [split, readParts_inner, readParts_inner, ih shorter shorter']
      · rw [readParts, readParts, readExtent_inner offset least most]
        simp only [bind, Except.bind, e]
    · rw [readParts, readParts, e]
      rfl

theorem readOne_eq {fuel fuel' : Nat} {data : Bytes} (h : data.length < fuel)
    (h' : data.length < fuel') (offset : Nat) (first : UInt8) :
    readOne fuel offset first data = readOne fuel' offset first data := by
  rw [readOne, readOne, readParts_eq h h']

/-- The fuel makes no difference once it is as large as the stream. -/
theorem readWithin_eq {fuel fuel' : Nat} {data : Bytes} (h : data.length ≤ fuel)
    (h' : data.length ≤ fuel') (offset : Nat) :
    readWithin fuel offset data = readWithin fuel' offset data := by
  induction fuel generalizing fuel' data offset with
  | zero =>
    obtain rfl : data = [] := List.length_eq_zero_iff.1 (by omega)
    rw [readWithin_nil, readWithin_nil]
  | succ fuel ih =>
    rcases data with _ | ⟨first, data⟩
    · rw [readWithin_nil, readWithin_nil]
    rw [List.length_cons] at h h'
    obtain ⟨fuel', rfl⟩ : ∃ n, fuel' = n + 1 := ⟨fuel' - 1, by omega⟩
    have room : data.length < fuel + 1 := by omega
    rcases readOne_cases room offset first with
      ⟨p, rest, split⟩ | ⟨p, split⟩ | ⟨f, e, -⟩
    · have pos := List.length_pos_iff.2 p.octets_ne_nil
      have total := congrArg List.length split
      rw [List.length_cons, List.length_append] at total
      have shorter : rest.length ≤ fuel := by omega
      have shorter' : rest.length ≤ fuel' := by omega
      rw [split, readWithin_sized p (by omega), readWithin_sized p (by omega), ih shorter shorter']
    · rw [split, Unsized.octets, readWithin_unsized, readWithin_unsized]
    · rw [readWithin_head_error e, readWithin_head_error]
      have room' : data.length < fuel' + 1 := by omega
      rw [readOne_eq room' room, e]

/-! ## The grammar -/

/-- The reader accepts exactly the streams of the grammar: what it returns are the packets of the
one derivation of the stream, it fails with the class `pgpFormat` on every other stream, and it
never comes to the end of its fuel. -/
theorem read_eq_ok_iff_derivation (data : Bytes) :
    (∀ packets, read data = .ok packets ↔
      ∃ d : Derivation, d.octets = data ∧ d.packets = packets) ∧
    (∀ d d' : Derivation, d.octets = data → d'.octets = data → d = d') ∧
    ((¬ ∃ d : Derivation, d.octets = data) →
      ∃ f, read data = .error f ∧ f.kind = .own .pgpFormat) ∧
    ∀ fuel, data.length ≤ fuel → readWithin fuel 0 data = read data := by
  have accepted (d : Derivation) (h : d.octets = data) : read data = .ok d.packets := by
    subst h
    exact readWithin_octets d le_rfl 0
  have verdict := readWithin_cases (Nat.le_refl data.length) 0
  refine ⟨fun packets => ⟨fun ok => ?_, ?_⟩, ?_, ?_, fun fuel h => readWithin_eq h le_rfl 0⟩
  · rcases verdict with ⟨d, h⟩ | ⟨f, e, -⟩
    · rw [accepted d h, Except.ok.injEq] at ok
      exact ⟨d, h, ok⟩
    · rw [read, e] at ok
      cases ok
  · rintro ⟨d, h, rfl⟩
    exact accepted d h
  · intro d d' h h'
    exact Derivation.octets_injective (h.trans h'.symm)
  · intro none
    exact verdict.resolve_left none

end Cryptogram.Packet
