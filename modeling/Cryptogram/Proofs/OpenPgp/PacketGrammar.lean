import Cryptogram.OpenPgp.Packet
import Cryptogram.Proofs.Octets

/-!
# The grammar of packet streams

A derivation says how a stream is put together from headers, length octets and bodies: every octet
of the stream has one place in it.  `Packet.read` accepts exactly the streams that have a derivation
and returns the packets of it; a stream has one derivation at most, and one without any is malformed
(`read_eq_ok_iff_derivation`).
-/

namespace Cryptogram.Packet

/-! ## Derivations -/

/-- The length octets of the last part of a body. -/
inductive LastLength
  | one (o : UInt8) (small : o.toNat < 192)
  | two (o y : UInt8) (least : 192 ≤ o.toNat) (most : o.toNat < 224)
  | five (a b c d : UInt8)

namespace LastLength

/-- The octets themselves. -/
def octets : LastLength → Bytes
  | one o _ => [o]
  | two o y _ _ => [o, y]
  | five a b c d => [0xff, a, b, c, d]

/-- The size that they denote. -/
def size : LastLength → Nat
  | one o _ => o.toNat
  | two o y _ _ => (o.toNat - 192) * 256 + y.toNat + 192
  | five a b c d => a.toNat * 2 ^ 24 + b.toNat * 2 ^ 16 + c.toNat * 2 ^ 8 + d.toNat

end LastLength

/-- A part of a body that another part follows. -/
structure InnerPart where
  /-- The length octet. -/
  octet : UInt8
  data : Bytes
  least : 224 ≤ octet.toNat
  most : octet.toNat ≤ 254
  length_data : data.length = 2 ^ (octet.toNat % 32)

/-- The octets of the part. -/
def InnerPart.octets (p : InnerPart) : Bytes := p.octet :: p.data

/-- The last part of a body. -/
structure LastPart where
  length : LastLength
  data : Bytes
  length_data : data.length = length.size

/-- The octets of the part. -/
def LastPart.octets (p : LastPart) : Bytes := p.length.octets ++ p.data

/-- The length octets of a header of the old format. -/
inductive OldLength
  | one (a : UInt8)
  | two (a b : UInt8)
  | four (a b c d : UInt8)

namespace OldLength

/-- How a header announces the octets. -/
def type : OldLength → Fin 4
  | one _ => 0
  | two _ _ => 1
  | four _ _ _ _ => 2

/-- The octets themselves. -/
def octets : OldLength → Bytes
  | one a => [a]
  | two a b => [a, b]
  | four a b c d => [a, b, c, d]

/-- The size that they denote. -/
def size : OldLength → Nat
  | one a => a.toNat
  | two a b => a.toNat * 2 ^ 8 + b.toNat
  | four a b c d => a.toNat * 2 ^ 24 + b.toNat * 2 ^ 16 + c.toNat * 2 ^ 8 + d.toNat

end OldLength

/-- The first octet of a header of the new format. -/
def newHead (tag : Fin 64) : UInt8 := 0xc0 ||| UInt8.ofNat tag.val

/-- The first octet of a header of the old format. -/
def oldHead (tag : Fin 16) (type : Fin 4) : UInt8 :=
  (0x80 : UInt8) ||| UInt8.ofNat tag.val <<< (2 : UInt8) ||| UInt8.ofNat type.val

/-- A packet whose header tells where its body ends. -/
inductive Sized
  | new (tag : Fin 64) (inner : List InnerPart) (last : LastPart)
  | old (tag : Fin 16) (length : OldLength) (data : Bytes) (length_data : data.length = length.size)

namespace Sized

/-- The octets of the packet. -/
def octets : Sized → Bytes
  | new tag inner last => newHead tag :: (inner.flatMap InnerPart.octets ++ last.octets)
  | old tag length data _ => oldHead tag length.type :: (length.octets ++ data)

/-- The packet with its parts put together. -/
def packet : Sized → Packet
  | new tag inner last => ⟨tag, inner.flatMap InnerPart.data ++ last.data⟩
  | old tag _ data _ => ⟨tag, data⟩

end Sized

/-- A packet whose body runs to the end of the stream. -/
structure Unsized where
  tag : Fin 16
  body : Bytes

namespace Unsized

/-- The octets of the packet, if there is one. -/
def octets : Option Unsized → Bytes
  | none => []
  | some p => oldHead p.tag 3 :: p.body

/-- The packet, if there is one. -/
def packets : Option Unsized → List Packet
  | none => []
  | some p => [⟨p.tag, p.body⟩]

end Unsized

/-- How a stream is put together: only its last packet can run to the end. -/
structure Derivation where
  sized : List Sized
  unsized : Option Unsized

namespace Derivation

/-- The octets of the stream. -/
def octets (d : Derivation) : Bytes := d.sized.flatMap Sized.octets ++ Unsized.octets d.unsized

/-- The packets of the stream. -/
def packets (d : Derivation) : List Packet := d.sized.map Sized.packet ++ Unsized.packets d.unsized

end Derivation

/-! ## First octets -/

theorem toNat_newHead (tag : Fin 64) : (newHead tag).toNat = 192 + tag := by
  revert tag
  decide

theorem toNat_oldHead (tag : Fin 16) (type : Fin 4) :
    (oldHead tag type).toNat = 128 + 4 * tag + type := by
  revert tag type
  decide

theorem eq_newHead {b : UInt8} (h : 192 ≤ b.toNat) :
    b = newHead ⟨b.toNat % 64, Nat.mod_lt _ (by decide)⟩ := by
  have hb := b.toNat_lt
  apply UInt8.toNat_inj.1
  rw [toNat_newHead]
  dsimp only
  omega

theorem eq_oldHead {b : UInt8} (h : 128 ≤ b.toNat) (h' : b.toNat < 192) (type : Fin 4)
    (ht : b.toNat % 4 = type) : b = oldHead ⟨b.toNat % 64 / 4, by omega⟩ type := by
  apply UInt8.toNat_inj.1
  rw [toNat_oldHead]
  dsimp only
  omega

theorem newHead_injective : Function.Injective newHead := by
  intro a b e
  have := congrArg UInt8.toNat e
  rw [toNat_newHead, toNat_newHead] at this
  omega

theorem oldHead_inj {a b : Fin 16} {s t : Fin 4} (e : oldHead a s = oldHead b t) : a = b ∧ s = t := by
  have := congrArg UInt8.toNat e
  rw [toNat_oldHead, toNat_oldHead] at this
  omega

theorem newHead_ne_oldHead (a : Fin 64) (b : Fin 16) (t : Fin 4) : newHead a ≠ oldHead b t := by
  intro e
  have := congrArg UInt8.toNat e
  rw [toNat_newHead, toNat_oldHead] at this
  omega

/-! ## One derivation at most

Length octets tell by their first octet how many they are, and a header tells by its first octet
what follows.  So whatever stands in front of a string, it can be split off in one way only.
-/

theorem LastLength.octets_append_inj {x y : LastLength} {r s : Bytes}
    (e : x.octets ++ r = y.octets ++ s) : x = y ∧ r = s := by
  have ff : (0xff : UInt8).toNat = 255 := rfl
  cases x with
  | one o small =>
    cases y with
    | one o' small' => simpa [octets] using e
    | two o' y' least' most' =>
      obtain ⟨rfl, -⟩ := List.cons_eq_cons.1 e
      omega
    | five a b c d =>
      obtain ⟨rfl, -⟩ := List.cons_eq_cons.1 e
      omega
  | two o z least most =>
    cases y with
    | one o' small' =>
      obtain ⟨rfl, -⟩ := List.cons_eq_cons.1 e
      omega
    | two o' y' least' most' => simpa [octets, and_assoc] using e
    | five a b c d =>
      obtain ⟨rfl, -⟩ := List.cons_eq_cons.1 e
      omega
  | five a b c d =>
    cases y with
    | one o' small' =>
      obtain ⟨rfl, -⟩ := List.cons_eq_cons.1 e
      omega
    | two o' y' least' most' =>
      obtain ⟨rfl, -⟩ := List.cons_eq_cons.1 e
      omega
    | five a' b' c' d' => simpa [octets, and_assoc] using e

theorem LastLength.head_octets (x : LastLength) :
    ∃ o rest, x.octets = o :: rest ∧ (o.toNat < 224 ∨ o.toNat = 255) := by
  cases x with
  | one o small => exact ⟨o, [], rfl, by omega⟩
  | two o y least most => exact ⟨o, [y], rfl, by omega⟩
  | five a b c d => exact ⟨0xff, [a, b, c, d], rfl, .inr rfl⟩

theorem LastPart.octets_append_inj {p q : LastPart} {r s : Bytes}
    (e : p.octets ++ r = q.octets ++ s) : p = q ∧ r = s := by
  obtain ⟨length, data, h⟩ := p
  obtain ⟨length', data', h'⟩ := q
  simp only [LastPart.octets, List.append_assoc] at e
  obtain ⟨rfl, tail⟩ := LastLength.octets_append_inj e
  obtain ⟨rfl, rfl⟩ := List.append_inj tail (h.trans h'.symm)
  exact ⟨rfl, rfl⟩

theorem InnerPart.octets_append_inj {p q : InnerPart} {r s : Bytes}
    (e : p.octets ++ r = q.octets ++ s) : p = q ∧ r = s := by
  obtain ⟨octet, data, least, most, h⟩ := p
  obtain ⟨octet', data', least', most', h'⟩ := q
  obtain ⟨rfl, tail⟩ := List.cons_eq_cons.1 e
  obtain ⟨rfl, rfl⟩ := List.append_inj tail (h.trans h'.symm)
  exact ⟨rfl, rfl⟩

theorem InnerPart.octets_append_ne (p : InnerPart) (q : LastPart) (r s : Bytes) :
    p.octets ++ r ≠ q.octets ++ s := by
  intro e
  obtain ⟨o, rest, head, range⟩ := q.length.head_octets
  rw [LastPart.octets, head] at e
  obtain ⟨rfl, -⟩ := List.cons_eq_cons.1 e
  have := p.least
  have := p.most
  omega

theorem parts_append_inj {inner inner' : List InnerPart} {last last' : LastPart} {r s : Bytes}
    (e : inner.flatMap InnerPart.octets ++ (last.octets ++ r) =
      inner'.flatMap InnerPart.octets ++ (last'.octets ++ s)) :
    inner = inner' ∧ last = last' ∧ r = s := by
  induction inner generalizing inner' with
  | nil =>
    cases inner' with
    | nil => exact ⟨rfl, LastPart.octets_append_inj e⟩
    | cons p inner' =>
      rw [List.flatMap_cons, List.append_assoc] at e
      exact absurd e.symm (p.octets_append_ne last _ _)
  | cons p inner ih =>
    rw [List.flatMap_cons, List.append_assoc] at e
    cases inner' with
    | nil => exact absurd e (p.octets_append_ne last' _ _)
    | cons q inner' =>
      rw [List.flatMap_cons, List.append_assoc] at e
      obtain ⟨rfl, tail⟩ := InnerPart.octets_append_inj e
      obtain ⟨rfl, rest⟩ := ih tail
      exact ⟨rfl, rest⟩

theorem OldLength.octets_append_inj {x y : OldLength} {r s : Bytes} (t : x.type = y.type)
    (e : x.octets ++ r = y.octets ++ s) : x = y ∧ r = s := by
  cases x <;> cases y <;> simp_all [OldLength.type, OldLength.octets]

theorem OldLength.type_ne_three (x : OldLength) : x.type ≠ 3 := by
  cases x <;> simp [OldLength.type]

theorem Sized.octets_append_inj {p q : Sized} {r s : Bytes} (e : p.octets ++ r = q.octets ++ s) :
    p = q ∧ r = s := by
  cases p with
  | new tag inner last =>
    cases q with
    | new tag' inner' last' =>
      obtain ⟨head, tail⟩ := List.cons_eq_cons.1 e
      rw [List.append_eq, List.append_eq, List.append_assoc, List.append_assoc] at tail
      obtain rfl := newHead_injective head
      obtain ⟨rfl, rfl, rfl⟩ := parts_append_inj tail
      exact ⟨rfl, rfl⟩
    | old tag' length' data' h' =>
      exact absurd (List.cons_eq_cons.1 e).1 (newHead_ne_oldHead _ _ _)
  | old tag length data h =>
    cases q with
    | new tag' inner' last' =>
      exact absurd (List.cons_eq_cons.1 e).1.symm (newHead_ne_oldHead _ _ _)
    | old tag' length' data' h' =>
      obtain ⟨head, tail⟩ := List.cons_eq_cons.1 e
      rw [List.append_eq, List.append_eq, List.append_assoc, List.append_assoc] at tail
      obtain ⟨rfl, type⟩ := oldHead_inj head
      obtain ⟨rfl, body⟩ := OldLength.octets_append_inj type tail
      obtain ⟨rfl, rfl⟩ := List.append_inj body (h.trans h'.symm)
      exact ⟨rfl, rfl⟩

theorem Sized.octets_append_ne (p : Sized) (r : Bytes) (tag : Fin 16) (body : Bytes) :
    p.octets ++ r ≠ oldHead tag 3 :: body := by
  intro e
  cases p with
  | new tag' inner last => exact newHead_ne_oldHead _ _ _ (List.cons_eq_cons.1 e).1
  | old tag' length data h => exact length.type_ne_three (oldHead_inj (List.cons_eq_cons.1 e).1).2

theorem Unsized.octets_injective : Function.Injective Unsized.octets := by
  rintro (_ | ⟨tag, body⟩) (_ | ⟨tag', body'⟩) e
  · rfl
  · exact absurd e (List.cons_ne_nil _ _).symm
  · exact absurd e (List.cons_ne_nil _ _)
  · obtain ⟨head, rfl⟩ := List.cons_eq_cons.1 e
    obtain ⟨rfl, -⟩ := oldHead_inj head
    rfl

theorem Sized.octets_append_ne_unsized (p : Sized) (r : Bytes) (unsized : Option Unsized) :
    p.octets ++ r ≠ Unsized.octets unsized := by
  rcases unsized with _ | ⟨tag, body⟩
  · cases p <;> exact List.cons_ne_nil _ _
  · exact p.octets_append_ne r tag body

theorem stream_inj {sized sized' : List Sized} {unsized unsized' : Option Unsized}
    (e : sized.flatMap Sized.octets ++ Unsized.octets unsized =
      sized'.flatMap Sized.octets ++ Unsized.octets unsized') :
    sized = sized' ∧ unsized = unsized' := by
  induction sized generalizing sized' with
  | nil =>
    cases sized' with
    | nil => exact ⟨rfl, Unsized.octets_injective e⟩
    | cons p sized' =>
      rw [List.flatMap_cons, List.append_assoc] at e
      exact absurd e.symm (p.octets_append_ne_unsized _ _)
  | cons p sized ih =>
    rw [List.flatMap_cons, List.append_assoc] at e
    cases sized' with
    | nil => exact absurd e (p.octets_append_ne_unsized _ _)
    | cons q sized' =>
      rw [List.flatMap_cons, List.append_assoc] at e
      obtain ⟨rfl, tail⟩ := Sized.octets_append_inj e
      obtain ⟨rfl, rfl⟩ := ih tail
      exact ⟨rfl, rfl⟩

/-- A stream has one derivation at most. -/
theorem Derivation.octets_injective : Function.Injective Derivation.octets := by
  intro d d' e
  obtain ⟨sized, unsized⟩ := d
  obtain ⟨sized', unsized'⟩ := d'
  obtain ⟨rfl, rfl⟩ := stream_inj e
  rfl

end Cryptogram.Packet
