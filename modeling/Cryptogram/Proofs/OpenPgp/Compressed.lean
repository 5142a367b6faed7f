import Cryptogram.OpenPgp.Compressed
import Cryptogram.Proofs.Failure
import Cryptogram.Proofs.Unpack.Bzip2
import Cryptogram.Proofs.Unpack.Deflate

/-!
# Compressed data that are cut

What of a compressed stream comes back if its end is missing depends on the algorithm: framed blocks are
refused, bare blocks give what they hold so far, and of the streams of the third algorithm only the empty
beginning is not refused (`decompress_beginning`).
-/

namespace Cryptogram

open Decoder

/-! ## Bare blocks -/

namespace Deflate

/-- Looking for the end of the last octet makes no difference to what there is. -/
theorem unpack?_eq (octets : Bytes) :
    unpack? octets = match (blocks >>= fun _ => align) { rest := octets } with
      | .done _ s => some s.out.toList
      | .cut out => some out.toList
      | .invalid => none := by
  rw [unpack?, bind_apply]
  cases blocks { rest := octets } with
  | done u s =>
    dsimp only
    rw [align_eq]
    split_ifs
    · rfl
    · rfl
  | cut out => rfl
  | invalid => rfl

theorem unpack?_of_unpacks {octets plain : Bytes}
    (whole : (blocks >>= fun _ => align).Unpacks octets plain) : unpack? octets = some plain := by
  obtain ⟨u, s, done, -, rfl⟩ := whole
  rw [unpack?_eq, done]

/-- Cut blocks give what they hold so far. -/
theorem exists_unpack?_of_beginning {octets front plain : Bytes}
    (whole : (blocks >>= fun _ => align).Unpacks octets plain) (cut : front <+: octets)
    (proper : front ≠ octets) : ∃ part, unpack? front = some part ∧ part <+: plain := by
  have steady : Steady 0 (blocks >>= fun _ => align) := steady_blocks.bind fun _ => steady_align
  obtain ⟨out, found, first⟩ := steady.exists_cut whole cut proper
  exact ⟨out.toList, by rw [unpack?_eq, found], first⟩

/-! ## Framed blocks -/

theorem unpackFramed?_of_unpacks {octets plain : Bytes} (whole : framed.Unpacks octets plain) :
    unpackFramed? octets = some plain := by
  obtain ⟨u, s, done, -, rfl⟩ := whole
  rw [unpackFramed?, done]

theorem unpackFramed?_of_beginning {octets front plain : Bytes} (whole : framed.Unpacks octets plain)
    (cut : front <+: octets) (proper : front ≠ octets) : unpackFramed? front = none := by
  obtain ⟨out, found, -⟩ := steady_framed.exists_cut whole cut proper
  rw [unpackFramed?, found]

end Deflate

/-! ## Streams of sorted blocks -/

namespace Bzip2

theorem unpackFrom_nil (fuel : Nat) (first : Bool) : unpackFrom fuel first [] = some [] := by
  cases fuel with
  | zero => rfl
  | succ fuel => rfl

theorem unpack?_of_ne_nil {octets : Bytes} (ne : octets ≠ []) :
    unpack? octets = match stream { rest := octets } with
      | .done _ s => (unpackFrom (octets.length - 1) false s.rest).map (s.out.toList ++ ·)
      | _ => none := by
  obtain ⟨octet, rest, rfl⟩ := List.exists_cons_of_ne_nil ne
  rw [unpack?, List.length_cons, unpackFrom, if_neg ne]
  cases stream { rest := octet :: rest } with
  | done u s => rfl
  | cut out => rfl
  | invalid => rfl

theorem unpack?_of_unpacks {octets plain : Bytes} (whole : stream.Unpacks octets plain) :
    unpack? octets = some plain := by
  obtain ⟨u, s, done, ended, rfl⟩ := whole
  have ne : octets ≠ [] := by
    rintro rfl
    cases done
  rw [unpack?_of_ne_nil ne, done]
  dsimp only
  rw [ended, unpackFrom_nil, Option.map_some, List.append_nil]

theorem unpack?_of_beginning {octets front plain : Bytes} (whole : stream.Unpacks octets plain)
    (cut : front <+: octets) (proper : front ≠ octets) (ne : front ≠ []) : unpack? front = none := by
  obtain ⟨out, found, -⟩ := steady_stream.exists_cut whole cut proper
  rw [unpack?_of_ne_nil ne, found]

end Bzip2

/-! ## Packets -/

namespace Compression

/-- Whether octets are one stream of an algorithm, with nothing behind it, and unpack to `plain`. -/
def Streams : Compression → (octets plain : Bytes) → Prop
  | .uncompressed, _, _ => False
  | .zip, octets, plain => (Deflate.blocks >>= fun _ => align).Unpacks octets plain
  | .zlib, octets, plain => Deflate.framed.Unpacks octets plain
  | .bzip2, octets, plain => Bzip2.stream.Unpacks octets plain

instance : (a : Compression) → (octets plain : Bytes) → Decidable (a.Streams octets plain)
  | .uncompressed, _, _ => inferInstanceAs (Decidable False)
  | .zip, _, _ => inferInstanceAs (Decidable (Unpacks _ _ _))
  | .zlib, _, _ => inferInstanceAs (Decidable (Unpacks _ _ _))
  | .bzip2, _, _ => inferInstanceAs (Decidable (Unpacks _ _ _))

variable {a : Compression} {octets front plain : Bytes}

theorem unpack?_of_streams (whole : a.Streams octets plain) : a.unpack? octets = some plain := by
  cases a with
  | uncompressed => cases whole
  | zip => exact Deflate.unpack?_of_unpacks whole
  | zlib => exact Deflate.unpackFramed?_of_unpacks whole
  | bzip2 => exact Bzip2.unpack?_of_unpacks whole

/-- Whether an algorithm refuses a beginning of a stream. -/
def Refuses (a : Compression) (front : Bytes) : Prop := a = .zlib ∨ a = .bzip2 ∧ front ≠ []

theorem unpack?_of_beginning (whole : a.Streams octets plain) (cut : front <+: octets)
    (proper : front ≠ octets) :
    a.Refuses front ∧ a.unpack? front = none ∨
      ¬ a.Refuses front ∧ ∃ part, a.unpack? front = some part ∧ part <+: plain := by
  cases a with
  | uncompressed => cases whole
  | zip =>
    right
    exact ⟨by simp [Refuses], Deflate.exists_unpack?_of_beginning whole cut proper⟩
  | zlib =>
    left
    exact ⟨.inl rfl, Deflate.unpackFramed?_of_beginning whole cut proper⟩
  | bzip2 =>
    by_cases empty : front = []
    · right
      subst empty
      exact ⟨by simp [Refuses], [], rfl, List.nil_prefix⟩
    · left
      exact ⟨.inr ⟨rfl, empty⟩, Bzip2.unpack?_of_beginning whole cut proper empty⟩

theorem decompress_cons {id : UInt8} (known : ofId? id.toNat = some a) (octets : Bytes) :
    decompress (id :: octets) = match a.unpack? octets with
      | some plain => .ok plain
      | none => .error (.decompression a) := by
  cases held : a.unpack? octets with
  | some plain => simp only [decompress, known, held]
  | none => simp only [decompress, known, held]

/-- A whole stream is unpacked.  Of its proper beginnings, those that the algorithm refuses give the
failure of a broken packet, and all others give a beginning of what the stream holds, without a
failure. -/
theorem decompress_beginning {id : UInt8} (known : ofId? id.toNat = some a)
    (whole : a.Streams octets plain) :
    decompress (id :: octets) = .ok plain ∧
      ∀ front, front <+: octets → front ≠ octets →
        ((∃ e, decompress (id :: front) = .error e ∧ e.kind = .own .pgpFormat) ↔ a.Refuses front) ∧
        ((∃ part, decompress (id :: front) = .ok part ∧ part <+: plain) ↔ ¬ a.Refuses front) := by
  refine ⟨by rw [decompress_cons known, unpack?_of_streams whole], fun front cut proper => ?_⟩
  rw [decompress_cons known]
  obtain ⟨refused, nothing⟩ | ⟨taken, part, unpacked, first⟩ := unpack?_of_beginning whole cut proper
  · rw [nothing]
    refine ⟨iff_of_true ⟨_, rfl, rfl⟩ refused, iff_of_false ?_ (not_not_intro refused)⟩
    rintro ⟨part, ⟨⟩, -⟩
  · rw [unpacked]
    refine ⟨iff_of_false ?_ taken, iff_of_true ⟨part, rfl, first⟩ taken⟩
    rintro ⟨e, ⟨⟩, -⟩

/-- The letter a in blocks with a frame. -/
theorem decompress_beginning_zlib :
    let octets : Bytes := [0x78, 0x9c, 0x4b, 0x04, 0x00, 0x00, 0x62, 0x00, 0x62]
    ofId? (2 : UInt8).toNat = some .zlib ∧ Streams .zlib octets [97] ∧
      decompress (2 :: octets) = .ok [97] ∧
      ∃ e, decompress (2 :: octets.take 8) = .error e ∧ e.kind = .own .pgpFormat := by
  intro octets
  have known : ofId? (2 : UInt8).toNat = some .zlib := rfl
  have whole : Streams .zlib octets [97] := by decide +kernel
  obtain ⟨unpacked, cut⟩ := decompress_beginning known whole
  have proper : octets.take 8 ≠ octets := by decide
  refine ⟨known, whole, unpacked, ?_⟩
  exact (cut (octets.take 8) (List.take_prefix 8 octets) proper).1.2 (.inl rfl)

/-- Bare blocks lose the last octets of what they hold without a failure, and no octets at all are
taken for a stream of sorted blocks. -/
theorem decompress_cut :
    let bare : Bytes := [1, 5, 0, 0xfa, 0xff, 104, 101, 108, 108, 111]
    let sorted : Bytes := [0x42, 0x5a, 0x68, 0x39, 0x17, 0x72, 0x45, 0x38, 0x50, 0x90, 0, 0, 0, 0]
    Streams .zip bare [104, 101, 108, 108, 111] ∧ bare.take 8 ≠ bare ∧
      decompress (1 :: bare.take 8) = .ok [104, 101, 108] ∧ decompress [1] = .ok [] ∧
      Streams .bzip2 sorted [] ∧ decompress [3] = .ok [] := by
  decide +kernel

end Compression

end Cryptogram
