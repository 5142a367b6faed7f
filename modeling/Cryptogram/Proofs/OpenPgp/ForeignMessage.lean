import Cryptogram.Proofs.OpenPgp.Message
import Cryptogram.Proofs.OpenPgp.PacketReading

/-!
# Messages under a passphrase from other writers

A message opens under its passphrase whatever writer it comes from: the cipher of the session key and
the cipher of the data may differ, the session key may be encrypted or derived, every specifier of the
passphrase will do, and so will every way to cut the two packets into octets
(`decrypt_eq_ok_of_read`).
-/

namespace Cryptogram

/-! ## Streams of packets -/

/-- Streams with a packet begin with an octet that no text has, so they are never taken for armor. -/
theorem Packet.exists_not_plain {stream : Bytes} {p : Packet} {ps : List Packet}
    (h : read stream = .ok (p :: ps)) : ∃ b ∈ stream, Armor.isPlain b = false := by
  cases stream with
  | nil => cases h
  | cons first rest =>
    refine ⟨first, List.mem_cons_self, Armor.isPlain_of_le ?_⟩
    by_contra low
    have fails : readOne (rest.length + 1) 0 first rest = .error (.packetHeader first 0) := by
      rw [readOne, if_neg (by omega), if_neg (by omega)]
    rw [read, List.length_cons, readWithin, fails] at h
    cases h

/-- Only in the empty stream there is no packet. -/
theorem Packet.eq_nil_of_read {stream : Bytes} (h : read stream = .ok []) : stream = [] := by
  cases stream with
  | nil => rfl
  | cons first rest =>
    rw [read, List.length_cons, readWithin] at h
    obtain ⟨reach, -, h⟩ := exists_of_bind_eq_ok h
    obtain ⟨ps, -, h⟩ := exists_of_bind_eq_ok h
    cases h

namespace Message

theorem packets_of_read {message : Bytes} {ps : List Packet} (h : Packet.read message = .ok ps) :
    packets message = .ok ps := by
  cases ps with
  | nil =>
    rw [Packet.eq_nil_of_read h]
    rfl
  | cons p ps =>
    obtain ⟨b, found, high⟩ := Packet.exists_not_plain h
    rw [packets, Armor.strip_of_not_plain found high]
    exact h

/-! ## Opening -/

variable {suite : Suite} {passphrase : Bytes}

/-- A passphrase gives keys for every usable cipher, and these have block functions. -/
theorem exists_derived (suite : Suite) (s2k : StringToKey.Written) (hp : passphrase ≠ [])
    {a : Symmetric} (ha : a.supported = true) :
    ∃ key f, s2k.specifier.derive suite passphrase a.keySize = .ok key ∧
      key.length = a.keySize ∧ 0 < f.size ∧
      suite.feedback a key (Bytes.zeros a.blockSize) = .ok f := by
  have narrow : a.keySize ≤ StringToKey.maxKeySize := Symmetric.keySize_le
  obtain ⟨key, derived, width⟩ :=
    StringToKey.exists_derive suite s2k.type_mem (StringToKey.seed_ne_nil (.inl hp)) narrow
  obtain ⟨f, size, found⟩ := suite.exists_feedback ha width
  have := (Symmetric.blockSize_le ha).1
  exact ⟨key, f, derived, width, by omega, found _ (Bytes.length_zeros _)⟩

/-- A message whose session key packet opens gives the literal data that its packets hold. -/
theorem decrypt_of_read {k : SessionKey} {g : BlockFunction} (hs : k.algorithm.supported = true)
    (found : suite.feedback k.algorithm k.key (Sealed.zeroBlock k) = .ok g) (pos : 0 < g.size)
    {block : Bytes} (hb : block.length = k.algorithm.blockSize) {inner : Bytes} {content : Literal}
    (hl : literal inner = .ok content) {a : Symmetric} {s2k : StringToKey.Written}
    {encrypted : Bytes}
    (opened : openSkesk suite passphrase ⟨Skesk.version4, a, s2k.specifier, encrypted⟩ = .ok k)
    {message : Bytes} (read : Packet.read message =
      .ok [⟨Tag.skesk, Skesk.octets a s2k encrypted⟩, ⟨Tag.seipd, Sealed.octets suite g block inner⟩]) :
    decrypt suite (some (.password passphrase)) message = .ok content := by
  have two : 2 ≤ block.length := by
    have := (Symmetric.blockSize_le hs).1
    omega
  rw [decrypt_of_packets (packets_of_read read) (Skesk.ofBody_octets a s2k encrypted) opened
    (Sealed.decrypt_octets inner found pos hb two)]
  exact hl

/-- Every stream that is read as a session key under a passphrase and integrity-protected packets
opens to the literal data of these packets.  The session key is encrypted with any cipher, not only
with its own, or it is the key that the passphrase gives. -/
theorem decrypt_eq_ok_of_read (suite : Suite) {a b : Symmetric} (ha : a.supported = true)
    (hb : b.supported = true) (s2k : StringToKey.Written) (hp : passphrase ≠ [])
    {key block inner : Bytes} (hk : key.length = a.keySize) (hr : block.length = a.blockSize)
    {content : Literal} (hl : literal inner = .ok content) :
    (∃ outerKey f g,
      s2k.specifier.derive suite passphrase b.keySize = .ok outerKey ∧
      suite.feedback b outerKey (Bytes.zeros b.blockSize) = .ok f ∧
      suite.feedback a key (Bytes.zeros a.blockSize) = .ok g ∧
      ∀ message, Packet.read message =
          .ok [⟨Tag.skesk, Skesk.octets b s2k
              (Feedback.encrypt f (Bytes.zeros b.blockSize) (a.id.toUInt8 :: key))⟩,
            ⟨Tag.seipd, Sealed.octets suite g block inner⟩] →
        decrypt suite (some (.password passphrase)) message = .ok content) ∧
    ∃ derivedKey g,
      s2k.specifier.derive suite passphrase a.keySize = .ok derivedKey ∧
      suite.feedback a derivedKey (Bytes.zeros a.blockSize) = .ok g ∧
      ∀ message, Packet.read message =
          .ok [⟨Tag.skesk, Skesk.octets a s2k []⟩,
            ⟨Tag.seipd, Sealed.octets suite g block inner⟩] →
        decrypt suite (some (.password passphrase)) message = .ok content := by
  constructor
  · obtain ⟨outerKey, f, derived, -, pos, foundOuter⟩ := exists_derived suite s2k hp hb
    obtain ⟨g, size, found⟩ := suite.exists_feedback ha hk
    have zero := found _ (Bytes.length_zeros a.blockSize)
    have least := (Symmetric.blockSize_le ha).1
    have opened := openSkesk_encrypted (k := ⟨a, key⟩) derived foundOuter pos hk
    exact ⟨outerKey, f, g, derived, foundOuter, zero, fun message read =>
      decrypt_of_read (k := ⟨a, key⟩) ha zero (by omega) hr hl opened read⟩
  · obtain ⟨derivedKey, g, derived, -, pos, found⟩ := exists_derived suite s2k hp ha
    exact ⟨derivedKey, g, derived, found, fun message read =>
      decrypt_of_read (k := ⟨a, derivedKey⟩) ha found pos hr hl (openSkesk_derived derived) read⟩

/-- A session key of Camellia under CAST5, in front of a marker and a literal data packet whose
header has no length. -/
theorem decrypt_eq_ok_of_read_camellia :
    Symmetric.camellia256.supported = true ∧ Symmetric.cast5.supported = true ∧
      ([112, 119] : Bytes) ≠ [] ∧
      (List.replicate 32 5 : Bytes).length = Symmetric.camellia256.keySize ∧
      (List.replicate 16 6 : Bytes).length = Symmetric.camellia256.blockSize ∧
      literal [0xca, 3, 0x50, 0x47, 0x50, 0xaf, 98, 0, 0, 0, 0, 0, 104, 105] =
        .ok ⟨'b', "", 0, [104, 105]⟩ ∧
      ∃ keyBody dataBody, decrypt .standard (some (.password [112, 119]))
        ([(⟨Tag.skesk, keyBody⟩ : Packet), ⟨Tag.seipd, dataBody⟩].flatMap Packet.encode) =
          .ok ⟨'b', "", 0, [104, 105]⟩ := by
  have inner : Symmetric.camellia256.supported = true := by decide
  have outer : Symmetric.cast5.supported = true := by decide
  have password : ([112, 119] : Bytes) ≠ [] := by decide
  have width : (List.replicate 32 5 : Bytes).length = Symmetric.camellia256.keySize := by decide
  have drawn : (List.replicate 16 6 : Bytes).length = Symmetric.camellia256.blockSize := by decide
  have held : literal [0xca, 3, 0x50, 0x47, 0x50, 0xaf, 98, 0, 0, 0, 0, 0, 104, 105] =
      .ok ⟨'b', "", 0, [104, 105]⟩ := by rfl
  obtain ⟨⟨outerKey, f, g, -, foundOuter, found, opens⟩, -⟩ :=
    decrypt_eq_ok_of_read .standard inner outer (.iterated .sha256 (List.replicate 8 3) rfl 96)
      password width drawn held
  refine ⟨inner, outer, password, width, drawn, held, _, _,
    opens _ (Packet.read_flatMap_encode ?_)⟩
  have posOuter : 0 < f.size := by rw [Suite.size_of_feedback foundOuter]; decide
  have pos : 0 < g.size := by rw [Suite.size_of_feedback found]; decide
  rw [List.forall_mem_cons, List.forall_mem_singleton]
  have keyTag : Tag.skesk < 64 := by decide
  have dataTag : Tag.seipd < 64 := by decide
  constructor
  · refine ⟨keyTag, ?_⟩
    simp [Skesk.octets, StringToKey.Written.octets, Feedback.length_encrypt posOuter]
  · refine ⟨dataTag, ?_⟩
    simp [Sealed.length_octets _ _ pos, Sealed.trailerSize, Sealed.hashHeader, Sealed.hashSize]

end Message

end Cryptogram
