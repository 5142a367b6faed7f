import Cryptogram.Proofs.OpenPgp.Message
import Cryptogram.Proofs.OpenPgp.PublicKeyPacket
import Cryptogram.Proofs.OpenPgp.Rsa
import Cryptogram.Proofs.OpenPgp.SessionKey

/-!
# Messages to public keys

A session key that is encrypted to a public key travels as a number, without the zeros in front of it.
It can be encrypted to every public RSA key that is long enough for it and whose modulus fits the
count of bits of a number (`Message.exists_encrypt_publicKey`).
-/

namespace Cryptogram

/-! ## Session key packets -/

namespace Pkesk

/-- The body of a session key packet for an RSA key. -/
def octets (keyId : Bytes) (number : Nat) : Bytes :=
  3 :: keyId ++ PublicKeyAlgorithm.rsa.id.toUInt8 :: Mpi.written number

variable {keyId : Bytes}

theorem length_octets (eight : keyId.length = 8) (number : Nat) :
    (octets keyId number).length = 12 + Mpi.octetCount (Mpi.bitLength number) := by
  simp only [octets, List.length_append, List.length_cons, eight, Mpi.length_written]
  omega

theorem ofBody_octets (eight : keyId.length = 8) (number : Nat) :
    ofBody (octets keyId number) = .ok ⟨version3, keyId, .rsa, Mpi.written number⟩ :=
  ofBody_layout eight .rsa (Mpi.written number)

end Pkesk

/-- A public key that a session key for a cipher can be encrypted to: it is long enough, and the
count of its bits fits two octets. -/
structure EncryptionKey.Takes (recipient : EncryptionKey) (cipher : Symmetric) : Prop where
  room : cipher.keySize + 14 ≤ recipient.key.size
  bits : recipient.key.bits < 2 ^ 16

namespace Message

/-- The session key packet for a recipient, from the encrypted session key on. -/
theorem publicKeyPacket_eq {k : SessionKey} {recipient : EncryptionKey}
    (eight : recipient.keyId.length = 8) {e : Entropy} {encrypted : Bytes}
    (done : recipient.key.encrypt e.noise k.payload = .ok encrypted) :
    publicKeyPacket k recipient e =
      if Mpi.bitLength (Bytes.toNat encrypted) < 2 ^ 16 then
        .ok (Packet.encode ⟨Tag.pkesk, Pkesk.octets recipient.keyId (Bytes.toNat encrypted)⟩)
      else .error .fieldOverflow := by
  have tag : Tag.pkesk < 64 := by decide
  unfold publicKeyPacket
  simp only [done, Mpi.write_eq, bind, Except.bind]
  split_ifs with few
  · have size : (Pkesk.octets recipient.keyId (Bytes.toNat encrypted)).length < 2 ^ 32 := by
      rw [Pkesk.length_octets eight, Mpi.octetCount]
      omega
    exact Packet.write_eq tag size
  · rfl

theorem exists_publicKeyPacket {k : SessionKey} (hk : k.key.length = k.algorithm.keySize)
    {recipient : EncryptionKey} (takes : recipient.Takes k.algorithm)
    (eight : recipient.keyId.length = 8) (e : Entropy) :
    ∃ packet, publicKeyPacket k recipient e = .ok packet := by
  have room : k.payload.length + 11 ≤ recipient.key.size := by
    have := takes.room
    rw [k.length_payload, hk]
    omega
  obtain ⟨encrypted, done, below⟩ := recipient.key.exists_encrypt e.noise room
  have few := (Mpi.bitLength_le below).trans_lt takes.bits
  exact ⟨_, (publicKeyPacket_eq eight done).trans (if_pos few)⟩

/-- Encryption to a public key succeeds. -/
theorem exists_encrypt_publicKey (suite : Suite) {settings : Settings} (hs : settings.Accepted)
    {cipher : Symmetric} (hc : cipher.supported = true) {recipient : EncryptionKey}
    (takes : recipient.Takes cipher) (eight : recipient.keyId.length = 8) (content : Bytes)
    (armored : Bool) {time : Int} (ht : 0 ≤ time) (ht' : time < 2 ^ 32) (e : Entropy)
    (hl : sealedSize cipher settings.literalName content < 2 ^ 32) :
    ∃ message e', encrypt suite settings ⟨cipher, some (.publicKey recipient), armored, time⟩ content e =
      .ok (message, e') := by
  set k : SessionKey := ⟨cipher, e.peek cipher.keySize⟩ with hk
  have width : k.key.length = k.algorithm.keySize := e.length_peek _
  obtain ⟨packet, written⟩ :=
    exists_publicKeyPacket (k := k) width takes eight (e.skip cipher.keySize)
  have head : keyPacket suite settings k (some (.publicKey recipient)) (e.skip cipher.keySize) =
      .ok (packet, e.skip cipher.keySize) := by
    rw [keyPacket, written]
    rfl
  obtain ⟨dataBody, -, -, encrypted⟩ := @exists_encrypt_of_keyPacket suite settings hs
    ⟨cipher, some (.publicKey recipient), armored, time⟩ hc content ht ht' e _ hl k hk _ head
  exact ⟨_, _, encrypted⟩

end Message

end Cryptogram
