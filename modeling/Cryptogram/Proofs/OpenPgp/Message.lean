import Cryptogram.OpenPgp.Message
import Cryptogram.Proofs.Failure
import Cryptogram.Proofs.OpenPgp.Armor
import Cryptogram.Proofs.OpenPgp.EncryptedKey
import Cryptogram.Proofs.OpenPgp.LiteralData
import Cryptogram.Proofs.OpenPgp.Sealed
import Cryptogram.Proofs.Settings

/-!
# Messages under a password there and back

A message that is encrypted under a password declares its algorithm, and decryption under the
password gives its content back with the name and the date (`decrypt_encrypt_password`).
-/

namespace Cryptogram

/-! ## Literal data -/

namespace Literal

variable {name : String} {time : Int} {data : Bytes}

/-- The body of binary data whose name is kept as it is. -/
def binaryBody (name : String) (time : Int) (data : Bytes) : Bytes :=
  98 :: (Text.utf8 name).length.toUInt8 :: Text.utf8 name ++ Bytes.ofNat 4 time.toNat ++ data

theorem writable_binary (hn : (Text.utf8 name).length ≤ 255) (ht : 0 ≤ time) (ht' : time < 2 ^ 32) :
    Writable ⟨'b', name, time, data⟩ :=
  ⟨List.mem_cons_self, hn, ht, ht'⟩

theorem body_binary (hn : (Text.utf8 name).length ≤ 255) (ht : 0 ≤ time) (ht' : time < 2 ^ 32) :
    (⟨'b', name, time, data⟩ : Literal).body = .ok (binaryBody name time data) :=
  (writable_binary hn ht ht').body_eq

theorem length_binaryBody : (binaryBody name time data).length = bodySize name data :=
  length_layout

theorem ofBody_binaryBody (hn : (Text.utf8 name).length ≤ 255) (ht : 0 ≤ time) (ht' : time < 2 ^ 32) :
    ofBody (binaryBody name time data) = .ok ⟨'b', name, time, data⟩ :=
  (writable_binary hn ht ht').ofBody_body (body_binary hn ht ht')

end Literal

namespace Message

/-! ## Session keys -/

/-- A packet without an encrypted session key gives the derived key. -/
theorem openSkesk_derived {suite : Suite} {a : Symmetric} {s2k : StringToKey} {password key : Bytes}
    (derived : s2k.derive suite password a.keySize = .ok key) :
    openSkesk suite password ⟨Skesk.version4, a, s2k, []⟩ = .ok ⟨a, key⟩ := by
  rw [openSkesk]
  dsimp only
  rw [derived]
  rfl

/-- A packet with a session key that is encrypted under the derived key gives that session key. -/
theorem openSkesk_encrypted {suite : Suite} {a : Symmetric} {s2k : StringToKey} {password key : Bytes}
    (derived : s2k.derive suite password a.keySize = .ok key) {f : BlockFunction}
    (found : suite.feedback a key (Bytes.zeros a.blockSize) = .ok f) (pos : 0 < f.size)
    {k : SessionKey} (hk : k.key.length = k.algorithm.keySize) :
    openSkesk suite password ⟨Skesk.version4, a, s2k,
      Feedback.encrypt f (Bytes.zeros a.blockSize) (k.algorithm.id.toUInt8 :: k.key)⟩ = .ok k := by
  have full : Feedback.encrypt f (Bytes.zeros a.blockSize) (k.algorithm.id.toUInt8 :: k.key) ≠ [] :=
    List.ne_nil_of_length_eq_add_one (Feedback.length_encrypt pos _ _)
  rw [openSkesk]
  dsimp only
  rw [derived]
  simp only [bind, Except.bind, if_neg full]
  rw [found]
  dsimp only
  rw [Feedback.decrypt_encrypt pos]
  dsimp only
  rw [Symmetric.toNat_id, Symmetric.ofId?_id]
  dsimp only
  rw [if_neg (not_not.2 hk)]
  rfl

/-- The session key packet that a password gets, and the session key in it. -/
theorem exists_passwordPacket (suite : Suite) {settings : Settings} {hash : HashName}
    (hh : HashName.ofId? settings.s2kHash.toNat = some hash) {k : SessionKey}
    (hs : k.algorithm.supported = true) (hk : k.key.length = k.algorithm.keySize) (password : Bytes)
    (e : Entropy) :
    ∃ body skesk, passwordPacket suite settings k password e =
        .ok (Packet.encode ⟨Tag.skesk, body⟩, e.skip 8) ∧
      (⟨Tag.skesk, body⟩ : Packet).Writable ∧ Skesk.ofBody body = .ok skesk ∧
      skesk.algorithm = k.algorithm ∧ openSkesk suite password skesk = .ok k := by
  have narrow : k.algorithm.keySize ≤ StringToKey.maxKeySize := Symmetric.keySize_le
  obtain ⟨key, derived, width⟩ :=
    StringToKey.derive_fresh hash settings.s2kCount e suite password narrow
  obtain ⟨f, size, found⟩ := suite.exists_feedback hs width
  have zero := found _ (Sealed.length_zeroBlock k)
  have pos : 0 < f.size := by
    have := (Symmetric.blockSize_le hs).1
    omega
  set encrypted := Feedback.encrypt f (Sealed.zeroBlock k) (k.algorithm.id.toUInt8 :: k.key)
    with hencrypted
  have length : encrypted.length = k.algorithm.keySize + 1 := by
    rw [hencrypted, Feedback.length_encrypt pos, List.length_cons, hk]
  have tag : Tag.skesk < 64 := by decide
  have small : (Skesk.freshBody k.algorithm hash settings.s2kCount e encrypted).length < 2 ^ 32 := by
    rw [Skesk.length_freshBody, length]
    have := @Symmetric.keySize_le k.algorithm
    omega
  refine ⟨Skesk.freshBody k.algorithm hash settings.s2kCount e encrypted,
    ⟨Skesk.version4, k.algorithm, (StringToKey.fresh hash settings.s2kCount e).1, encrypted⟩,
    ?_, ⟨tag, small⟩, Skesk.ofBody_freshBody _ _ _ _ _, rfl,
    openSkesk_encrypted derived zero pos hk⟩
  have packet : Skesk.write ⟨Skesk.version4, k.algorithm,
      (StringToKey.fresh hash settings.s2kCount e).1, encrypted⟩ =
        .ok (Packet.encode ⟨Tag.skesk, Skesk.freshBody k.algorithm hash settings.s2kCount e encrypted⟩) := by
    rw [Skesk.write, Skesk.body_fresh]
    exact Packet.write_eq tag small
  rw [passwordPacket, hh]
  simp only [StringToKey.fresh_eq] at derived packet ⊢
  simp only [bind, Except.bind, derived, zero]
  rw [← hencrypted, packet]
  rfl

/-! ## Opening -/

/-- A message opens if the first session key that an opener gives opens its data. -/
theorem decrypt_of_sessionKeys {suite : Suite} {opener : Option Opener} {message : Bytes}
    {skesks : List Skesk} {pkesks : List Pkesk} {data : Bytes}
    (read : Envelope.read message = .ok ⟨skesks, pkesks, ⟨Tag.seipd, data⟩⟩) {k : SessionKey}
    {others : List SessionKey}
    (keys : sessionKeys suite opener ⟨skesks, pkesks, ⟨Tag.seipd, data⟩⟩ = .ok (k :: others))
    {inner : Bytes} (decrypted : Sealed.decrypt suite k data = .ok inner) :
    decrypt suite opener message = literal inner := by
  rw [decrypt, read]
  simp only [bind, Except.bind, keys, firstOpened, openData, if_true, decrypted]

/-- A message of one session key and encrypted data opens if its parts do. -/
theorem decrypt_of_packets {suite : Suite} {password message skeskBody dataBody : Bytes}
    (read : packets message = .ok [⟨Tag.skesk, skeskBody⟩, ⟨Tag.seipd, dataBody⟩]) {skesk : Skesk}
    (ofBody : Skesk.ofBody skeskBody = .ok skesk) {k : SessionKey}
    (opened : openSkesk suite password skesk = .ok k) {inner : Bytes}
    (decrypted : Sealed.decrypt suite k dataBody = .ok inner) :
    decrypt suite (some (.password password)) message = literal inner := by
  have envelope : Envelope.read message = .ok ⟨[skesk], [], ⟨Tag.seipd, dataBody⟩⟩ := by
    have seipd : ¬ Tag.seipd = Tag.skesk := by decide
    have seipd' : ¬ Tag.seipd = Tag.pkesk := by decide
    rw [Envelope.read, read]
    simp only [bind, Except.bind, Envelope.ofPackets, if_true, ofBody, if_neg seipd, if_neg seipd']
    rfl
  have keys : sessionKeys suite (some (.password password)) ⟨[skesk], [], ⟨Tag.seipd, dataBody⟩⟩ =
      .ok [k] := by
    simp only [sessionKeys, gather, opened, Except.map, bind, Except.bind]
    rfl
  exact decrypt_of_sessionKeys envelope keys decrypted

/-! ## Messages -/

/-- Without armor and in armor, written packets are found. -/
theorem packets_flatMap_encode {p : Packet} {ps : List Packet} (h : ∀ q ∈ p :: ps, q.Writable)
    (armored : Bool) :
    packets (if armored then Armor.write ((p :: ps).flatMap Packet.encode)
      else (p :: ps).flatMap Packet.encode) = .ok (p :: ps) := by
  obtain ⟨b, rest, front, hb⟩ := Packet.encode_eq_cons p
  have found : Armor.strip (if armored then Armor.write ((p :: ps).flatMap Packet.encode)
      else (p :: ps).flatMap Packet.encode) = .ok ((p :: ps).flatMap Packet.encode) := by
    rw [List.flatMap_cons, front, List.cons_append]
    cases armored with
    | true => exact Armor.strip_write (List.cons_ne_nil _ _)
    | false => exact Armor.strip_of_not_plain List.mem_cons_self (Armor.isPlain_of_le (by omega))
  rw [packets, found]
  exact Packet.read_flatMap_encode h

/-- The number of octets of the body of the packet of encrypted data. -/
def sealedSize (cipher : Symmetric) (name : String) (content : Bytes) : Nat :=
  1 + (cipher.blockSize + 2) + Packet.writtenSize (Literal.bodySize name content) + Sealed.trailerSize

/-- Without a name up to two gigabytes fit a packet under each algorithm. -/
theorem sealedSize_empty_lt (cipher : Symmetric) {content : Bytes} (few : content.length ≤ 2 ^ 31) :
    sealedSize cipher "" content < 2 ^ 32 := by
  have block : cipher.blockSize ≤ 16 := by cases cipher <;> decide
  have trailer : Sealed.trailerSize = 22 := rfl
  have written := Packet.writtenSize_le (Literal.bodySize "" content)
  rw [Literal.bodySize_empty] at written
  rw [sealedSize, Literal.bodySize_empty, trailer]
  omega

theorem offered_supported {cipher : Symmetric} (ho : cipher ∈ Symmetric.offered)
    (ht : cipher ≠ .twofish) : cipher.supported = true := by
  revert ho ht
  cases cipher <;> decide

theorem literal_encode {name : String} {time : Int} {data : Bytes}
    (hn : (Text.utf8 name).length ≤ 255) (ht : 0 ≤ time) (ht' : time < 2 ^ 32)
    (hw : (⟨Tag.literal, Literal.binaryBody name time data⟩ : Packet).Writable) :
    literal (Packet.encode ⟨Tag.literal, Literal.binaryBody name time data⟩) =
      .ok ⟨'b', name, time, data⟩ := by
  have nesting : maxNesting = 989 + 1 := rfl
  rw [literal, nesting, literalWithin, Packet.read_encode hw]
  simp only [bind, Except.bind]
  exact Literal.ofBody_binaryBody hn ht ht'

/-- The literal data of a message whose encrypted data fit a packet. -/
theorem literal_binaryBody {settings : Settings} (hs : settings.Accepted) {cipher : Symmetric}
    {content : Bytes} {time : Int} (ht : 0 ≤ time) (ht' : time < 2 ^ 32)
    (hl : sealedSize cipher settings.literalName content < 2 ^ 32) :
    literal (Packet.encode ⟨Tag.literal, Literal.binaryBody settings.literalName time content⟩) =
      .ok ⟨'b', settings.literalName, time, content⟩ := by
  have tag : Tag.literal < 64 := by decide
  have size : (Literal.binaryBody settings.literalName time content).length < 2 ^ 32 := by
    rw [Literal.length_binaryBody]
    rw [sealedSize, Packet.writtenSize] at hl
    omega
  exact literal_encode hs.literalName ht ht' ⟨tag, size⟩

/-- A message that is encrypted under a password, from its packets on. -/
structure Sealing (suite : Suite) (cipher : Symmetric) (password inner : Bytes) where
  skeskBody : Bytes
  dataBody : Bytes
  skesk : Skesk
  key : SessionKey
  writableSkesk : (⟨Tag.skesk, skeskBody⟩ : Packet).Writable
  writableData : (⟨Tag.seipd, dataBody⟩ : Packet).Writable
  ofBody : Skesk.ofBody skeskBody = .ok skesk
  algorithm : skesk.algorithm = cipher
  opened : openSkesk suite password skesk = .ok key
  decrypted : Sealed.decrypt suite key dataBody = .ok inner

namespace Sealing

variable {suite : Suite} {cipher : Symmetric} {password inner : Bytes}
  (s : Sealing suite cipher password inner)

/-- The packets. -/
def packets : List Packet := [⟨Tag.skesk, s.skeskBody⟩, ⟨Tag.seipd, s.dataBody⟩]

/-- The octets. -/
def octets : Bytes := s.packets.flatMap Packet.encode

theorem packets_octets (armored : Bool) :
    Message.packets (if armored then Armor.write s.octets else s.octets) = .ok s.packets :=
  packets_flatMap_encode
    (List.forall_mem_cons.2 ⟨s.writableSkesk, List.forall_mem_singleton.2 s.writableData⟩) armored

theorem algorithm_octets (armored : Bool) :
    Message.algorithm (if armored then Armor.write s.octets else s.octets) = .ok cipher := by
  rw [Message.algorithm, s.packets_octets armored]
  simp only [bind, Except.bind, packets, declared, if_true, s.ofBody, Except.map, s.algorithm]

theorem decrypt_octets (armored : Bool) {content : Literal} (h : literal inner = .ok content) :
    decrypt suite (some (.password password))
      (if armored then Armor.write s.octets else s.octets) = .ok content :=
  (decrypt_of_packets (s.packets_octets armored) s.ofBody s.opened s.decrypted).trans h

end Sealing

/-- Behind an encrypted session key, the packet of encrypted data is written and opens under the
session key. -/
theorem exists_encrypt_of_keyPacket (suite : Suite) {settings : Settings} (hs : settings.Accepted)
    {form : Form} (hc : form.cipher.supported = true) (content : Bytes) (ht : 0 ≤ form.time)
    (ht' : form.time < 2 ^ 32) {e e' : Entropy}
    (hl : sealedSize form.cipher settings.literalName content < 2 ^ 32) {k : SessionKey}
    (hk : k = ⟨form.cipher, e.peek form.cipher.keySize⟩) {head : Bytes}
    (written : keyPacket suite settings k form.recipient (e.skip form.cipher.keySize) =
      .ok (head, e')) :
    ∃ dataBody, (⟨Tag.seipd, dataBody⟩ : Packet).Writable ∧
      Sealed.decrypt suite k dataBody = .ok (Packet.encode
        ⟨Tag.literal, Literal.binaryBody settings.literalName form.time content⟩) ∧
      encrypt suite settings form content e =
        .ok (if form.armored then Armor.write (head ++ Packet.encode ⟨Tag.seipd, dataBody⟩)
          else head ++ Packet.encode ⟨Tag.seipd, dataBody⟩, e'.skip form.cipher.blockSize) := by
  have literalTag : Tag.literal < 64 := by decide
  have dataTag : Tag.seipd < 64 := by decide
  set literalBody := Literal.binaryBody settings.literalName form.time content
  have literalLength : literalBody.length = Literal.bodySize settings.literalName content :=
    Literal.length_binaryBody
  have literalSize : literalBody.length < 2 ^ 32 := by
    rw [literalLength]
    rw [sealedSize, Packet.writtenSize] at hl
    omega
  have literalWritten : Literal.write ⟨'b', settings.literalName, form.time, content⟩ =
      .ok (Packet.encode ⟨Tag.literal, literalBody⟩) := by
    rw [Literal.write, Literal.body_binary hs.literalName ht ht']
    exact Packet.write_eq literalTag literalSize
  have width : k.key.length = k.algorithm.keySize := by
    rw [hk]
    exact e.length_peek _
  have supported : k.algorithm.supported = true := by rwa [hk]
  set block := e'.peek form.cipher.blockSize with hblock
  have drawn : block.length = k.algorithm.blockSize := by
    rw [hk]
    exact e'.length_peek _
  obtain ⟨dataBody, encrypted, size, decrypted⟩ :=
    Sealed.exists_encrypt (Packet.encode ⟨Tag.literal, literalBody⟩) suite supported width drawn
  have dataSize : dataBody.length < 2 ^ 32 := by
    rw [size, Packet.length_encode, literalLength, hk]
    exact hl
  refine ⟨dataBody, ⟨dataTag, dataSize⟩, decrypted, ?_⟩
  rw [encrypt]
  simp only [Entropy.draw]
  rw [← hk, written]
  simp only [bind, Except.bind, literalWritten]
  rw [← hblock, encrypted]
  simp only [Packet.write_eq dataTag dataSize]
  rfl

/-- Encryption under a password succeeds, and its packets are what decryption looks for. -/
theorem exists_sealing (suite : Suite) {settings : Settings} (hs : settings.Accepted)
    {cipher : Symmetric} (hc : cipher.supported = true) (password content : Bytes) (armored : Bool)
    {time : Int} (ht : 0 ≤ time) (ht' : time < 2 ^ 32) (e : Entropy)
    (hl : sealedSize cipher settings.literalName content < 2 ^ 32) :
    ∃ (s : Sealing suite cipher password
        (Packet.encode ⟨Tag.literal, Literal.binaryBody settings.literalName time content⟩))
      (e' : Entropy),
      encrypt suite settings ⟨cipher, some (.password password), armored, time⟩ content e =
          .ok (if armored then Armor.write s.octets else s.octets, e') ∧
        literal (Packet.encode ⟨Tag.literal, Literal.binaryBody settings.literalName time content⟩) =
          .ok ⟨'b', settings.literalName, time, content⟩ := by
  obtain ⟨hash, hh⟩ := hs.exists_s2kHash
  set k : SessionKey := ⟨cipher, e.peek cipher.keySize⟩ with hk
  have width : k.key.length = k.algorithm.keySize := e.length_peek _
  obtain ⟨skeskBody, skesk, written, writable, ofBody, algorithm, opened⟩ :=
    exists_passwordPacket suite hh (k := k) hc width password (e.skip cipher.keySize)
  obtain ⟨dataBody, writable', decrypted, encrypted⟩ := @exists_encrypt_of_keyPacket suite settings hs
    ⟨cipher, some (.password password), armored, time⟩ hc content ht ht' e _ hl k hk _ written
  have octets : Packet.encode ⟨Tag.skesk, skeskBody⟩ ++ Packet.encode ⟨Tag.seipd, dataBody⟩ =
      [(⟨Tag.skesk, skeskBody⟩ : Packet), ⟨Tag.seipd, dataBody⟩].flatMap Packet.encode := by
    simp only [List.flatMap_cons, List.flatMap_nil, List.append_nil]
  rw [octets] at encrypted
  exact ⟨⟨skeskBody, dataBody, skesk, k, writable, writable', ofBody, algorithm, opened, decrypted⟩,
    _, encrypted, literal_binaryBody hs ht ht' hl⟩

/-- A message under a password can be written with every cipher that is offered and usable, declares
that cipher, and gives back the content, the configured name and the date. -/
theorem decrypt_encrypt_password (suite : Suite) {settings : Settings} (hs : settings.Accepted)
    {cipher : Symmetric} (ho : cipher ∈ Symmetric.offered) (hc : cipher ≠ .twofish)
    (password content : Bytes) (armored : Bool) {time : Int} (ht : 0 ≤ time) (ht' : time < 2 ^ 32)
    (e : Entropy) (hl : sealedSize cipher settings.literalName content < 2 ^ 32) :
    ∃ message e', encrypt suite settings ⟨cipher, some (.password password), armored, time⟩ content e =
        .ok (message, e') ∧
      algorithm message = .ok cipher ∧
      decrypt suite (some (.password password)) message =
        .ok ⟨'b', settings.literalName, time, content⟩ := by
  have supported := offered_supported ho hc
  obtain ⟨s, e', encrypted, content⟩ :=
    exists_sealing suite hs supported password content armored ht ht' e hl
  exact ⟨_, e', encrypted, s.algorithm_octets armored, s.decrypt_octets armored content⟩

theorem decrypt_encrypt_password_standard :
    ({} : Settings).Accepted ∧ Symmetric.camellia192 ∈ Symmetric.offered ∧
      Symmetric.camellia192 ≠ .twofish ∧ (0 : Int) ≤ 1700000000 ∧ (1700000000 : Int) < 2 ^ 32 ∧
      sealedSize .camellia192 ({} : Settings).literalName [104, 105] < 2 ^ 32 ∧
      ∃ message e', encrypt .standard {} ⟨.camellia192, some (.password [112, 119]), true, 1700000000⟩
          [104, 105] ⟨fun i => i.toUInt8, 0, fun _ => 0xff⟩ = .ok (message, e') ∧
        algorithm message = .ok .camellia192 ∧
        decrypt .standard (some (.password [112, 119])) message =
          .ok ⟨'b', ({} : Settings).literalName, 1700000000, [104, 105]⟩ := by
  have accepted : ({} : Settings).Accepted := Settings.accepted_default
  have size : sealedSize .camellia192 ({} : Settings).literalName [104, 105] < 2 ^ 32 :=
    sealedSize_empty_lt .camellia192 (by decide)
  exact ⟨accepted, by decide, by decide, by decide, by decide, size,
    decrypt_encrypt_password .standard accepted (by decide) (by decide) [112, 119] [104, 105] true
      (by decide) (by decide) ⟨fun i => i.toUInt8, 0, fun _ => 0xff⟩ size⟩

end Message

end Cryptogram
