import Cryptogram.Proofs.OpenPgp.Failures
import Cryptogram.Proofs.OpenPgp.ForeignMessage
import Cryptogram.Proofs.OpenPgp.PacketFraming

/-!
# Packets that make no difference

What a message is opened with is collected packet by packet up to the first encrypted data
(`ofPackets_cons`).  Markers add nothing to it, nor does what stands behind the encrypted data, so
that they make no difference to what comes out of the message.  A packet of another kind in front of
the encrypted data ends everything (`decrypt_irrelevant`).
-/

namespace Cryptogram.Message

/-! ## Collecting -/

/-- What a packet in front of encrypted data adds to a message. -/
def collect (p : Packet) : Except Failure (Envelope → Envelope) :=
  if p.tag = Tag.skesk then
    (Skesk.ofBody p.body).map fun skesk envelope =>
      { envelope with skesks := skesk :: envelope.skesks }
  else if p.tag = Tag.pkesk then
    (Pkesk.ofBody p.body).map fun pkesk envelope =>
      { envelope with pkesks := pkesk :: envelope.pkesks }
  else if p.tag = Tag.marker then .ok id
  else .error (.unexpectedPacket p.tag)

theorem collect_marker {p : Packet} (marker : p.tag = Tag.marker) : collect p = .ok id := by
  rw [collect, marker]
  rfl

/-- A packet that neither holds a session key or encrypted data nor is a marker. -/
def Unexpected (p : Packet) : Prop :=
  p.tag ∉ [Tag.skesk, Tag.pkesk, Tag.marker, Tag.seipd, Tag.encrypted]

theorem collect_unexpected {p : Packet} (h : Unexpected p) :
    collect p = .error (.unexpectedPacket p.tag) := by
  simp only [Unexpected, List.mem_cons, not_or] at h
  rw [collect, if_neg h.1, if_neg h.2.1, if_neg h.2.2.1]

theorem isData_eq_false_of_unexpected {p : Packet} (h : Unexpected p) : isData p = false := by
  simp only [Unexpected, List.mem_cons, not_or] at h
  simp [isData, h]

theorem isData_eq_false_of_marker {p : Packet} (marker : p.tag = Tag.marker) :
    isData p = false := by
  rw [isData, marker]
  rfl

/-- Encrypted data ends a message; any other packet adds to what the packets behind it hold. -/
theorem ofPackets_cons (p : Packet) (rest : List Packet) :
    Envelope.ofPackets (p :: rest) =
      if isData p then .ok ⟨[], [], p⟩
      else collect p >>= fun add => (Envelope.ofPackets rest).map add := by
  rw [Envelope.ofPackets, collect]
  by_cases skesk : p.tag = Tag.skesk
  · have bare : isData p = false := by rw [isData, skesk]; rfl
    simp only [if_pos skesk, bare]
    cases Skesk.ofBody p.body <;> cases Envelope.ofPackets rest <;> rfl
  by_cases pkesk : p.tag = Tag.pkesk
  · have bare : isData p = false := by rw [isData, pkesk]; rfl
    simp only [if_neg skesk, if_pos pkesk, bare]
    cases Pkesk.ofBody p.body <;> cases Envelope.ofPackets rest <;> rfl
  rw [if_neg skesk, if_neg pkesk, if_neg skesk, if_neg pkesk]
  refine if_congr Iff.rfl rfl ?_
  split_ifs with marker
  · cases Envelope.ofPackets rest <;> rfl
  · rfl

/-- The packets up to encrypted data are collected one after another. -/
theorem ofPackets_append {front : List Packet} (bare : ∀ q ∈ front, isData q = false)
    (rest : List Packet) :
    Envelope.ofPackets (front ++ rest) = front.mapM collect >>= fun adds =>
      (Envelope.ofPackets rest).map fun envelope => adds.foldr (fun add e => add e) envelope := by
  induction front with
  | nil =>
    rw [List.nil_append, List.mapM_nil]
    cases Envelope.ofPackets rest <;> rfl
  | cons q front ih =>
    obtain ⟨first, others⟩ := List.forall_mem_cons.1 bare
    rw [List.cons_append, ofPackets_cons, first, ih others, List.mapM_cons]
    cases collect q <;> cases front.mapM collect <;> cases Envelope.ofPackets rest <;> rfl

/-! ## What makes no difference -/

def withoutMarkers (ps : List Packet) : List Packet := ps.filter fun p => p.tag ≠ Tag.marker

theorem ofPackets_withoutMarkers (ps : List Packet) :
    Envelope.ofPackets (withoutMarkers ps) = Envelope.ofPackets ps := by
  induction ps with
  | nil => rfl
  | cons p ps ih =>
    -- A marker adds nothing; with any other packet the two sides have the same first step.
    by_cases marker : p.tag = Tag.marker
    · rw [withoutMarkers, List.filter_cons_of_neg (by simpa using marker), ← withoutMarkers, ih,
        ofPackets_cons p, isData_eq_false_of_marker marker, collect_marker marker]
      cases Envelope.ofPackets ps <;> rfl
    · rw [withoutMarkers, List.filter_cons_of_pos (by simpa using marker), ← withoutMarkers,
        ofPackets_cons, ih, ofPackets_cons p ps]

/-- What stands behind encrypted data is ignored. -/
theorem ofPackets_append_of_isData {ps : List Packet} {d : Packet} (listed : d ∈ ps)
    (data : isData d = true) (rest : List Packet) :
    Envelope.ofPackets (ps ++ rest) = Envelope.ofPackets ps := by
  induction ps with
  | nil => cases listed
  | cons p ps ih =>
    rw [List.cons_append, ofPackets_cons, ofPackets_cons p ps]
    rcases List.mem_cons.1 listed with rfl | behind
    · rw [if_pos data, if_pos data]
    · rw [ih behind]

/-- In front of encrypted data an unexpected packet is the failure, unless there was one before. -/
theorem exists_ofPackets_error {front : List Packet} (bare : ∀ q ∈ front, isData q = false)
    {p : Packet} (unexpected : Unexpected p) (rest : List Packet) :
    ∃ f, Envelope.ofPackets (front ++ p :: rest) = .error f ∧
      (f = .unexpectedPacket p.tag ∨ ∃ q ∈ front, collect q = .error f) := by
  rw [ofPackets_append bare, ofPackets_cons, isData_eq_false_of_unexpected unexpected,
    collect_unexpected unexpected]
  cases collected : front.mapM collect with
  | ok adds => exact ⟨_, rfl, .inl rfl⟩
  | error f =>
    have earlier : FailsIn (fun f => ∃ q ∈ front, collect q = .error f) (front.mapM collect) :=
      .mapM fun q hq _ failed => ⟨q, hq, failed⟩
    exact ⟨f, rfl, .inr (earlier f collected)⟩

/-! ## Messages -/

theorem readEnvelope_eq {message : Bytes} {ps : List Packet} (h : Packet.read message = .ok ps) :
    Envelope.read message = Envelope.ofPackets ps := by
  rw [Envelope.read, packets_of_read h]
  rfl

variable {ps : List Packet} {tail : Bytes} {more : List Packet}

/-- Written packets hold what they hold, also in front of other packets. -/
theorem readEnvelope_encode_append (written : ∀ p ∈ ps, p.Writable)
    (rest : Packet.read tail = .ok more) :
    Envelope.read (ps.flatMap Packet.encode ++ tail) = Envelope.ofPackets (ps ++ more) :=
  readEnvelope_eq (Packet.read_flatMap_encode_append written rest)

theorem readEnvelope_encode (written : ∀ p ∈ ps, p.Writable) :
    Envelope.read (ps.flatMap Packet.encode) = Envelope.ofPackets ps :=
  readEnvelope_eq (Packet.read_flatMap_encode written)

theorem decrypt_congr (suite : Suite) (opener : Option Opener) {message message' : Bytes}
    (same : Envelope.read message = Envelope.read message') :
    decrypt suite opener message = decrypt suite opener message' := by
  rw [decrypt, decrypt, same]

/-- Whatever is to open a message, markers anywhere in it make no difference, nor do any packets
behind its encrypted data.  With a packet of another kind in front of encrypted data nothing comes
out of it: this packet is the failure, unless there was one before. -/
theorem decrypt_irrelevant (suite : Suite) (opener : Option Opener) :
    (∀ ps ps' : List Packet, (∀ p ∈ ps, p.Writable) → (∀ p ∈ ps', p.Writable) →
      withoutMarkers ps = withoutMarkers ps' →
      decrypt suite opener (ps.flatMap Packet.encode) =
        decrypt suite opener (ps'.flatMap Packet.encode)) ∧
      (∀ (ps : List Packet) (d : Packet) (tail : Bytes) (more : List Packet),
        (∀ p ∈ ps, p.Writable) → d ∈ ps → isData d = true → Packet.read tail = .ok more →
        decrypt suite opener (ps.flatMap Packet.encode ++ tail) =
          decrypt suite opener (ps.flatMap Packet.encode)) ∧
      ∀ (front : List Packet) (p : Packet) (rest : List Packet),
        (∀ q ∈ front ++ p :: rest, q.Writable) → (∀ q ∈ front, isData q = false) → Unexpected p →
        ∃ f, decrypt suite opener ((front ++ p :: rest).flatMap Packet.encode) = .error f ∧
          f.kind = .own .pgpFormat ∧
          (f = .unexpectedPacket p.tag ∨ ∃ q ∈ front, collect q = .error f) := by
  refine ⟨fun ps ps' written written' same => ?_,
    fun ps d tail more written listed data rest => ?_,
    fun front p rest written bare unexpected => ?_⟩
  · apply decrypt_congr
    rw [readEnvelope_encode written, readEnvelope_encode written', ← ofPackets_withoutMarkers, same,
      ofPackets_withoutMarkers]
  · apply decrypt_congr
    rw [readEnvelope_encode written, readEnvelope_encode_append written rest,
      ofPackets_append_of_isData listed data]
  · obtain ⟨f, failed, cause⟩ := exists_ofPackets_error bare unexpected rest
    refine ⟨f, ?_, failsIn_ofPackets _ f failed, cause⟩
    rw [decrypt, readEnvelope_encode written, failed]
    rfl

/-- A message with markers in it, with data without a length behind it, and with the name of a user
in front of its encrypted data. -/
theorem decrypt_irrelevant_idea :
    let key : Packet := ⟨Tag.skesk, [4, 1, 0, 8]⟩
    let data : Packet := ⟨Tag.seipd, ideaBody⟩
    let marker : Packet := ⟨Tag.marker, [0x50, 0x47, 0x50]⟩
    let password : Option Opener := some (.password [112, 119])
    decrypt .standard password ([marker, key, marker, data].flatMap Packet.encode) =
        .ok ⟨'b', "", 0, [104, 105]⟩ ∧
      decrypt .standard password ([key, data].flatMap Packet.encode ++ [0xa7, 1, 2]) =
        .ok ⟨'b', "", 0, [104, 105]⟩ ∧
      ∃ f, decrypt .standard password ([key, ⟨Tag.userId, [65]⟩, data].flatMap Packet.encode) =
          .error f ∧
        f.kind = .own .pgpFormat ∧
        (f = .unexpectedPacket Tag.userId ∨ ∃ q ∈ [key], collect q = .error f) := by
  have written : ∀ ps : List Packet, (∀ p ∈ ps, p.tag < 64 ∧ p.body.length < 2 ^ 32) →
      ∀ p ∈ ps, p.Writable := fun ps fits p hp => ⟨(fits p hp).1, (fits p hp).2⟩
  have opens : decrypt .standard (some (.password [112, 119]))
      ([(⟨Tag.skesk, [4, 1, 0, 8]⟩ : Packet), ⟨Tag.seipd, ideaBody⟩].flatMap Packet.encode) =
        .ok ⟨'b', "", 0, [104, 105]⟩ := decrypt_messageBehind_nil
  obtain ⟨markers, behind, front⟩ := decrypt_irrelevant .standard (some (.password [112, 119]))
  refine ⟨?_, ?_, ?_⟩
  · exact (markers _ _ (written _ (by decide)) (written _ (by decide)) rfl).trans opens
  · exact (behind _ ⟨Tag.seipd, ideaBody⟩ _ [⟨Tag.encrypted, [1, 2]⟩] (written _ (by decide))
      (by simp) rfl rfl).trans opens
  · exact front [⟨Tag.skesk, [4, 1, 0, 8]⟩] ⟨Tag.userId, [65]⟩ [⟨Tag.seipd, ideaBody⟩]
      (written _ (by decide)) (by decide) (by unfold Unexpected; decide)

end Cryptogram.Message
