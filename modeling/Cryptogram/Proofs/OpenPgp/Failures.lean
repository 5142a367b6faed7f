import Cryptogram.Proofs.Failure
import Cryptogram.Proofs.OpenPgp.SessionKey
import Cryptogram.Proofs.OpenPgp.SeveralPassphrases

/-!
# What a message can fail with

Octets of any kind are read as a message, so every reader on the way fails only for the form of what
it reads, and every attempt at decryption only for that (`Failure.OfMessage`).  A message has content
then, or fails so, or holds packets that are nested too deeply (`decrypt_ok_or_ofMessage`).
-/

namespace Cryptogram

/-- The failures that a message can be the cause of: those of its form and those of its
decryption. -/
def Failure.OfMessage (f : Failure) : Prop :=
  f.kind.isA .format = true ∨ f.kind.isA .crypto = true

/-! ## Packets -/

namespace Packet

theorem Malformed.ofMessage {f : Failure} (h : Malformed f) : f.OfMessage := by
  left
  rw [h]
  rfl

theorem failsIn_ofMessage {α : Type} {run : Except Failure α} (h : FailsIn Malformed run) :
    FailsIn Failure.OfMessage run :=
  h.mono fun _ => Malformed.ofMessage

theorem failsIn_readExtent (offset : Nat) (data : Bytes) :
    FailsIn Malformed (readExtent offset data) := by
  unfold readExtent
  split
  · exact .error rfl
  dsimp only
  split_ifs
  · exact .ok _
  · split
    · exact .ok _
    · exact .error rfl
  · split
    · exact .ok _
    · exact .error rfl
  · exact .ok _

theorem failsIn_takePart (offset size : Nat) (data : Bytes) :
    FailsIn Malformed (takePart offset size data) := by
  unfold takePart
  dsimp only
  split_ifs
  · exact .ok _
  · exact .error rfl

theorem failsIn_readParts (fuel offset : Nat) (data : Bytes) :
    FailsIn Malformed (readParts fuel offset data) := by
  induction fuel generalizing offset data with
  | zero => exact .error rfl
  | succ fuel ih =>
    rw [readParts]
    refine (failsIn_readExtent offset data).bind fun extent _ => ?_
    refine (failsIn_takePart _ _ _).bind fun part _ => ?_
    dsimp only
    split_ifs
    · exact (ih _ _).bind fun more _ => .ok _
    · exact .ok _

theorem failsIn_readOld (type offset : Nat) (data : Bytes) :
    FailsIn Malformed (readOld type offset data) := by
  unfold readOld
  dsimp only
  split_ifs
  · exact .ok _
  · exact .error rfl
  · exact (failsIn_takePart _ _ _).bind fun body _ => .ok _

theorem failsIn_readOne (fuel offset : Nat) (first : UInt8) (data : Bytes) :
    FailsIn Malformed (readOne fuel offset first data) := by
  unfold readOne
  dsimp only
  split_ifs
  · exact (failsIn_readParts _ _ _).map _
  · exact (failsIn_readOld _ _ _).map _
  · exact .error rfl

theorem failsIn_readWithin (fuel offset : Nat) (data : Bytes) :
    FailsIn Malformed (readWithin fuel offset data) := by
  induction fuel generalizing offset data with
  | zero =>
    cases data with
    | nil => exact .ok _
    | cons first data => exact .error rfl
  | succ fuel ih =>
    cases data with
    | nil => exact .ok _
    | cons first data =>
      rw [readWithin]
      refine (failsIn_readOne _ _ _ _).bind fun reach _ => ?_
      exact (ih _ _).bind fun packets _ => .ok _

end Packet

theorem Armor.failsIn_strip (octets : Bytes) : FailsIn Failure.OfMessage (strip octets) := by
  unfold strip read
  split_ifs
  · split
    · exact .error (.inl rfl)
    · exact .ok _
    · dsimp only
      split_ifs
      · exact .ok _
      · exact .error (.inl rfl)
  · exact .ok _

/-! ## Session key packets -/

namespace StringToKey

theorem failsIn_readSalt (data : Bytes) : FailsIn Packet.Malformed (readSalt data) := by
  unfold readSalt
  split_ifs
  · exact .error rfl
  · exact .ok _

theorem failsIn_read (data : Bytes) : FailsIn Packet.Malformed (read data) := by
  unfold read
  split
  · split
    · exact .error rfl
    · split_ifs
      · exact .ok _
      · exact (failsIn_readSalt _).bind fun salt _ => .ok _
      · refine (failsIn_readSalt _).bind fun salt _ => ?_
        split
        split
        · exact .ok _
        · exact .error rfl
      · exact .error rfl
  · exact .error rfl

end StringToKey

theorem Skesk.failsIn_ofBody (body : Bytes) : FailsIn Packet.Malformed (ofBody body) := by
  unfold ofBody
  split
  · split_ifs
    · exact .error rfl
    · exact .error rfl
    · split
      · exact .error rfl
      · exact (StringToKey.failsIn_read _).bind fun s2k _ => .ok _
  · exact .error rfl

theorem Pkesk.failsIn_ofBody (body : Bytes) : FailsIn Packet.Malformed (ofBody body) := by
  unfold ofBody
  split
  · split
    · split_ifs
      · exact .error rfl
      · split
        · exact .error rfl
        · exact .ok _
    · exact .error rfl
  · exact .error rfl

theorem Mpi.failsIn_read (data : Bytes) : FailsIn Packet.Malformed (read data) := by
  unfold read
  split
  · dsimp only
    split_ifs
    · exact .error rfl
    · exact .ok _
  · exact .error rfl

namespace Message

theorem failsIn_ofPackets (ps : List Packet) : FailsIn Packet.Malformed (Envelope.ofPackets ps) := by
  induction ps with
  | nil => exact .error rfl
  | cons p rest ih =>
    unfold Envelope.ofPackets
    split_ifs
    · exact (Skesk.failsIn_ofBody _).bind fun skesk _ => ih.bind fun envelope _ => .ok _
    · exact (Pkesk.failsIn_ofBody _).bind fun pkesk _ => ih.bind fun envelope _ => .ok _
    · exact .ok _
    · exact ih
    · exact .error rfl

theorem failsIn_readEnvelope (message : Bytes) :
    FailsIn Failure.OfMessage (Envelope.read message) :=
  ((Armor.failsIn_strip message).bind fun _ _ =>
    Packet.failsIn_ofMessage (Packet.failsIn_readWithin _ _ _)).bind
    fun packets _ => Packet.failsIn_ofMessage (failsIn_ofPackets packets)

end Message

/-! ## Ciphers -/

theorem Suite.failsIn_feedback (suite : Suite) (a : Symmetric) (key : Bytes) {iv : Bytes}
    (width : iv.length = a.blockSize) : FailsIn Failure.OfMessage (suite.feedback a key iv) := by
  unfold feedback symmetric Symmetric.primitiveFor
  cases served : a.primitive? with
  | none => exact .error (.inr rfl)
  | some p =>
    dsimp only
    split_ifs
    · have size := suite.size_forward served key
      simp only [Except.map, bind, Except.bind, width, size, if_true]
      exact .ok _
    · exact .error (.inr rfl)

namespace Sealed

variable {suite : Suite}

theorem failsIn_checkHash (plain : Bytes) : FailsIn Failure.OfMessage (checkHash suite plain) := by
  unfold checkHash
  dsimp only
  split_ifs
  · exact .error (.inr rfl)
  · exact .error (.inr rfl)
  · exact .ok _

theorem failsIn_decrypt (k : SessionKey) (body : Bytes) :
    FailsIn Failure.OfMessage (decrypt suite k body) := by
  unfold decrypt
  split
  · exact .error (.inl rfl)
  dsimp only
  split_ifs
  · exact .error (.inl rfl)
  · exact .error (.inl rfl)
  refine (suite.failsIn_feedback k.algorithm k.key (length_zeroBlock k)).bind fun f _ => ?_
  split_ifs
  · exact .error (.inr rfl)
  · exact (failsIn_checkHash _).bind fun _ _ => .ok _

theorem failsIn_decryptBare (k : SessionKey) (body : Bytes) :
    FailsIn Failure.OfMessage (decryptBare suite k body) := by
  unfold decryptBare
  dsimp only
  split_ifs
  · exact .error (.inl rfl)
  refine (suite.failsIn_feedback k.algorithm k.key (length_zeroBlock k)).bind fun f _ => ?_
  split_ifs
  · exact .error (.inr rfl)
  · exact .ok _

end Sealed

namespace Message

variable {suite : Suite}

/-! ## Session keys -/

/-- A password that is not empty derives a key of the size of the algorithm. -/
theorem exists_derive_of_mem (suite : Suite) {password : Bytes} (hp : password ≠ []) {p : Skesk}
    (type : p.s2k.type ∈ StringToKey.derivable) :
    ∃ key, p.s2k.derive suite password p.algorithm.keySize = .ok key ∧
      key.length = p.algorithm.keySize :=
  StringToKey.exists_derive suite type (StringToKey.seed_ne_nil (.inl hp)) Symmetric.keySize_le

theorem failsIn_openSkesk (suite : Suite) {password : Bytes} (hp : password ≠ []) {p : Skesk}
    (type : p.s2k.type ∈ StringToKey.derivable) :
    FailsIn Failure.OfMessage (openSkesk suite password p) := by
  obtain ⟨key, derived, -⟩ := exists_derive_of_mem suite hp type
  unfold openSkesk
  rw [derived]
  simp only [bind, Except.bind]
  split_ifs
  · exact .ok _
  refine (suite.failsIn_feedback p.algorithm key (Bytes.length_zeros _)).bind fun f _ => ?_
  split
  · exact .error (.inr rfl)
  · split
    · exact .error (.inr rfl)
    · split_ifs
      · exact .error (.inr rfl)
      · exact .ok _

theorem failsIn_openPkesk (ring : PrivateKeyring) (p : Pkesk) :
    FailsIn Failure.OfMessage (openPkesk ring p) := by
  unfold openPkesk
  split_ifs
  · exact .ok _
  · exact (Packet.failsIn_ofMessage (Mpi.failsIn_read _)).bind fun _ _ => .ok _

/-- The session keys that an opener gives with the packets in front of encrypted data. -/
inductive Opener.Gives (suite : Suite) (envelope : Envelope) : Opener → SessionKey → Prop
  | password {octets : Bytes} {p : Skesk} {k : SessionKey} (listed : p ∈ envelope.skesks)
      (opened : openSkesk suite octets p = .ok k) : Gives suite envelope (.password octets) k
  | keyring {ring : PrivateKeyring} {p : Pkesk} {ks : List SessionKey} {k : SessionKey}
      (listed : p ∈ envelope.pkesks) (opened : openPkesk ring p = .ok ks) (found : k ∈ ks) :
      Gives suite envelope (.keyring ring) k

theorem length_of_openSkesk {password : Bytes} (hp : password ≠ []) {p : Skesk}
    (type : p.s2k.type ∈ StringToKey.derivable) {k : SessionKey}
    (h : openSkesk suite password p = .ok k) : k.key.length = k.algorithm.keySize := by
  obtain ⟨key, derived, width⟩ := exists_derive_of_mem suite hp type
  unfold openSkesk at h
  rw [derived] at h
  simp only [bind, Except.bind] at h
  split_ifs at h
  · cases h
    exact width
  obtain ⟨f, -, h⟩ := exists_of_bind_eq_ok h
  split at h
  · cases h
  · split at h
    · cases h
    · split_ifs at h with same
      cases h
      exact not_not.1 same

theorem length_of_openPkesk {ring : PrivateKeyring} {p : Pkesk} {ks : List SessionKey}
    (h : openPkesk ring p = .ok ks) {k : SessionKey} (found : k ∈ ks) :
    k.key.length = k.algorithm.keySize := by
  unfold openPkesk at h
  split_ifs at h
  · cases h
    cases found
  obtain ⟨number, -, h⟩ := exists_of_bind_eq_ok h
  cases h
  obtain ⟨key, -, opened⟩ := List.mem_filterMap.1 found
  unfold openWith? at opened
  obtain ⟨payload, -, held⟩ := Option.bind_eq_some_iff.1 opened
  cases given : SessionKey.ofPayload payload with
  | error f =>
    rw [given] at held
    cases held
  | ok k' =>
    rw [given] at held
    cases held
    exact (SessionKey.eq_payload_of_ofPayload given).1

/-- The specifiers of a message that is read can all be used. -/
theorem type_mem_of_ofPackets {ps : List Packet} {envelope : Envelope}
    (h : Envelope.ofPackets ps = .ok envelope) :
    ∀ p ∈ envelope.skesks, p.s2k.type ∈ StringToKey.derivable := by
  induction ps generalizing envelope with
  | nil => cases h
  | cons q rest ih =>
    unfold Envelope.ofPackets at h
    split_ifs at h
    · obtain ⟨skesk, body, h⟩ := exists_of_bind_eq_ok h
      obtain ⟨envelope', others, h⟩ := exists_of_bind_eq_ok h
      cases h
      exact List.forall_mem_cons.2 ⟨Skesk.type_mem_of_ofBody body, ih others⟩
    · obtain ⟨pkesk, -, h⟩ := exists_of_bind_eq_ok h
      obtain ⟨envelope', others, h⟩ := exists_of_bind_eq_ok h
      cases h
      exact fun p hp => ih others p hp
    · cases h
      exact List.forall_mem_nil _
    · exact ih h

theorem type_mem_of_read {message : Bytes} {envelope : Envelope}
    (h : Envelope.read message = .ok envelope) :
    ∀ p ∈ envelope.skesks, p.s2k.type ∈ StringToKey.derivable := by
  unfold Envelope.read at h
  obtain ⟨ps, -, h⟩ := exists_of_bind_eq_ok h
  exact type_mem_of_ofPackets h

/-- A session key that a packet gives has the size that its algorithm asks for. -/
theorem Opener.Gives.make {opener : Opener} {envelope : Envelope} {message : Bytes} {k : SessionKey}
    (h : opener.Gives suite envelope k) (read : Envelope.read message = .ok envelope)
    (given : opener ≠ .password []) : SessionKey.make k.algorithm k.key = .ok k := by
  have length : k.key.length = k.algorithm.keySize := by
    cases h with
    | password listed opened =>
      have nonempty := fun empty => given (congrArg Opener.password empty)
      exact length_of_openSkesk nonempty (type_mem_of_read read _ listed) opened
    | keyring listed opened found => exact length_of_openPkesk opened found
  unfold SessionKey.make
  rw [if_neg fun wrong => wrong.2 length]

/-! ## Searches -/

section Search

variable {allowed : Failure → Prop} {α β : Type} {f : α → Except Failure β} {xs : List α}

/-- A search fails as one attempt does, and so does what it has set aside. -/
theorem failsIn_gather (aside : ErrorClass) (attempts : ∀ x ∈ xs, FailsIn allowed (f x))
    (last : Option Failure) (before : ∀ e ∈ last, allowed e) :
    FailsIn allowed (gather aside f last xs) ∧
      ∀ bs last', gather aside f last xs = .ok (bs, last') → ∀ e ∈ last', allowed e := by
  induction xs generalizing last with
  | nil =>
    refine ⟨.ok _, ?_⟩
    rintro _ _ ⟨⟩
    exact before
  | cons x xs ih =>
    obtain ⟨first, others⟩ := List.forall_mem_cons.1 attempts
    unfold gather
    cases attempt : f x with
    | ok b =>
      obtain ⟨rest, kept⟩ := ih others last before
      refine ⟨rest.map _, fun bs last' h => ?_⟩
      cases gathered : gather aside f last xs with
      | error e =>
        rw [gathered] at h
        cases h
      | ok both =>
        rw [gathered] at h
        cases h
        exact kept _ _ gathered
    | error e =>
      have possible : allowed e := first e attempt
      dsimp only
      split_ifs
      · exact ih others (some e) fun e' same => Option.mem_some.1 same ▸ possible
      · refine ⟨.error possible, ?_⟩
        rintro _ _ ⟨⟩

theorem failsIn_firstOpened (attempts : ∀ x ∈ xs, FailsIn allowed (f x)) {last : Failure}
    (before : allowed last) : FailsIn allowed (firstOpened f last xs) := by
  induction xs generalizing last with
  | nil => exact .error before
  | cons x xs ih =>
    obtain ⟨first, others⟩ := List.forall_mem_cons.1 attempts
    unfold firstOpened
    cases attempt : f x with
    | ok b => exact .ok b
    | error e =>
      have possible : allowed e := first e attempt
      dsimp only
      split_ifs
      · exact ih others possible
      · exact .error possible

end Search

theorem failsIn_sessionKeys {opener : Option Opener} (given : opener ≠ some (.password []))
    {envelope : Envelope} (types : ∀ p ∈ envelope.skesks, p.s2k.type ∈ StringToKey.derivable) :
    FailsIn Failure.OfMessage (sessionKeys suite opener envelope) := by
  unfold sessionKeys
  cases opener with
  | none => exact .error (.inr rfl)
  | some opener =>
    cases opener with
    | password octets =>
      have nonempty : octets ≠ [] := fun empty => given (congrArg (some ∘ Opener.password) empty)
      obtain ⟨search, kept⟩ := failsIn_gather .sessionKey
        (fun p hp => failsIn_openSkesk suite nonempty (types p hp)) none (by simp)
      refine search.bind fun found gathered => ?_
      split
      · exact .error (.inr rfl)
      · exact .error (kept _ _ gathered _ rfl)
      · exact .ok _
    | keyring ring =>
      refine (FailsIn.mapM fun p _ => failsIn_openPkesk ring p).bind fun found _ => ?_
      split
      · exact .error (.inr rfl)
      · exact .ok _

/-! ## Content -/

theorem failsIn_openData (suite : Suite) (data : Packet) (k : SessionKey) :
    FailsIn Failure.OfMessage (openData suite data k) := by
  unfold openData
  split_ifs
  · exact Sealed.failsIn_decrypt k data.body
  · exact Sealed.failsIn_decryptBare k data.body

theorem failsIn_decompress (body : Bytes) : FailsIn Failure.OfMessage (decompress body) := by
  unfold decompress
  split
  · exact .error (.inl rfl)
  · split
    · exact .error (.inl rfl)
    · split
      · exact .ok _
      · exact .error (.inl rfl)

theorem failsIn_ofBody (body : Bytes) : FailsIn Failure.OfMessage (Literal.ofBody body) := by
  unfold Literal.ofBody
  split
  · split_ifs
    · exact .error (.inl rfl)
    · exact .error (.inl rfl)
    · exact .ok _
  · exact .error (.inl rfl)

/-- Packets that are compressed at least so many times, one in the other. -/
inductive Nested : Nat → Bytes → Prop
  | zero (inner : Bytes) : Nested 0 inner
  | succ {n : Nat} {inner unpacked : Bytes} {ps rest : List Packet} {p : Packet}
      (read : Packet.read inner = .ok ps) (first : ps.dropWhile isSkipped = p :: rest)
      (compressed : p.tag = Tag.compressed) (holds : decompress p.body = .ok unpacked)
      (deeper : Nested n unpacked) : Nested (n + 1) inner

/-- Beside the failures of a message there is only the one for packets that are nested too deeply. -/
theorem failsIn_literalWithin (n : Nat) (inner : Bytes) :
    FailsIn (fun f => f.OfMessage ∨ f = .nestedTooDeeply ∧ Nested n inner)
      (literalWithin n inner) := by
  induction n generalizing inner with
  | zero => exact .error (.inr ⟨rfl, .zero inner⟩)
  | succ n ih =>
    rw [literalWithin]
    refine ((Packet.failsIn_readWithin _ _ _).mono fun _ h => .inl h.ofMessage).bind
      fun ps read => ?_
    split
    · exact .error (.inl (.inl rfl))
    rename_i p rest first
    split_ifs with literal compressed
    · exact (failsIn_ofBody _).mono fun _ => .inl
    · refine ((failsIn_decompress _).mono fun _ => .inl).bind fun unpacked holds => ?_
      refine (ih unpacked).mono fun f possible => possible.imp_right fun nested => ⟨nested.1, ?_⟩
      exact .succ read first compressed holds nested.2
    · exact .error (.inl (.inl rfl))

theorem literalWithin_eq_nestedTooDeeply_iff {n : Nat} {inner : Bytes} :
    literalWithin n inner = .error .nestedTooDeeply ↔ Nested n inner := by
  constructor
  · intro h
    rcases failsIn_literalWithin n inner _ h with (format | crypto) | ⟨-, nested⟩
    · cases format
    · cases crypto
    · exact nested
  · intro h
    induction h with
    | zero inner => rfl
    | succ read first compressed holds deeper ih =>
      have notLiteral : ¬ Tag.compressed = Tag.literal := by decide
      rw [literalWithin, read]
      simp only [bind, Except.bind, first, compressed, if_neg notLiteral, if_true, holds, ih]

/-! ## Messages -/

/-- The packets that a message holds for an opener, under the first session key that fits. -/
def Contains (suite : Suite) (opener : Option Opener) (message inner : Bytes) : Prop :=
  ∃ envelope keys, Envelope.read message = .ok envelope ∧
    sessionKeys suite opener envelope = .ok keys ∧
      firstOpened (openData suite envelope.data) .noSessionKeyFits keys = .ok inner

theorem failsIn_decrypt {opener : Option Opener} (given : opener ≠ some (.password []))
    (message : Bytes) :
    FailsIn (fun f => f.OfMessage ∨
        f = .nestedTooDeeply ∧ ∃ inner, Contains suite opener message inner ∧ Nested maxNesting inner)
      (decrypt suite opener message) := by
  unfold decrypt
  refine ((failsIn_readEnvelope message).mono fun _ => .inl).bind fun envelope read => ?_
  refine ((failsIn_sessionKeys given (type_mem_of_read read)).mono fun _ => .inl).bind
    fun keys gathered => ?_
  have unopened : Failure.OfMessage .noSessionKeyFits := .inr rfl
  refine ((failsIn_firstOpened (fun k _ => failsIn_openData suite envelope.data k) unopened).mono
    fun _ => .inl).bind fun inner opened => ?_
  refine (failsIn_literalWithin maxNesting inner).mono fun f possible => ?_
  exact possible.imp_right fun nested =>
    ⟨nested.1, inner, ⟨envelope, keys, read, gathered, opened⟩, nested.2⟩

/-- With a password that is not empty, with private keys or without either, every message has content
or fails for its form or its decryption, unless it holds packets that are nested too deeply; and all
session keys that are tried have the size that their algorithm asks for. -/
theorem decrypt_ok_or_ofMessage (suite : Suite) {opener : Option Opener}
    (given : opener ≠ some (.password [])) (message : Bytes) :
    ((∃ content, decrypt suite opener message = .ok content) ∨
      (∃ f, decrypt suite opener message = .error f ∧
        (f.kind.isA .format = true ∨ f.kind.isA .crypto = true)) ∨
      (decrypt suite opener message = .error .nestedTooDeeply ∧
        ∃ inner, Contains suite opener message inner ∧ Nested maxNesting inner)) ∧
    ∀ tried ∈ opener, ∀ envelope k, Envelope.read message = .ok envelope →
      tried.Gives suite envelope k → SessionKey.make k.algorithm k.key = .ok k := by
  constructor
  · cases e : decrypt suite opener message with
    | ok content => exact .inl ⟨content, rfl⟩
    | error f =>
      rcases failsIn_decrypt given message f e with possible | ⟨rfl, nested⟩
      · exact .inr (.inl ⟨f, rfl, possible⟩)
      · exact .inr (.inr ⟨rfl, nested⟩)
  · rintro tried same envelope k read gives
    refine gives.make read ?_
    rintro rfl
    exact given same

/-- A message whose session key is for a cipher that is not usable. -/
theorem decrypt_ok_or_ofMessage_twofish :
    let opener : Option Opener := some (.password [112, 119])
    let message := messageBehind [0xc3, 0x04, 0x04, 0x0a, 0x00, 0x08]
    opener ≠ some (.password []) ∧ ∃ f, decrypt .standard opener message = .error f ∧
      (f.kind.isA .format = true ∨ f.kind.isA .crypto = true) := by
  intro opener message
  have failed : decrypt .standard opener message = .error (.noSymmetric .twofish) := by
    decide
  have given : opener ≠ some (.password []) := by decide
  refine ⟨given, ?_⟩
  obtain ⟨content, opened⟩ | possible | ⟨nested, -⟩ :=
    (decrypt_ok_or_ofMessage .standard given message).1
  · rw [failed] at opened
    cases opened
  · exact possible
  · rw [failed] at nested
    cases nested

end Message

end Cryptogram
