import Cryptogram.Keyring.Loader
import Cryptogram.Proofs.Failure
import Cryptogram.Proofs.OpenPgp.Sealed
import Cryptogram.Proofs.OpenPgp.UserId

/-!
# Keyrings whose recipients cannot be told

A keyring that is missing, malformed or empty is refused with a failure about keyrings, and so is a
user id that does not stand for one key.  Any other failure comes from a key that is not legible
(`PublicEntry.failsWith_readAll`): the recipients of a whole keyring are told before one is chosen.
-/

namespace Cryptogram

/-- A failure that is about keyrings. -/
def Failure.OfKeyring (f : Failure) : Prop := f.kind.isA .keyring = true

/-- A failure that is not about keyrings. -/
def Failure.Foreign (f : Failure) : Prop := f.kind.isA .keyring = false

theorem Failure.OfKeyring.not_foreign {f : Failure} (h : f.OfKeyring) : ¬ f.Foreign :=
  Bool.eq_false_iff.not.2 (not_not.2 h)

theorem not_failsWith_foreign {α : Type} {run : Except Failure α} (h : FailsIn Failure.OfKeyring run) :
    ¬ FailsWith Failure.Foreign run := by
  rintro ⟨f, failed, foreign⟩
  exact (h f failed).not_foreign foreign

theorem failsIn_ofKeyring_iff {α : Type} {run : Except Failure α} :
    FailsIn Failure.OfKeyring run ↔ ¬ FailsWith Failure.Foreign run := by
  refine ⟨not_failsWith_foreign, fun other f failed => ?_⟩
  cases about : f.kind.isA .keyring with
  | true => exact about
  | false => exact absurd ⟨f, failed, about⟩ other

namespace Keyring

variable {suite : Suite} {location : String}

/-! ## Recipients -/

/-- The numbers of an RSA key. -/
def KeyPacket.HoldsRsa (k : KeyPacket) : Prop :=
  ∃ modulus exponent, k.numbers = [modulus, exponent] ∧
    (⟨modulus, exponent⟩ : Rsa.PublicKey).sound = true

/-- A key that says who its owner is and what messages to the owner are encrypted with: it is secret
in all its parts or public, each user id is one line, and the packet for messages holds RSA numbers. -/
structure RingKey.Legible (k : RingKey) : Prop where
  halves : k.isPublic = true ∨ ∀ e ∈ k.subkeys, e.2.isPublic = false
  userIds : ∀ text ∈ k.userIds, text ≠ ['\n'] ∧ UserId.OneLine text
  numbers : ∀ packet ∈ PublicEntry.encryptionPacket? k, packet.HoldsRsa

namespace PublicEntry

theorem failsIn_handlesOf (userIds : List (List Char)) :
    FailsIn Failure.Foreign (handlesOf userIds) := by
  unfold handlesOf
  split
  · exact .ok _
  · exact .error rfl

theorem failsWith_handlesOf {userIds : List (List Char)} :
    FailsWith Failure.Foreign (handlesOf userIds) ↔
      ¬ ∀ text ∈ userIds, text ≠ ['\n'] ∧ UserId.OneLine text := by
  have split : (userIds.mapM UserId.split?).isSome = true ↔
      ∀ text ∈ userIds, text ≠ ['\n'] ∧ UserId.OneLine text := by
    simp only [← UserId.split?_isSome_iff]
    induction userIds with
    | nil => simp
    | cons text rest ih =>
      rw [List.forall_mem_cons, ← ih, List.mapM_cons]
      cases UserId.split? text <;> cases rest.mapM UserId.split? <;> simp
  rw [← split]
  unfold handlesOf
  cases userIds.mapM UserId.split? with
  | some parts => exact iff_of_false (not_failsWith_ok _) (by simp)
  | none => exact iff_of_true (failsWith_error.2 rfl) (by simp)

theorem failsIn_rsaKey (k : KeyPacket) : FailsIn Failure.Foreign (rsaKey k) := by
  unfold rsaKey Rsa.PublicKey.make
  split
  · dsimp only
    split_ifs
    · exact .ok _
    · exact .error rfl
  · exact .error rfl

theorem failsWith_rsaKey {k : KeyPacket} :
    FailsWith Failure.Foreign (rsaKey k) ↔ ¬ k.HoldsRsa := by
  unfold rsaKey
  split
  · rename_i modulus exponent numbers
    have holds : k.HoldsRsa ↔ (⟨modulus, exponent⟩ : Rsa.PublicKey).sound = true := by
      simp [KeyPacket.HoldsRsa, numbers]
    rw [holds, Rsa.PublicKey.make]
    split_ifs with sound
    · exact iff_of_false (not_failsWith_ok _) (not_not.2 sound)
    · exact iff_of_true (failsWith_error.2 rfl) sound
  · rename_i other
    refine iff_of_true (failsWith_error.2 rfl) ?_
    rintro ⟨modulus, exponent, numbers, -⟩
    exact other modulus exponent numbers

theorem failsWith_ofKey {k : RingKey} : FailsWith Failure.Foreign (ofKey suite k) ↔ ¬ k.Legible := by
  have legible : k.Legible ↔ (k.isPublic = true ∨ ∀ e ∈ k.subkeys, e.2.isPublic = false) ∧
      (∀ text ∈ k.userIds, text ≠ ['\n'] ∧ UserId.OneLine text) ∧
        ∀ packet ∈ encryptionPacket? k, packet.HoldsRsa :=
    ⟨fun h => ⟨h.halves, h.userIds, h.numbers⟩, fun all => ⟨all.1, all.2.1, all.2.2⟩⟩
  rw [legible]
  unfold ofKey
  split_ifs with mixed
  · refine iff_of_true (failsWith_error.2 rfl) fun all => ?_
    simp only [Bool.and_eq_true, Bool.not_eq_true', List.any_eq_true] at mixed
    obtain ⟨secret, e, listed, isPublic⟩ := mixed
    rcases all.1 with h | h
    · rw [secret] at h
      cases h
    · rw [h e listed] at isPublic
      cases isPublic
  have halves : k.isPublic = true ∨ ∀ e ∈ k.subkeys, e.2.isPublic = false := by
    cases isPublic : k.isPublic with
    | true => exact .inl rfl
    | false =>
      rw [isPublic] at mixed
      exact .inr (by simpa using mixed)
  rw [and_iff_right halves, not_and_or, ← failsWith_handlesOf]
  refine failsWith_bind_iff (failsIn_handlesOf _) fun handles _ => ?_
  dsimp only
  cases encryptionPacket? k with
  | none => exact iff_of_false (not_failsWith_ok _) (by simp)
  | some packet =>
    refine (failsWith_bind_left fun key => not_failsWith_ok _).trans (failsWith_rsaKey.trans ?_)
    simp

theorem failsIn_ofKey (suite : Suite) (k : RingKey) : FailsIn Failure.Foreign (ofKey suite k) := by
  unfold ofKey
  split_ifs
  · exact .error rfl
  refine (failsIn_handlesOf _).bind fun handles _ => ?_
  dsimp only
  split
  · exact .ok _
  · exact (failsIn_rsaKey _).bind fun key _ => .ok _

theorem failsIn_select (location userId : String) (entries : List PublicEntry) :
    FailsIn Failure.OfKeyring (select location userId entries) := by
  unfold select
  split
  · exact .error rfl
  · split
    · exact .ok _
    · exact .error rfl
  · exact .error rfl

/-! ## Key ids -/

theorem length_keyId_of_ofKey {k : RingKey} {entry : PublicEntry} (h : ofKey suite k = .ok entry) :
    ∀ e ∈ entry.encryption, e.1.length = 8 := by
  have eight (packet : KeyPacket) : (packet.keyId suite).length = 8 := by
    unfold KeyPacket.keyId KeyPacket.fingerprint
    rw [List.length_drop, Digest.length_hash, suite.size_digest]
    rfl
  unfold ofKey at h
  split_ifs at h
  obtain ⟨handles, -, h⟩ := exists_of_bind_eq_ok h
  dsimp only at h
  cases found : encryptionPacket? k with
  | none =>
    rw [found] at h
    cases h
    rintro _ ⟨⟩
  | some packet =>
    rw [found] at h
    obtain ⟨key, -, h⟩ := exists_of_bind_eq_ok h
    cases h
    rintro _ ⟨⟩
    exact eight packet

/-- The key id of a recipient has eight octets. -/
theorem length_keyId_of_select {location location' userId : String} {data : Bytes}
    {entries : List PublicEntry} {key : EncryptionKey} (read : readAll suite location data = .ok entries)
    (h : select location' userId entries = .ok key) : key.keyId.length = 8 := by
  obtain ⟨keys, -, told⟩ := exists_of_bind_eq_ok read
  have listed {entry : PublicEntry} (candidate : entry ∈ candidates entries userId.toList) :
      entry ∈ entries := by
    unfold candidates at candidate
    dsimp only at candidate
    split_ifs at candidate
    · exact (List.mem_filter.1 candidate).1
    · exact (List.mem_filter.1 candidate).1
  unfold select at h
  split at h
  · cases h
  · rename_i entry only
    have candidate : entry ∈ candidates entries userId.toList := by
      rw [only]
      exact List.mem_singleton_self entry
    obtain ⟨k, -, told⟩ := exists_of_mem_mapM told entry (listed candidate)
    cases encryption : entry.encryption with
    | none =>
      rw [encryption] at h
      cases h
    | some both =>
      rw [encryption] at h
      cases h
      exact length_keyId_of_ofKey told both encryption
  · cases h

end PublicEntry

theorem Ring.failsIn_read (suite : Suite) (location : String) (data : Bytes) :
    FailsIn Failure.OfKeyring (read suite location data) := by
  unfold read
  split
  · exact .error rfl
  · split
    · exact .error rfl
    · exact .ok _

/-- A keyring with a key that is not legible. -/
def Ring.Illegible (suite : Suite) (location : String) (data : Bytes) : Prop :=
  ∃ keys, Ring.read suite location data = .ok keys ∧ ∃ k ∈ keys, ¬ k.Legible

theorem PublicEntry.failsWith_readAll {data : Bytes} :
    FailsWith Failure.Foreign (readAll suite location data) ↔ Ring.Illegible suite location data := by
  unfold readAll Ring.Illegible
  rw [failsWith_bind_right (not_failsWith_foreign (Ring.failsIn_read suite location data))]
  refine exists_congr fun keys => and_congr_right fun _ => ?_
  rw [failsWith_mapM, halts_iff_exists]
  · simp only [failsWith_ofKey]
  · exact fun k _ other => (failsIn_ofKey suite k).exists_ok other

end Keyring

end Cryptogram
