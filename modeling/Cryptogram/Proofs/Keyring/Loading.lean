import Cryptogram.Keyring.Loader
import Cryptogram.Proofs.Keyring.Unlocking
import Cryptogram.Proofs.Validation.Rules

/-!
# Keyrings that cannot be loaded

What was found out about the octets of a keyring holds for a loader with a memory
(`Loader.failsWith_publicKey`), and for any source that refuses keyrings only with failures about them
(`KeyringSource.failsWith_recipient`).
-/

namespace Cryptogram

namespace Keyring

variable {suite : Suite} {l : Loader} {location userId : String} {passphrase : Bytes}

theorem Shelf.failsIn_read (s : Shelf) (location : String) :
    FailsIn Failure.OfKeyring (s.read location) := by
  unfold Shelf.read
  split
  · exact .ok _
  · exact .error rfl

namespace Loader

/-- What is in the memory is not read again. -/
theorem failsWith_entries {data : Bytes} :
    FailsWith Failure.Foreign (l.entries suite location data).1 ↔
      l.cache.find? ((suite.digest .sha256).hash data) = none ∧
        Ring.Illegible suite location data := by
  unfold entries
  rw [Cache.getOrLoad_eq]
  cases l.cache.find? ((suite.digest .sha256).hash data) with
  | some known => exact iff_of_false (not_failsWith_ok _) (by simp)
  | none =>
    rw [and_iff_right rfl, ← PublicEntry.failsWith_readAll]
    dsimp only
    cases PublicEntry.readAll suite location data <;> rfl

theorem failsWith_publicKey :
    FailsWith Failure.Foreign (l.publicKey suite location userId).1 ↔
      ∃ data, l.shelf.read location = .ok data ∧
        l.cache.find? ((suite.digest .sha256).hash data) = none ∧
          Ring.Illegible suite location data := by
  unfold publicKey
  cases read : l.shelf.read location with
  | error f =>
    have about : f.OfKeyring := l.shelf.failsIn_read location f read
    exact iff_of_false (not_failsWith_foreign (.error about)) (by simp)
  | ok data =>
    dsimp only
    rw [failsWith_bind_left fun _ => not_failsWith_foreign (PublicEntry.failsIn_select _ _ _),
      failsWith_entries]
    simp

theorem failsWith_privateKeyring :
    FailsWith Failure.Foreign (l.privateKeyring suite location passphrase) ↔
      ∃ data, l.shelf.read location = .ok data ∧ Ring.Breaks suite location passphrase data := by
  unfold privateKeyring
  rw [failsWith_bind_right (not_failsWith_foreign (Shelf.failsIn_read _ _))]
  simp only [failsWith_readPrivate]

end Loader

end Keyring

namespace KeyringSource

open Keyring

/-- A source that refuses keyrings only with failures about keyrings. -/
def Serves (source : KeyringSource) : Prop :=
  ∀ location, FailsIn Failure.OfKeyring (source (.text location))

theorem serves_ofShelf (shelf : Shelf) : (ofShelf shelf).Serves := fun location =>
  shelf.failsIn_read location

variable {suite : Suite} {source : KeyringSource} {location userId passphrase : String}

theorem failsWith_recipient (serves : source.Serves) :
    FailsWith Failure.Foreign (Resolution.recipient suite source (.text location) (.text userId)) ↔
      ∃ data, source (.text location) = .ok data ∧ Ring.Illegible suite location data := by
  unfold Resolution.recipient
  rw [failsWith_bind_right (not_failsWith_foreign (serves location))]
  refine exists_congr fun data => and_congr_right fun _ => ?_
  rw [failsWith_bind_left fun _ => not_failsWith_foreign (PublicEntry.failsIn_select _ _ _),
    PublicEntry.failsWith_readAll]
  rfl

theorem length_keyId_of_recipient {value value' : HostValue} {key : EncryptionKey}
    (h : Resolution.recipient suite source value value' = .ok key) : key.keyId.length = 8 := by
  unfold Resolution.recipient at h
  obtain ⟨data, -, h⟩ := exists_of_bind_eq_ok h
  obtain ⟨entries, read, h⟩ := exists_of_bind_eq_ok h
  split at h
  · exact PublicEntry.length_keyId_of_select read h
  · split_ifs at h

theorem failsWith_privateKeys (serves : source.Serves) :
    FailsWith Failure.Foreign (source.privateKeys suite (.text location) passphrase) ↔
      ∃ data, source (.text location) = .ok data ∧
        Ring.Breaks suite location (Text.utf8 passphrase) data := by
  unfold privateKeys
  rw [failsWith_bind_right (not_failsWith_foreign (serves location))]
  simp only [failsWith_readPrivate]
  rfl

end KeyringSource

end Cryptogram
