import Cryptogram.OpenPgp.SessionKey
import Cryptogram.Proofs.Failure
import Cryptogram.Proofs.OpenPgp.StringToKey

/-!
# Payloads of session keys

A session key is found in its payload, and nothing else is a payload: the algorithm tells the size
of the key, and the checksum is that of the key.  So a payload with another octet in its key or its
checksum is refused (`SessionKey.ofPayload_eq_ok_iff_payload`).
-/

namespace Cryptogram

/-- The failures of the class of session keys. -/
def Failure.OfSessionKey (f : Failure) : Prop := f.kind = .own .sessionKey

namespace SessionKey

theorem length_payload (k : SessionKey) : k.payload.length = k.key.length + 3 := by
  rw [payload, List.length_append, List.length_cons, Bytes.length_ofNat]

theorem toNat_checksum (k : SessionKey) :
    Bytes.toNat (Bytes.ofNat 2 k.checksum) = k.checksum :=
  Bytes.toNat_ofNat_of_lt (Nat.mod_lt _ (by decide))

/-- A key of the size that its algorithm asks for is found in its payload. -/
theorem ofPayload_payload {k : SessionKey} (hk : k.key.length = k.algorithm.keySize) :
    ofPayload k.payload = .ok k := by
  have two : (Bytes.ofNat 2 k.checksum).length = 2 := Bytes.length_ofNat _ _
  have behind : (k.key ++ Bytes.ofNat 2 k.checksum).length - 2 = k.key.length := by
    rw [List.length_append, two]
    rfl
  have enough : ¬ (k.key ++ Bytes.ofNat 2 k.checksum).length < 2 := by
    rw [List.length_append, two]
    omega
  rw [payload, List.cons_append, ofPayload]
  dsimp only
  rw [if_neg enough, Symmetric.toNat_id, Symmetric.ofId?_id, behind]
  dsimp only
  rw [List.take_left, List.drop_left, if_neg (not_not.2 hk), toNat_checksum]
  exact if_neg (not_not.2 rfl)

/-- Only payloads of keys of the right size are accepted. -/
theorem eq_payload_of_ofPayload {payload : Bytes} {k : SessionKey} (h : ofPayload payload = .ok k) :
    k.key.length = k.algorithm.keySize ∧ payload = k.payload := by
  match payload with
  | [] => cases h
  | id :: rest =>
    rw [ofPayload] at h
    split_ifs at h with short
    cases known : Symmetric.ofId? id.toNat with
    | none =>
      rw [known] at h
      cases h
    | some a =>
      rw [known] at h
      dsimp only at h
      split_ifs at h with size sum
      cases h
      have two : (rest.drop (rest.length - 2)).length = 2 := by
        rw [List.length_drop]
        omega
      have tail := Bytes.ofNat_toNat (rest.drop (rest.length - 2))
      rw [two, not_not.1 sum] at tail
      refine ⟨not_not.1 size, ?_⟩
      rw [SessionKey.payload, tail, List.cons_append, List.take_append_drop,
        Symmetric.eq_of_ofId? known]

theorem ofPayload_eq_ok_iff {payload : Bytes} {k : SessionKey} :
    ofPayload payload = .ok k ↔ k.key.length = k.algorithm.keySize ∧ payload = k.payload := by
  constructor
  · exact eq_payload_of_ofPayload
  · rintro ⟨size, rfl⟩
    exact ofPayload_payload size

theorem failsIn_ofPayload (payload : Bytes) :
    FailsIn Failure.OfSessionKey (ofPayload payload) := by
  unfold ofPayload
  split
  · split_ifs
    · exact .error rfl
    · split
      · exact .error rfl
      · dsimp only
        split_ifs
        · exact .error rfl
        · exact .error rfl
        · exact .ok _
  · exact .error rfl

/-! ## Payloads with another octet -/

theorem checksum_inj {k k' : SessionKey}
    (h : Bytes.ofNat 2 k.checksum = Bytes.ofNat 2 k'.checksum) : k.checksum = k'.checksum := by
  rw [← toNat_checksum k, h, toNat_checksum]

/-- A single octet cannot change the sum of a key by a multiple of 65536. -/
theorem checksum_ne {k k' : SessionKey} {i : Nat} (h : i < k.key.length) {b : UInt8}
    (other : k.key[i] ≠ b) (changed : k.key.set i b = k'.key) : k.checksum ≠ k'.checksum := by
  have sums := Bytes.sum_set h b
  have differ : k.key[i].toNat ≠ b.toNat := fun same => other (UInt8.toNat_inj.1 same)
  have here := k.key[i].toNat_lt
  have there := b.toNat_lt
  rw [changed] at sums
  rw [checksum, checksum]
  omega

/-- Where one octet of a key with its checksum is another, it is no key with its checksum. -/
theorem set_ne_checked {k k' : SessionKey} (same : k.key.length = k'.key.length) {i : Nat}
    (h : i < (k.key ++ Bytes.ofNat 2 k.checksum).length) {b : UInt8}
    (other : (k.key ++ Bytes.ofNat 2 k.checksum)[i] ≠ b) :
    (k.key ++ Bytes.ofNat 2 k.checksum).set i b ≠ k'.key ++ Bytes.ofNat 2 k'.checksum := by
  intro equal
  by_cases inKey : i < k.key.length
  · rw [List.set_append_left _ _ inKey] at equal
    rw [List.getElem_append_left inKey] at other
    obtain ⟨changed, sums⟩ := List.append_inj equal (by rw [List.length_set, same])
    exact checksum_ne inKey other changed (checksum_inj sums)
  · rw [List.set_append_right _ _ (by omega)] at equal
    rw [List.getElem_append_right (by omega)] at other
    obtain ⟨keys, changed⟩ := List.append_inj equal same
    have sums : k'.checksum = k.checksum := by rw [checksum, checksum, keys]
    rw [sums] at changed
    have place : i - k.key.length < (Bytes.ofNat 2 k.checksum).length := by
      rw [List.length_append] at h
      omega
    have there : (Bytes.ofNat 2 k.checksum)[i - k.key.length]? = some b := by
      rw [← List.getElem?_set_self place, changed]
    exact other (List.getElem?_eq_some_iff.1 there).2

theorem set_ne_payload {k k' : SessionKey} (size : k.key.length = k.algorithm.keySize)
    (size' : k'.key.length = k'.algorithm.keySize) {i : Nat} (h : i < k.payload.length)
    (behind : 1 ≤ i) {b : UInt8} (other : k.payload[i] ≠ b) : k.payload.set i b ≠ k'.payload := by
  obtain ⟨j, rfl⟩ : ∃ j, i = j + 1 := ⟨i - 1, by omega⟩
  intro equal
  obtain ⟨ids, tails⟩ := List.cons.inj equal
  have algorithms : k.algorithm = k'.algorithm := Symmetric.eq_of_toUInt8_id ids
  have lengths : k.key.length = k'.key.length := by rw [size, size', algorithms]
  exact set_ne_checked lengths (Nat.lt_of_succ_lt_succ h) other tails

/-- A session key is returned exactly for its payload.  Everything else is refused, and so is a
payload with another octet behind that of the algorithm. -/
theorem ofPayload_eq_ok_iff_payload (payload : Bytes) :
    (∀ k, ofPayload payload = .ok k ↔
      k.key.length = k.algorithm.keySize ∧ payload = k.payload) ∧
    ((∃ k : SessionKey, k.key.length = k.algorithm.keySize ∧ payload = k.payload) ∨
      FailsWith Failure.OfSessionKey (ofPayload payload)) ∧
    ∀ k, ofPayload payload = .ok k → ∀ (i : Nat) (h : i < payload.length) (b : UInt8),
      1 ≤ i → payload[i] ≠ b → FailsWith Failure.OfSessionKey (ofPayload (payload.set i b)) := by
  have refused {payload : Bytes} (none : ∀ k, ofPayload payload ≠ .ok k) :
      FailsWith Failure.OfSessionKey (ofPayload payload) := by
    by_contra other
    obtain ⟨k, returned⟩ := (failsIn_ofPayload payload).exists_ok other
    exact none k returned
  refine ⟨fun k => ofPayload_eq_ok_iff, ?_, fun k returned i h b behind other => ?_⟩
  · by_cases valid : ∃ k, ofPayload payload = .ok k
    · obtain ⟨k, returned⟩ := valid
      exact .inl ⟨k, ofPayload_eq_ok_iff.1 returned⟩
    · exact .inr (refused (not_exists.1 valid))
  · obtain ⟨size, rfl⟩ := ofPayload_eq_ok_iff.1 returned
    refine refused fun k' accepted => ?_
    obtain ⟨size', equal⟩ := ofPayload_eq_ok_iff.1 accepted
    exact set_ne_payload size size' h behind other equal

/-- The key of an algorithm that has a size, and that of one that has none. -/
theorem ofPayload_eq_ok_iff_payload_des :
    (ofPayload [6, 1, 2, 3, 4, 5, 6, 7, 8, 0, 36] = .ok ⟨.des, [1, 2, 3, 4, 5, 6, 7, 8]⟩ ∧
      FailsWith Failure.OfSessionKey (ofPayload [6, 1, 2, 3, 4, 5, 6, 7, 9, 0, 36])) ∧
    ofPayload [5, 0, 0] = .ok ⟨.safer, []⟩ ∧
      FailsWith Failure.OfSessionKey (ofPayload [5, 0, 1]) := by
  obtain ⟨des, -, desRefused⟩ :=
    ofPayload_eq_ok_iff_payload [6, 1, 2, 3, 4, 5, 6, 7, 8, 0, 36]
  obtain ⟨safer, -, saferRefused⟩ := ofPayload_eq_ok_iff_payload [5, 0, 0]
  have desKey := (des ⟨.des, [1, 2, 3, 4, 5, 6, 7, 8]⟩).2 ⟨rfl, rfl⟩
  have saferKey := (safer ⟨.safer, []⟩).2 ⟨rfl, rfl⟩
  exact ⟨⟨desKey, desRefused _ desKey 8 (by decide) 9 (by decide) (by decide)⟩,
    saferKey, saferRefused _ saferKey 2 (by decide) 1 (by decide) (by decide)⟩

end SessionKey

end Cryptogram
