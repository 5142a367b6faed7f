import Cryptogram.OpenPgp.EncryptedKey
import Cryptogram.Proofs.Derivation
import Cryptogram.Proofs.Failure

/-!
# String-to-key there and back

The specifiers that packets may hold are read as they were written, and nothing else is
(`read_eq_ok_iff`, `write_specifier`).  They give a key of the size that is asked for unless there is
nothing to hash (`exists_derive`).  Those that are made for messages are a case of this
(`specifier_freshWritten`, `derive_fresh`).
-/

namespace Cryptogram

theorem HashName.ofId?_id (h : HashName) : HashName.ofId? h.id = some h := by
  cases h <;> rfl

theorem Symmetric.ofId?_id (a : Symmetric) : Symmetric.ofId? a.id = some a := by
  cases a <;> rfl

theorem HashName.toNat_id (h : HashName) : h.id.toUInt8.toNat = h.id := by
  cases h <;> rfl

theorem Symmetric.toNat_id (a : Symmetric) : a.id.toUInt8.toNat = a.id := by
  cases a <;> rfl

theorem HashName.eq_of_ofId? {octet : UInt8} {h : HashName}
    (known : HashName.ofId? octet.toNat = some h) : octet = h.id.toUInt8 := by
  have same : h.id = octet.toNat := by simpa using List.find?_some known
  rw [same, Bytes.toUInt8_toNat]

theorem Symmetric.eq_of_ofId? {octet : UInt8} {a : Symmetric}
    (known : Symmetric.ofId? octet.toNat = some a) : octet = a.id.toUInt8 := by
  have same : a.id = octet.toNat := by simpa using List.find?_some known
  rw [same, Bytes.toUInt8_toNat]

theorem Symmetric.eq_of_toUInt8_id {a b : Symmetric} (h : a.id.toUInt8 = b.id.toUInt8) : a = b := by
  have same : a.id = b.id := by rw [← toNat_id a, h, toNat_id]
  exact Option.some.inj <| by rw [← ofId?_id a, same, ofId?_id]

namespace StringToKey

/-! ## Counts -/

theorem encodeCount_lt (count : Int) : encodeCount count < 256 := by
  unfold encodeCount
  cases e : (List.range 256).find? fun coded => decide (count ≤ decodeCount coded) with
  | none => decide
  | some coded => exact List.mem_range.1 (List.mem_of_find?_eq_some e)

/-- From one coded count to the next, those of one exponent and the first of the next exponent alike,
the count grows by what the lowest bit of the mantissa stands for. -/
theorem decodeCount_succ (coded : Nat) :
    decodeCount (coded + 1) = decodeCount coded + 2 ^ (coded / 16 + 6) := by
  unfold decodeCount
  rw [Nat.shiftLeft_eq, Nat.shiftLeft_eq]
  by_cases last : coded % 16 = 15
  · have exponent : (coded + 1) / 16 + 6 = coded / 16 + 6 + 1 := by omega
    have mantissa : (coded + 1) % 16 = 0 := by omega
    rw [exponent, mantissa, last, Nat.pow_succ]
    omega
  · have exponent : (coded + 1) / 16 = coded / 16 := by omega
    have mantissa : (coded + 1) % 16 = coded % 16 + 1 := by omega
    rw [exponent, mantissa, ← Nat.add_assoc, Nat.succ_mul]

theorem strictMono_decodeCount : StrictMono decodeCount :=
  strictMono_nat_of_lt_succ fun coded => by
    have step := Nat.two_pow_pos (coded / 16 + 6)
    rw [decodeCount_succ]
    omega

theorem encodeCount_decodeCount {coded : Nat} (h : coded < 256) :
    encodeCount (decodeCount coded) = coded := by
  have found : (List.range 256).find? (fun k => decide ((decodeCount coded : Int) ≤ decodeCount k)) =
      some coded := by
    rw [List.find?_range_eq_some]
    refine ⟨decide_eq_true (Int.le_refl _), List.mem_range.2 h, fun k hk => ?_⟩
    have less := strictMono_decodeCount hk
    simp only [Bool.not_eq_eq_eq_not, Bool.not_true, decide_eq_false_iff_not]
    omega
  rw [encodeCount, found, Option.getD_some]

/-- A rounded count is written as it is. -/
theorem encodeCount_roundCount (count : Int) : encodeCount (roundCount count) = encodeCount count :=
  encodeCount_decodeCount (encodeCount_lt count)

/-! ## Reading and writing -/

/-- The specifiers that packets may hold. -/
inductive Written
  | simple (hash : HashName)
  | salted (hash : HashName) (salt : Bytes) (eight : salt.length = 8)
  | iterated (hash : HashName) (salt : Bytes) (eight : salt.length = 8) (coded : UInt8)

namespace Written

def octets : Written → Bytes
  | .simple hash => [0, hash.id.toUInt8]
  | .salted hash salt _ => [1, hash.id.toUInt8] ++ salt
  | .iterated hash salt _ coded => [3, hash.id.toUInt8] ++ salt ++ [coded]

/-- The specifier that the octets stand for. -/
def specifier : Written → StringToKey
  | .simple hash => ⟨StringToKey.simple, hash, [], 0⟩
  | .salted hash salt _ => ⟨StringToKey.salted, hash, salt, 0⟩
  | .iterated hash salt _ coded => ⟨StringToKey.iterated, hash, salt, decodeCount coded.toNat⟩

theorem two_le_length_octets (w : Written) : 2 ≤ w.octets.length := by
  cases w <;> simp [octets]

end Written

theorem readSalt_append {salt : Bytes} (eight : salt.length = 8) (rest : Bytes) :
    readSalt (salt ++ rest) = .ok (salt, rest) := by
  rw [readSalt, if_neg (by rw [List.length_append]; omega), List.take_left' eight,
    List.drop_left' eight]

/-- A specifier is read as it was written, whatever follows. -/
theorem read_octets (w : Written) (rest : Bytes) :
    read (w.octets ++ rest) = .ok (w.specifier, rest) := by
  cases w with
  | simple hash =>
    rw [Written.octets, List.cons_append, List.cons_append, read, HashName.toNat_id, HashName.ofId?_id]
    rfl
  | salted hash salt eight =>
    rw [Written.octets, List.append_assoc, List.cons_append, List.cons_append, read,
      HashName.toNat_id, HashName.ofId?_id]
    dsimp only
    rw [if_neg (by decide), if_pos rfl, List.nil_append, readSalt_append eight]
    rfl
  | iterated hash salt eight coded =>
    rw [Written.octets, List.append_assoc, List.append_assoc, List.cons_append, List.cons_append,
      read, HashName.toNat_id, HashName.ofId?_id]
    dsimp only
    rw [if_neg (by decide), if_neg (by decide), if_pos rfl, List.nil_append, readSalt_append eight]
    rfl

theorem readSalt_eq_ok {data salt rest : Bytes} (h : readSalt data = .ok (salt, rest)) :
    salt.length = 8 ∧ data = salt ++ rest := by
  unfold readSalt at h
  split_ifs at h with short
  cases h
  exact ⟨List.length_take_of_le (by omega), (List.take_append_drop 8 data).symm⟩

/-- Only written specifiers are read. -/
theorem exists_written_of_read {data rest : Bytes} {s : StringToKey}
    (h : read data = .ok (s, rest)) : ∃ w : Written, w.specifier = s ∧ data = w.octets ++ rest := by
  match data with
  | [] => cases h
  | [_] => cases h
  | type :: id :: data =>
    rw [read] at h
    cases known : HashName.ofId? id.toNat with
    | none =>
      rw [known] at h
      cases h
    | some hash =>
      rw [known] at h
      dsimp only at h
      obtain rfl := HashName.eq_of_ofId? known
      split_ifs at h with alone behindSalt repeated
      · cases h
        exact ⟨.simple hash, rfl, by rw [alone]; rfl⟩
      · obtain ⟨⟨salt, behind⟩, front, given⟩ := exists_of_bind_eq_ok h
        obtain ⟨eight, rfl⟩ := readSalt_eq_ok front
        cases given
        exact ⟨.salted hash salt eight, rfl, by rw [behindSalt]; rfl⟩
      · obtain ⟨⟨salt, behind⟩, front, given⟩ := exists_of_bind_eq_ok h
        obtain ⟨eight, rfl⟩ := readSalt_eq_ok front
        rcases behind with _ | ⟨coded, behind⟩
        · cases given
        · cases given
          exact ⟨.iterated hash salt eight coded, rfl, by rw [repeated]; simp [Written.octets]⟩

/-- What is read is what is written, and what follows it is left over. -/
theorem read_eq_ok_iff {data rest : Bytes} {s : StringToKey} :
    read data = .ok (s, rest) ↔ ∃ w : Written, w.specifier = s ∧ data = w.octets ++ rest := by
  constructor
  · exact exists_written_of_read
  · rintro ⟨w, rfl, rfl⟩
    exact read_octets w rest

theorem Written.type_mem (w : Written) : w.specifier.type ∈ derivable := by
  cases w <;> exact of_decide_eq_true rfl

/-- A specifier that was read is written as it was: its count is one that can be written. -/
theorem write_specifier (w : Written) : w.specifier.write = .ok w.octets := by
  cases w with
  | simple hash => rfl
  | salted hash salt eight => rfl
  | iterated hash salt eight coded =>
    have same : (encodeCount (decodeCount coded.toNat)).toUInt8 = coded := by
      rw [encodeCount_decodeCount coded.toNat_lt, Bytes.toUInt8_toNat]
    rw [Written.specifier, write]
    dsimp only
    rw [if_neg (by decide), if_neg (by decide), if_neg (by decide), if_pos rfl, same]
    rfl

variable (hash : HashName) (count : Int) (e : Entropy)

theorem fresh_eq : fresh hash count e = (⟨iterated, hash, e.peek 8, roundCount count⟩, e.skip 8) := rfl

/-- The octets of a specifier that is made for a message. -/
def freshOctets : Bytes :=
  [3, hash.id.toUInt8] ++ e.peek 8 ++ [(encodeCount count).toUInt8]

theorem length_freshOctets : (freshOctets hash count e).length = 11 := by
  simp [freshOctets]

/-- The specifier that is made for a message, as it is written. -/
def freshWritten : Written :=
  .iterated hash (e.peek 8) (e.length_peek 8) (encodeCount count).toUInt8

theorem specifier_freshWritten : (freshWritten hash count e).specifier = (fresh hash count e).1 := by
  have coded : (encodeCount count).toUInt8.toNat = encodeCount count :=
    Bytes.toNat_toUInt8_of_lt (encodeCount_lt count)
  rw [freshWritten, Written.specifier, coded]
  rfl

/-! ## Keys -/

theorem length_hashes (d : Digest) (message : Bytes) (count : Nat) :
    (hashes d message count).length = count * d.size := by
  unfold hashes
  induction count with
  | zero => simp
  | succ count ih =>
    rw [List.range_succ, List.flatMap_append, List.length_append, ih, List.flatMap_singleton,
      d.length_hash, Nat.add_mul, Nat.one_mul]

theorem size_digest_pos (suite : Suite) (hash : HashName) : 0 < (suite.digest hash).size := by
  rw [suite.size_digest]
  exact hash.size_pos

theorem length_widest (suite : Suite) (s : StringToKey) (passphrase : Bytes) :
    (widest suite s passphrase).length = maxKeySize := by
  have enough := Derivation.le_blockCount_mul (size_digest_pos suite s.hash) maxKeySize
  rw [widest, List.length_take, length_hashes]
  exact Nat.min_eq_left enough

/-- A key is derived whenever there is something to hash, and is the front of the widest key. -/
theorem derive_eq_ok (suite : Suite) {s : StringToKey} (type : s.type ∈ derivable)
    {passphrase : Bytes} (seed : s.seed passphrase ≠ []) {keySize : Int} (h : keySize ≤ maxKeySize) :
    s.derive suite passphrase keySize = .ok ((widest suite s passphrase).take
      (if 0 ≤ keySize then keySize else maxKeySize + keySize).toNat) := by
  rw [derive, if_neg (by omega), if_neg (not_not.2 type), if_neg seed]

/-- There is a key of every size up to the greatest, unless there is nothing to hash. -/
theorem exists_derive (suite : Suite) {s : StringToKey} (type : s.type ∈ derivable)
    {passphrase : Bytes} (seed : s.seed passphrase ≠ []) {keySize : Nat} (h : keySize ≤ maxKeySize) :
    ∃ key, s.derive suite passphrase keySize = .ok key ∧ key.length = keySize := by
  refine ⟨_, derive_eq_ok suite type seed (by omega), ?_⟩
  rw [if_pos (by omega), Int.toNat_natCast, List.length_take, length_widest, Nat.min_eq_left h]

/-- A salt is something to hash. -/
theorem seed_ne_nil {s : StringToKey} {passphrase : Bytes} (h : passphrase ≠ [] ∨
    s.type ≠ simple ∧ s.salt ≠ []) : s.seed passphrase ≠ [] := by
  rw [seed]
  split_ifs with alone
  · exact h.resolve_right fun salted => salted.1 alone
  · rcases h with password | ⟨-, salt⟩
    · exact List.append_ne_nil_of_right_ne_nil _ password
    · exact List.append_ne_nil_of_left_ne_nil salt _

/-- The key of a specifier that is made for a message has the size that was asked for. -/
theorem derive_fresh (suite : Suite) (passphrase : Bytes) {keySize : Nat} (h : keySize ≤ maxKeySize) :
    ∃ key, (fresh hash count e).1.derive suite passphrase keySize = .ok key ∧ key.length = keySize := by
  have type : (fresh hash count e).1.type ∈ derivable := of_decide_eq_true rfl
  have salted : (fresh hash count e).1.type ≠ simple := of_decide_eq_true rfl
  have salt : (fresh hash count e).1.salt ≠ [] := List.ne_nil_of_length_eq_add_one (e.length_peek 8)
  exact exists_derive suite type (seed_ne_nil (.inr ⟨salted, salt⟩)) h

end StringToKey

end Cryptogram
