import Cryptogram.Proofs.OpenPgp.StringToKey

/-!
# Keys from passphrases

The key of a specifier is the front of one endless string: the hashes of salt and passphrase, or of
their repetition, behind no zero octet, one, two and so on (`derive_eq_hashStream`).  So it does not
matter how many hashes are made and how wide a key is cut from them.

A count is rounded where a specifier is written and where a key is derived from it.  Both round
alike, and what is not written is not hashed either, so whoever reads the specifier derives the key
of whoever wrote it (`derive_read_write`).
-/

namespace Cryptogram.StringToKey

variable (suite : Suite) {s t : StringToKey} {passphrase : Bytes}

/-! ## The hashes as one string -/

/-- The hashes of a message behind ever more zero octets, one after another. -/
def hashStream (d : Digest) (message : Bytes) (i : Nat) : UInt8 :=
  (d.hash (Bytes.zeros (i / d.size) ++ message)).getD (i % d.size) 0

theorem take_hashes {d : Digest} (pos : 0 < d.size) (message : Bytes) {count n : Nat}
    (h : n ≤ count * d.size) :
    (hashes d message count).take n = (List.range n).map (hashStream d message) :=
  Bytes.take_flatMap_range pos (fun _ => d.length_hash _) h

theorem take_widest (s : StringToKey) (passphrase : Bytes) {n : Nat} (h : n ≤ maxKeySize) :
    (widest suite s passphrase).take n =
      (List.range n).map (hashStream (suite.digest s.hash) (s.message passphrase)) := by
  have pos := size_digest_pos suite s.hash
  have enough := Derivation.le_blockCount_mul pos maxKeySize
  rw [widest, List.take_take, Nat.min_eq_left h]
  exact take_hashes pos _ (h.trans enough)

/-! ## What is hashed -/

/-- Salt and passphrase, or as many octets of their endless repetition as the count says, but all of
them at least once. -/
def hashed (s : StringToKey) (passphrase : Bytes) : Bytes :=
  if s.type = iterated then
    (List.range (max s.count.toNat (s.salt ++ passphrase).length)).map
      (s.salt ++ passphrase).endless
  else s.salt ++ passphrase

theorem seed_specifier (w : Written) (passphrase : Bytes) :
    w.specifier.seed passphrase = w.specifier.salt ++ passphrase := by
  cases w <;> rfl

theorem message_specifier (w : Written) (h : w.specifier.salt ++ passphrase ≠ []) :
    w.specifier.message passphrase = w.specifier.hashed passphrase := by
  cases w with
  | simple hash => rfl
  | salted hash salt eight => rfl
  | iterated hash salt eight coded =>
    have kind : (Written.iterated hash salt eight coded).specifier.type = iterated := rfl
    have exact : roundCount (decodeCount coded.toNat) = decodeCount coded.toNat := by
      rw [roundCount, encodeCount_decodeCount coded.toNat_lt]
    rw [message, hashed, seed_specifier, if_pos kind, if_pos kind, Bytes.cycle_eq h]
    rw [Written.specifier, exact, Int.toNat_natCast]

/-- The key of a specifier that was read is cut from the front of the endless string of hashes.  As
many hashes do as have that many octets, and it is the front of every wider key. -/
theorem derive_eq_hashStream {data rest : Bytes} (h : read data = .ok (s, rest))
    (hp : s.salt ≠ [] ∨ passphrase ≠ []) {keySize : Nat} (hk : keySize ≤ maxKeySize) :
    ∃ key, s.derive suite passphrase keySize = .ok key ∧
      key = (List.range keySize).map (hashStream (suite.digest s.hash) (s.hashed passphrase)) ∧
      key = ((List.range (Derivation.blockCount (suite.digest s.hash).size keySize)).flatMap
        fun i => (suite.digest s.hash).hash (Bytes.zeros i ++ s.hashed passphrase)).take keySize ∧
      ∀ wider : Nat, keySize ≤ wider → wider ≤ maxKeySize →
        (s.derive suite passphrase wider).map (·.take keySize) = .ok key := by
  obtain ⟨w, rfl, -⟩ := read_eq_ok_iff.1 h
  have pos := size_digest_pos suite w.specifier.hash
  have nonempty : w.specifier.salt ++ passphrase ≠ [] := by simpa [imp_iff_not_or] using hp
  have derived {n : Nat} (hn : n ≤ maxKeySize) : w.specifier.derive suite passphrase n =
      .ok ((List.range n).map
        (hashStream (suite.digest w.specifier.hash) (w.specifier.hashed passphrase))) := by
    have seed : w.specifier.seed passphrase ≠ [] := by rwa [seed_specifier]
    rw [derive_eq_ok suite w.type_mem seed (by omega), if_pos (by omega), Int.toNat_natCast,
      take_widest suite _ _ hn, message_specifier w nonempty]
  refine ⟨_, derived hk, rfl, ?_, fun wider least most => ?_⟩
  · exact (take_hashes pos _ (Derivation.le_blockCount_mul pos keySize)).symm
  · rw [derived most, Except.map, ← List.map_take, List.take_range, Nat.min_eq_left least]

/-- Two hashes of sixteen octets for a key of twenty-four. -/
theorem derive_eq_hashStream_two :
    read ([3, 1] ++ List.replicate 8 7 ++ [0, 5]) =
        .ok (⟨3, .md5, List.replicate 8 7, 1024⟩, [5]) ∧
      24 ≤ maxKeySize ∧
      ∃ message, message = (List.range 1024).map (Bytes.endless (List.replicate 8 7 ++ [112])) ∧
        derive .standard ⟨3, .md5, List.replicate 8 7, 1024⟩ [112] 24 =
          .ok ((Digest.md5.hash message ++ Digest.md5.hash (0 :: message)).take 24) := by
  have found : read ([3, 1] ++ List.replicate 8 7 ++ [0, 5]) =
      .ok (⟨3, .md5, List.replicate 8 7, 1024⟩, [5]) := by decide
  have narrow : 24 ≤ maxKeySize := by decide
  have something : (List.replicate 8 7 : Bytes) ≠ [] ∨ ([112] : Bytes) ≠ [] := by decide
  have repeated : hashed ⟨3, .md5, List.replicate 8 7, 1024⟩ [112] =
      (List.range 1024).map (Bytes.endless (List.replicate 8 7 ++ [112])) := if_pos rfl
  have two : Derivation.blockCount (Suite.standard.digest .md5).size 24 = 2 := rfl
  obtain ⟨key, derived, -, cut, -⟩ := derive_eq_hashStream .standard found something narrow
  have parts (message : Bytes) : (List.range 2).flatMap
      (fun i => Digest.md5.hash (Bytes.zeros i ++ message)) =
        Digest.md5.hash message ++ Digest.md5.hash (0 :: message) := by
    rw [← List.append_nil (Digest.md5.hash (0 :: message))]
    rfl
  rw [repeated, two] at cut
  have joined := cut.trans (congrArg (List.take 24) (parts _))
  exact ⟨found, narrow, _, rfl, derived.trans (congrArg Except.ok joined)⟩

/-! ## Written and read again -/

/-- The specifiers that are written so that they can be read. -/
def Writable (s : StringToKey) : Prop :=
  s.type = simple ∨ (s.type = salted ∨ s.type = iterated) ∧ s.salt.length = 8

/-- Specifiers with the same type and hash that hash the same. -/
structure Alike (s t : StringToKey) : Prop where
  type : s.type = t.type
  hash : s.hash = t.hash
  seed : ∀ passphrase, s.seed passphrase = t.seed passphrase
  message : ∀ passphrase, s.message passphrase = t.message passphrase

theorem Alike.derive_eq (h : Alike s t) (passphrase : Bytes) (keySize : Int) :
    s.derive suite passphrase keySize = t.derive suite passphrase keySize := by
  unfold derive widest
  rw [h.type, h.hash, h.seed, h.message]

theorem Writable.exists_written (h : s.Writable) :
    ∃ w : Written, s.write = .ok w.octets ∧ Alike s w.specifier := by
  obtain ⟨type, hash, salt, count⟩ := s
  rcases h with kind | ⟨kind | kind, eight⟩
  · obtain rfl : type = simple := kind
    exact ⟨.simple hash, rfl, rfl, rfl, fun _ => rfl, fun _ => rfl⟩
  · obtain rfl : type = salted := kind
    exact ⟨.salted hash salt eight, rfl, rfl, rfl, fun _ => rfl, fun _ => rfl⟩
  · obtain rfl : type = iterated := kind
    have coded : (encodeCount count).toUInt8.toNat = encodeCount count :=
      Bytes.toNat_toUInt8_of_lt (encodeCount_lt count)
    refine ⟨.iterated hash salt eight (encodeCount count).toUInt8, ?_, rfl, rfl, fun _ => rfl,
      fun passphrase => ?_⟩
    · rw [write]
      rfl
    · -- The count that is read is the one that was rounded to.
      have again : roundCount (decodeCount (encodeCount count)) = roundCount count :=
        congrArg decodeCount (encodeCount_roundCount count)
      rw [message, message, Written.specifier, coded]
      dsimp only
      rw [again]
      rfl

/-- Whatever a specifier counts, it can be written, and the one that is read then gives the same
key. -/
theorem derive_read_write (hs : s.Writable) (hp : s.type = simple → passphrase ≠ [])
    {keySize : Int} (hk : keySize ≤ maxKeySize) :
    ∃ octets t key, s.write = .ok octets ∧ (∀ rest, read (octets ++ rest) = .ok (t, rest)) ∧
      s.derive suite passphrase keySize = .ok key ∧
      t.derive suite passphrase keySize = .ok key := by
  obtain ⟨w, written, alike⟩ := hs.exists_written
  have seed : w.specifier.seed passphrase ≠ [] := by
    rw [← alike.seed]
    refine seed_ne_nil ?_
    rcases hs with alone | ⟨kind, eight⟩
    · exact .inl (hp alone)
    · have behindSalt : s.type ≠ simple := by
        rcases kind with kind | kind <;> rw [kind] <;> decide
      exact .inr ⟨behindSalt, List.ne_nil_of_length_eq_add_one eight⟩
  have derived := derive_eq_ok suite w.type_mem seed hk
  exact ⟨w.octets, w.specifier, _, written, read_octets w,
    (alike.derive_eq suite passphrase keySize).trans derived, derived⟩

/-- A count that cannot be coded, and a key that leaves out the last two octets. -/
theorem derive_read_write_uncoded :
    Writable ⟨3, .sha256, List.replicate 8 1, 1025⟩ ∧ (-2 : Int) ≤ maxKeySize ∧
      ∃ key, derive .standard ⟨3, .sha256, List.replicate 8 1, 1025⟩ [] (-2) = .ok key ∧
        derive .standard ⟨3, .sha256, List.replicate 8 1, 1088⟩ [] (-2) = .ok key := by
  have writable : Writable ⟨3, .sha256, List.replicate 8 1, 1025⟩ := .inr ⟨.inr rfl, rfl⟩
  have narrow : (-2 : Int) ≤ maxKeySize := by decide
  have unsimple : (3 : Int) = simple → ([] : Bytes) ≠ [] := by decide
  obtain ⟨octets, t, key, written, found, derived, again⟩ :=
    derive_read_write .standard writable unsimple narrow
  have coded : write ⟨3, .sha256, List.replicate 8 1, 1025⟩ =
      .ok ([3, 8] ++ List.replicate 8 1 ++ [1]) := by decide
  have known : read ([3, 8] ++ List.replicate 8 1 ++ [1]) =
      .ok (⟨3, .sha256, List.replicate 8 1, 1088⟩, []) := by decide
  obtain rfl := Except.ok.inj (written.symm.trans coded)
  have both := (found []).symm.trans known
  cases both
  exact ⟨writable, narrow, key, derived, again⟩

end Cryptogram.StringToKey
