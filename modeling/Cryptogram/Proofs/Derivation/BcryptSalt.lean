import Cryptogram.Proofs.Derivation

/-!
# Salts for bcrypt

The text of a salt is what bcrypt itself would write for the first sixteen octets
(`saltText_eq`), so bcrypt reads these back and is given nothing else of the salt
(`hash?_saltText`).  The key hangs on them, on the front of the password and on the work factor; a
shorter key is the front of a longer one.
-/

namespace Cryptogram.Derivation

variable {salt other : Bytes}

theorem decode?_saltText (h : 16 ≤ salt.length) :
    Bcrypt.decode? (saltText salt) = some (salt.take 16) := by
  rw [saltText_eq h, Bcrypt.decode?_encode]

theorem saltText_inj (h : 16 ≤ salt.length) (h' : 16 ≤ other.length) :
    saltText other = saltText salt ↔ other.take 16 = salt.take 16 := by
  constructor
  · intro same
    have read := decode?_saltText h'
    rw [same, decode?_saltText h] at read
    exact (Option.some.inj read).symm
  · intro same
    rw [saltText_eq h, saltText_eq h', same]

/-- The last of the 22 digits has four bits to spare, which are zero. -/
theorem exists_last_saltDigit (h : 16 ≤ salt.length) :
    ∃ front last value, saltText salt = front ++ [last] ∧ Bcrypt.value? last = some value ∧
      value % 16 = 0 := by
  have alone : (salt.take 16).length % 3 = 1 := by rw [List.length_take_of_le h]
  obtain ⟨front, value, written, small, spare⟩ := Bcrypt.exists_last_digit alone
  exact ⟨front, _, value, (saltText_eq h).trans written, Bcrypt.value?_digit small, spare⟩

/-- The hash is that under the first sixteen octets. -/
theorem hash?_saltText (h : 16 ≤ salt.length) (cost : Nat) (password : Bytes) :
    Bcrypt.hash? cost (saltText salt) password =
      some (Bcrypt.encode (Bcrypt.raw cost (salt.take 16) password)) := by
  unfold Bcrypt.hash?
  rw [decode?_saltText h]
  exact if_pos (List.length_take_of_le h)

/-- The front of a longer key. -/
theorem byBcrypt_take (suite : Suite) (password salt : Bytes) (cost : Nat) {length wider : Nat}
    (h : length ≤ wider) :
    byBcrypt suite password salt cost length =
      (byBcrypt suite password salt cost wider).map (·.take length) := by
  unfold byBcrypt
  cases suite.bcrypt cost (saltText salt) (password.take 72) with
  | none => rfl
  | some digits =>
    dsimp only [Except.map]
    rw [List.take_take, Nat.min_eq_left h]

theorem byBcrypt_congr (suite : Suite) {password password' : Bytes} (cost length : Nat)
    (salts : other.take 16 = salt.take 16) (passwords : password'.take 72 = password.take 72) :
    byBcrypt suite password' other cost length = byBcrypt suite password salt cost length := by
  unfold byBcrypt saltText
  rw [salts, passwords]

/-- The 22 digits that are written for a salt of sixteen octets or more denote its first sixteen
octets, in the alphabet of bcrypt and with nothing in the bits to spare.  So they tell two salts apart
exactly if these octets do, and the key is a function of these octets, the first 72 octets of the
password and the work factor, of which as many octets are taken as are asked for. -/
theorem saltText_carries (h : 16 ≤ salt.length) :
    Bcrypt.decode? (saltText salt) = some (salt.take 16) ∧
      ((saltText salt).length = 22 ∧ ∀ c ∈ saltText salt, c ∈ Bcrypt.alphabet) ∧
      (∃ front last value, saltText salt = front ++ [last] ∧ Bcrypt.value? last = some value ∧
        value % 16 = 0) ∧
      (∀ other, 16 ≤ other.length →
        (saltText other = saltText salt ↔ other.take 16 = salt.take 16)) ∧
      (∀ (suite : Suite) (password password' other : Bytes) (cost length wider : Nat),
        other.take 16 = salt.take 16 → password'.take 72 = password.take 72 → length ≤ wider →
          byBcrypt suite password salt cost length =
            (byBcrypt suite password' other cost wider).map (·.take length)) ∧
      ∀ (password : Bytes) (cost length : Nat), byBcrypt .standard password salt cost length =
        .ok ((Digest.sha512.hash ((Bcrypt.encode
          (Bcrypt.raw cost (salt.take 16) (password.take 72))).map fun c => c.toNat.toUInt8)).take
            length) := by
  refine ⟨decode?_saltText h, saltText_digits h, exists_last_saltDigit h,
    fun other h' => saltText_inj h h', ?_, ?_⟩
  · intro suite password password' other cost length wider salts passwords narrow
    rw [byBcrypt_congr suite cost wider salts passwords, byBcrypt_take suite password salt cost narrow]
  · intro password cost length
    have hashed : Suite.standard.bcrypt cost (saltText salt) (password.take 72) =
        some (Bcrypt.encode (Bcrypt.raw cost (salt.take 16) (password.take 72))) :=
      hash?_saltText h cost (password.take 72)
    rw [byBcrypt, hashed]
    rfl

/-- Sixteen octets with all bits set and one more, and passwords that differ behind 72 octets. -/
theorem saltText_carries_ones :
    16 ≤ (List.replicate 16 255 ++ [7] : Bytes).length ∧
      saltText (List.replicate 16 255 ++ [7]) = "999999999999999999999u".toList ∧
      Bcrypt.decode? "999999999999999999999u".toList = some (List.replicate 16 255) ∧
      byBcrypt .standard (List.replicate 72 112 ++ [97]) (List.replicate 16 255 ++ [7]) 4 16 =
        (byBcrypt .standard (List.replicate 72 112 ++ [98]) (List.replicate 16 255 ++ [8]) 4 24).map
          (·.take 16) := by
  have enough : 16 ≤ (List.replicate 16 255 ++ [7] : Bytes).length := by decide
  have text : saltText (List.replicate 16 255 ++ [7]) = "999999999999999999999u".toList := by
    decide
  obtain ⟨read, -, -, -, key, -⟩ := saltText_carries enough
  rw [text] at read
  exact ⟨enough, text, read, key .standard _ _ _ 4 16 24 rfl rfl (by decide)⟩

end Cryptogram.Derivation
