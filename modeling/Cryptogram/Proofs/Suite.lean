import Cryptogram.Proofs.BlockCipher.Aes
import Cryptogram.Proofs.BlockCipher.Rc2
import Cryptogram.Proofs.BlockCipher.TripleDes
import Cryptogram.Proofs.Derivation

/-!
# What the standard algorithms keep to

The standard ciphers run backwards under every key (`Suite.invertible_standard`), and the standard
stretching functions give keys of the length they are asked for (`Suite.stretches_standard`).
-/

namespace Cryptogram

/-! ## PBKDF2 -/

namespace Pbkdf2

theorem length_block (d : Digest) (password salt : Bytes) (iterations index : Nat) :
    (block d password salt iterations index).length = d.size := by
  unfold block
  generalize List.range (iterations - 1) = rounds
  have key : ∀ s : Bytes × Bytes, s.2.length = d.size →
      (rounds.foldl (fun s _ => (d.hmac password s.1, Bytes.xor s.2 (d.hmac password s.1))) s
        ).2.length = d.size := by
    induction rounds with
    | nil => exact fun _ h => h
    | cons _ rounds ih =>
      intro s h
      apply ih
      rw [Bytes.length_xor, Digest.length_hmac, h, Nat.min_self]
  exact key _ (d.length_hmac _ _)

theorem length_derive {d : Digest} (h : 0 < d.size) (password salt : Bytes)
    (iterations length : Nat) : (derive d password salt iterations length).length = length := by
  have enough := Derivation.le_blockCount_mul h length
  have total := Bytes.length_flatMap (length_block d password salt iterations)
    ((List.range (Derivation.blockCount d.size length)).map (· + 1))
  rw [List.flatMap_map, List.length_map, List.length_range] at total
  unfold derive
  rw [List.length_take]
  exact Nat.min_eq_left (by rwa [← total] at enough)

end Pbkdf2

/-! ## BLAKE2b -/

namespace Blake2b

theorem size_absorb {h : Array UInt64} (size : h.size = 8) (count : Nat) (blocks : List Bytes) :
    (absorb h count blocks).size = 8 := by
  induction blocks generalizing h count with
  | nil => exact size
  | cons block rest ih =>
    cases rest with
    | nil => exact Array.size_ofFn
    | cons next rest => exact ih Array.size_ofFn _

theorem length_hash {size : Nat} (h : size ≤ 64) (message : Bytes) :
    (hash size message).length = size := by
  unfold hash
  dsimp only
  rw [List.length_take, Bytes.length_flatMap Word.length_le64, Array.length_toList,
    size_absorb Array.size_modify]
  exact Nat.min_eq_left h

end Blake2b

/-! ## The suite -/

namespace Suite

theorem invertible_standard : standard.Invertible where
  aes := BlockCipher.invertible_aes
  tripleDes := BlockCipher.invertible_tripleDes
  rc2 := BlockCipher.invertible_rc2

theorem exists_boundedScrypt {n r p : Nat}
    (bounded : ¬(n ≥ 1 <<< min 64 (16 * r) ∨ p * r ≥ 0x40000000 ∨ 128 * n * r > memoryLimit))
    (password salt : Bytes) (length : Nat) :
    ∃ key, boundedScrypt password salt n r p length = some key ∧ key.length = length := by
  have wide : 0 < Digest.sha256.size := by decide
  unfold boundedScrypt
  rw [if_neg bounded]
  exact ⟨_, rfl, Pbkdf2.length_derive wide _ _ _ _⟩

theorem exists_boundedArgon2 (layout : Argon2.Layout) (password : Bytes) {salt : Bytes}
    (drawn : salt.length = 16) {length : Nat} (least : 4 ≤ length) (greatest : length ≤ 64) :
    ∃ key, boundedArgon2 layout password salt length = some key ∧ key.length = length := by
  unfold boundedArgon2
  rw [if_neg (by omega)]
  refine ⟨_, rfl, ?_⟩
  unfold Argon2.derive Argon2.longHash
  dsimp only
  rw [if_pos greatest]
  exact Blake2b.length_hash greatest _

/-- The standard functions give keys of the right length, within the limits of scrypt. -/
theorem stretches_standard {settings : Settings}
    (bounded : ¬(settings.scryptN.toNat ≥ 1 <<< min 64 (16 * settings.scryptR.toNat) ∨
      settings.scryptP.toNat * settings.scryptR.toNat ≥ 0x40000000 ∨
      128 * settings.scryptN.toNat * settings.scryptR.toNat > memoryLimit)) :
    standard.Stretches settings where
  pbkdf2 method password salt _ _ := Pbkdf2.length_derive (by decide) password salt _ _
  bcrypt password digits _ length digit := Bcrypt.exists_hash _ length digit password
  scrypt method password salt _ _ := exists_boundedScrypt bounded password salt _
  argon2 method password salt hm drawn := by
    have size := Derivation.keySize_of_keyed hm
    exact exists_boundedArgon2 _ password drawn (by omega) (by omega)

end Suite

end Cryptogram
