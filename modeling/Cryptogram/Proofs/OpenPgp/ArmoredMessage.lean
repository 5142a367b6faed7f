import Cryptogram.OpenPgp.Message
import Cryptogram.Proofs.OpenPgp.Armor

/-!
# Messages in armor

A message whose first octet has its highest bit set is found in the armor around it, and taken as it is
without armor, whatever stands in it.  So it makes no difference to decryption whether such a message
is in armor (`Message.decrypt_write`).
-/

namespace Cryptogram

namespace Armor

variable {b : UInt8}

theorem strip_of_high (high : 128 ≤ b.toNat) (rest : Bytes) :
    strip (b :: rest) = .ok (b :: rest) :=
  strip_of_not_plain List.mem_cons_self (isPlain_of_le high)

theorem strip_write_of_high (high : 128 ≤ b.toNat) (rest : Bytes) :
    strip (write (b :: rest)) = strip (b :: rest) := by
  rw [strip_write (List.cons_ne_nil b rest), strip_of_high high]

end Armor

namespace Message

variable {b : UInt8}

theorem packets_write (high : 128 ≤ b.toNat) (rest : Bytes) :
    packets (Armor.write (b :: rest)) = packets (b :: rest) := by
  unfold packets
  rw [Armor.strip_write_of_high high]

/-- A message that begins like no text is found in its armor and read from it, and decryption and the
question for the declared algorithm end in armor as they do without it, in success or in failure. -/
theorem decrypt_write (high : 128 ≤ b.toNat) (rest : Bytes) :
    Armor.isArmored (Armor.write (b :: rest)) = true ∧
      Armor.read (Armor.write (b :: rest)) = .ok (b :: rest) ∧
      (∀ (suite : Suite) (opener : Option Opener),
        decrypt suite opener (Armor.write (b :: rest)) = decrypt suite opener (b :: rest)) ∧
      algorithm (Armor.write (b :: rest)) = algorithm (b :: rest) := by
  have ne : b :: rest ≠ [] := List.cons_ne_nil b rest
  refine ⟨Armor.isArmored_write ne, Armor.read_write ne, fun suite opener => ?_, ?_⟩
  · unfold decrypt Envelope.read
    rw [packets_write high]
  · unfold algorithm
    rw [packets_write high]

/-- A message in which a whole block of armor stands on lines of its own. -/
theorem decrypt_write_nested :
    let rest : Bytes := 10 :: Armor.write [65]
    128 ≤ (0xd2 : UInt8).toNat ∧ Armor.isArmored (0xd2 :: rest) = true ∧
      Armor.isArmored (Armor.write (0xd2 :: rest)) = true ∧
      Armor.read (Armor.write (0xd2 :: rest)) = .ok (0xd2 :: rest) ∧
      (∀ (suite : Suite) (opener : Option Opener),
        decrypt suite opener (Armor.write (0xd2 :: rest)) = decrypt suite opener (0xd2 :: rest)) ∧
      algorithm (Armor.write (0xd2 :: rest)) = algorithm (0xd2 :: rest) := by
  intro rest
  have high : 128 ≤ (0xd2 : UInt8).toNat := by decide
  exact ⟨high, by decide, decrypt_write high rest⟩

end Message

end Cryptogram
