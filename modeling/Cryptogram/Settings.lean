import Cryptogram.Text.Utf8

/-!
# Settings

The tuning knobs of the engine: the password policy, the limit on key lengths, the work factors of
the key derivations and the parameters of OpenPGP messages.  A record is accepted when it violates
none of the rules here; of several violations the first in the order of the rules is reported.
-/

namespace Cryptogram

/-- The tuning knobs of the engine. -/
structure Settings where
  /-- The least number of octets of a password that is not weak. -/
  minPasswordLength : Int := 16
  /-- The greatest key length in bits that the policy permits, if there is a limit. -/
  maxKeyBits : Option Int := none
  /-- The number of octets that are read at a time. -/
  bufferSize : Int := 65536
  legacyIterations : Int := 1000
  pbkdf2Iterations : Int := 160000
  /-- The binary logarithm of the number of rounds. -/
  bcryptCost : Int := 12
  scryptN : Int := 16384
  scryptR : Int := 8
  scryptP : Int := 1
  argon2Passes : Int := 3
  /-- The memory in KiB. -/
  argon2Memory : Int := 65536
  argon2Lanes : Int := 1
  /-- The number of octets that the string-to-key of a written message hashes. -/
  s2kCount : Int := 65536
  /-- The number of the hash function of that string-to-key. -/
  s2kHash : Int := 8
  /-- The file name that is put into written messages. -/
  literalName : String := ""
  deriving DecidableEq, Repr

/-- A violated rule on settings. -/
inductive SettingsFault
  | minPasswordLength
  | maxKeyBits
  | bufferSize
  | legacyIterations
  | pbkdf2Iterations
  | bcryptCost
  | scryptN
  | scryptFactors
  | argon2Factors
  | argon2Memory
  | s2kCount
  | s2kHash
  | literalName
  deriving DecidableEq, Repr

namespace Settings

/-- The numbers of the hash functions that a string-to-key may use. -/
def s2kHashes : List Int := [1, 2, 8, 9, 10, 11]

/-- A power of two above one. -/
def isPowerOfTwo (n : Int) : Bool := 2 ≤ n && n.toNat &&& (n.toNat - 1) = 0

/-- The rules in order, each with whether it holds. -/
def rules (s : Settings) : List (SettingsFault × Bool) :=
  [(.minPasswordLength, 0 ≤ s.minPasswordLength),
    (.maxKeyBits, s.maxKeyBits.all fun bits => 0 < bits),
    (.bufferSize, 0 < s.bufferSize),
    (.legacyIterations, 0 < s.legacyIterations),
    (.pbkdf2Iterations, 0 < s.pbkdf2Iterations),
    (.bcryptCost, 4 ≤ s.bcryptCost && s.bcryptCost ≤ 31),
    (.scryptN, isPowerOfTwo s.scryptN),
    (.scryptFactors, 0 < s.scryptR && 0 < s.scryptP),
    (.argon2Factors, 0 < s.argon2Passes && 0 < s.argon2Lanes),
    (.argon2Memory, 8 * s.argon2Lanes ≤ s.argon2Memory),
    (.s2kCount, 1024 ≤ s.s2kCount && s.s2kCount ≤ 65011712),
    (.s2kHash, s2kHashes.contains s.s2kHash),
    (.literalName, (Text.utf8 s.literalName).length ≤ 255)]

def fault? (s : Settings) : Option SettingsFault :=
  (s.rules.find? fun rule => !rule.2).map Prod.fst

/-- Whether the settings violate no rule. -/
def Accepted (s : Settings) : Prop := s.fault? = none

instance (s : Settings) : Decidable s.Accepted := inferInstanceAs (Decidable (s.fault? = none))

end Settings

/-- What a violated rule demands. -/
def SettingsFault.message : SettingsFault → String
  | .minPasswordLength => "min_password_length must be non-negative"
  | .maxKeyBits => "max_allowed_key_length must be positive"
  | .bufferSize => "buffer_size must be positive"
  | .legacyIterations => "legacy_iteration_count must be positive"
  | .pbkdf2Iterations => "pbkdf2_iterations must be positive"
  | .bcryptCost => "bcrypt_work_factor must be between 4 and 31"
  | .scryptN => "scrypt_n must be a power of two greater than 1"
  | .scryptFactors => "scrypt_r and scrypt_p must be positive"
  | .argon2Factors => "argon2_time_cost and argon2_parallelism must be positive"
  | .argon2Memory => "argon2_memory_cost must be at least 8 KiB per lane"
  | .s2kCount => "pgp_s2k_count must be between 1024 and 65011712"
  | .s2kHash => "pgp_s2k_hash must be one of [1, 2, 8, 9, 10, 11]"
  | .literalName => "pgp_literal_filename must be at most 255 bytes"

end Cryptogram
