import Cryptogram.Derivation
import Cryptogram.Proofs.Stretch.Bcrypt
import Cryptogram.Proofs.Text.Base64
import Cryptogram.Proofs.Text.Utf8

/-!
# The sizes of derived keys

Whatever the scheme of a method, a password gives a key and an initial vector of the sizes of the
method (`exists_derive_password`).  The strong derivations give a key of that size as long as the
functions under them give what they are asked for (`exists_derive_strong`), and of the settings only
the work factors have a part in it (`strong_congr`).
-/

namespace Cryptogram

theorem HashName.size_pos (h : HashName) : 0 < h.size := by cases h <;> decide

/-- Key stretching gives what it is asked for under the work factors of the settings: for the keys
of keyed methods, with a salt of sixteen octets or the 22 digits of one. -/
structure Suite.Stretches (suite : Suite) (settings : Settings) : Prop where
  pbkdf2 : ∀ (method : Method) (password salt : Bytes), method.keyed = true → salt.length = 16 →
    (suite.pbkdf2 password salt settings.pbkdf2Iterations.toNat method.keySize).length =
      method.keySize
  bcrypt : ∀ (password : Bytes) (digits : List Char), password.length ≤ 72 → digits.length = 22 →
    (∀ c ∈ digits, c ∈ Bcrypt.alphabet) →
      ∃ hash, suite.bcrypt settings.bcryptCost.toNat digits password = some hash
  scrypt : ∀ (method : Method) (password salt : Bytes), method.keyed = true → salt.length = 16 →
    ∃ key, suite.scrypt password salt settings.scryptN.toNat settings.scryptR.toNat
      settings.scryptP.toNat method.keySize = some key ∧ key.length = method.keySize
  argon2 : ∀ (method : Method) (password salt : Bytes), method.keyed = true → salt.length = 16 →
    ∃ key, suite.argon2 ⟨settings.argon2Passes.toNat, settings.argon2Lanes.toNat,
      settings.argon2Memory.toNat⟩ password salt method.keySize = some key ∧
        key.length = method.keySize

/-- Settings with the same work factors. -/
structure Settings.SameWork (s t : Settings) : Prop where
  pbkdf2Iterations : s.pbkdf2Iterations = t.pbkdf2Iterations
  bcryptCost : s.bcryptCost = t.bcryptCost
  scryptN : s.scryptN = t.scryptN
  scryptR : s.scryptR = t.scryptR
  scryptP : s.scryptP = t.scryptP
  argon2Passes : s.argon2Passes = t.argon2Passes
  argon2Memory : s.argon2Memory = t.argon2Memory
  argon2Lanes : s.argon2Lanes = t.argon2Lanes

theorem Settings.SameWork.refl (s : Settings) : s.SameWork s := ⟨rfl, rfl, rfl, rfl, rfl, rfl, rfl, rfl⟩

namespace Derivation

/-! ## Chained hashes -/

theorem le_blockCount_mul {size : Nat} (h : 0 < size) (length : Nat) :
    length ≤ blockCount size length * size := by
  have split := Nat.div_add_mod (length + size - 1) size
  have small := Nat.mod_lt (length + size - 1) h
  unfold blockCount
  rw [Nat.mul_comm]
  omega

theorem length_chain (d : Digest) (seed : Bytes) (iterations : Int) (count : Nat) (previous : Bytes) :
    (chain d seed iterations count previous).length = count * d.size := by
  induction count generalizing previous with
  | zero => simp [chain]
  | succ count ih =>
    simp only [chain, List.length_append, Digest.length_iterate, ih]
    ring

theorem length_bytesToKey {d : Digest} (h : 0 < d.size) (password salt : Bytes)
    (keyLength ivLength : Nat) (iterations : Int) :
    (bytesToKey d password salt keyLength ivLength iterations).key.length = keyLength ∧
      (bytesToKey d password salt keyLength ivLength iterations).iv.length = ivLength := by
  have enough := le_blockCount_mul h (keyLength + ivLength)
  simp only [bytesToKey, List.length_take, List.length_drop, length_chain]
  exact ⟨by omega, by omega⟩

theorem length_pbkdf1 {d : Digest} (h : 16 ≤ d.size) (password salt : Bytes) (iterations : Int) :
    (pbkdf1 d password salt iterations).key.length = 8 ∧
      (pbkdf1 d password salt iterations).iv.length = 8 := by
  simp only [pbkdf1, List.length_take, List.length_drop, Digest.length_iterate]
  exact ⟨by omega, by omega⟩

theorem length_pkcs12Blocks (d : Digest) (diversifier : Bytes) (iterations : Int) (count : Nat)
    (buffer : Bytes) :
    (pkcs12Blocks d diversifier iterations count buffer).length = count * d.size := by
  induction count generalizing buffer with
  | zero => simp [pkcs12Blocks]
  | succ count ih =>
    simp only [pkcs12Blocks, List.length_append, Digest.length_iterate, ih]
    ring

theorem length_pkcs12 {d : Digest} (h : 0 < d.size) (password salt : Bytes) (purpose : UInt8)
    (iterations : Int) (length : Nat) :
    (pkcs12 d password salt purpose iterations length).length = length := by
  have enough := le_blockCount_mul h length
  unfold pkcs12
  rw [List.length_take, length_pkcs12Blocks]
  omega

/-- Octets of a text can be encoded. -/
theorem exists_pkcs12Password (text : String) :
    ∃ encoded, pkcs12Password (Text.utf8 text) = .ok encoded := by
  unfold pkcs12Password
  split_ifs with h
  · exact ⟨[], rfl⟩
  · rw [Text.ofUtf8?_utf8]
    exact ⟨_, rfl⟩

/-! ## Password-based methods -/

/-- What a password-based method takes its key by; the scheme of fixed sizes serves methods of these
sizes. -/
theorem exists_scheme {method : Method} (hm : method.passwordBased = true) :
    ∃ h scheme, method.traits.digest = some h ∧ method.traits.scheme = some scheme ∧
      (scheme = .pkcs5v1 → 16 ≤ h.size ∧ method.keySize = 8 ∧ method.blockSize = 8) := by
  cases method <;> first
    | exact ⟨_, _, rfl, rfl, by decide⟩
    | exact absurd hm (by decide)

theorem exists_byScheme (suite : Suite) {method : Method} (hm : method.passwordBased = true)
    (password : String) (salt : Bytes) (iterations : Int) :
    ∃ derived, byScheme suite (Text.utf8 password) salt method iterations = .ok derived ∧
      derived.key.length = method.keySize ∧ derived.iv.length = method.blockSize := by
  obtain ⟨h, scheme, digest, by_, sizes⟩ := exists_scheme hm
  have pos : 0 < (suite.digest h).size := by
    rw [suite.size_digest]
    exact h.size_pos
  unfold byScheme
  rw [digest, by_]
  cases scheme with
  | openssl => exact ⟨_, rfl, length_bytesToKey pos _ _ _ _ _⟩
  | pkcs5v1 =>
    obtain ⟨wide, key, iv⟩ := sizes rfl
    rw [← suite.size_digest] at wide
    rw [key, iv]
    exact ⟨_, rfl, length_pbkdf1 wide _ _ _⟩
  | pkcs12 =>
    obtain ⟨encoded, he⟩ := exists_pkcs12Password password
    simp only [he, bind, Except.bind]
    exact ⟨_, rfl, length_pkcs12 pos _ _ _ _ _, length_pkcs12 pos _ _ _ _ _⟩

/-- A password gives the key and the initial vector of a password-based method. -/
theorem exists_derive_password (suite : Suite) {method : Method} (hm : method.passwordBased = true)
    {kdf : KeyDerivation} (hk : KeyDerivation.forPassword.contains kdf = true) (password : String)
    (salt : Bytes) (settings : Settings) :
    ∃ derived, derive suite (Text.utf8 password) salt kdf method settings = .ok derived ∧
      derived.key.length = method.keySize ∧ derived.iv.length = method.blockSize := by
  cases kdf with
  | legacy => exact exists_byScheme suite hm password salt settings.legacyIterations
  | opensslBytesToKey =>
    obtain ⟨h, _, digest, -⟩ := exists_scheme hm
    have pos : 0 < (suite.digest h).size := by
      rw [suite.size_digest]
      exact h.size_pos
    unfold derive
    simp only [digest]
    exact ⟨_, rfl, length_bytesToKey pos _ _ _ _ _⟩
  | _ => exact absurd hk (by decide)

/-! ## Strong derivations -/

set_option maxRecDepth 1000 in
theorem saltDigit_fin : ∀ n : Fin 64, saltDigit (Base64.digit n) = Bcrypt.encode.digit n := by
  decide

theorem saltDigit_digit {n : Nat} (h : n < 64) :
    saltDigit (Base64.digit n) = Bcrypt.encode.digit n :=
  saltDigit_fin ⟨n, h⟩

/-- Digit by digit, base-64 text becomes the notation of bcrypt; equals signs stay at its end. -/
theorem map_saltDigit_encode (octets : Bytes) :
    ∃ count, (Base64.encode octets).map saltDigit =
      Bcrypt.encode octets ++ List.replicate count '=' := by
  have three : 0 < 3 := by decide
  have sign : saltDigit '=' = '=' := rfl
  induction octets using Bytes.block_induction three with
  | nil => exact ⟨0, rfl⟩
  | short octets ne hl =>
    rw [Base64.encode_of_length_le ne hl.le]
    rcases Base64.eq_one_or_two ne hl with ⟨a, rfl⟩ | ⟨a, b, rfl⟩
    · have ha := a.toNat_lt
      have first : a.toNat * 65536 / 262144 = a.toNat / 4 := by omega
      have second : a.toNat * 65536 / 4096 % 64 = a.toNat % 4 * 16 := by omega
      refine ⟨2, ?_⟩
      simp only [Base64.group, List.map_cons, List.map_nil, sign, first, second]
      rw [saltDigit_digit (by omega), saltDigit_digit (by omega)]
      rfl
    · have ha := a.toNat_lt
      have hb := b.toNat_lt
      refine ⟨1, ?_⟩
      simp only [Base64.group, List.map_cons, List.map_nil, sign]
      rw [saltDigit_digit (by omega), saltDigit_digit (by omega), saltDigit_digit (by omega)]
      rfl
  | whole block rest hb ih =>
    obtain ⟨count, ih⟩ := ih
    obtain ⟨a, b, c, rfl⟩ := Base64.eq_three hb
    have ha := a.toNat_lt
    have hb' := b.toNat_lt
    have hc := c.toNat_lt
    refine ⟨count, ?_⟩
    rw [Base64.encode_append ⟨1, hb⟩, Base64.encode_of_length_le (List.cons_ne_nil _ _) hb.le,
      List.map_append, ih]
    simp only [Base64.group, List.map_cons, List.map_nil]
    rw [saltDigit_digit (by omega), saltDigit_digit (by omega), saltDigit_digit (by omega),
      saltDigit_digit (by omega)]
    rfl

/-- The text of a salt is the notation of bcrypt for its first sixteen octets. -/
theorem saltText_eq {salt : Bytes} (h : 16 ≤ salt.length) :
    saltText salt = Bcrypt.encode (salt.take 16) := by
  obtain ⟨count, text⟩ := map_saltDigit_encode (salt.take 16)
  have width : (Bcrypt.encode (salt.take 16)).length = 22 := by
    rw [Bcrypt.length_encode, List.length_take_of_le h]
  rw [saltText, text, List.take_left' width]

theorem saltText_digits {salt : Bytes} (h : 16 ≤ salt.length) :
    (saltText salt).length = 22 ∧ ∀ c ∈ saltText salt, c ∈ Bcrypt.alphabet := by
  rw [saltText_eq h]
  refine ⟨?_, fun _ => Bcrypt.mem_alphabet_of_mem_encode⟩
  rw [Bcrypt.length_encode, List.length_take_of_le h]

theorem keySize_of_keyed {method : Method} (hm : method.keyed = true) : method.keySize = 16 := by
  cases method <;> first
    | rfl
    | exact absurd hm (by decide)

theorem exists_byBcrypt {suite : Suite} {settings : Settings} (hs : suite.Stretches settings)
    {salt : Bytes} (h : salt.length = 16) (password : Bytes) {length : Nat} (hl : length ≤ 64) :
    ∃ key, byBcrypt suite password salt settings.bcryptCost.toNat length = .ok key ∧
      key.length = length := by
  obtain ⟨count, digits⟩ := saltText_digits h.ge
  obtain ⟨hash, found⟩ :=
    hs.bcrypt (password.take 72) (saltText salt) (List.length_take_le _ _) count digits
  have wide : (suite.digest .sha512).size = 64 := suite.size_digest .sha512
  unfold byBcrypt
  rw [found]
  refine ⟨_, rfl, ?_⟩
  rw [List.length_take, Digest.length_hash, wide]
  omega

theorem derive_of_strong {kdf : KeyDerivation} (hk : kdf.strong = true) (suite : Suite)
    (password salt : Bytes) (method : Method) (settings : Settings) :
    derive suite password salt kdf method settings =
      (strong suite password salt kdf method.keySize settings).map fun key => ⟨key, []⟩ := by
  cases kdf <;> first
    | rfl
    | exact absurd hk (by decide)

/-- The same work gives the same key. -/
theorem strong_congr {settings settings' : Settings} (same : settings.SameWork settings')
    (suite : Suite) (password salt : Bytes) (kdf : KeyDerivation) (length : Nat) :
    strong suite password salt kdf length settings' =
      strong suite password salt kdf length settings := by
  obtain ⟨pbkdf2, bcrypt, n, r, p, passes, memory, lanes⟩ := same
  unfold strong
  rw [pbkdf2, bcrypt, n, r, p, passes, memory, lanes]

/-- A password and a drawn salt give the key of a keyed method. -/
theorem exists_derive_strong {suite : Suite} {settings : Settings} (hs : suite.Stretches settings)
    {method : Method} (hm : method.keyed = true) {kdf : KeyDerivation} (hk : kdf.strong = true)
    (password : Bytes) {salt : Bytes} (h : salt.length = 16) :
    ∃ key, derive suite password salt kdf method settings = .ok ⟨key, []⟩ ∧
      key.length = method.keySize := by
  have size : method.keySize ≤ 64 := by
    rw [keySize_of_keyed hm]
    decide
  have found : ∃ key, strong suite password salt kdf method.keySize settings = .ok key ∧
      key.length = method.keySize := by
    cases kdf with
    | bcrypt => exact exists_byBcrypt hs h password size
    | scrypt =>
      obtain ⟨key, found, width⟩ := hs.scrypt method password salt hm h
      exact ⟨key, by simp only [strong, found], width⟩
    | pbkdf2 => exact ⟨_, rfl, hs.pbkdf2 method password salt hm h⟩
    | argon2 =>
      obtain ⟨key, found, width⟩ := hs.argon2 method password salt hm h
      exact ⟨key, by simp only [strong, found], width⟩
    | _ => exact absurd hk (by decide)
  obtain ⟨key, derived, width⟩ := found
  refine ⟨key, ?_, width⟩
  rw [derive_of_strong hk, derived]
  rfl

end Derivation

end Cryptogram
