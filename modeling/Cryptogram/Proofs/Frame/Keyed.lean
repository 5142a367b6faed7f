import Cryptogram.Proofs.Cipher.Encryption
import Cryptogram.Proofs.Derivation
import Cryptogram.Proofs.Settings
import Cryptogram.Proofs.Suite

/-!
# Frames of keyed methods there and back

Fields are found again in front of the ciphertext whatever octets they consist of
(`openFrame_header`), and decryption of a frame gives the content back, in whatever pieces both sides
read (`decrypt_encryptFresh_of_given`).  In the other direction, what can be decrypted begins with
the fields that are found in it (`openFrame_eq_ok`), and encryption of the content under them writes
it again (`encryptFresh_of_decrypt`).
-/

namespace Cryptogram.Keyed

variable {suite : Suite} {method : Method} {settings settings' : Settings} {secret : Secret}
  {salt iv key content : Bytes} {source behind : Source}

/-! ## Fields -/

theorem readField_eq (length : Nat) (delimiter : Bytes) (what : Missing) (undelimited : Failure)
    (source : Source) :
    readField length delimiter what undelimited source =
      if source.rest.length < length + delimiter.length then
        .error (.undersized what (length + delimiter.length) source.rest.length)
      else if (source.rest.drop length).take delimiter.length ≠ delimiter then .error undelimited
      else .ok (source.rest.take length, (source.readExactly (length + delimiter.length)).2) := by
  obtain ⟨data, -⟩ := source.readExactly_eq (length + delimiter.length)
  unfold readField
  dsimp only
  rw [data, List.length_take, List.drop_take, List.take_take, Nat.add_sub_cancel_left,
    Nat.min_eq_left (Nat.le_add_right _ _)]
  by_cases short : source.rest.length < length + delimiter.length
  · have all : min (length + delimiter.length) source.rest.length = source.rest.length := by omega
    rw [if_pos short, all, if_pos short]
  · rw [if_neg short, if_neg (by omega)]

theorem readField_append {field delimiter rest : Bytes} {length : Nat} (h : field.length = length)
    (what : Missing) (undelimited : Failure) {source : Source}
    (hs : source.rest = field ++ delimiter ++ rest) :
    ∃ behind, readField length delimiter what undelimited source = .ok (field, behind) ∧
      behind.rest = rest := by
  have width : (field ++ delimiter).length = length + delimiter.length := by
    rw [List.length_append, h]
  have total := congrArg List.length hs
  rw [List.length_append, width] at total
  obtain ⟨-, behind⟩ := source.readExactly_eq (length + delimiter.length)
  refine ⟨_, ?_, by rw [behind, hs, List.drop_left' width]⟩
  rw [readField_eq, if_neg (by omega), hs, List.append_assoc, List.drop_left' h, List.take_left,
    if_neg (not_not.2 rfl), List.take_left' h]

/-- A field that is found has its length, and its delimiter behind it. -/
theorem readField_eq_ok {length : Nat} {delimiter field : Bytes} {what : Missing}
    {undelimited : Failure}
    (h : readField length delimiter what undelimited source = .ok (field, behind)) :
    field.length = length ∧ source.rest = field ++ delimiter ++ behind.rest := by
  obtain ⟨-, rest⟩ := source.readExactly_eq (length + delimiter.length)
  rw [readField_eq] at h
  split_ifs at h with short delimited
  cases h
  refine ⟨List.length_take_of_le (by omega), ?_⟩
  have split := List.take_append_drop delimiter.length (source.rest.drop length)
  rw [not_not.1 delimited, List.drop_drop] at split
  rw [rest, List.append_assoc, split, List.take_append_drop]

/-- What stands in front of the ciphertext. -/
def header (secret : Secret) (salt iv : Bytes) : Bytes :=
  (if secret.saltLength?.isSome then salt ++ saltDelimiter else []) ++ (iv ++ ivDelimiter)

/-- The salt that takes part: where there is none, whatever is given is no salt. -/
def usedSalt (secret : Secret) (salt : Bytes) : Bytes :=
  if secret.saltLength?.isSome then salt else []

/-- What was put in front of the ciphertext is found there. -/
theorem openFrame_header (secret : Secret) (hsalt : ∀ n, secret.saltLength? = some n → salt.length = n)
    (hiv : iv.length = ivLength) {source : Source} {rest : Bytes}
    (hs : source.rest = header secret salt iv ++ rest) :
    ∃ behind, openFrame secret source = .ok (usedSalt secret salt, iv, behind) ∧
      behind.rest = rest := by
  unfold openFrame usedSalt
  unfold header at hs
  cases e : secret.saltLength? with
  | none =>
    simp only [e, Option.isSome_none, Bool.false_eq_true, if_false, List.nil_append] at hs ⊢
    obtain ⟨behind, found, back⟩ := readField_append hiv .iv .missingIvDelimiter hs
    refine ⟨behind, ?_, back⟩
    simp only [bind, Except.bind, found]
    rfl
  | some n =>
    simp only [e, Option.isSome_some, if_true] at hs ⊢
    rw [List.append_assoc] at hs
    obtain ⟨inner, first, middle⟩ := readField_append (hsalt n e) .salt .missingSaltDelimiter hs
    obtain ⟨behind, second, back⟩ := readField_append hiv .iv .missingIvDelimiter middle
    refine ⟨behind, ?_, back⟩
    simp only [bind, Except.bind, first, second]
    rfl

/-- What is found in front of the ciphertext stands there. -/
theorem openFrame_eq_ok (h : openFrame secret source = .ok (salt, iv, behind)) :
    source.rest = header secret salt iv ++ behind.rest ∧
      (∀ n, secret.saltLength? = some n → salt.length = n) ∧ iv.length = ivLength ∧
      usedSalt secret salt = salt := by
  unfold openFrame at h
  unfold header usedSalt
  cases e : secret.saltLength? with
  | none =>
    rw [e] at h
    simp only [bind, Except.bind] at h
    cases second : readField ivLength ivDelimiter .iv .missingIvDelimiter source with
    | error f =>
      rw [second] at h
      cases h
    | ok found =>
      rw [second] at h
      cases h
      obtain ⟨width, rest⟩ := readField_eq_ok second
      exact ⟨rest, nofun, width, rfl⟩
  | some n =>
    rw [e] at h
    simp only [bind, Except.bind] at h
    cases first : readField n saltDelimiter .salt .missingSaltDelimiter source with
    | error f =>
      rw [first] at h
      cases h
    | ok inner =>
      rw [first] at h
      dsimp only at h
      cases second : readField ivLength ivDelimiter .iv .missingIvDelimiter inner.2 with
      | error f =>
        rw [second] at h
        cases h
      | ok found =>
        rw [second] at h
        cases h
        obtain ⟨size, front⟩ := readField_eq_ok first
        obtain ⟨width, rest⟩ := readField_eq_ok second
        refine ⟨?_, fun _ hn => size.trans (Option.some.inj hn), width, rfl⟩
        simp only [front, rest, Option.isSome_some, if_true, List.append_assoc]

/-! ## Keys -/

/-- A source of keys that suits keyed methods. -/
def Secret.Valid : Secret → Prop
  | .raw key => Method.rawKeyBits.contains (8 * key.length) = true
  | .password _ kdf => kdf.strong = true

theorem ne_rawKey_of_strong {kdf : KeyDerivation} (h : kdf.strong = true) : kdf ≠ .rawKey := by
  rintro rfl
  cases h

theorem ownSaltLength_of_strong {kdf : KeyDerivation} (h : kdf.strong = true) :
    kdf.ownSaltLength = 16 := by
  cases kdf <;> first
    | rfl
    | exact absurd h (by decide)

theorem Secret.saltLength_eq_sixteen (valid : secret.Valid) {n : Nat}
    (h : secret.saltLength? = some n) : n = 16 := by
  cases secret with
  | raw key => cases h
  | password octets kdf =>
    cases h
    exact ownSaltLength_of_strong valid

/-- What is accepted as the source of a key for a keyed method. -/
theorem Secret.check_eq_ok_iff {kdf : KeyDerivation} {key password : Option Bytes} :
    Secret.check method kdf key password = .ok secret ↔
      method.keyed = true ∧ secret.Valid ∧
        ((kdf = .rawKey ∧ ∃ octets ∈ key, secret = .raw octets) ∨
          (kdf.strong = true ∧ ∃ octets ∈ password, secret = .password octets kdf)) := by
  unfold Secret.check
  constructor
  · intro made
    split_ifs at made with notKeyed raw weak
    · have keyed : method.keyed = true := by simpa using notKeyed
      cases key with
      | none => cases made
      | some octets =>
        dsimp only at made
        split_ifs at made with bits
        cases made
        exact ⟨keyed, bits, .inl ⟨raw, octets, rfl, rfl⟩⟩
    · have keyed : method.keyed = true := by simpa using notKeyed
      have strong : kdf.strong = true := by simpa using weak
      cases password with
      | none => cases made
      | some octets =>
        cases made
        exact ⟨keyed, strong, .inr ⟨strong, octets, rfl, rfl⟩⟩
  · rintro ⟨keyed, valid, ⟨rfl, octets, rfl, rfl⟩ | ⟨strong, octets, rfl, rfl⟩⟩
    · have bits : Method.rawKeyBits.contains (8 * octets.length) = true := valid
      simp only [keyed, bits, Bool.not_true, Bool.false_eq_true, if_false, if_true]
    · simp only [keyed, ne_rawKey_of_strong strong, strong, Bool.not_true, Bool.false_eq_true,
        if_false]

theorem Secret.exists_key (hs : suite.Stretches settings) (hm : method.keyed = true)
    (valid : secret.Valid) (hsalt : ∀ n, secret.saltLength? = some n → salt.length = n)
    (hiv : iv.length = ivLength) :
    ∃ key, secret.key suite method settings (usedSalt secret salt) = .ok key ∧
      method.Suits key iv := by
  have kind : method.supported = true ∧ method.isOpenPgp = false ∧ method.blockSize = ivLength := by
    cases method <;> first
      | exact ⟨rfl, rfl, rfl⟩
      | exact absurd hm (by decide)
  obtain ⟨supported, notOpenPgp, block⟩ := kind
  cases secret with
  | raw key => exact ⟨key, rfl, supported, notOpenPgp, .inr ⟨hm, valid⟩, hiv.trans block.symm⟩
  | password octets kdf =>
    have width : salt.length = 16 :=
      (hsalt _ rfl).trans (ownSaltLength_of_strong valid)
    obtain ⟨key, derived, size⟩ :=
      Derivation.exists_derive_strong hs hm valid octets width
    refine ⟨key, ?_, supported, notOpenPgp, .inl size, hiv.trans block.symm⟩
    exact congrArg (Except.map DerivedKey.key) derived

/-- Of the settings, only the work factors have a part in the key. -/
theorem Secret.key_congr (suite : Suite) (method : Method) (valid : secret.Valid)
    (same : settings.SameWork settings') (salt : Bytes) :
    secret.key suite method settings' salt = secret.key suite method settings salt := by
  cases secret with
  | raw key => rfl
  | password octets kdf =>
    have strong : kdf.strong = true := valid
    simp only [Secret.key, Derivation.derive_of_strong strong, Derivation.strong_congr same]

/-! ## One direction at a time -/

/-- What encryption does behind the header. -/
def encryptBehind (suite : Suite) (method : Method) (secret : Secret) (salt iv : Bytes)
    (settings : Settings) (source : Source) : Transfer Unit := do
  let key ← secret.key suite method settings salt
  let cipher ← suite.methodCipher method key iv
  let final ← cipher.encryptPieces method.padSize (source.chunks settings.bufferSize.toNat)
  if tagLength method ≠ 0 then Transfer.write (final.tag?.getD [])

theorem encrypt_eq (suite : Suite) (method : Method) (secret : Secret) (salt iv : Bytes)
    (settings : Settings) (source : Source) :
    encrypt suite method secret salt iv settings source =
      Transfer.write (header secret salt iv) >>= fun _ =>
        encryptBehind suite method secret (usedSalt secret salt) iv settings source := by
  unfold encrypt header usedSalt
  cases secret.saltLength? with
  | none => rfl
  | some n => exact Transfer.write_write_bind _ _ _

/-- With a key and a cipher that takes the content, the header, the ciphertext and the tag are
written. -/
theorem encrypt_of_written {c : StreamCipher} {s : StreamState} {ciphertext : Bytes}
    (hk : secret.key suite method settings (usedSalt secret salt) = .ok key)
    (hc : suite.methodCipher method key iv = .ok c)
    (written : c.encryptPieces method.padSize (source.chunks settings.bufferSize.toNat) =
      ⟨ciphertext, .ok s⟩) (tagged : s.tag? = c.tag? ciphertext) :
    encrypt suite method secret salt iv settings source =
      ⟨header secret salt iv ++ (ciphertext ++ (c.tag? ciphertext).getD []), .ok ()⟩ := by
  have last : (if tagLength method ≠ 0 then Transfer.write (s.tag?.getD []) else pure ()) =
      Transfer.write ((c.tag? ciphertext).getD []) := by
    rw [tagged]
    by_cases untagged : tagLength method = 0
    · rw [if_neg (not_not.2 untagged),
        (Suite.methodCipher_serves hc).tag?_of_untagged untagged]
      rfl
    · rw [if_pos untagged]
  rw [encrypt_eq, encryptBehind, hk, Transfer.lift_ok_bind, hc, Transfer.lift_ok_bind,
    Transfer.bind_of_ok written, last, Transfer.write_bind]
  rfl

/-- Behind what was found, decryption is that of the ciphertext. -/
theorem decrypt_of_opened {c : StreamCipher}
    (opened : openFrame secret source = .ok (salt, iv, behind))
    (hk : secret.key suite method settings salt = .ok key)
    (hc : suite.methodCipher method key iv = .ok c) :
    decrypt suite method secret settings source =
      c.decryptPieces method.padSize (tagLength method)
        (behind.chunks settings.bufferSize.toNat) := by
  unfold decrypt
  rw [opened, Transfer.lift_ok_bind]
  dsimp only
  rw [hk, Transfer.lift_ok_bind, hc, Transfer.lift_ok_bind]

/-- A decryption without failure has found the fields, a key and a cipher. -/
theorem exists_of_decrypt
    (h : decrypt suite method secret settings source = ⟨content, .ok ()⟩) :
    ∃ salt iv behind key c, openFrame secret source = .ok (salt, iv, behind) ∧
      secret.key suite method settings salt = .ok key ∧
      suite.methodCipher method key iv = .ok c := by
  unfold decrypt at h
  obtain ⟨⟨salt, iv, behind⟩, opened, h⟩ := Transfer.exists_of_lift_bind h
  obtain ⟨key, hk, h⟩ := Transfer.exists_of_lift_bind h
  obtain ⟨c, hc, -⟩ := Transfer.exists_of_lift_bind h
  exact ⟨salt, iv, behind, key, c, opened, hk, hc⟩

/-! ## There and back -/

/-- Content is put into a frame, from which it comes back. -/
theorem exists_frame (invertible : suite.Invertible) (hs : suite.Stretches settings)
    (buffer : 1 ≤ settings.bufferSize.toNat) (buffer' : 1 ≤ settings'.bufferSize.toNat)
    (same : settings.SameWork settings') (hm : method.keyed = true) (valid : secret.Valid)
    (hsalt : ∀ n, secret.saltLength? = some n → salt.length = n) (hiv : iv.length = ivLength)
    (whole : method = .aesCbcUnpadded → 16 ∣ content.length) :
    ∃ frame,
      (∀ source : Source, source.rest = content →
        encrypt suite method secret salt iv settings source = ⟨frame, .ok ()⟩) ∧
      ∀ source : Source, source.rest = frame →
        decrypt suite method secret settings' source = ⟨content, .ok ()⟩ := by
  obtain ⟨key, hk, suits⟩ := secret.exists_key hs hm valid hsalt hiv
  obtain ⟨c, hc⟩ := suite.exists_methodCipher suits
  have serves := Suite.methodCipher_serves hc
  set ciphertext := c.encrypted method.padSize content with hciphertext
  refine ⟨header secret salt iv ++ (ciphertext ++ (c.tag? ciphertext).getD []), ?_, ?_⟩
  · intro source hs
    rw [← hs] at whole
    obtain ⟨s, written, tagged⟩ := serves.encryptPieces_chunks buffer source whole
    rw [hs, ← hciphertext] at written tagged
    exact encrypt_of_written hk hc written tagged
  · intro source hs
    obtain ⟨behind, opened, rest⟩ := openFrame_header secret hsalt hiv hs
    have flat : (behind.chunks settings'.bufferSize.toNat).flatten =
        ciphertext ++ (c.tag? ciphertext).getD [] := by
      rw [behind.flatten_chunks buffer', rest]
    rw [decrypt_of_opened opened ((Secret.key_congr suite method valid same _).trans hk) hc]
    exact serves.decryptPieces_encrypted invertible whole flat

/-- The fields of a frame are the given or the drawn ones, which have their lengths. -/
theorem exists_fields (suite : Suite) (method : Method) (settings : Settings)
    {salt iv : Option Bytes}
    (hsalt : ∀ n, secret.saltLength? = some n → ∀ octets ∈ salt, octets.length = n)
    (hiv : ∀ octets ∈ iv, octets.length = ivLength) (e : Entropy) :
    ∃ salt' iv' e', (∀ n, secret.saltLength? = some n → salt'.length = n) ∧ iv'.length = ivLength ∧
      ∀ source, encryptFresh suite method secret salt iv settings source e =
        (encrypt suite method secret salt' iv' settings source, e') := by
  unfold encryptFresh
  cases length : secret.saltLength? with
  | none => exact ⟨[], _, _, nofun, e.length_drawUnless hiv, fun _ => rfl⟩
  | some n =>
    refine ⟨(e.drawUnless salt n).1, _, _, ?_, Entropy.length_drawUnless _ hiv, fun _ => rfl⟩
    intro n' hn
    cases hn
    exact e.length_drawUnless (hsalt n length)

/-- Every keyed method gives the content of a frame back, whatever salt and initial vector are given
or drawn, and whatever pieces are read on either side. -/
theorem decrypt_encryptFresh_of_given (invertible : suite.Invertible)
    (stretches : suite.Stretches settings) (hs : settings.Accepted) (hs' : settings'.Accepted)
    (same : settings.SameWork settings') (hm : method.keyed = true) {kdf : KeyDerivation}
    {key password : Option Bytes}
    (given : (kdf = .rawKey ∧ ∃ octets ∈ key, octets.length ∈ [16, 24, 32]) ∨
      (kdf.strong = true ∧ password.isSome = true))
    {salt iv : Option Bytes} (hsalt : kdf.strong = true → ∀ octets ∈ salt, octets.length = 16)
    (hiv : ∀ octets ∈ iv, octets.length = 16) (source : Source)
    (whole : method = .aesCbcUnpadded → 16 ∣ source.rest.length) (e : Entropy) :
    ∃ secret, Secret.check method kdf key password = .ok secret ∧ ∃ frame e',
      encryptFresh suite method secret salt iv settings source e = (⟨frame, .ok ()⟩, e') ∧
        ∀ source' : Source, source'.rest = frame →
          decrypt suite method secret settings' source' = ⟨source.rest, .ok ()⟩ := by
  obtain ⟨secret, made⟩ : ∃ secret, Secret.check method kdf key password = .ok secret := by
    rcases given with ⟨raw, octets, hk, size⟩ | ⟨strong, hp⟩
    · have bits : (Secret.raw octets).Valid := by
        simp only [List.mem_cons, List.not_mem_nil, or_false] at size
        rcases size with h | h | h <;> simp [Secret.Valid, h, Method.rawKeyBits]
      exact ⟨_, Secret.check_eq_ok_iff.2 ⟨hm, bits, .inl ⟨raw, octets, hk, rfl⟩⟩⟩
    · obtain ⟨octets, hp⟩ := Option.isSome_iff_exists.1 hp
      exact ⟨.password octets kdf,
        Secret.check_eq_ok_iff.2 ⟨hm, strong, .inr ⟨strong, octets, hp, rfl⟩⟩⟩
  obtain ⟨-, valid, kind⟩ := Secret.check_eq_ok_iff.1 made
  have salted : ∀ n, secret.saltLength? = some n → ∀ octets ∈ salt, octets.length = n := by
    intro n hn octets ho
    rcases kind with ⟨-, _, -, rfl⟩ | ⟨strong, -⟩
    · cases hn
    · exact (hsalt strong octets ho).trans (Secret.saltLength_eq_sixteen valid hn).symm
  obtain ⟨salt', iv', e', width, width', drawn⟩ :=
    exists_fields suite method settings salted hiv e
  obtain ⟨frame, encrypted, decrypted⟩ := exists_frame invertible stretches hs.bufferSize
    hs'.bufferSize same hm valid width width' whole
  exact ⟨secret, made, frame, e', by rw [drawn, encrypted source rfl], decrypted⟩

/-- Fields that consist of delimiters, written octet by octet and read by five. -/
theorem decrypt_encryptFresh_of_given_delimiters :
    Suite.standard.Invertible ∧ Suite.standard.Stretches {} ∧ ({} : Settings).Accepted ∧
      ({ bufferSize := 5 } : Settings).Accepted ∧
      ({} : Settings).SameWork { bufferSize := 5 } ∧ Method.aesGcm.keyed = true ∧
      KeyDerivation.argon2.strong = true ∧ (Bytes.ofAscii "NiFiSALTNiFiSALT").length = 16 ∧
      (Bytes.ofAscii "NiFiIVNiFiIVNiFi").length = 16 ∧
      ∃ secret, Secret.check .aesGcm .argon2 none (some (Text.utf8 "pw")) = .ok secret ∧
        ∃ frame e', encryptFresh .standard .aesGcm secret (some (Bytes.ofAscii "NiFiSALTNiFiSALT"))
            (some (Bytes.ofAscii "NiFiIVNiFiIVNiFi")) {}
            { rest := saltDelimiter, limit := fun _ => some 1 }
            ⟨fun i => i.toUInt8, 0, fun _ => 0xff⟩ = (⟨frame, .ok ()⟩, e') ∧
          ∀ source : Source, source.rest = frame →
            decrypt .standard .aesGcm secret { bufferSize := 5 } source = ⟨saltDelimiter, .ok ()⟩ := by
  have stretches : Suite.standard.Stretches {} := Suite.stretches_standard (by decide)
  have accepted : ({} : Settings).Accepted := Settings.accepted_default
  have accepted' : ({ bufferSize := 5 } : Settings).Accepted :=
    Settings.accepted_of_bufferSize_pos (by decide)
  have same : ({} : Settings).SameWork { bufferSize := 5 } := ⟨rfl, rfl, rfl, rfl, rfl, rfl, rfl, rfl⟩
  have salt : (Bytes.ofAscii "NiFiSALTNiFiSALT").length = 16 := by decide
  have iv : (Bytes.ofAscii "NiFiIVNiFiIVNiFi").length = 16 := by decide
  have given : (KeyDerivation.argon2 = .rawKey ∧
        ∃ octets ∈ (none : Option Bytes), octets.length ∈ [16, 24, 32]) ∨
      (KeyDerivation.argon2.strong = true ∧ (some (Text.utf8 "pw")).isSome = true) :=
    .inr ⟨rfl, rfl⟩
  have salted : KeyDerivation.argon2.strong = true →
      ∀ octets ∈ some (Bytes.ofAscii "NiFiSALTNiFiSALT"), octets.length = 16 := by
    rintro - octets ⟨⟩
    exact salt
  have vectored : ∀ octets ∈ some (Bytes.ofAscii "NiFiIVNiFiIVNiFi"), octets.length = 16 := by
    rintro octets ⟨⟩
    exact iv
  exact ⟨Suite.invertible_standard, stretches, accepted, accepted', same, rfl, rfl, salt, iv,
    decrypt_encryptFresh_of_given Suite.invertible_standard stretches accepted accepted' same rfl
      given salted vectored { rest := saltDelimiter, limit := fun _ => some 1 }
      (fun e => absurd e (by decide)) ⟨fun i => i.toUInt8, 0, fun _ => 0xff⟩⟩

/-! ## Back and there -/

/-- What is decrypted to a content is written again when that content is encrypted under the same
fields. -/
theorem encrypt_of_decrypt (invertible : suite.Invertible) (buffer : 1 ≤ settings.bufferSize.toNat)
    (buffer' : 1 ≤ settings'.bufferSize.toNat) (same : settings.SameWork settings')
    (valid : secret.Valid) (opened : openFrame secret source = .ok (salt, iv, behind))
    (hd : decrypt suite method secret settings source = ⟨content, .ok ()⟩) {source' : Source}
    (hs : source'.rest = content) :
    encrypt suite method secret salt iv settings' source' = ⟨source.rest, .ok ()⟩ := by
  obtain ⟨salt', iv', behind', key, c, found, hk, hc⟩ := exists_of_decrypt hd
  cases opened.symm.trans found
  obtain ⟨front, -, -, used⟩ := openFrame_eq_ok opened
  have serves := Suite.methodCipher_serves hc
  rw [decrypt_of_opened opened hk hc] at hd
  have read : (source'.chunks settings'.bufferSize.toNat).flatten = content :=
    (source'.flatten_chunks buffer').trans hs
  obtain ⟨ciphertext, s, written, tagged, whole⟩ :=
    serves.encryptPieces_decrypted invertible hd read
  rw [behind.flatten_chunks buffer] at whole
  have hk' : secret.key suite method settings' (usedSalt secret salt) = .ok key := by
    rw [used, Secret.key_congr suite method valid same, hk]
  rw [encrypt_of_written hk' hc written tagged, front, whole]

/-- The fields that are given are the ones that are written. -/
theorem encryptFresh_some (suite : Suite) (method : Method) (settings : Settings)
    (used : usedSalt secret salt = salt) (iv : Bytes) (source : Source) (e : Entropy) :
    encryptFresh suite method secret (some salt) (some iv) settings source e =
      (encrypt suite method secret salt iv settings source, e) := by
  cases secret with
  | raw key =>
    have unsalted : [] = salt := used
    rw [← unsalted]
    rfl
  | password octets kdf => rfl

/-- What can be decrypted begins with a salt, where there is one, and an initial vector; encryption of
the content under them writes it again, so nothing else with the same fields has that content. -/
theorem encryptFresh_of_decrypt (invertible : suite.Invertible) (hs : settings.Accepted)
    (hs' : settings'.Accepted) (same : settings.SameWork settings') {kdf : KeyDerivation}
    {key password : Option Bytes} (made : Secret.check method kdf key password = .ok secret)
    (hd : decrypt suite method secret settings source = ⟨content, .ok ()⟩) :
    ∃ salt iv ciphertext : Bytes,
      source.rest = (if kdf = .rawKey then [] else salt ++ saltDelimiter) ++ (iv ++ ivDelimiter) ++
        ciphertext ∧
      (kdf ≠ .rawKey → salt.length = 16) ∧ iv.length = 16 ∧
      (∀ (source' : Source) (e : Entropy), source'.rest = content →
        encryptFresh suite method secret (some salt) (some iv) settings' source' e =
          (⟨source.rest, .ok ()⟩, e)) ∧
      ∀ (other : Source) (ciphertext' : Bytes),
        other.rest = (if kdf = .rawKey then [] else salt ++ saltDelimiter) ++ (iv ++ ivDelimiter) ++
          ciphertext' →
        decrypt suite method secret settings other = ⟨content, .ok ()⟩ →
          other.rest = source.rest := by
  obtain ⟨-, valid, kind⟩ := Secret.check_eq_ok_iff.1 made
  obtain ⟨salt, iv, behind, -, -, opened, -, -⟩ := exists_of_decrypt hd
  obtain ⟨front, size, width, used⟩ := openFrame_eq_ok opened
  have shape : header secret salt iv =
      (if kdf = .rawKey then [] else salt ++ saltDelimiter) ++ (iv ++ ivDelimiter) := by
    rcases kind with ⟨rfl, _, -, rfl⟩ | ⟨strong, _, -, rfl⟩
    · rfl
    · rw [if_neg (ne_rawKey_of_strong strong)]
      rfl
  refine ⟨salt, iv, behind.rest, by rw [← shape, front], ?_, width, ?_, ?_⟩
  · intro derived
    rcases kind with ⟨raw, -⟩ | ⟨-, octets, -, rfl⟩
    · exact absurd raw derived
    · exact (size _ rfl).trans (Secret.saltLength_eq_sixteen valid rfl)
  · intro source' e hc
    rw [encryptFresh_some suite method settings' used,
      encrypt_of_decrypt invertible hs.bufferSize hs'.bufferSize same valid opened hd hc]
  · intro other ciphertext' layout hd'
    rw [← shape] at layout
    obtain ⟨behind', opened', -⟩ := openFrame_header secret size width layout
    rw [used] at opened'
    -- Both are what encryption of the same content under the same fields writes.
    have read : ({ rest := content } : Source).rest = content := rfl
    have again := encrypt_of_decrypt invertible hs.bufferSize hs'.bufferSize same valid opened hd read
    have again' :=
      encrypt_of_decrypt invertible hs.bufferSize hs'.bufferSize same valid opened' hd' read
    exact congrArg Transfer.written (again'.symm.trans again)

/-- A frame whose salt and initial vector consist of delimiters, with a tag behind it. -/
theorem encryptFresh_of_decrypt_delimiters :
    Suite.standard.Invertible ∧ ({} : Settings).Accepted ∧
      ({ bufferSize := 5 } : Settings).Accepted ∧ ({} : Settings).SameWork { bufferSize := 5 } ∧
      Secret.check .aesGcm .argon2 none (some (Text.utf8 "pw")) =
        .ok (.password (Text.utf8 "pw") .argon2) ∧
      ∃ frame : Bytes,
        encrypt .standard .aesGcm (.password (Text.utf8 "pw") .argon2)
            (Bytes.ofAscii "NiFiSALTNiFiSALT") (Bytes.ofAscii "NiFiIVNiFiIVNiFi") {}
            { rest := ivDelimiter } = ⟨frame, .ok ()⟩ ∧
        decrypt .standard .aesGcm (.password (Text.utf8 "pw") .argon2) {} { rest := frame } =
          ⟨ivDelimiter, .ok ()⟩ ∧
        ∃ salt iv ciphertext : Bytes,
          frame = salt ++ saltDelimiter ++ (iv ++ ivDelimiter) ++ ciphertext ∧ salt.length = 16 ∧
            iv.length = 16 ∧
            encryptFresh .standard .aesGcm (.password (Text.utf8 "pw") .argon2) (some salt) (some iv)
              { bufferSize := 5 } { rest := ivDelimiter, limit := fun _ => some 1 }
              ⟨fun _ => 0, 0, fun _ => 0⟩ = (⟨frame, .ok ()⟩, ⟨fun _ => 0, 0, fun _ => 0⟩) := by
  have stretches : Suite.standard.Stretches {} := Suite.stretches_standard (by decide)
  have accepted : ({} : Settings).Accepted := Settings.accepted_default
  have accepted' : ({ bufferSize := 5 } : Settings).Accepted :=
    Settings.accepted_of_bufferSize_pos (by decide)
  have same : ({} : Settings).SameWork { bufferSize := 5 } := ⟨rfl, rfl, rfl, rfl, rfl, rfl, rfl, rfl⟩
  have made : Secret.check .aesGcm .argon2 none (some (Text.utf8 "pw")) =
      .ok (.password (Text.utf8 "pw") .argon2) := rfl
  have valid : (Secret.password (Text.utf8 "pw") .argon2).Valid := rfl
  have salted : ∀ n, (Secret.password (Text.utf8 "pw") .argon2).saltLength? = some n →
      (Bytes.ofAscii "NiFiSALTNiFiSALT").length = n := by
    rintro n ⟨⟩
    decide
  have vectored : (Bytes.ofAscii "NiFiIVNiFiIVNiFi").length = ivLength := by decide
  have whole : Method.aesGcm = .aesCbcUnpadded → 16 ∣ ivDelimiter.length := by
    intro e
    cases e
  obtain ⟨frame, written, opens⟩ := exists_frame Suite.invertible_standard stretches
    accepted.bufferSize accepted.bufferSize (.refl _) rfl valid salted vectored whole
  have opens := opens { rest := frame } rfl
  obtain ⟨salt, iv, ciphertext, layout, size, width, again, -⟩ :=
    encryptFresh_of_decrypt Suite.invertible_standard accepted accepted' same made opens
  rw [if_neg (by decide)] at layout
  exact ⟨Suite.invertible_standard, accepted, accepted', same, made, frame, written _ rfl, opens,
    salt, iv, ciphertext, layout, size (by decide), width, again _ _ rfl⟩

end Cryptogram.Keyed
