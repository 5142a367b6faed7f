import Cryptogram.Proofs.OpenPgp.Failures
import Cryptogram.Proofs.OpenPgp.PublicKey
import Cryptogram.Proofs.Processor
import Cryptogram.Proofs.Validation.Keyrings

/-!
# Outcomes of messages

Under properties for OpenPGP, content that fits its plan has an outcome unless a keyring that is asked
for a key cannot be loaded (`Processor.exists_process`).  All that is known about such keyrings is put
together in `Keyring.failsIn_ofKeyring_unless`; `Keyring.publicKey_twoLines` is one of them.
-/

namespace Cryptogram

/-! ## Plans for messages -/

theorem Failure.isOwn_of_isA {f : Failure} {c : ErrorClass} (h : f.kind.isA c = true) :
    f.isOwn = true := by
  revert h
  unfold isOwn ErrorKind.isA
  cases f.kind with
  | outside k =>
    intro h
    cases h
  | own d =>
    intro _
    cases d <;> rfl

/-- Content that a plan for messages can deal with: what is written has a size that four octets hold
and a recipient whose key takes the session key, and what is read is not nested too deeply. -/
structure Plan.Fits (plan : Plan) (s : Surroundings) (content : Bytes) : Prop where
  size : plan.mode = .encrypt →
    Message.sealedSize plan.cipher s.settings.literalName content < 2 ^ 32
  recipient : ∀ key ∈ plan.publicKey, key.Takes plan.cipher
  nesting : plan.mode = .decrypt → ∀ opener inner,
    Message.Contains s.suite (some opener) content inner → ¬ Message.Nested Message.maxNesting inner

namespace Processor

variable {s : Surroundings} {p : Properties} {plan : Plan} {vault : Vault} {content : Bytes}

/-- A transfer ends with an answer or with one of the library's failures. -/
def Settles (t : Transfer Unit) : Prop := FailsIn (fun f => f.isOwn = true) t.answer

theorem exists_outcome_of_settles {t : Transfer Unit} (h : Settles t) :
    ∃ o, outcome content t = .ok o := by
  unfold outcome
  cases answer : t.answer with
  | ok => exact ⟨_, rfl⟩
  | error f =>
    dsimp only
    rw [if_pos (h f answer)]
    exact ⟨_, rfl⟩

theorem settles_encryptMessage {password : Option Bytes} {e e' : Entropy} {message : Bytes}
    (written : Message.encrypt s.suite s.settings ⟨plan.cipher,
      (password.map Message.Recipient.password).or (plan.publicKey.map .publicKey), plan.armored,
        s.time⟩ content e = .ok (message, e')) :
    Settles (encryptMessage s plan password { rest := content } e).1 := by
  unfold encryptMessage
  dsimp only
  rw [written]
  exact .ok ()

theorem settles_decryptMessage {password : Option Bytes} (nonempty : password ≠ some [])
    (flat : ∀ opener inner, Message.Contains s.suite (some opener) content inner →
      ¬ Message.Nested Message.maxNesting inner) :
    Settles (decryptMessage s plan password { rest := content }) := by
  unfold decryptMessage
  dsimp only
  generalize hopener : (password.map Message.Opener.password).or
    (plan.privateKeyring.map .keyring) = opener
  have given : opener ≠ some (.password []) := by
    rintro rfl
    cases password with
    | none => cases ring : plan.privateKeyring <;> simp [ring] at hopener
    | some octets =>
      cases hopener
      exact nonempty rfl
  cases decrypted : Message.decrypt s.suite opener content with
  | ok literal => exact .ok ()
  | error f =>
    refine .error ?_
    rcases Message.failsIn_decrypt given content f decrypted with
      (format | crypto) | ⟨-, inner, contains, nested⟩
    · exact Failure.isOwn_of_isA format
    · exact Failure.isOwn_of_isA crypto
    · cases opener with
      | none =>
        obtain ⟨envelope, keys, -, absent, -⟩ := contains
        cases absent
      | some opener => exact absurd nested (flat opener inner contains)

/-- Under a plan for messages that content fits, encryption and decryption settle. -/
theorem settles_run (accepted : s.settings.Accepted) (time : 0 ≤ s.time) (time_lt : s.time < 2 ^ 32)
    (amounts : p.AmountsTo s.suite s.settings s.keyrings plan vault)
    (kind : plan.method.isOpenPgp = true) (fits : plan.Fits s content) (e : Entropy) :
    Settles (run s plan vault { rest := content } e).1 := by
  cases amounts.key with
  | passwordBased other =>
    rw [Method.isOpenPgp_of_passwordBased other] at kind
    cases kind
  | rawKey other =>
    rw [Method.isOpenPgp_of_keyed other] at kind
    cases kind
  | strong other =>
    rw [Method.isOpenPgp_of_keyed other] at kind
    cases kind
  | @openPgpPassword d m k weak password a _ cipher given set =>
    rw [run_eq rfl rfl, runWith_openPgp kind]
    split_ifs with encrypting
    · have writes := of_decide_eq_true encrypting
      obtain ⟨sealing, e', written, -⟩ := Message.exists_sealing s.suite accepted
        (cipher.supported rfl) (Text.utf8 password) content _ time time_lt e (fits.size writes)
      exact settles_encryptMessage written
    · have reads : d = .decrypt := by
        cases d with
        | encrypt => exact absurd rfl encrypting
        | decrypt => rfl
      have nonempty : some (Text.utf8 password) ≠ some [] := by
        rw [given] at set
        simpa using Text.utf8_ne_nil (of_decide_eq_true set)
      exact settles_decryptMessage nonempty (fits.nesting reads)
  | @recipient m k weak a key _ cipher unset ring user loaded =>
    rw [run_eq rfl rfl, runWith_openPgp kind]
    obtain ⟨message, e', written⟩ := Message.exists_encrypt_publicKey s.suite accepted
      (cipher.supported rfl) (fits.recipient key rfl) (KeyringSource.length_keyId_of_recipient loaded)
      content _ time time_lt e (fits.size rfl)
    exact settles_encryptMessage written
  | privateKeyring _ cipher unset ring given set loaded =>
    rw [run_eq rfl rfl, runWith_openPgp kind]
    exact settles_decryptMessage (by simp) (fits.nesting rfl)

/-- Content has an outcome under properties for messages, unless a keyring cannot be loaded. -/
theorem exists_process (typed : p.Typed) (kind : p.ForMessages) (serves : s.keyrings.Serves)
    (loads : ¬ p.Trips s.suite s.keyrings) (accepted : s.settings.Accepted) (time : 0 ≤ s.time)
    (time_lt : s.time < 2 ^ 32)
    (fits : ∀ plan vault, p.AmountsTo s.suite s.settings s.keyrings plan vault → plan.Fits s content)
    (e : Entropy) : ∃ o, (process s p content e).1 = .ok o := by
  unfold process
  refine exists_outcome_of_settles ?_
  rw [← Resolution.failsWith_evaluate typed kind serves s.settings] at loads
  obtain ⟨r, evaluated⟩ := (Resolution.failsIn_evaluate typed kind s.settings).exists_ok loads
  by_cases clean : r.findings = []
  · obtain ⟨plan, vault, amounts, -⟩ := Resolution.passes_evaluate.1 ⟨evaluated, clean⟩
    have openPgp : plan.method.isOpenPgp = true := by
      obtain ⟨m, method, openPgp⟩ := kind
      have same := Resolution.choose?_methods.2 method
      rw [Resolution.choose?_methods.2 amounts.method] at same
      cases same
      exact openPgp
    unfold transform
    rw [Validation.resolve_eq_ok_iff.2 amounts]
    exact settles_run accepted time time_lt amounts openPgp (fits plan vault amounts) e
  · unfold transform Validation.resolve
    rw [evaluated]
    dsimp only
    rw [if_neg clean]
    exact .error rfl

end Processor

/-! ## Keyrings that are loaded -/

namespace Keyring

/-- Whatever octets a keyring has, loading a key from it fails only with failures about keyrings,
except for a keyring with a key that is not legible and one that breaks off while it is unlocked.
Without those, validation always gives a list and content that fits always has an outcome. -/
theorem failsIn_ofKeyring_unless (suite : Suite) :
    (∀ (l : Loader) (location userId : String),
      FailsIn Failure.OfKeyring (l.publicKey suite location userId).1 ↔
        ∀ data, l.shelf.read location = .ok data →
          l.cache.find? ((suite.digest .sha256).hash data) = none →
            ¬ Ring.Illegible suite location data) ∧
    (∀ (l : Loader) (location : String) (passphrase : Bytes),
      FailsIn Failure.OfKeyring (l.privateKeyring suite location passphrase) ↔
        ∀ data, l.shelf.read location = .ok data → ¬ Ring.Breaks suite location passphrase data) ∧
    ∀ (settings : Settings) (source : KeyringSource) (p : Properties),
      p.Typed → p.ForMessages → source.Serves →
      ((∃ findings vault, Validation.validate suite settings source p = .ok (findings, vault)) ↔
        ¬ p.Trips suite source) ∧
      ∀ (time : Int) (content : Bytes) (e : Entropy),
        settings.Accepted → 0 ≤ time → time < 2 ^ 32 → ¬ p.Trips suite source →
        (∀ plan vault, p.AmountsTo suite settings source plan vault →
          plan.Fits ⟨suite, settings, source, time⟩ content) →
        ∃ o, (Processor.process ⟨suite, settings, source, time⟩ p content e).1 = .ok o := by
  refine ⟨fun l location userId => ?_, fun l location passphrase => ?_,
    fun settings source p typed kind serves => ⟨?_, ?_⟩⟩
  · rw [failsIn_ofKeyring_iff, Loader.failsWith_publicKey]
    push Not
    rfl
  · rw [failsIn_ofKeyring_iff, Loader.failsWith_privateKeyring]
    push Not
    rfl
  · exact Validation.exists_validate_iff settings typed kind serves
  · intro time content e accepted least greatest loads fits
    exact @Processor.exists_process ⟨suite, settings, source, time⟩ p content typed kind serves loads
      accepted least greatest fits e

/-- A keyring of one recipient with a short key, to whom two octets are encrypted. -/
theorem failsIn_ofKeyring_unless_short :
    let ring : Bytes :=
      [0xc6, 0x2b, 0x04, 0x00, 0x00, 0x00, 0x00, 0x01, 0x01, 0x00, 0x80, 0x00, 0x00, 0x00, 0x00,
        0x00, 0x00, 0x00, 0x00, 0x00, 0x00, 0x00, 0x00, 0x00, 0x00, 0x00, 0x00, 0x00, 0x00, 0x00,
        0x00, 0x00, 0x00, 0x00, 0x00, 0x00, 0x00, 0x00, 0x00, 0x00, 0x00, 0x01, 0x00, 0x02, 0x03,
        0xcd, 0x01, 0x41]
    let shelf : Shelf := ⟨[("ring", ring)]⟩
    let source : KeyringSource := .ofShelf shelf
    let p : Properties :=
      { algorithm := .member .openPgp, publicKeyring := .text "ring", publicKeyUserId := .text "A" }
    let s : Surroundings := ⟨.standard, {}, source, 1700000000⟩
    (p.Typed ∧ p.ForMessages ∧ source.Serves) ∧
      (({} : Settings).Accepted ∧ ¬ p.Trips .standard source ∧
        ∀ plan vault, p.AmountsTo .standard {} source plan vault → plan.Fits s [104, 105]) ∧
      FailsIn Failure.OfKeyring ((Loader.mk shelf ⟨64, []⟩).publicKey .standard "ring" "A").1 ∧
      (∃ findings vault, Validation.validate .standard {} source p = .ok (findings, vault)) ∧
        ∃ o, (Processor.process s p [104, 105] ⟨fun i => i.toUInt8, 0, fun _ => 0xff⟩).1 = .ok o := by
  intro ring shelf source p s
  have typed : p.Typed :=
    { password := .inl rfl
      rawKey := .inl rfl
      publicKeyring := .inr ⟨_, rfl⟩
      publicKeyUserId := .inr ⟨_, rfl⟩
      privateKeyring := .inl rfl
      privateKeyringPassphrase := .inl rfl
      cipher := .inr ⟨_, rfl⟩ }
  have kind : p.ForMessages := ⟨.openPgp, .inl rfl, rfl⟩
  have serves : source.Serves := KeyringSource.serves_ofShelf shelf
  have accepted : ({} : Settings).Accepted := Settings.accepted_default
  let recipient : EncryptionKey :=
    ⟨"A", [0xc6, 0xff, 0x18, 0xf2, 0xcd, 0x69, 0x81, 0x90],
      [0x28, 0x36, 0x52, 0x39, 0x19, 0x48, 0xb1, 0x2f, 0x63, 0x3d, 0x96, 0xf5,
      0xc6, 0xff, 0x18, 0xf2, 0xcd, 0x69, 0x81, 0x90],
      ⟨2 ^ 255 + 1, 3⟩⟩
  have planned : Validation.resolve .standard {} source p =
      (.ok ⟨.encrypt, .openPgp, .rawKey, none, none, some recipient, none, .aes128, false⟩, {}) := by
    decide +kernel
  have fits (plan : Plan) (vault : Vault) (amounts : p.AmountsTo .standard {} source plan vault) :
      plan.Fits s [104, 105] := by
    have same := Validation.resolve_eq_ok_iff.2 amounts
    rw [planned] at same
    cases same
    refine ⟨fun _ => Message.sealedSize_empty_lt .aes128 (by decide), ?_, by rintro ⟨⟩⟩
    rintro _ ⟨⟩
    exact ⟨by decide, by decide⟩
  obtain ⟨loaded, -, rest⟩ := failsIn_ofKeyring_unless .standard
  obtain ⟨listed, processed⟩ := rest {} source p typed kind serves
  have validated : ∃ findings vault, Validation.validate .standard {} source p = .ok (findings, vault) :=
    ⟨[], {}, by decide⟩
  have loads : ¬ p.Trips .standard source := listed.1 validated
  have legible : ¬ Ring.Illegible .standard "ring" ring := fun illegible => loads
    ⟨rfl, .inl ⟨.inl (.inl rfl), "ring", "A", ring, rfl, by decide, rfl, by decide, rfl, illegible⟩⟩
  refine ⟨⟨typed, kind, serves⟩, ⟨accepted, loads, fits⟩, (loaded _ _ _).2 ?_, validated,
    processed 1700000000 _ _ accepted (by decide) (by decide) loads fits⟩
  rintro data ⟨⟩ -
  exact legible

/-- A user id of two lines cannot be told apart, and whoever looks for a recipient in its keyring gets
a failure that is not about keyrings. -/
theorem publicKey_twoLines :
    let ring : Bytes :=
      [0x99, 0x00, 0x8d, 0x04, 0x5f, 0x5e, 0x10, 0x00, 0x01, 0x04, 0x00, 0xda, 0xbd, 0x21, 0x7f,
        0xdd, 0x91, 0xa0, 0xb1, 0x49, 0x5a, 0xcc, 0xc9, 0x62, 0x30, 0xc5, 0xa1, 0x5f, 0x33, 0x45,
        0x21, 0x55, 0x5b, 0xc8, 0x05, 0x0e, 0x30, 0x89, 0x04, 0x62, 0x78, 0x2f, 0x81, 0x72, 0xe3,
        0xb6, 0xa8, 0x61, 0x89, 0x06, 0xe2, 0x68, 0x86, 0x8d, 0x87, 0x09, 0x23, 0x2c, 0xcd, 0x46,
        0xf0, 0x58, 0x87, 0x00, 0xc4, 0x9f, 0xde, 0x25, 0x68, 0x6e, 0x26, 0x83, 0xcb, 0x52, 0x2b,
        0x6c, 0xcc, 0xb3, 0x48, 0x96, 0xa0, 0x51, 0x02, 0xc7, 0x8c, 0x52, 0x27, 0x1e, 0x44, 0x9e,
        0x6e, 0xb3, 0x76, 0x00, 0x42, 0x0a, 0x70, 0xaf, 0xbd, 0x49, 0xb3, 0x02, 0x5e, 0x9a, 0x31,
        0x83, 0xaf, 0xb8, 0xe0, 0x4d, 0x70, 0xfb, 0x5e, 0x60, 0x8a, 0x5e, 0xb7, 0x16, 0x75, 0x6b,
        0x7c, 0x71, 0xd3, 0xd1, 0x70, 0xf4, 0x9e, 0x2a, 0x2a, 0xef, 0x5e, 0xda, 0x3e, 0x53, 0xd0,
        0xcb, 0x60, 0xc4, 0x2f, 0x00, 0x11, 0x01, 0x00, 0x01, 0xb5, 0x00, 0x07, 0x41, 0x0a, 0x42,
        0x20, 0x3c, 0x63, 0x3e]
    let shelf : Shelf := ⟨[("r", ring)]⟩
    let p : Properties :=
      { algorithm := .member .openPgp, publicKeyring := .text "r", publicKeyUserId := .text "A" }
    ((Loader.mk shelf ⟨64, []⟩).publicKey .standard "r" "A").1 = .error .missingOperation ∧
      Validation.validate .standard {} (.ofShelf shelf) p = .error .missingOperation ∧
        ¬ Failure.OfKeyring .missingOperation := by
  intro ring shelf p
  exact ⟨by decide +kernel, by decide +kernel, Bool.false_ne_true⟩

end Keyring

end Cryptogram
