import Cryptogram.Proofs.Validation.Passing

/-!
# Plans of properties

Properties have a plan exactly if they draw a key for it from one of six sources
(`resolve_eq_ok_iff`).  Such a plan violates no rule of its own (`Properties.Draws.fault?`), so
validation and resolution always agree (`resolve_of_validate`).
-/

namespace Cryptogram

/-! ## What properties amount to -/

namespace Properties

variable (suite : Suite) (settings : Settings) (source : KeyringSource) (p : Properties)

/-- Where the key of a plan is drawn from, and the vault with its secrets. -/
inductive Draws : Plan → Vault → Prop
  | passwordBased {d : Direction} {m : Method} {k : KeyDerivation} {weak : Bool} {s : String}
      (kind : m.passwordBased = true) (serves : k ∈ KeyDerivation.forPassword)
      (given : p.password = .text s) (accepted : settings.AcceptsPassword weak p.password) :
      Draws ⟨d, m, k, some 0, none, none, none, .preferred, weak⟩ ⟨[⟨Text.utf8 s, false⟩]⟩
  | rawKey {d : Direction} {m : Method} {weak : Bool} {s : String} {key : Bytes}
      (kind : m.keyed = true) (given : p.rawKey = .text s)
      (digits : Text.ofHex (Text.strip s.toList) = .ok key)
      (bits : 8 * key.length ∈ Method.rawKeyBits) (permits : settings.Permits (8 * key.length)) :
      Draws ⟨d, m, .rawKey, none, some 0, none, none, .preferred, weak⟩ ⟨[⟨key, false⟩]⟩
  | strong {d : Direction} {m : Method} {k : KeyDerivation} {weak : Bool} {s : String}
      (kind : m.keyed = true) (strong : k.strong = true) (given : p.password = .text s)
      (accepted : settings.AcceptsPassword weak p.password) :
      Draws ⟨d, m, k, some 0, none, none, none, .preferred, weak⟩ ⟨[⟨Text.utf8 s, false⟩]⟩
  | openPgpPassword {d : Direction} {m : Method} {k : KeyDerivation} {weak : Bool} {s : String}
      {a : Symmetric} (kind : m.isOpenPgp = true) (cipher : p.cipher.Selects .preferred a)
      (given : p.password = .text s) (set : p.password.isSet = true) :
      Draws ⟨d, m, k, some 0, none, none, none, a, weak⟩ ⟨[⟨Text.utf8 s, false⟩]⟩
  | recipient {m : Method} {k : KeyDerivation} {weak : Bool} {a : Symmetric} {key : EncryptionKey}
      (kind : m.isOpenPgp = true) (cipher : p.cipher.Selects .preferred a) (unset : p.password.isSet = false)
      (ring : p.publicKeyring.isSet = true) (user : p.publicKeyUserId.isSet = true)
      (loaded : Resolution.recipient suite source p.publicKeyring p.publicKeyUserId = .ok key) :
      Draws ⟨.encrypt, m, k, none, none, some key, none, a, weak⟩ {}
  | privateKeyring {m : Method} {k : KeyDerivation} {weak : Bool} {a : Symmetric}
      {passphrase : String} {keys : PrivateKeyring} (kind : m.isOpenPgp = true)
      (cipher : p.cipher.Selects .preferred a) (unset : p.password.isSet = false)
      (ring : p.privateKeyring.isSet = true)
      (given : p.privateKeyringPassphrase = .text passphrase) (set : passphrase ≠ "")
      (loaded : source.privateKeys suite p.privateKeyring passphrase = .ok keys) :
      Draws ⟨.decrypt, m, k, none, none, none, some keys, a, weak⟩
        ⟨[Secret.clear ⟨Text.utf8 passphrase, false⟩]⟩

/-- The plan that properties amount to, and the vault with its secrets. -/
structure AmountsTo (plan : Plan) (vault : Vault) : Prop where
  mode : p.mode.NamesDirection plan.mode
  method : p.algorithm.Names Method.name Method.algorithm plan.method
  kdf : p.kdf.Names KeyDerivation.name KeyDerivation.displayName plan.kdf
  allowance : p.allowWeak.Allows plan.allowWeak
  buildable : plan.method.Buildable suite
  permits : plan.method.traits.unlimited = true → settings.Permits plan.method.keyBits
  key : p.Draws suite settings source plan vault

variable {suite settings source p} {plan : Plan} {vault : Vault}

/-- A plan with a key violates no rule. -/
theorem Draws.fault? (h : p.Draws suite settings source plan vault) : plan.fault? = none := by
  cases h with
  | passwordBased kind =>
    simp [Plan.fault?, Plan.rules, Plan.keySources, Method.keyed_of_passwordBased kind]
  | rawKey kind => simp [Plan.fault?, Plan.rules, Plan.keySources, kind]
  | strong kind strong => simp [Plan.fault?, Plan.rules, Plan.keySources, strong]
  | openPgpPassword kind =>
    simp [Plan.fault?, Plan.rules, Plan.keySources, Method.keyed_of_openPgp kind]
  | recipient kind => simp [Plan.fault?, Plan.rules, Plan.keySources, kind]
  | privateKeyring kind => simp [Plan.fault?, Plan.rules, Plan.keySources, kind]

theorem Draws.keySources (h : p.Draws suite settings source plan vault) : plan.keySources = 1 := by
  cases h <;> rfl

end Properties

namespace Resolution

variable {suite : Suite} {source : KeyringSource} {settings : Settings} {m : Method}
  {k : KeyDerivation} {p : Properties} {r : Resolution}

/-! ## Keys that are drawn -/

/-- The resolution of which a plan is made. -/
def ofPlan (plan : Plan) (vault : Vault) : Resolution :=
  { mode := some plan.mode, method := some plan.method, kdf := some plan.kdf
    allowWeak := plan.allowWeak, password := plan.password, rawKey := plan.rawKey
    publicKey := plan.publicKey, privateKeyring := plan.privateKeyring, cipher := plan.cipher, vault }

/-- What the family of a method lets pass has drawn a key. -/
theorem exists_draws {d : Direction} {weak : Bool}
    (h : Passes ((ofMembers d m k weak).checkFamily suite settings source m p) r) :
    ∃ plan vault, plan.mode = d ∧ plan.method = m ∧ plan.kdf = k ∧ plan.allowWeak = weak ∧
      p.Draws suite settings source plan vault ∧ r = ofPlan plan vault := by
  unfold checkFamily at h
  split_ifs at h with openPgp keyed
  · obtain ⟨a, selects, passes⟩ := passes_checkOpenPgp.1 h
    obtain ⟨set, -, s, given, rfl⟩ | ⟨unset, ⟨⟨⟩, -⟩ | ⟨⟨⟩, passes⟩ | ⟨⟨⟩, passes⟩⟩ :=
      passes_checkOpenPgpKey.1 passes
    · exact ⟨_, _, rfl, rfl, rfl, rfl, .openPgpPassword openPgp selects given set, rfl⟩
    · obtain ⟨-, ring, user, key, loaded, rfl⟩ := passes_checkRecipient.1 passes
      exact ⟨_, _, rfl, rfl, rfl, rfl, .recipient openPgp selects unset ring user loaded, rfl⟩
    · obtain ⟨-, ring, passphrase, keys, given, set, loaded, rfl⟩ :=
        passes_checkPrivateKeyring.1 passes
      exact ⟨_, _, rfl, rfl, rfl, rfl, .privateKeyring openPgp selects unset ring given set loaded,
        rfl⟩
  · obtain ⟨⟨⟩, -⟩ | ⟨⟨⟩, passes⟩ | ⟨⟨_, ⟨⟩, strong⟩, set, passes⟩ := passes_checkKeyed.1 h
    · obtain ⟨-, s, key, given, digits, bits, permits, rfl⟩ := passes_checkRawKey.1 passes
      exact ⟨_, _, rfl, rfl, rfl, rfl, .rawKey keyed given digits bits permits, rfl⟩
    · obtain ⟨-, accepted, s, given, rfl⟩ := (passes_givenPassword set).1 passes
      exact ⟨_, _, rfl, rfl, rfl, rfl, .strong keyed strong given accepted, rfl⟩
  · obtain ⟨serves, set, passes⟩ := passes_checkPasswordBased.1 h
    obtain ⟨-, accepted, s, given, rfl⟩ := (passes_givenPassword set).1 passes
    have kind : m.passwordBased = true := by simp [Method.passwordBased, keyed, openPgp]
    exact ⟨_, _, rfl, rfl, rfl, rfl, .passwordBased kind (serves k rfl) given accepted, rfl⟩

/-- A plan whose key is drawn passes what the family of its method asks. -/
theorem passes_of_draws {plan : Plan} {vault : Vault}
    (h : p.Draws suite settings source plan vault) :
    Passes ((ofMembers plan.mode plan.method plan.kdf plan.allowWeak).checkFamily suite settings source
      plan.method p) (ofPlan plan vault) := by
  unfold checkFamily
  cases h with
  | passwordBased kind serves given accepted =>
    rw [if_neg (by simp [Method.isOpenPgp_of_passwordBased kind]),
      if_neg (by simp [Method.keyed_of_passwordBased kind])]
    have set := isSet_of_acceptsPassword accepted
    refine passes_checkPasswordBased.2 ⟨?_, set, ?_⟩
    · rintro _ ⟨⟩
      exact serves
    · exact (passes_givenPassword set).2 ⟨rfl, accepted, _, given, rfl⟩
  | rawKey kind given digits bits permits =>
    rw [if_neg (by simp [Method.isOpenPgp_of_keyed kind]), if_pos kind]
    refine passes_checkKeyed.2 (.inr (.inl ⟨rfl, ?_⟩))
    exact passes_checkRawKey.2 ⟨rfl, _, _, given, digits, bits, permits, rfl⟩
  | strong kind strong given accepted =>
    rw [if_neg (by simp [Method.isOpenPgp_of_keyed kind]), if_pos kind]
    have set := isSet_of_acceptsPassword accepted
    refine passes_checkKeyed.2 (.inr (.inr ⟨⟨_, rfl, strong⟩, set, ?_⟩))
    exact (passes_givenPassword set).2 ⟨rfl, accepted, _, given, rfl⟩
  | openPgpPassword kind cipher given set =>
    rw [if_pos kind]
    refine passes_checkOpenPgp.2 ⟨_, cipher, passes_checkOpenPgpKey.2 (.inl ?_)⟩
    exact ⟨set, rfl, _, given, rfl⟩
  | recipient kind cipher unset ring user loaded =>
    rw [if_pos kind]
    refine passes_checkOpenPgp.2 ⟨_, cipher, passes_checkOpenPgpKey.2 (.inr ⟨unset, ?_⟩)⟩
    exact .inr (.inl ⟨rfl, passes_checkRecipient.2 ⟨rfl, ring, user, _, loaded, rfl⟩⟩)
  | privateKeyring kind cipher unset ring given set loaded =>
    rw [if_pos kind]
    refine passes_checkOpenPgp.2 ⟨_, cipher, passes_checkOpenPgpKey.2 (.inr ⟨unset, ?_⟩)⟩
    exact .inr (.inr ⟨rfl, passes_checkPrivateKeyring.2
      ⟨rfl, ring, _, _, given, set, loaded, rfl⟩⟩)

/-- Properties pass all rules exactly if they amount to a plan. -/
theorem passes_evaluate :
    Passes (evaluate suite settings source p) r ↔ ∃ plan vault,
      p.AmountsTo suite settings source plan vault ∧ r = ofPlan plan vault := by
  rw [passes_evaluate_iff_checkFamily]
  constructor
  · rintro ⟨d, m, k, weak, mode, method, kdf, allowance, buildable, permits, passes⟩
    obtain ⟨plan, vault, rfl, rfl, rfl, rfl, draws, rfl⟩ := exists_draws passes
    exact ⟨plan, vault, ⟨mode, method, kdf, allowance, buildable, permits, draws⟩, rfl⟩
  · rintro ⟨plan, vault, amounts, rfl⟩
    exact ⟨_, _, _, _, amounts.mode, amounts.method, amounts.kdf, amounts.allowance,
      amounts.buildable, amounts.permits, passes_of_draws amounts.key⟩

end Resolution

/-! ## Validation and resolution -/

namespace Validation

open Resolution

variable {suite : Suite} {settings : Settings} {source : KeyringSource} {p : Properties}
  {plan : Plan} {vault : Vault}

theorem resolve_eq_ok_iff :
    resolve suite settings source p = (.ok plan, vault) ↔
      p.AmountsTo suite settings source plan vault := by
  have planned {plan : Plan} {vault : Vault} (amounts : p.AmountsTo suite settings source plan vault) :
      planOf (ofPlan plan vault) = .ok plan := by
    show plan.check = .ok plan
    unfold Plan.check
    rw [amounts.key.fault?]
  unfold resolve
  constructor
  · intro h
    cases evaluated : evaluate suite settings source p with
    | error f =>
      rw [evaluated] at h
      cases h
    | ok r =>
      rw [evaluated] at h
      dsimp only at h
      split_ifs at h with clean
      · obtain ⟨plan', vault', amounts, rfl⟩ := passes_evaluate.1 ⟨evaluated, clean⟩
        rw [planned amounts] at h
        cases h
        exact amounts
      · cases h
  · intro amounts
    have passes : Passes (evaluate suite settings source p) (ofPlan plan vault) :=
      passes_evaluate.2 ⟨plan, vault, amounts, rfl⟩
    rw [passes.1]
    dsimp only
    rw [if_pos passes.2, planned amounts]
    rfl

theorem exists_of_validate {findings : List Finding} {v : Vault}
    (h : validate suite settings source p = .ok (findings, v)) :
    ∃ r, evaluate suite settings source p = .ok r ∧ r.findings = findings ∧ r.discard.vault = v := by
  unfold validate at h
  obtain ⟨r, evaluated, h⟩ := exists_of_bind_eq_ok h
  exact ⟨r, evaluated, Prod.mk.inj (Except.ok.inj h)⟩

/-- Validation and resolution agree: without findings there is a plan, which violates no rule and has
one key, and otherwise the findings are the failure. -/
theorem resolve_of_validate {findings : List Finding} {v : Vault}
    (h : validate suite settings source p = .ok (findings, v)) :
    (findings = [] ∧ ∃ plan vault, resolve suite settings source p = (.ok plan, vault) ∧
        plan.fault? = none ∧ plan.keySources = 1 ∧ p.AmountsTo suite settings source plan vault) ∨
      (findings ≠ [] ∧ resolve suite settings source p = (.error (.invalid findings), v)) := by
  obtain ⟨r, evaluated, rfl, rfl⟩ := exists_of_validate h
  by_cases clean : r.findings = []
  · obtain ⟨plan, vault, amounts, -⟩ := passes_evaluate.1 ⟨evaluated, clean⟩
    exact .inl ⟨clean, plan, vault, resolve_eq_ok_iff.2 amounts, amounts.key.fault?,
      amounts.key.keySources, amounts⟩
  · refine .inr ⟨clean, ?_⟩
    unfold resolve
    rw [evaluated]
    dsimp only
    rw [if_neg clean]

/-- A password that is too short is the one finding, and the failure. -/
theorem resolve_of_validate_short :
    let p : Properties := { kdf := .member .argon2, password := .text "short" }
    let finding : Finding :=
      { subject := "Password"
        explanation := "Password length less than 16 characters is potentially unsafe. See Admin Guide."
        valid := false, input := none }
    let v : Vault := ⟨[⟨Bytes.zeros 5, true⟩]⟩
    validate .standard {} (.ofShelf {}) p = .ok ([finding], v) ∧
      resolve .standard {} (.ofShelf {}) p = (.error (.invalid [finding]), v) := by
  intro p finding v
  have found : validate .standard {} (.ofShelf {}) p = .ok ([finding], v) := by decide +kernel
  obtain ⟨⟨⟩, -⟩ | ⟨-, refused⟩ := resolve_of_validate found
  exact ⟨found, refused⟩

end Validation

/-! ## Keys from secrets -/

theorem HostValue.Selects.supported {value : HostValue} {standing a : Symmetric}
    (h : value.Selects standing a) (usable : standing.supported = true) : a.supported = true := by
  cases h with
  | absent => exact usable
  | empty => exact usable
  | number _ _ supported => exact supported

namespace Properties

variable {suite : Suite} {settings : Settings} {source : KeyringSource} {p : Properties}
  {plan : Plan} {vault : Vault}

end Properties

end Cryptogram
