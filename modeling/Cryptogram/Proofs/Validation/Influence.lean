import Cryptogram.Proofs.Validation.Keyrings

/-!
# Properties without influence

Beside the four choices, properties of each case have a few fields that count.  Properties that agree
on these are validated and resolved alike, whatever stands in the others, and keyrings are looked at
only for OpenPGP without a password (`Validation.resolve_eq_of_agreeOnCase`).
-/

namespace Cryptogram

namespace Properties

/-- The same choices of direction, method and key derivation, and the same allowance. -/
structure SameChoices (p q : Properties) : Prop where
  mode : q.mode = p.mode
  algorithm : q.algorithm = p.algorithm
  kdf : q.kdf = p.kdf
  allowWeak : q.allowWeak = p.allowWeak

/-- Properties of the same case, with the same values in the fields that count there. -/
inductive AgreeOnCase (p q : Properties) : Prop
  | passwordBased {m : Method} (method : p.algorithm.Names Method.name Method.algorithm m)
    (kind : m.passwordBased = true) (password : q.password = p.password)
  | strong {m : Method} {k : KeyDerivation}
    (method : p.algorithm.Names Method.name Method.algorithm m) (kind : m.keyed = true)
    (kdf : p.kdf.Names KeyDerivation.name KeyDerivation.displayName k) (strong : k.strong = true)
    (password : q.password = p.password)
  | rawKey {m : Method} (method : p.algorithm.Names Method.name Method.algorithm m)
    (kind : m.keyed = true)
    (kdf : p.kdf.Names KeyDerivation.name KeyDerivation.displayName .rawKey)
    (rawKey : q.rawKey = p.rawKey)
  | openPgpPassword (messages : p.ForMessages) (set : p.password.isSet = true)
    (password : q.password = p.password) (cipher : q.cipher = p.cipher)
  | recipient (messages : p.ForMessages) (mode : p.mode.NamesDirection .encrypt)
    (unset : p.password.isSet = false) (unset' : q.password.isSet = false)
    (cipher : q.cipher = p.cipher) (ring : q.publicKeyring = p.publicKeyring)
    (userId : q.publicKeyUserId = p.publicKeyUserId)
  | privateKeyring (messages : p.ForMessages) (mode : p.mode.NamesDirection .decrypt)
    (unset : p.password.isSet = false) (unset' : q.password.isSet = false)
    (cipher : q.cipher = p.cipher) (ring : q.privateKeyring = p.privateKeyring)
    (passphrase : q.privateKeyringPassphrase = p.privateKeyringPassphrase)

end Properties

namespace Resolution

variable {suite : Suite} {settings : Settings} {source source' : KeyringSource} {m : Method}
  {k : KeyDerivation} {p q : Properties} {r : Resolution}

/-! ## Families of methods -/

theorem ofChoices_congr (same : p.SameChoices q) : ofChoices q = ofChoices p := by
  rw [ofChoices_eq, ofChoices_eq, same.mode, same.algorithm, same.kdf, same.allowWeak]

theorem checkPasswordBased_congr (password : q.password = p.password) (settings : Settings)
    (m : Method) (r : Resolution) :
    r.checkPasswordBased settings m q = r.checkPasswordBased settings m p := by
  unfold checkPasswordBased
  rw [password]

theorem checkKeyed_congr (kdf : r.kdf = some k) (rawKey : k = .rawKey → q.rawKey = p.rawKey)
    (password : k ≠ .rawKey → q.password = p.password) (settings : Settings) (m : Method) :
    r.checkKeyed settings m q = r.checkKeyed settings m p := by
  unfold checkKeyed
  rw [kdf]
  by_cases raw : k = .rawKey
  · dsimp only
    rw [if_pos raw, if_pos raw, rawKey raw]
  · rw [password raw]
    dsimp only
    rw [if_neg raw, if_neg raw]

/-- Behind the cipher, what the rules for OpenPGP ask for may look at the direction. -/
theorem checkOpenPgp_congr (cipher : q.cipher = p.cipher)
    (key : ∀ next : Resolution, next.mode = r.mode →
      next.checkOpenPgpKey suite source' m q = next.checkOpenPgpKey suite source m p) :
    r.checkOpenPgp suite source' m q = r.checkOpenPgp suite source m p := by
  rw [checkOpenPgp_eq, checkOpenPgp_eq, cipher]
  cases checked : r.checkCipher p.cipher with
  | error f => rfl
  | ok next => exact key next (mode_of_checkCipher checked)

theorem checkOpenPgpKey_of_password (set : p.password.isSet = true)
    (password : q.password = p.password) (r : Resolution) :
    r.checkOpenPgpKey suite source' m q = r.checkOpenPgpKey suite source m p := by
  unfold checkOpenPgpKey
  rw [password, if_pos set, if_pos set]

theorem checkOpenPgpKey_of_encrypt (unset : p.password.isSet = false) (mode : r.mode = some .encrypt) :
    r.checkOpenPgpKey suite source m p = r.checkRecipient suite source m p := by
  unfold checkOpenPgpKey
  rw [if_neg (Bool.eq_false_iff.1 unset), mode]

theorem checkOpenPgpKey_of_decrypt (unset : p.password.isSet = false) (mode : r.mode = some .decrypt) :
    r.checkOpenPgpKey suite source m p = r.checkPrivateKeyring suite source m p := by
  unfold checkOpenPgpKey
  rw [if_neg (Bool.eq_false_iff.1 unset), mode]

/-- Behind the choices, only the fields of the case count. -/
theorem checkFamily_congr (agree : p.AgreeOnCase q) (found : methods.choose? p.algorithm = some m)
    (mode : r.mode = directions.choose? p.mode) (kdf : r.kdf = kdfs.choose? p.kdf)
    (sources : p.ForMessages → p.password.isSet = false → source' = source) :
    r.checkFamily suite settings source' m q = r.checkFamily suite settings source m p := by
  have same {m' : Method} (method : p.algorithm.Names Method.name Method.algorithm m') : m' = m :=
    Option.some.inj ((choose?_methods.2 method).symm.trans found)
  have openPgp (messages : p.ForMessages) : m.isOpenPgp = true := by
    obtain ⟨m', method, kind⟩ := messages
    rwa [← same method]
  unfold checkFamily
  cases agree with
  | passwordBased method kind password =>
    obtain rfl := same method
    rw [Method.isOpenPgp_of_passwordBased kind, Method.keyed_of_passwordBased kind]
    exact checkPasswordBased_congr password settings _ r
  | strong method kind chosen strong password =>
    obtain rfl := same method
    rw [Method.isOpenPgp_of_keyed kind, kind]
    rw [choose?_kdfs.2 chosen] at kdf
    exact checkKeyed_congr kdf (fun raw => by simp [raw, KeyDerivation.strong] at strong)
      (fun _ => password) settings _
  | rawKey method kind chosen rawKey =>
    obtain rfl := same method
    rw [Method.isOpenPgp_of_keyed kind, kind]
    rw [choose?_kdfs.2 chosen] at kdf
    exact checkKeyed_congr kdf (fun _ => rawKey) (absurd rfl) settings _
  | openPgpPassword messages set password cipher =>
    rw [if_pos (openPgp messages), if_pos (openPgp messages)]
    exact checkOpenPgp_congr cipher fun next _ => checkOpenPgpKey_of_password set password next
  | recipient messages encrypts unset unset' cipher ring userId =>
    rw [if_pos (openPgp messages), if_pos (openPgp messages), sources messages unset]
    refine checkOpenPgp_congr cipher fun next kept => ?_
    have chosen : next.mode = some .encrypt :=
      kept.trans (mode.trans (choose?_directions.2 encrypts))
    rw [checkOpenPgpKey_of_encrypt unset chosen, checkOpenPgpKey_of_encrypt unset' chosen]
    unfold checkRecipient
    rw [ring, userId]
  | privateKeyring messages decrypts unset unset' cipher ring passphrase =>
    rw [if_pos (openPgp messages), if_pos (openPgp messages), sources messages unset]
    refine checkOpenPgp_congr cipher fun next kept => ?_
    have chosen : next.mode = some .decrypt :=
      kept.trans (mode.trans (choose?_directions.2 decrypts))
    rw [checkOpenPgpKey_of_decrypt unset chosen, checkOpenPgpKey_of_decrypt unset' chosen]
    unfold checkPrivateKeyring
    rw [ring, passphrase]

theorem evaluate_congr (same : p.SameChoices q) (agree : p.AgreeOnCase q)
    (sources : p.ForMessages → p.password.isSet = false → source' = source) :
    evaluate suite settings source' q = evaluate suite settings source p := by
  obtain ⟨mode, kdf, -⟩ := choices_ofChoices p
  cases found : methods.choose? p.algorithm with
  | none =>
    have found' : methods.choose? q.algorithm = none := by rw [same.algorithm, found]
    rw [evaluate_of_no_method found, evaluate_of_no_method found', ofChoices_congr same]
  | some m =>
    have found' : methods.choose? q.algorithm = some m := by rw [same.algorithm, found]
    obtain ⟨mode', kdf', -⟩ := choices_checkPolicy settings m (ofChoices p)
    rw [evaluate_of_method found, evaluate_of_method found', ofChoices_congr same]
    exact checkFamily_congr agree found (mode'.trans mode) (kdf'.trans kdf) sources

end Resolution

namespace Validation

variable {suite : Suite} {settings : Settings} {source source' : KeyringSource} {p q : Properties}

/-- Properties that agree on the choices and on the fields of their case have the same findings and
the same plan or failure.  Only where OpenPGP has no password does it take the same keyrings. -/
theorem resolve_eq_of_agreeOnCase (same : p.SameChoices q) (agree : p.AgreeOnCase q)
    (sources : p.ForMessages → p.password.isSet = false → source' = source) :
    validate suite settings source' q = validate suite settings source p ∧
      resolve suite settings source' q = resolve suite settings source p := by
  have evaluated : Resolution.evaluate suite settings source' q =
      Resolution.evaluate suite settings source p := Resolution.evaluate_congr same agree sources
  constructor
  · unfold validate
    rw [evaluated]
  · unfold resolve
    rw [evaluated]

/-- A message under a password, beside a raw key that is none and keyrings that cannot be read. -/
theorem resolve_eq_of_agreeOnCase_password :
    let p : Properties := { algorithm := .member .openPgp, password := .text "pw" }
    let q : Properties :=
      { p with
        rawKey := .text "no key", publicKeyring := .text "missing", publicKeyUserId := .text "nobody"
        privateKeyring := .integer 7, privateKeyringPassphrase := .list [] }
    p.SameChoices q ∧ p.AgreeOnCase q ∧ p.password.isSet = true ∧
      validate .standard {} (fun _ => .error .wrongType) q = validate .standard {} (.ofShelf {}) p ∧
        resolve .standard {} (fun _ => .error .wrongType) q = resolve .standard {} (.ofShelf {}) p := by
  intro p q
  have same : p.SameChoices q := ⟨rfl, rfl, rfl, rfl⟩
  have messages : p.ForMessages := ⟨.openPgp, .inl rfl, rfl⟩
  have agree : p.AgreeOnCase q := .openPgpPassword messages rfl rfl rfl
  exact ⟨same, agree, rfl, resolve_eq_of_agreeOnCase same agree fun _ unset => nomatch unset⟩

end Validation

end Cryptogram
