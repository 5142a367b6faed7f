import Cryptogram.Proofs.Validation.Plans

/-!
# The limit on key lengths

The limit is asked of raw keys and of methods of unlimited strength (`Plan.Limited`).  It turns down
those above it and has no other effect (`resolve_limited_iff`); keys derived for other methods and the
keys of messages may be longer (`exists_beyond_limit`).
-/

namespace Cryptogram

namespace Plan

variable (plan : Plan) (vault : Vault)

/-- The length in bits of the key that a plan encrypts under: that of the cipher of messages, of the
raw key, or of the key that is derived for the method. -/
def keyBits : Nat :=
  if plan.method.isOpenPgp then 8 * plan.cipher.keySize
  else ((plan.rawKey.bind vault.get?).map Secret.bits).getD plan.method.keyBits

/-- Plans whose key the limit is asked of. -/
def Limited : Prop := plan.method.traits.unlimited = true ∨ plan.rawKey.isSome = true

end Plan

theorem Method.passwordBased_of_unlimited {m : Method} (h : m.traits.unlimited = true) :
    m.passwordBased = true := by
  cases m <;> first
    | rfl
    | exact absurd h (by decide)

namespace Properties

variable {suite : Suite} {settings : Settings} {source : KeyringSource} {p : Properties}
  {plan : Plan} {vault : Vault}

theorem keyBits_rawKey {d : Direction} {m : Method} (kind : m.keyed = true) (weak : Bool)
    (key : Bytes) :
    Plan.keyBits ⟨d, m, .rawKey, none, some 0, none, none, .preferred, weak⟩ ⟨[⟨key, false⟩]⟩ =
      8 * key.length := by
  simp [Plan.keyBits, Method.isOpenPgp_of_keyed kind, Vault.get?, Secret.bits, Secret.size]

theorem Draws.permits (h : p.Draws suite settings source plan vault)
    (raw : plan.rawKey.isSome = true) : settings.Permits (plan.keyBits vault) := by
  cases h with
  | @rawKey d m weak s key kind given digits bits permits =>
    rw [keyBits_rawKey kind]
    exact permits
  | _ => cases raw

/-- Under another limit the same key is drawn, if that limit permits a raw key. -/
theorem Draws.of_permits (h : p.Draws suite settings source plan vault) {settings' : Settings}
    (same : settings'.minPasswordLength = settings.minPasswordLength)
    (within : plan.rawKey.isSome = true → settings'.Permits (plan.keyBits vault)) :
    p.Draws suite settings' source plan vault := by
  have accepts {weak : Bool} {value : HostValue} (h : settings.AcceptsPassword weak value) :
      settings'.AcceptsPassword weak value := by
    unfold Settings.AcceptsPassword at h ⊢
    rwa [same]
  cases h with
  | passwordBased kind serves given accepted =>
    exact .passwordBased kind serves given (accepts accepted)
  | @rawKey d m weak s key kind given digits bits permits =>
    rw [keyBits_rawKey kind] at within
    exact .rawKey kind given digits bits (within rfl)
  | strong kind strong given accepted => exact .strong kind strong given (accepts accepted)
  | openPgpPassword kind cipher given set => exact .openPgpPassword kind cipher given set
  | recipient kind cipher unset ring user loaded =>
    exact .recipient kind cipher unset ring user loaded
  | privateKeyring kind cipher unset ring given set loaded =>
    exact .privateKeyring kind cipher unset ring given set loaded

/-- The method of unlimited strength that a plan has is the one whose key it derives. -/
theorem Draws.keyBits_of_unlimited (h : p.Draws suite settings source plan vault)
    (unlimited : plan.method.traits.unlimited = true) :
    plan.keyBits vault = plan.method.keyBits := by
  have kind := Method.passwordBased_of_unlimited unlimited
  have noRawKey : plan.rawKey = none := by
    cases h with
    | rawKey keyed => simp [Method.keyed_of_passwordBased kind] at keyed
    | _ => rfl
  simp [Plan.keyBits, Method.isOpenPgp_of_passwordBased kind, noRawKey]

theorem AmountsTo.permits_of_limited (h : p.AmountsTo suite settings source plan vault)
    (limited : plan.Limited) : settings.Permits (plan.keyBits vault) := by
  rcases limited with unlimited | raw
  · rw [h.key.keyBits_of_unlimited unlimited]
    exact h.permits unlimited
  · exact h.key.permits raw

theorem AmountsTo.of_permits (h : p.AmountsTo suite settings source plan vault)
    {settings' : Settings} (same : settings'.minPasswordLength = settings.minPasswordLength)
    (within : plan.Limited → settings'.Permits (plan.keyBits vault)) :
    p.AmountsTo suite settings' source plan vault where
  mode := h.mode
  method := h.method
  kdf := h.kdf
  allowance := h.allowance
  buildable := h.buildable
  permits unlimited := by
    rw [← h.key.keyBits_of_unlimited unlimited]
    exact within (.inl unlimited)
  key := h.key.of_permits same fun raw => within (.inr raw)

end Properties

namespace Validation

variable {suite : Suite} {settings : Settings} {source : KeyringSource} {p : Properties}
  {plan : Plan} {vault : Vault}

/-- Under a limit, properties have the plans that they have without one and whose key, where the
limit is asked of it, is within the limit. -/
theorem resolve_limited_iff {limit : Int} :
    resolve suite { settings with maxKeyBits := some limit } source p = (.ok plan, vault) ↔
      resolve suite { settings with maxKeyBits := none } source p = (.ok plan, vault) ∧
        (plan.Limited → plan.keyBits vault ≤ limit) := by
  have permits {bits : Nat} :
      { settings with maxKeyBits := some limit }.Permits bits ↔ (bits : Int) ≤ limit := by
    simp [Settings.Permits]
  have unlimited {bits : Nat} : { settings with maxKeyBits := none }.Permits bits := by
    simp [Settings.Permits]
  rw [resolve_eq_ok_iff, resolve_eq_ok_iff]
  constructor
  · intro h
    exact ⟨h.of_permits rfl fun _ => unlimited, fun limited => permits.1 (h.permits_of_limited limited)⟩
  · rintro ⟨h, within⟩
    exact h.of_permits rfl fun limited => permits.2 (within limited)

/-- Under a limit of 64 bits there are plans with longer keys: for a method that is not of unlimited
strength, from a strong derivation, and for a message. -/
theorem exists_beyond_limit :
    let password := "correct horse battery staple"
    let vault : Vault := ⟨[⟨Text.utf8 password, false⟩]⟩
    let exceeds (p : Properties) (plan : Plan) : Prop :=
      resolve .standard { maxKeyBits := some 64 } (.ofShelf {}) p = (.ok plan, vault) ∧
        plan.mode = .encrypt ∧ 64 < plan.keyBits vault
    exceeds
        { algorithm := .member .md5Aes128, kdf := .member .opensslBytesToKey,
          password := .text password }
        ⟨.encrypt, .md5Aes128, .opensslBytesToKey, some 0, none, none, none, .preferred, false⟩ ∧
      exceeds { algorithm := .member .aesGcm, kdf := .member .argon2, password := .text password }
        ⟨.encrypt, .aesGcm, .argon2, some 0, none, none, none, .preferred, false⟩ ∧
      exceeds { algorithm := .member .openPgp, cipher := .integer 9, password := .text password }
        ⟨.encrypt, .openPgp, .rawKey, some 0, none, none, none, .aes256, false⟩ := by
  intro password vault exceeds
  refine ⟨⟨?_, rfl, by decide⟩, ⟨?_, rfl, by decide⟩, ⟨?_, rfl, by decide⟩⟩
  all_goals decide +kernel

end Validation

end Cryptogram
