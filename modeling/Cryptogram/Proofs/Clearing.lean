import Cryptogram.Proofs.Processor
import Cryptogram.Proofs.Secret

/-!
# No secret is left

The secrets that an evaluation has made are either named by it or cleared already
(`Resolution.accounts_of_evaluate`).  So validation and a resolution that fails clear all of them, a
plan has exactly those that are left, and an invocation leaves none (`Processor.secrets_cleared`).
-/

namespace Cryptogram

/-! ## Vaults -/

namespace Vault

variable {v : Vault} {kept : Nat → Prop} {n : Nat} {s : Secret}

theorem get?_keep (s : Secret) (v : Vault) (n : Nat) :
    (v.keep s).get? n = if n = v.next then some s else v.get? n := by
  unfold keep get? next
  rw [List.getElem?_append]
  split_ifs with before last last
  · omega
  · rfl
  · rw [last, Nat.sub_self]
    rfl
  · rw [List.getElem?_eq_none (by simp only [List.length_singleton]; omega),
      List.getElem?_eq_none (by omega)]

theorem get?_clear (k : Nat) (v : Vault) (n : Nat) :
    (v.clear k).get? n = if n = k then (v.get? n).map Secret.clear else v.get? n := by
  unfold clear get?
  rw [List.getElem?_modify]
  split_ifs with same other other
  · rfl
  · exact absurd same.symm other
  · exact absurd other.symm same
  · simp

theorem get?_clear? (k : Option Nat) (v : Vault) (n : Nat) :
    (v.clear? k).get? n = if k = some n then (v.get? n).map Secret.clear else v.get? n := by
  cases k with
  | none => rfl
  | some k =>
    have same : some k = some n ↔ n = k := by simp [eq_comm]
    simp only [same]
    exact get?_clear k v n

theorem ext_get? {v w : Vault} (h : ∀ n, v.get? n = w.get? n) : v = w :=
  congrArg Vault.mk (List.ext_getElem? h)

/-- The vault with all secrets cleared. -/
def wipe (v : Vault) : Vault := ⟨v.secrets.map Secret.clear⟩

theorem get?_wipe (v : Vault) (n : Nat) : v.wipe.get? n = (v.get? n).map Secret.clear :=
  List.getElem?_map

/-- The secrets with these numbers are left, and all others are cleared. -/
structure Leaves (v : Vault) (kept : Nat → Prop) : Prop where
  live : ∀ n, kept n → ∃ s, v.get? n = some s ∧ s.cleared = false
  wiped : ∀ n s, v.get? n = some s → ¬ kept n → s.Wiped

theorem mem_live_iff : n ∈ v.live ↔ ∃ s, v.get? n = some s ∧ s.cleared = false := by
  unfold live
  rw [List.mem_filter, List.mem_range, Option.any_eq_true]
  simp only [Bool.not_eq_true']
  refine and_iff_right_of_imp ?_
  rintro ⟨s, found, -⟩
  exact (List.getElem?_eq_some_iff.1 found).1

theorem leaves_empty : Leaves {} fun _ => False where
  live := by simp
  wiped n s found := by simp [get?] at found

namespace Leaves

variable {kept' : Nat → Prop}

theorem congr (h : v.Leaves kept) (same : ∀ n, kept' n ↔ kept n) : v.Leaves kept' := by
  have eq : kept' = kept := funext fun n => propext (same n)
  rwa [eq]

theorem lt_next (h : v.Leaves kept) (hn : kept n) : n < v.next := by
  obtain ⟨s, found, -⟩ := h.live n hn
  exact (List.getElem?_eq_some_iff.1 found).1

theorem mem_live (h : v.Leaves kept) : n ∈ v.live ↔ kept n := by
  rw [mem_live_iff]
  constructor
  · rintro ⟨s, found, uncleared⟩
    by_contra dropped
    rw [(h.wiped n s found dropped).1] at uncleared
    cases uncleared
  · exact h.live n

/-- A new secret is left with the others. -/
theorem keep (h : v.Leaves kept) (octets : Bytes) :
    (v.keep ⟨octets, false⟩).Leaves fun n => n = v.next ∨ kept n where
  live n hn := by
    rw [get?_keep]
    split_ifs with new
    · exact ⟨_, rfl, rfl⟩
    · exact h.live n (hn.resolve_left new)
  wiped n s found dropped := by
    rw [get?_keep, if_neg fun new => dropped (.inl new)] at found
    exact h.wiped n s found fun hn => dropped (.inr hn)

theorem keep_clear (h : v.Leaves kept) (octets : Bytes) :
    ((v.keep ⟨octets, false⟩).clear v.next).Leaves kept where
  live n hn := by
    rw [get?_clear, get?_keep, if_neg (h.lt_next hn).ne, if_neg (h.lt_next hn).ne]
    exact h.live n hn
  wiped n s found dropped := by
    rw [get?_clear, get?_keep] at found
    split_ifs at found with new
    · cases found
      exact Secret.wiped_clear rfl
    · exact h.wiped n s found dropped

/-- With the secrets that are left cleared too, all are. -/
theorem clear?_clear? {a b : Option Nat} (h : v.Leaves fun n => a = some n ∨ b = some n) :
    (v.clear? a).clear? b = v.wipe := by
  refine ext_get? fun n => ?_
  rw [get?_clear?, get?_clear?, get?_wipe]
  cases found : v.get? n with
  | none => simp
  | some s =>
    by_cases first : a = some n <;> by_cases second : b = some n
    · simp [first, second, Secret.clear_clear]
    · simp [first, second]
    · simp [first, second]
    · simp [first, second, (h.wiped n s found (by simp [first, second])).clear_eq]

theorem wiped_of_mem_wipe (h : v.Leaves kept) {s : Secret} (hs : s ∈ v.wipe.secrets) : s.Wiped := by
  obtain ⟨t, ht, rfl⟩ := List.mem_map.1 hs
  obtain ⟨n, found⟩ := List.mem_iff_getElem?.1 ht
  by_cases left : kept n
  · obtain ⟨t', found', uncleared⟩ := h.live n left
    obtain rfl : t = t' := Option.some.inj (found.symm.trans found')
    exact Secret.wiped_clear uncleared
  · have wiped := h.wiped n t found left
    rwa [wiped.clear_eq]

end Leaves

end Vault

/-! ## Resolutions and their secrets -/

namespace Resolution

variable {suite : Suite} {settings : Settings} {source : KeyringSource} {m : Method}
  {k : KeyDerivation} {p : Properties} {r r' : Resolution}

/-- The secrets that are named by a resolution are left, and all others are cleared. -/
def Accounts (r : Resolution) : Prop :=
  r.vault.Leaves fun n => r.password = some n ∨ r.rawKey = some n

/-- No secret is named, so none is left. -/
structure Unburdened (r : Resolution) : Prop where
  password : r.password = none
  rawKey : r.rawKey = none
  leaves : r.vault.Leaves fun _ => False

/-- An evaluation that keeps account of its secrets. -/
def Settles (run : Except Failure Resolution) : Prop := ∀ r, run = .ok r → r.Accounts

theorem settles_ok (h : r.Accounts) : Settles (.ok r) := by
  rintro _ ⟨⟩
  exact h

theorem settles_error (f : Failure) : Settles (.error f) := by
  intro r h
  cases h

namespace Unburdened

theorem accounts (h : r.Unburdened) : r.Accounts := by
  refine h.leaves.congr fun n => ?_
  rw [h.password, h.rawKey]
  simp

theorem congr (h : r.Unburdened) (password : r'.password = r.password) (rawKey : r'.rawKey = r.rawKey)
    (vault : r'.vault = r.vault) : r'.Unburdened :=
  ⟨password.trans h.password, rawKey.trans h.rawKey, vault ▸ h.leaves⟩

theorem fail (h : r.Unburdened) (subject : Field) (explanation : String) (input : HostValue) :
    (r.fail subject explanation input).Unburdened :=
  h.congr rfl rfl rfl

theorem settles_fail (h : r.Unburdened) (subject : Field) (explanation : String) (input : HostValue) :
    Settles (.ok (r.fail subject explanation input)) :=
  settles_ok (h.fail subject explanation input).accounts

theorem failKeyring (h : r.Unburdened) (subject : Field) (location : HostValue) (f : Failure) :
    Settles (r.failKeyring subject location f) := by
  unfold Resolution.failKeyring
  split
  · split_ifs
    · exact h.settles_fail _ _ _
    · exact settles_error _
  · exact settles_error _

/-! ## Choices and the policy -/

theorem choose {α : Type} (h : r.Unburdened) (c : Catalog α) (subject : Field) (choice : Choice α) :
    (r.choose c subject choice).2.Unburdened := by
  unfold Resolution.choose
  cases c.choose? choice with
  | some a => exact h
  | none =>
    cases choice with
    | member a => exact h
    | given value => exact h.fail _ _ _

theorem checkAllowance (h : r.Unburdened) (value : HostValue) :
    (r.checkAllowance value).Unburdened := by
  unfold Resolution.checkAllowance
  cases allowance? value with
  | some weak => exact h.congr rfl rfl rfl
  | none => exact h.fail _ _ _

theorem checkPolicy (h : r.Unburdened) (settings : Settings) (m : Method) :
    (r.checkPolicy settings m).Unburdened := by
  unfold Resolution.checkPolicy
  dsimp only
  cases settings.maxKeyBits with
  | none =>
    dsimp only
    split_ifs
    · exact h
    · exact h.fail _ _ _
  | some limit =>
    dsimp only
    split_ifs
    · exact h.fail _ _ _
    · exact h
    · exact (h.fail _ _ _).fail _ _ _
    · exact h.fail _ _ _

theorem checkCipher (h : r.Unburdened) {value : HostValue} (checked : r.checkCipher value = .ok r') :
    r'.Unburdened := by
  obtain ⟨findings, cipher, rfl⟩ := exists_of_checkCipher checked
  exact h.congr rfl rfl rfl

/-! ## Passwords and raw keys -/

theorem withPassword (h : r.Unburdened) (password : String) : (r.withPassword password).Accounts := by
  refine (h.leaves.keep (Text.utf8 password)).congr fun n => ?_
  show some r.vault.next = some n ∨ r.rawKey = some n ↔ _
  rw [h.rawKey]
  simp [eq_comm]

theorem givenPassword (h : r.Unburdened) (settings : Settings) (value : HostValue) :
    Settles (r.givenPassword settings value) := by
  cases value with
  | text s =>
    unfold Resolution.givenPassword acceptPassword
    dsimp only
    split_ifs
    · exact settles_ok ((h.fail _ _ _).withPassword s)
    · exact settles_ok (h.withPassword s)
  | _ => exact settles_error _

theorem acceptRawKey (h : r.Unburdened) (settings : Settings) (octets : Bytes) :
    (r.acceptRawKey settings ⟨octets, false⟩).Accounts := by
  unfold Resolution.acceptRawKey
  dsimp only
  cases rawKeyFault? settings (Secret.bits ⟨octets, false⟩) with
  | none =>
    refine (h.leaves.keep octets).congr fun n => ?_
    show r.password = some n ∨ some r.vault.next = some n ↔ _
    rw [h.password]
    simp [eq_comm]
  | some explanation =>
    have cleared : Unburdened { r with vault := (r.vault.keep ⟨octets, false⟩).clear r.vault.next } :=
      ⟨h.password, h.rawKey, h.leaves.keep_clear octets⟩
    exact (cleared.congr rfl rfl rfl).accounts

theorem checkRawKey (h : r.Unburdened) (settings : Settings) (m : Method) (k : KeyDerivation)
    (digits : HostValue) : Settles (r.checkRawKey settings m k digits) := by
  unfold Resolution.checkRawKey
  dsimp only
  split_ifs
  · exact h.settles_fail _ _ _
  · cases digits with
    | text s =>
      dsimp only
      unfold Secret.ofHex
      cases Text.ofHex (Text.strip s.toList) with
      | ok octets => exact settles_ok (h.acceptRawKey settings octets)
      | error fault => exact h.settles_fail _ _ _
    | _ => exact settles_error _

/-! ## Families of methods -/

theorem checkKeyed (h : r.Unburdened) (settings : Settings) (m : Method) (p : Properties) :
    Settles (r.checkKeyed settings m p) := by
  unfold Resolution.checkKeyed
  cases r.kdf with
  | none => exact settles_ok h.accounts
  | some k =>
    dsimp only
    split_ifs
    · exact settles_ok (h.fail _ _ _).accounts
    · exact h.checkRawKey settings m k p.rawKey
    · exact h.settles_fail _ _ _
    · exact h.givenPassword settings p.password

theorem checkPasswordBased (h : r.Unburdened) (settings : Settings) (m : Method) (p : Properties) :
    Settles (r.checkPasswordBased settings m p) := by
  unfold Resolution.checkPasswordBased
  dsimp only
  split_ifs
  · exact h.settles_fail _ _ _
  · intro r' run
    obtain ⟨next, given, run⟩ := exists_of_bind_eq_ok run
    have accounts := h.givenPassword settings p.password next given
    cases chosen : next.kdf with
    | none =>
      rw [chosen] at run
      cases run
      exact accounts
    | some k =>
      rw [chosen] at run
      dsimp only at run
      split_ifs at run <;> cases run <;> exact accounts

theorem checkRecipient (h : r.Unburdened) (suite : Suite) (source : KeyringSource) (m : Method)
    (p : Properties) : Settles (r.checkRecipient suite source m p) := by
  unfold Resolution.checkRecipient
  split_ifs
  · exact h.settles_fail _ _ _
  · cases recipient suite source p.publicKeyring p.publicKeyUserId with
    | ok key => exact settles_ok h.accounts
    | error f => exact h.failKeyring _ _ f

theorem checkPrivateKeyring (h : r.Unburdened) (suite : Suite) (source : KeyringSource) (m : Method)
    (p : Properties) : Settles (r.checkPrivateKeyring suite source m p) := by
  unfold Resolution.checkPrivateKeyring
  split_ifs
  · exact h.settles_fail _ _ _
  · cases p.privateKeyringPassphrase with
    | text passphrase =>
      -- The passphrase is cleared before anything is made of what the keyring gave.
      have cleared : Unburdened { r with
          vault := (r.vault.keep ⟨Text.utf8 passphrase, false⟩).clear r.vault.next } :=
        ⟨h.password, h.rawKey, h.leaves.keep_clear _⟩
      dsimp only
      split
      · exact settles_ok (cleared.congr rfl rfl rfl).accounts
      · exact cleared.failKeyring _ _ _
    | _ => exact settles_error _

theorem checkOpenPgp (h : r.Unburdened) (suite : Suite) (source : KeyringSource) (m : Method)
    (p : Properties) : Settles (r.checkOpenPgp suite source m p) := by
  intro r' run
  rw [checkOpenPgp_eq] at run
  obtain ⟨next, checked, run⟩ := exists_of_bind_eq_ok run
  have unburdened := h.checkCipher checked
  unfold checkOpenPgpKey at run
  split_ifs at run
  · cases given : p.password with
    | text s =>
      rw [given] at run
      cases run
      exact unburdened.withPassword s
    | _ =>
      rw [given] at run
      cases run
  · split at run
    · cases run
      exact unburdened.accounts
    · exact unburdened.checkRecipient suite source m p r' run
    · exact unburdened.checkPrivateKeyring suite source m p r' run

end Unburdened

theorem unburdened_ofChoices (p : Properties) : (ofChoices p).Unburdened := by
  have empty : Unburdened {} := ⟨rfl, rfl, Vault.leaves_empty⟩
  have chosen := ((empty.choose directions .mode p.mode).choose methods .algorithm p.algorithm).choose
    kdfs .kdf p.kdf
  rw [ofChoices_eq]
  refine Unburdened.checkAllowance ?_ p.allowWeak
  exact chosen.congr rfl rfl rfl

/-- The secrets that are left after all rules are those of the password and the raw key. -/
theorem accounts_of_evaluate (h : evaluate suite settings source p = .ok r) : r.Accounts := by
  cases found : methods.choose? p.algorithm with
  | none =>
    rw [evaluate_of_no_method found] at h
    cases h
    exact (unburdened_ofChoices p).accounts
  | some m =>
    have unburdened := (unburdened_ofChoices p).checkPolicy settings m
    rw [evaluate_of_method found] at h
    unfold checkFamily at h
    split_ifs at h
    · exact unburdened.checkOpenPgp suite source m p r h
    · exact unburdened.checkKeyed settings m p r h
    · exact unburdened.checkPasswordBased settings m p r h

theorem vault_discard (h : r.Accounts) : r.discard.vault = r.vault.wipe := h.clear?_clear?

end Resolution

/-! ## Invocations -/

namespace Validation

open Resolution

variable {suite : Suite} {settings : Settings} {source : KeyringSource} {p : Properties}
  {r : Resolution}

/-- Behind an evaluation, resolution gives a plan of it or clears all its secrets. -/
theorem resolve_cases (h : evaluate suite settings source p = .ok r) :
    (∃ plan, resolve suite settings source p = (.ok plan, r.vault) ∧
        plan.password = r.password ∧ plan.rawKey = r.rawKey) ∨
      resolve suite settings source p = (.error (.invalid r.findings), r.vault.wipe) := by
  by_cases clean : r.findings = []
  · obtain ⟨plan, vault, amounts, rfl⟩ := passes_evaluate.1 ⟨h, clean⟩
    exact .inl ⟨plan, resolve_eq_ok_iff.2 amounts, rfl, rfl⟩
  · refine .inr ?_
    unfold resolve
    rw [h]
    dsimp only
    rw [if_neg clean, vault_discard (accounts_of_evaluate h)]

end Validation

namespace Processor

open Resolution Validation

variable {s : Surroundings} {p : Properties} {r : Resolution}

/-- Where all rules could be asked, no secret that was made stays behind: validation, a resolution
that fails and an invocation with any content clear all of them, and a plan has exactly those that are
left and clears them. -/
theorem secrets_cleared (evaluated : evaluate s.suite s.settings s.keyrings p = .ok r) :
    (∀ secret ∈ r.vault.wipe.secrets, secret.Wiped) ∧
      validate s.suite s.settings s.keyrings p = .ok (r.findings, r.vault.wipe) ∧
      (∀ f v, resolve s.suite s.settings s.keyrings p = (.error f, v) →
        f = .invalid r.findings ∧ v = r.vault.wipe) ∧
      (∀ plan v, resolve s.suite s.settings s.keyrings p = (.ok plan, v) →
        v = r.vault ∧ (∀ n, n ∈ v.live ↔ plan.password = some n ∨ plan.rawKey = some n) ∧
          plan.clear v = r.vault.wipe) ∧
      ∀ source e, (transform s p source e).vault = r.vault.wipe := by
  have accounts := accounts_of_evaluate evaluated
  have validated : validate s.suite s.settings s.keyrings p = .ok (r.findings, r.vault.wipe) := by
    unfold validate
    rw [evaluated, ← vault_discard accounts]
    rfl
  refine ⟨fun secret => accounts.wiped_of_mem_wipe, validated, ?_⟩
  obtain ⟨plan, resolved, password, rawKey⟩ | resolved := resolve_cases evaluated
  · have cleared : plan.clear r.vault = r.vault.wipe := by
      unfold Plan.clear
      rw [password, rawKey]
      exact accounts.clear?_clear?
    refine ⟨fun f v h => by simp [resolved] at h, fun plan' v h => ?_, fun source e => ?_⟩
    · rw [resolved] at h
      cases h
      refine ⟨rfl, fun n => ?_, cleared⟩
      rw [password, rawKey]
      exact accounts.mem_live
    · unfold transform
      rw [resolved]
      exact cleared
  · refine ⟨fun f v h => ?_, fun plan v h => by simp [resolved] at h, fun source e => ?_⟩
    · rw [resolved] at h
      cases h
      exact ⟨rfl, rfl⟩
    · unfold transform
      rw [resolved]

/-- A password for Argon2: the plan has it, and no invocation leaves it behind. -/
theorem secrets_cleared_argon2 :
    let p : Properties := { kdf := .member .argon2, password := .text "correct horse battery staple" }
    let plan : Plan :=
      { mode := .encrypt, method := .aesGcm, kdf := .argon2, password := some 0, allowWeak := false }
    let held : Vault := ⟨[⟨Text.utf8 "correct horse battery staple", false⟩]⟩
    let wiped : Vault := ⟨[⟨Bytes.zeros 28, true⟩]⟩
    let s := Surroundings.standard 0
    evaluate s.suite s.settings s.keyrings p = .ok (ofPlan plan held) ∧
      validate s.suite s.settings s.keyrings p = .ok ([], wiped) ∧
      resolve s.suite s.settings s.keyrings p = (.ok plan, held) ∧
      (0 ∈ held.live ∧ plan.clear held = wiped) ∧
      ∀ source e, (transform s p source e).vault = wiped := by
  intro p plan held wiped s
  have evaluated : evaluate s.suite s.settings s.keyrings p = .ok (ofPlan plan held) := by
    decide +kernel
  have resolved : resolve s.suite s.settings s.keyrings p = (.ok plan, held) := by
    rw [resolve, evaluated]
    rfl
  have wipe : (ofPlan plan held).vault.wipe = wiped := by
    simp only [ofPlan, held, Text.utf8_eq]
    decide
  obtain ⟨-, validated, -, planned, transformed⟩ := secrets_cleared evaluated
  rw [wipe] at validated planned transformed
  obtain ⟨-, live, cleared⟩ := planned plan held resolved
  exact ⟨evaluated, validated, resolved, ⟨(live 0).2 (.inl rfl), cleared⟩, transformed⟩

end Processor

end Cryptogram
