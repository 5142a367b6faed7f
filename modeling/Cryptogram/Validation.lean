import Cryptogram.Resolution

/-!
# Validation

`validate` lists the findings about properties; `resolve` makes a plan of properties without any.
Both also give the vault with the secrets that were made, so that it can be seen which of them were
cleared.
-/

namespace Cryptogram.Validation

/-- The findings about properties, and the vault afterwards. -/
def validate (suite : Suite) (settings : Settings) (source : KeyringSource) (p : Properties) :
    Except Failure (List Finding × Vault) := do
  let r ← Resolution.evaluate suite settings source p
  return (r.findings, r.discard.vault)

/-- The plan of a resolution without findings. -/
def planOf (r : Resolution) : Except Failure Plan :=
  match r.mode, r.method, r.kdf with
  | some mode, some method, some kdf =>
    Plan.check
      ⟨mode, method, kdf, r.password, r.rawKey, r.publicKey, r.privateKeyring, r.cipher, r.allowWeak⟩
  | _, _, _ => .error (.invalid r.findings)

/-- The plan that properties amount to, and the vault afterwards. -/
def resolve (suite : Suite) (settings : Settings) (source : KeyringSource) (p : Properties) :
    Except Failure Plan × Vault :=
  match Resolution.evaluate suite settings source p with
  | .error f => (.error f, {})
  | .ok r =>
    if r.findings = [] then (planOf r, r.vault) else (.error (.invalid r.findings), r.discard.vault)

end Cryptogram.Validation
