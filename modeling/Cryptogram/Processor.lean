import Cryptogram.Frame.Keyed
import Cryptogram.Frame.PasswordBased
import Cryptogram.OpenPgp.Message
import Cryptogram.Outcome
import Cryptogram.Validation

/-!
# Processing content

`Processor.transform` makes a plan of the properties and encrypts or decrypts content as the plan
says; in any case the secrets of the plan are cleared afterwards.  `Processor.process` gives the
outcome for one piece of content.
-/

namespace Cryptogram

/-- What an invocation takes from its surroundings. -/
structure Surroundings where
  suite : Suite := .standard
  settings : Settings := {}
  keyrings : KeyringSource
  /-- The clock. -/
  time : Int

namespace Processor

/-! ## Plans at work -/

/-- The octets of a secret of the plan, if it has one. -/
def secret? (vault : Vault) : Option Nat → Except Failure (Option Bytes)
  | none => .ok none
  | some number => (vault.octets number).map some

def encryptMessage (s : Surroundings) (plan : Plan) (password : Option Bytes) (source : Source)
    (e : Entropy) : Transfer Unit × Entropy :=
  let recipient := (password.map Message.Recipient.password).or (plan.publicKey.map .publicKey)
  let form : Message.Form := ⟨plan.cipher, recipient, plan.armored, s.time⟩
  match Message.encrypt s.suite s.settings form source.rest e with
  | .ok (message, e) => (Transfer.write message, e)
  | .error f => (Transfer.fail f, e)

def decryptMessage (s : Surroundings) (plan : Plan) (password : Option Bytes) (source : Source) :
    Transfer Unit :=
  let opener := (password.map Message.Opener.password).or (plan.privateKeyring.map .keyring)
  match Message.decrypt s.suite opener source.rest with
  | .ok literal => Transfer.write literal.data
  | .error f => Transfer.fail f

/-- Does what a plan says with the password and the raw key at hand. -/
def runWith (s : Surroundings) (plan : Plan) (password rawKey : Option Bytes) (source : Source)
    (e : Entropy) : Transfer Unit × Entropy :=
  if plan.method.isOpenPgp then
    if plan.isEncrypt then encryptMessage s plan password source e
    else (decryptMessage s plan password source, e)
  else if plan.method.keyed then
    match Keyed.Secret.check plan.method plan.kdf rawKey password with
    | .error f => (Transfer.fail f, e)
    | .ok secret =>
      if plan.isEncrypt then
        Keyed.encryptFresh s.suite plan.method secret none none s.settings source e
      else (Keyed.decrypt s.suite plan.method secret s.settings source, e)
  else
    match PasswordBased.check plan.method plan.kdf, password with
    | .error f, _ => (Transfer.fail f, e)
    | .ok (), none => (Transfer.fail .wrongType, e)
    | .ok (), some password =>
      if plan.isEncrypt then
        PasswordBased.encryptFresh s.suite plan.method plan.kdf password none s.settings source e
      else (PasswordBased.decrypt s.suite plan.method plan.kdf password s.settings source, e)

/-- Does what a plan says with its secrets in a vault. -/
def run (s : Surroundings) (plan : Plan) (vault : Vault) (source : Source) (e : Entropy) :
    Transfer Unit × Entropy :=
  match secret? vault plan.password, secret? vault plan.rawKey with
  | .ok password, .ok rawKey => runWith s plan password rawKey source e
  | .error f, _ => (Transfer.fail f, e)
  | _, .error f => (Transfer.fail f, e)

/-! ## Invocations -/

/-- What an invocation leaves behind. -/
structure Invocation where
  transfer : Transfer Unit
  entropy : Entropy
  vault : Vault

/-- Encrypts or decrypts everything in a source. -/
def transform (s : Surroundings) (p : Properties) (source : Source) (e : Entropy) : Invocation :=
  match Validation.resolve s.suite s.settings s.keyrings p with
  | (.error f, vault) => ⟨Transfer.fail f, e, vault⟩
  | (.ok plan, vault) =>
    let (transfer, e) := run s plan vault source e
    ⟨transfer, e, plan.clear vault⟩

/-- The outcome for one piece of content; a failure that is none of the library's classes is passed
on. -/
def outcome (content : Bytes) (t : Transfer Unit) : Except Failure Outcome :=
  match t.answer with
  | .ok () => .ok (.succeeded t.written)
  | .error f => if f.isOwn then .ok (.failed content f) else .error f

/-- The outcome for one piece of content, and the randomness that is left. -/
def process (s : Surroundings) (p : Properties) (content : Bytes) (e : Entropy) :
    Except Failure Outcome × Entropy :=
  let invocation := transform s p { rest := content } e
  (outcome content invocation.transfer, invocation.entropy)

end Processor

end Cryptogram
