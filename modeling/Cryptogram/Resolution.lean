import Cryptogram.Cipher.Stream
import Cryptogram.Keyring.Private
import Cryptogram.Keyring.Public
import Cryptogram.Keyring.Source
import Cryptogram.Plan
import Cryptogram.Properties

/-!
# Resolution of properties

Checks the properties of one invocation, rule by rule, and collects what each value stands for
together with a finding for every violated rule.  The secrets that are made on the way are kept in a
vault.
-/

namespace Cryptogram

/-- Reads the keyring at a location that a host has given. -/
abbrev KeyringSource := HostValue → Except Failure Bytes

namespace KeyringSource

def ofShelf (shelf : Keyring.Shelf) : KeyringSource := fun location => shelf.read location.display

/-- Keyrings in files; only a text can name a file. -/
def ofFiles (files : Keyring.FileTree) : KeyringSource
  | .text location => files.read location
  | _ => .error .wrongType

end KeyringSource

/-- What was found out so far. -/
structure Resolution where
  findings : List Finding := []
  mode : Option Direction := none
  method : Option Method := none
  kdf : Option KeyDerivation := none
  allowWeak : Bool := false
  /-- The number of the password. -/
  password : Option Nat := none
  /-- The number of the raw key. -/
  rawKey : Option Nat := none
  publicKey : Option EncryptionKey := none
  privateKeyring : Option PrivateKeyring := none
  cipher : Symmetric := .preferred
  vault : Vault := {}
  deriving DecidableEq, Repr

namespace Resolution

def fail (subject : Field) (explanation : String) (input : HostValue) (r : Resolution) : Resolution :=
  let shown :=
    match input with
    | .absent => none
    | value => some value.display
  { r with findings := r.findings ++ [⟨subject.hostName, explanation, false, shown⟩] }

/-- Another secret in the vault. -/
def keep (s : Secret) (r : Resolution) : Resolution := { r with vault := r.vault.keep s }

/-- Nothing is left of the secrets, nor of the private keys. -/
def discard (r : Resolution) : Resolution :=
  { r with
    vault := (r.vault.clear? r.password).clear? r.rawKey
    privateKeyring := none }

/-! ## Choices -/

/-- The members of a catalog and the texts that stand for them. -/
structure Catalog (α : Type) where
  members : List α
  name : α → String
  /-- Other texts for a member. -/
  aliases : α → List String

def directions : Catalog Direction :=
  ⟨Direction.all, Direction.name, fun d => ["Mode." ++ d.name, d.hostName]⟩

def methods : Catalog Method := ⟨Method.all, Method.name, fun m => [m.algorithm]⟩

def kdfs : Catalog KeyDerivation :=
  ⟨KeyDerivation.all, KeyDerivation.name, fun k => [k.displayName]⟩

/-- The member that a text stands for; a name comes before other texts. -/
def Catalog.find? {α : Type} (c : Catalog α) (text : String) : Option α :=
  (c.members.find? fun a => c.name a = text).or
    (c.members.find? fun a => (c.aliases a).contains text)

/-- The member that was chosen. -/
def Catalog.choose? {α : Type} (c : Catalog α) : Choice α → Option α
  | .member a => some a
  | .given (.text s) => c.find? s
  | .given _ => none

/-- A choice that stands for no member. -/
def failChoice {α : Type} (subject : Field) (choice : Choice α) (r : Resolution) : Resolution :=
  match choice with
  | .member _ => r
  | .given value =>
    let shown := value.display
    let name := subject.displayName
    r.fail subject s!"'{shown}' is not a known {name}" value

/-- A choice, with a finding if it stands for no member. -/
def choose {α : Type} (c : Catalog α) (subject : Field) (choice : Choice α) (r : Resolution) :
    Option α × Resolution :=
  match c.choose? choice with
  | some a => (some a, r)
  | none => (none, r.failChoice subject choice)

/-! ## Rules for all methods -/

/-- The value that allows weak passwords. -/
def allowed : String := "allowed"

/-- The value that does not. -/
def notAllowed : String := "not-allowed"

/-- Whether a value allows weak passwords, if it says so or not. -/
def allowance? : HostValue → Option Bool
  | .flag b => some b
  | .text s => if s = allowed then some true else if s = notAllowed then some false else none
  | _ => none

/-- Whether weak passwords are allowed. -/
def checkAllowance (value : HostValue) (r : Resolution) : Resolution :=
  match allowance? value with
  | some b => { r with allowWeak := b }
  | none => r.fail .allowWeak s!"Value must be '{allowed}' or '{notAllowed}'" value

/-- The policy on key lengths, and whether there is a cipher for the method. -/
def checkPolicy (settings : Settings) (m : Method) (r : Resolution) : Resolution :=
  let algorithm := m.algorithm
  let bits := m.keyBits
  let r :=
    match settings.maxKeyBits with
    | none => r
    | some limit =>
      if m.traits.unlimited ∧ limit < bits then
        r.fail .algorithm
          s!"{algorithm} requires a {bits}-bit key but the cryptographic policy allows at most {limit} bits"
          (.text m.name)
      else r
  if m.supported then r
  else
    r.fail .algorithm s!"{algorithm} is not supported by the installed cryptography backend"
      (.text m.name)

/-! ## Passwords and raw keys -/

/-- A password, which must not be too short unless weak passwords are allowed. -/
def acceptPassword (settings : Settings) (password : String) (r : Resolution) : Resolution :=
  let octets := Text.utf8 password
  let least := settings.minPasswordLength
  let r :=
    if octets.length < least ∧ !r.allowWeak then
      r.fail .password
        s!"Password length less than {least} characters is potentially unsafe. See Admin Guide." .absent
    else r
  { r.keep ⟨octets, false⟩ with password := some r.vault.next }

/-- The password that a host has given, which has to be a text. -/
def givenPassword (settings : Settings) (password : HostValue) (r : Resolution) :
    Except Failure Resolution :=
  match password with
  | .text s => .ok (r.acceptPassword settings s)
  | _ => .error .missingOperation

/-- What is wrong with a raw key of so many bits. -/
def rawKeyFault? (settings : Settings) (bits : Nat) : Option String :=
  if !Method.rawKeyBits.contains bits then
    let lengths := ", ".intercalate (Method.rawKeyBits.map toString)
    some s!"Key must be {lengths} bits, was {bits} bits"
  else
    match settings.maxKeyBits with
    | none => none
    | some limit =>
      if limit < bits then some s!"Key length {bits} exceeds the policy maximum of {limit} bits" else none

/-- A raw key; one that breaks a rule is cleared. -/
def acceptRawKey (settings : Settings) (key : Secret) (r : Resolution) : Resolution :=
  let number := r.vault.next
  let r := r.keep key
  match rawKeyFault? settings key.bits with
  | none => { r with rawKey := some number }
  | some explanation =>
    let r := r.fail .rawKey explanation .absent
    { r with vault := r.vault.clear number }

/-- The raw key that a host has given. -/
def checkRawKey (settings : Settings) (m : Method) (k : KeyDerivation) (digits : HostValue)
    (r : Resolution) : Except Failure Resolution :=
  let name := Field.rawKey.displayName
  let algorithm := m.algorithm
  let shown := k.displayName
  if !digits.isSet then
    .ok (r.fail .rawKey
      s!"{name} is required when using algorithm {algorithm} and KDF {shown}. See Admin Guide." .absent)
  else
    match digits with
    | .text s =>
      match Secret.ofHex s with
      | .ok key => .ok (r.acceptRawKey settings key)
      | .error _ => .ok (r.fail .rawKey s!"{name} must be a valid hexadecimal string" .absent)
    | _ => .error .missingOperation

/-! ## Families of methods -/

/-- The names of key derivations. -/
def names (kdfs : List KeyDerivation) : String := ", ".intercalate (kdfs.map KeyDerivation.name)

/-- A key derivation that does not go with a method. -/
def failKdf (m : Method) (k : KeyDerivation) (expected : List KeyDerivation) (r : Resolution) :
    Resolution :=
  let algorithm := m.algorithm
  let wanted := names expected
  r.fail .kdf
    s!"Key Derivation Function is required to be {wanted} when using algorithm {algorithm}. See Admin Guide."
    (.text k.name)

def checkKeyed (settings : Settings) (m : Method) (p : Properties) (r : Resolution) :
    Except Failure Resolution :=
  match r.kdf with
  | none => .ok r
  | some k =>
    if !KeyDerivation.forKeyed.contains k then .ok (r.failKdf m k KeyDerivation.forKeyed)
    else if k = .rawKey then r.checkRawKey settings m k p.rawKey
    else if !p.password.isSet then
      let algorithm := m.algorithm
      let shown := k.displayName
      .ok (r.fail .password
        s!"Password is required when using algorithm {algorithm} and KDF {shown}. See Admin Guide." .absent)
    else r.givenPassword settings p.password

def checkPasswordBased (settings : Settings) (m : Method) (p : Properties) (r : Resolution) :
    Except Failure Resolution :=
  let algorithm := m.algorithm
  if !p.password.isSet then
    .ok (r.fail .password s!"Password is required when using algorithm {algorithm}. See Admin Guide."
      .absent)
  else do
    let r ← r.givenPassword settings p.password
    match r.kdf with
    | none => return r
    | some k =>
      return if KeyDerivation.forPassword.contains k then r
        else r.failKdf m k KeyDerivation.forPassword

/-! ## OpenPGP -/

/-- The cipher with a number that is offered. -/
def offered? (n : Int) : Option Symmetric := Symmetric.offered.find? fun a => (a.id : Int) = n

/-- The cipher that a host has chosen by its number. -/
def checkCipher (value : HostValue) (r : Resolution) : Except Failure Resolution :=
  match value with
  | .absent => .ok r
  | .text "" => .ok r
  | _ => do
    match ← value.integer? with
    | none => return r.fail .cipher "PGP Symmetric Cipher must be an integer" value
    | some n =>
      match offered? n with
      | none =>
        let ids := ", ".intercalate (Symmetric.offered.map fun a => toString a.id)
        return r.fail .cipher s!"PGP Symmetric Cipher {n} is not one of the allowed values [{ids}]" value
      | some a =>
        let name := a.name
        let r := { r with cipher := a }
        return if a.supported then r
          else
            r.fail .cipher
              s!"PGP Symmetric Cipher {name} ({n}) is not supported by the installed cryptography backend"
              value

/-- A finding about a keyring, for a failure that is about keyrings; any other is passed on. -/
def failKeyring (subject : Field) (location : HostValue) (f : Failure) (r : Resolution) :
    Except Failure Resolution :=
  match f.kind with
  | .own c =>
    if c.lineage.contains .keyring then
      let name := c.name
      let message := f.message?.getD ""
      .ok (r.fail subject s!"{name}: {message}" location)
    else .error f
  | .outside _ => .error f

/-- The key of a recipient.  A user id that is no text is nobody's, and cannot be looked for in
parts. -/
def recipient (suite : Suite) (source : KeyringSource) (location userId : HostValue) :
    Except Failure EncryptionKey := do
  let shown := location.display
  let entries ← Keyring.PublicEntry.readAll suite shown (← source location)
  match userId with
  | .text s => Keyring.PublicEntry.select shown s entries
  | _ =>
    if entries.any fun e => !e.handles.isEmpty then .error .wrongType
    else .error (.noPublicKey shown)

def checkRecipient (suite : Suite) (source : KeyringSource) (m : Method) (p : Properties)
    (r : Resolution) : Except Failure Resolution :=
  if !p.publicKeyring.isSet || !p.publicKeyUserId.isSet then
    let algorithm := m.algorithm
    let password := Field.password.displayName
    let ring := Field.publicKeyring.displayName
    let userId := Field.publicKeyUserId.displayName
    .ok (r.fail .publicKeyring
      s!"{algorithm} encryption without a {password} requires both {ring} and {userId}" .absent)
  else
    match recipient suite source p.publicKeyring p.publicKeyUserId with
    | .ok key => .ok { r with publicKey := some key }
    | .error f => r.failKeyring .publicKeyring p.publicKeyring f

/-- The keys that open messages.  The passphrase is kept only while the keyring is opened. -/
def checkPrivateKeyring (suite : Suite) (source : KeyringSource) (m : Method) (p : Properties)
    (r : Resolution) : Except Failure Resolution :=
  if !p.privateKeyring.isSet || !p.privateKeyringPassphrase.isSet then
    let algorithm := m.algorithm
    let password := Field.password.displayName
    let ring := Field.privateKeyring.displayName
    let passphrase := Field.privateKeyringPassphrase.displayName
    .ok (r.fail .privateKeyring
      s!"{algorithm} decryption without a {password} requires both {ring} and {passphrase}" .absent)
  else
    match p.privateKeyringPassphrase with
    | .text passphrase =>
      let octets := Text.utf8 passphrase
      let number := r.vault.next
      let r := r.keep ⟨octets, false⟩
      let opened := do
        let data ← source p.privateKeyring
        Keyring.readPrivate suite p.privateKeyring.display octets data
      let r := { r with vault := r.vault.clear number }
      match opened with
      | .ok ring => .ok { r with privateKeyring := some ring }
      | .error f => r.failKeyring .privateKeyring p.privateKeyring f
    | _ => .error .wrongType

/-- The rules for OpenPGP.  With a password, keyrings are not looked at, and any length will do. -/
def checkOpenPgp (suite : Suite) (source : KeyringSource) (m : Method) (p : Properties)
    (r : Resolution) : Except Failure Resolution := do
  let r ← r.checkCipher p.cipher
  if p.password.isSet then
    match p.password with
    | .text s => return { r.keep ⟨Text.utf8 s, false⟩ with password := some r.vault.next }
    | _ => .error .wrongType
  else match r.mode with
    | none => return r
    | some .encrypt => r.checkRecipient suite source m p
    | some .decrypt => r.checkPrivateKeyring suite source m p

/-! ## All rules -/

/-- The choices of direction, method and key derivation, and the allowance of weak passwords. -/
def ofChoices (p : Properties) : Resolution :=
  let r : Resolution := {}
  let (mode, r) := r.choose directions .mode p.mode
  let (method, r) := r.choose methods .algorithm p.algorithm
  let (kdf, r) := r.choose kdfs .kdf p.kdf
  { r with mode, method, kdf }.checkAllowance p.allowWeak

/-- Everything that is found out about properties. -/
def evaluate (suite : Suite) (settings : Settings) (source : KeyringSource) (p : Properties) :
    Except Failure Resolution :=
  let r := ofChoices p
  match r.method with
  | none => .ok r
  | some m =>
    let r := r.checkPolicy settings m
    if m.isOpenPgp then r.checkOpenPgp suite source m p
    else if m.keyed then r.checkKeyed settings m p
    else r.checkPasswordBased settings m p

end Resolution

end Cryptogram
