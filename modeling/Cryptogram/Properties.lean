import Cryptogram.Direction
import Cryptogram.HostValue

/-!
# Properties

What a host sets for one invocation: eleven fields, each known by a name of its own and by a name for
hosts.  Nothing is checked here.  `Properties.ofMapping` takes the values under either name; an empty
text is no value.
-/

namespace Cryptogram

/-! ## Fields -/

/-- A field of the properties. -/
inductive Field
  | mode
  | algorithm
  | kdf
  | password
  | rawKey
  | publicKeyring
  | publicKeyUserId
  | privateKeyring
  | privateKeyringPassphrase
  | cipher
  | allowWeak
  deriving DecidableEq, Repr

namespace Field

def all : List Field :=
  [.mode, .algorithm, .kdf, .password, .rawKey, .publicKeyring, .publicKeyUserId, .privateKeyring,
    .privateKeyringPassphrase, .cipher, .allowWeak]

def hostName : Field → String
  | .mode => "Mode"
  | .algorithm => "Encryption Algorithm"
  | .kdf => "key-derivation-function"
  | .password => "Password"
  | .rawKey => "raw-key-hex"
  | .publicKeyring => "public-keyring-file"
  | .publicKeyUserId => "public-key-user-id"
  | .privateKeyring => "private-keyring-file"
  | .privateKeyringPassphrase => "private-keyring-passphrase"
  | .cipher => "pgp-symmetric-cipher"
  | .allowWeak => "allow-weak-crypto"

def displayName : Field → String
  | .mode => "Mode"
  | .algorithm => "Encryption Algorithm"
  | .kdf => "Key Derivation Function"
  | .password => "Password"
  | .rawKey => "Raw Key (hexadecimal)"
  | .publicKeyring => "Public Keyring File"
  | .publicKeyUserId => "Public Key User Id"
  | .privateKeyring => "Private Keyring File"
  | .privateKeyringPassphrase => "Private Keyring Passphrase"
  | .cipher => "PGP Symmetric Cipher"
  | .allowWeak => "Allow insecure cryptographic modes"

/-- The name of its own. -/
def name : Field → String
  | .mode => "mode"
  | .algorithm => "encryption_algorithm"
  | .kdf => "key_derivation_function"
  | .password => "password"
  | .rawKey => "raw_key_hex"
  | .publicKeyring => "public_keyring"
  | .publicKeyUserId => "public_key_user_id"
  | .privateKeyring => "private_keyring"
  | .privateKeyringPassphrase => "private_keyring_passphrase"
  | .cipher => "pgp_symmetric_encryption_cipher"
  | .allowWeak => "allow_weak_crypto"

/-- Whether the value is never shown. -/
def isSecret : Field → Bool
  | .password => true
  | .rawKey => true
  | .privateKeyringPassphrase => true
  | _ => false

/-- The field with a name of its own. -/
def ofName? (key : String) : Option Field := all.find? fun f => f.name = key

/-- The field with a name of either kind. -/
def ofKey? (key : String) : Option Field := all.find? fun f => f.name = key || f.hostName = key

end Field

/-! ## Choices -/

/-- A member of a closed catalog, or what a host has put in its place. -/
inductive Choice (α : Type)
  | member (a : α)
  | given (value : HostValue)
  deriving Repr

/-! ## The record -/

/-- The properties of one invocation. -/
structure Properties where
  mode : Choice Direction := .member .encrypt
  algorithm : Choice Method := .member .aesGcm
  kdf : Choice KeyDerivation := .member .rawKey
  password : HostValue := .absent
  rawKey : HostValue := .absent
  publicKeyring : HostValue := .absent
  publicKeyUserId : HostValue := .absent
  privateKeyring : HostValue := .absent
  privateKeyringPassphrase : HostValue := .absent
  cipher : HostValue := .integer Symmetric.preferred.id
  allowWeak : HostValue := .flag false
  deriving Repr

namespace Properties

/-- The properties with a value for a field. -/
def set (p : Properties) (f : Field) (value : HostValue) : Properties :=
  match f with
  | .mode => { p with mode := .given value }
  | .algorithm => { p with algorithm := .given value }
  | .kdf => { p with kdf := .given value }
  | .password => { p with password := value }
  | .rawKey => { p with rawKey := value }
  | .publicKeyring => { p with publicKeyring := value }
  | .publicKeyUserId => { p with publicKeyUserId := value }
  | .privateKeyring => { p with privateKeyring := value }
  | .privateKeyringPassphrase => { p with privateKeyringPassphrase := value }
  | .cipher => { p with cipher := value }
  | .allowWeak => { p with allowWeak := value }

/-- The properties with the value under one key of a mapping. -/
def setKey (p : Properties) (entry : String × HostValue) : Except Failure Properties :=
  match Field.ofKey? entry.1 with
  | none => .error (.unknownProperty entry.1)
  | some f => .ok (if entry.2.isEmptyText then p else p.set f entry.2)

/-- The properties in a mapping, in which the later of two values counts. -/
def ofMapping (entries : List (String × HostValue)) : Except Failure Properties :=
  entries.foldlM setKey {}

/-- The properties with these values for the fields, and nothing left out. -/
def ofFields (entries : List (String × HostValue)) : Except Failure Properties :=
  entries.foldlM
    (fun p entry =>
      match Field.ofName? entry.1 with
      | none => .error .unknownField
      | some f => .ok (p.set f entry.2))
    {}

/-! ## Showing -/

/-- A member of a catalog with its value. -/
def memberText (catalog member value : String) : String := s!"<{catalog}.{member}: {value}>"

/-- A direction as a member of its catalog. -/
def directionText (d : Direction) : String := memberText "Mode" d.name (Text.quoted d.hostName)

/-- A key derivation as a member of its catalog. -/
def kdfText (k : KeyDerivation) : String :=
  let title := Text.quoted k.displayName
  let description := Text.quoted k.description
  let strong := HostValue.flagText k.strong
  let length := k.ownSaltLength
  memberText "KeyDerivationFunction" k.name
    s!"KdfAttributes(display_name={title}, description={description}, strong={strong}, salt_length={length})"

/-- The name of a scheme as a member of its catalog. -/
def schemeText (s : Scheme) : String :=
  let member :=
    match s with
    | .openssl => "OPENSSL"
    | .pkcs5v1 => "PKCS5_V1"
    | .pkcs12 => "PKCS12"
  memberText "PBEScheme" member (Text.quoted s.name)

/-- A method as a member of its catalog. -/
def methodText (m : Method) : String :=
  let t := m.traits
  let fields : List (String × String) :=
    [("algorithm", Text.quoted t.algorithm), ("cipher", Text.quoted t.family.name),
      ("key_length", toString t.keyBits),
      ("block_mode", memberText "BlockMode" t.mode.name (Text.quoted t.mode.name)),
      ("padded", HostValue.flagText t.padded),
      ("digest", (t.digest.map fun h => Text.quoted h.text).getD "None"),
      ("pbe_scheme", (t.scheme.map schemeText).getD "None"),
      ("keyed", HostValue.flagText t.keyed), ("unlimited_strength", HostValue.flagText t.unlimited),
      ("pgp", HostValue.flagText t.openPgp), ("armor", HostValue.flagText t.armored)]
  let shown := ", ".intercalate (fields.map fun (name, value) => name ++ "=" ++ value)
  memberText "EncryptionMethod" m.name s!"MethodAttributes({shown})"

/-- A choice as it is shown. -/
def choiceText {α : Type} (member : α → String) : Choice α → String
  | .member a => member a
  | .given value => value.shown

/-- A secret as it is shown, which says only whether it is there. -/
def redacted : HostValue → String
  | .absent => HostValue.shown .absent
  | _ => Text.quoted "<redacted>"

/-- The value of a field as it is shown. -/
def fieldText (p : Properties) : Field → String
  | .mode => choiceText directionText p.mode
  | .algorithm => choiceText methodText p.algorithm
  | .kdf => choiceText kdfText p.kdf
  | .password => redacted p.password
  | .rawKey => redacted p.rawKey
  | .publicKeyring => p.publicKeyring.shown
  | .publicKeyUserId => p.publicKeyUserId.shown
  | .privateKeyring => p.privateKeyring.shown
  | .privateKeyringPassphrase => redacted p.privateKeyringPassphrase
  | .cipher => p.cipher.shown
  | .allowWeak => p.allowWeak.shown

/-- The whole record as it is shown. -/
def text (p : Properties) : String :=
  let shown := ", ".intercalate (Field.all.map fun f => f.name ++ "=" ++ p.fieldText f)
  s!"EncryptionProperties({shown})"

end Properties

end Cryptogram
