import Cryptogram.Direction
import Cryptogram.OpenPgp.Keys
import Cryptogram.Vault

/-!
# Plans

What one invocation does, after everything was checked.  A plan names its secrets by their numbers in
a vault; it has exactly one source of keys.
-/

namespace Cryptogram

/-- What one invocation does. -/
structure Plan where
  mode : Direction
  method : Method
  /-- The key derivation; OpenPGP ignores it. -/
  kdf : KeyDerivation := .rawKey
  /-- The number of the password. -/
  password : Option Nat := none
  /-- The number of the raw key. -/
  rawKey : Option Nat := none
  /-- The key of the recipient. -/
  publicKey : Option EncryptionKey := none
  /-- The keys that open messages. -/
  privateKeyring : Option PrivateKeyring := none
  /-- The cipher of messages that are written. -/
  cipher : Symmetric := .preferred
  allowWeak : Bool := false
  deriving DecidableEq, Repr

namespace Plan

/-- The number of sources of keys. -/
def keySources (p : Plan) : Nat :=
  [p.password.isSome, p.rawKey.isSome, p.publicKey.isSome, p.privateKeyring.isSome].count true

/-- The rules in order, each with whether it holds. -/
def rules (p : Plan) : List (PlanFault × Bool) :=
  [(.keySources p.keySources, p.keySources = 1),
    (.rawKeyMisplaced p.method p.kdf, p.rawKey.isNone || (p.method.keyed && p.kdf = .rawKey)),
    (.keyringMisplaced p.method,
      (p.publicKey.isNone && p.privateKeyring.isNone) || p.method.isOpenPgp),
    (.publicKeyToDecrypt, p.publicKey.isNone || p.mode = .encrypt),
    (.privateKeysToEncrypt, p.privateKeyring.isNone || p.mode = .decrypt),
    (.passwordTooWeaklyDerived p.method p.kdf,
      p.password.isNone || !p.method.keyed || p.kdf.strong)]

def fault? (p : Plan) : Option PlanFault := (p.rules.find? fun rule => !rule.2).map Prod.fst

/-- The plan, if it violates no rule. -/
def check (p : Plan) : Except Failure Plan :=
  match p.fault? with
  | some fault => .error (.plan fault)
  | none => .ok p

/-- Whether messages are put in armor. -/
def armored (p : Plan) : Bool := p.method.traits.armored

def isEncrypt (p : Plan) : Bool := p.mode = .encrypt

/-- The vault without the secrets of the plan. -/
def clear (p : Plan) (v : Vault) : Vault := (v.clear? p.password).clear? p.rawKey

end Plan

end Cryptogram
