import Cryptogram.Secret

/-!
# Vaults

The secrets of one invocation.  Each is known by its number; a cleared secret keeps its place.
-/

namespace Cryptogram

/-- Secrets in the order in which they were made. -/
structure Vault where
  secrets : List Secret := []
  deriving DecidableEq, Repr

namespace Vault

/-- The number of the next secret. -/
def next (v : Vault) : Nat := v.secrets.length

/-- The vault with another secret. -/
def keep (s : Secret) (v : Vault) : Vault := ⟨v.secrets ++ [s]⟩

/-- The vault with a secret cleared. -/
def clear (number : Nat) (v : Vault) : Vault := ⟨v.secrets.modify number Secret.clear⟩

/-- The vault with a secret cleared, if there is one to clear. -/
def clear? (number : Option Nat) (v : Vault) : Vault :=
  match number with
  | some n => v.clear n
  | none => v

def get? (v : Vault) (number : Nat) : Option Secret := v.secrets[number]?

/-- The octets of a secret that was not cleared. -/
def octets (v : Vault) (number : Nat) : Except Failure Bytes :=
  match v.get? number with
  | some s => s.octets
  | none => .error .secretCleared

/-- The numbers of the secrets that were not cleared. -/
def live (v : Vault) : List Nat :=
  (List.range v.secrets.length).filter fun n => (v.get? n).any fun s => !s.cleared

end Vault

end Cryptogram
