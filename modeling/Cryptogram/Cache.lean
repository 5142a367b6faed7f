import Cryptogram.Failure

/-!
# Caches

A cache holds at most as many values as its capacity.  It forgets the value whose key was asked for
least recently.  A loader that fails leaves no trace.
-/

namespace Cryptogram

/-- A bounded map from keys to values. -/
structure Cache (κ α : Type) where
  capacity : Nat
  /-- The keys with their values, the key asked for least recently in front. -/
  entries : List (κ × α) := []
  deriving DecidableEq, Repr

namespace Cache

variable {κ α ε : Type} [DecidableEq κ]

def make (capacity : Int) : Except Failure (Cache κ α) :=
  if capacity ≤ 0 then .error .cacheSize else .ok ⟨capacity.toNat, []⟩

/-- The value of a key. -/
def find? (c : Cache κ α) (key : κ) : Option α := (c.entries.find? fun e => e.1 = key).map Prod.snd

/-- The entries without those of a key. -/
def without (key : κ) (entries : List (κ × α)) : List (κ × α) := entries.filter fun e => e.1 ≠ key

/-- The cache after a key that it has was asked for. -/
def touch (c : Cache κ α) (key : κ) (value : α) : Cache κ α :=
  { c with entries := without key c.entries ++ [(key, value)] }

/-- The cache with a value for a key that it does not have. -/
def insert (c : Cache κ α) (key : κ) (value : α) : Cache κ α :=
  let kept := if c.capacity ≤ c.entries.length then c.entries.drop 1 else c.entries
  { c with entries := kept ++ [(key, value)] }

/-- The value of a key.  A loader, with whatever effects it has, is run where the cache does not have
it. -/
def getOrLoadM {m : Type → Type} [Monad m] (c : Cache κ α) (key : κ) (load : Unit → m (Except ε α)) :
    m (Except ε α × Cache κ α) :=
  match c.find? key with
  | some value => return (.ok value, c.touch key value)
  | none => do
    match ← load () with
    | .ok value => return (.ok value, c.insert key value)
    | .error e => return (.error e, c)

/-- The value of a key, where the loader has no effects. -/
def getOrLoad (c : Cache κ α) (key : κ) (load : Unit → Except ε α) : Except ε α × Cache κ α :=
  Id.run (c.getOrLoadM key fun _ => pure (load ()))

theorem getOrLoad_eq (c : Cache κ α) (key : κ) (load : Unit → Except ε α) :
    c.getOrLoad key load =
      match c.find? key with
      | some value => (.ok value, c.touch key value)
      | none =>
        match load () with
        | .ok value => (.ok value, c.insert key value)
        | .error e => (.error e, c) := by
  unfold getOrLoad getOrLoadM
  cases c.find? key with
  | some value => rfl
  | none => cases load () <;> rfl

/-- The cache without its entries. -/
def clear (c : Cache κ α) : Cache κ α := { c with entries := [] }

def size (c : Cache κ α) : Nat := c.entries.length

end Cache

end Cryptogram
