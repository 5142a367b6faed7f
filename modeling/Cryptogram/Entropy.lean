import Cryptogram.Bytes

/-!
# Entropy

An endless stream of random octets, from which salts, initial vectors and keys are drawn in order.
-/

namespace Cryptogram

/-- A stream of octets and the number of octets drawn so far. -/
structure Entropy where
  octet : Nat → UInt8
  position : Nat := 0
  /-- The octets that pad messages before they are encrypted to a public key; they come from a stream
  of their own. -/
  noise : Nat → UInt8 := fun _ => 0xff

namespace Entropy

def peek (e : Entropy) (n : Nat) : Bytes := (List.range n).map fun i => e.octet (e.position + i)

/-- The stream after `n` more octets. -/
def skip (e : Entropy) (n : Nat) : Entropy := { e with position := e.position + n }

/-- Draws the next `n` octets. -/
def draw (e : Entropy) (n : Nat) : Bytes × Entropy := (e.peek n, e.skip n)

@[simp] theorem length_peek (e : Entropy) (n : Nat) : (e.peek n).length = n := by simp [peek]

/-- The given octets, or the next `n` where none are given. -/
def drawUnless (e : Entropy) (given : Option Bytes) (n : Nat) : Bytes × Entropy :=
  match given with
  | some octets => (octets, e)
  | none => e.draw n

theorem length_drawUnless (e : Entropy) {given : Option Bytes} {n : Nat}
    (h : ∀ octets ∈ given, octets.length = n) : (e.drawUnless given n).1.length = n := by
  cases given with
  | none => exact e.length_peek n
  | some octets => exact h octets rfl

end Entropy

end Cryptogram
