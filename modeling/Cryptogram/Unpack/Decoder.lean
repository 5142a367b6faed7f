import Cryptogram.Bytes

/-!
# Decoders of bit streams

A decoder takes bits from octets and puts out octets.  It ends with a value, at the end of octets
that were cut too early, or with the finding that they are invalid.  What was put out before a cut is
part of the answer.
-/

namespace Cryptogram

/-- The course of unpacking. -/
structure Unpacking where
  /-- The number of bits of the first octet that were taken already; less than eight. -/
  used : Nat := 0
  /-- The octets that still have bits. -/
  rest : Bytes
  /-- What was put out. -/
  out : Array UInt8 := #[]
  deriving Repr

/-- What a decoder comes to. -/
inductive Reading (α : Type)
  | done (value : α) (state : Unpacking)
  /-- The octets end too early. -/
  | cut (out : Array UInt8)
  | invalid
  deriving Repr

/-- A decoder of a value. -/
def Decoder (α : Type) := Unpacking → Reading α

/-- Whether an octet begins with its lowest or its highest bit. -/
inductive BitOrder
  | lowFirst
  | highFirst
  deriving DecidableEq, Repr

/-- The bit at a place of an octet. -/
def BitOrder.pick (order : BitOrder) (octet : UInt8) (place : Nat) : Bool :=
  match order with
  | .lowFirst => octet.toNat.testBit place
  | .highFirst => octet.toNat.testBit (7 - place)

namespace Decoder

variable {α β σ : Type}

/-- Goes on with the value, unless there is none. -/
@[inline] def andThen (d : Decoder α) (next : α → Decoder β) : Decoder β := fun s =>
  match d s with
  | .done a s => next a s
  | .cut out => .cut out
  | .invalid => .invalid

@[inline] instance : Monad Decoder where
  pure a := fun s => .done a s
  bind := andThen

/-- The finding that the octets are invalid. -/
def fail : Decoder α := fun _ => .invalid

/-- Goes on only if a condition holds. -/
def require (condition : Bool) : Decoder Unit := if condition then pure () else fail

def bit (order : BitOrder) : Decoder Bool := fun s =>
  match s.rest with
  | [] => .cut s.out
  | octet :: tail =>
    let b := order.pick octet s.used
    if s.used < 7 then .done b ⟨s.used + 1, octet :: tail, s.out⟩ else .done b ⟨0, tail, s.out⟩

/-- The number of the next bits, lowest bit first. -/
def lowNumber : (width : Nat) → Decoder Nat
  | 0 => pure 0
  | width + 1 => do
    let b ← bit .lowFirst
    let n ← lowNumber width
    return b.toNat + 2 * n

/-- The number of the next bits behind the bits of `n`, highest bit first. -/
def highNumberFrom : (width : Nat) → (n : Nat) → Decoder Nat
  | 0, n => pure n
  | width + 1, n => do
    let b ← bit .highFirst
    highNumberFrom width (2 * n + b.toNat)

/-- The number of the next bits, highest bit first. -/
def highNumber (width : Nat) : Decoder Nat := highNumberFrom width 0

/-- Skips the bits that are left of an octet that was begun. -/
def align : Decoder Unit := fun s =>
  if s.used = 0 then .done () s else .done () ⟨0, s.rest.tail, s.out⟩

def emit (octet : UInt8) : Decoder Unit := fun s => .done () { s with out := s.out.push octet }

def emitAll (octets : List UInt8) : Decoder Unit := fun s =>
  .done () { s with out := octets.foldl Array.push s.out }

/-- What was put out so far. -/
def produced : Decoder (Array UInt8) := fun s => .done s.out s

/-- Puts out the next `size` octets; begun octets are not looked at. -/
def passOn : (size : Nat) → Decoder Unit
  | 0, s => .done () s
  | size + 1, s =>
    match s.rest with
    | [] => .cut s.out
    | octet :: tail => passOn size ⟨s.used, tail, s.out.push octet⟩

/-- `count` octets more, each the one that lies `distance` back. -/
def extend (distance : Nat) : (count : Nat) → Array UInt8 → Array UInt8
  | 0, out => out
  | count + 1, out => extend distance count (out.push (out.getD (out.size - distance) 0))

/-- Repeats what was put out `distance` octets before. -/
def copy (distance count : Nat) : Decoder Unit := fun s =>
  if distance ≤ s.out.size then .done () { s with out := extend distance count s.out } else .invalid

/-- The values of a decoder run `count` times. -/
def replicate (d : Decoder α) : (count : Nat) → Decoder (List α)
  | 0 => pure []
  | count + 1 => do
    let a ← d
    let more ← replicate d count
    return a :: more

/-- Repeats a step at most `fuel` times, until it has a value. -/
def loopWithin (step : σ → Decoder (σ ⊕ α)) : (fuel : Nat) → σ → Decoder α
  | 0, _, _ => .invalid
  | fuel + 1, a, s =>
    match step a s with
    | .done (.inl a) s => loopWithin step fuel a s
    | .done (.inr b) s => .done b s
    | .cut out => .cut out
    | .invalid => .invalid

/-- Repeats a step that takes at least one bit, until it has a value. -/
def loop (step : σ → Decoder (σ ⊕ α)) (start : σ) : Decoder α := fun s =>
  loopWithin step (8 * s.rest.length + 1) start s

end Decoder

end Cryptogram
