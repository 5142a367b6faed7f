import Cryptogram.Text.Blank
import Cryptogram.Bytes

/-!
# Hexadecimal text

Octets written as pairs of hexadecimal digits.
-/

namespace Cryptogram.Text

/-- The two lower-case digits of an octet. -/
def hexPair (b : UInt8) : List Char := [Nat.digitChar (b.toNat / 16), Nat.digitChar (b.toNat % 16)]

/-- The octets in lower-case digits. -/
def hex (octets : Bytes) : String := String.ofList (octets.flatMap hexPair)

/-- The value of a digit of either case. -/
def hexValue? (c : Char) : Option Nat :=
  if '0' ≤ c ∧ c ≤ '9' then some (c.toNat - 48)
  else if 'a' ≤ c ∧ c ≤ 'f' then some (c.toNat - 87)
  else if 'A' ≤ c ∧ c ≤ 'F' then some (c.toNat - 55)
  else none

/-- What is wrong with a text that is not hexadecimal. -/
inductive HexFault
  /-- A character outside ASCII. -/
  | notAscii
  /-- A digit without a partner. -/
  | oddLength
  /-- A character that is no digit. -/
  | notDigit
  deriving DecidableEq, Repr

/-- The octets of pairs of digits. -/
def hexPairs? : List Char → Option Bytes
  | [] => some []
  | a :: b :: rest => do
    let x ← hexValue? a
    let y ← hexValue? b
    return (x * 16 + y).toUInt8 :: (← hexPairs? rest)
  | [_] => none

/-- The octets that a hexadecimal text denotes; a character outside ASCII is found first, then an
odd number of characters, then a character that is no digit. -/
def ofHex (text : List Char) : Except HexFault Bytes :=
  if text.any fun c => c.toNat ≥ 128 then .error .notAscii
  else if text.length % 2 = 1 then .error .oddLength
  else match hexPairs? text with
    | some octets => .ok octets
    | none => .error .notDigit

end Cryptogram.Text
