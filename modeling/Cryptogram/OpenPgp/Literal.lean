import Cryptogram.OpenPgp.Packet
import Cryptogram.Text.Utf8

/-!
# Literal data

The packet that holds the content of a message, with a format, a file name and a date (RFC 4880,
section 5.9).
-/

namespace Cryptogram

/-- The content of a message. -/
structure Literal where
  format : Char
  name : String
  time : Int
  data : Bytes
  deriving DecidableEq, Repr

namespace Literal

/-- The formats that are written: binary, text and text in UTF-8. -/
def formats : List Char := ['b', 't', 'u']

/-- The content that a body holds. -/
def ofBody (body : Bytes) : Except Failure Literal :=
  match body with
  | format :: size :: rest =>
    if rest.length < 4 then .error (.literalShort body.length)
    else if rest.length < size.toNat + 4 then .error .literalCut
    else
      let behind := rest.drop size.toNat
      .ok ⟨Char.ofNat format.toNat, Text.ofUtf8Lenient (rest.take size.toNat),
        Bytes.toNat (behind.take 4), behind.drop 4⟩
  | _ => .error (.literalShort body.length)

/-- The body; at most 255 octets of the name are kept. -/
def body (l : Literal) : Except Failure Bytes :=
  let name := (Text.utf8 l.name).take 255
  if l.format ∉ formats then .error (.literalFormat l.format.toString)
  else if l.time < 0 ∨ 0x100000000 ≤ l.time then .error .fieldOverflow
  else .ok (l.format.toNat.toUInt8 :: name.length.toUInt8 :: name ++
    Bytes.ofNat 4 l.time.toNat ++ l.data)

def write (l : Literal) : Except Failure Bytes := do
  Packet.write Tag.literal (← l.body)

end Literal

end Cryptogram
