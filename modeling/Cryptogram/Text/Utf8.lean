import Cryptogram.Bytes

/-!
# Text as octets

UTF-8 is read by a scan that yields a character or nothing for every maximal run of octets that
begins a character without finishing it.  Strict reading refuses a text with such a run; lenient
reading puts one replacement character for each.
-/

namespace Cryptogram.Text

/-- The octets of a text in UTF-8. -/
def utf8 (text : String) : Bytes := text.toUTF8.toList

/-- What may follow the first octet of a character: how many octets, and the range of the next. -/
def following? (first : UInt8) : Option (Nat × UInt8 × UInt8) :=
  if first < 0x80 then some (0, 0, 0)
  else if first < 0xc2 then none
  else if first < 0xe0 then some (1, 0x80, 0xbf)
  else if first = 0xe0 then some (2, 0xa0, 0xbf)
  else if first = 0xed then some (2, 0x80, 0x9f)
  else if first < 0xf0 then some (2, 0x80, 0xbf)
  else if first = 0xf0 then some (3, 0x90, 0xbf)
  else if first < 0xf4 then some (3, 0x80, 0xbf)
  else if first = 0xf4 then some (3, 0x80, 0x8f)
  else none

/-- Reads `owed` more octets of a character whose bits so far are `bits`; the next octet lies
between `low` and `high`. -/
def scanTail : (owed : Nat) → (bits : Nat) → (low high : UInt8) → Bytes → Option Char × Bytes
  | 0, bits, _, _, rest => (some (Char.ofNat bits), rest)
  | _ + 1, _, _, _, [] => (none, [])
  | owed + 1, bits, low, high, b :: rest =>
    if low ≤ b ∧ b ≤ high then scanTail owed (bits * 64 + b.toNat % 64) 0x80 0xbf rest
    else (none, b :: rest)

/-- The leading bits that the first octet of a character carries. -/
def leadingBits (first : UInt8) (owed : Nat) : Nat :=
  if owed = 0 then first.toNat else first.toNat % (1 <<< (6 - owed))

/-- The characters of at most `fuel` runs of octets; nothing for a run that is no character. -/
def scanRuns : (fuel : Nat) → Bytes → List (Option Char)
  | 0, _ => []
  | _ + 1, [] => []
  | fuel + 1, b :: rest =>
    match following? b with
    | none => none :: scanRuns fuel rest
    | some (owed, low, high) =>
      let (c, rest) := scanTail owed (leadingBits b owed) low high rest
      c :: scanRuns fuel rest

/-- The characters of an octet string, nothing for each maximal run that is no character. -/
def scan (octets : Bytes) : List (Option Char) := scanRuns octets.length octets

/-- The text that UTF-8 octets denote, if they are well formed. -/
def ofUtf8? (octets : Bytes) : Option String := ((scan octets).mapM id).map String.ofList

/-- The text that UTF-8 octets denote, with a replacement character for each run that is none. -/
def ofUtf8Lenient (octets : Bytes) : String :=
  String.ofList ((scan octets).map fun c => c.getD (Char.ofNat 0xfffd))

/-- The text whose characters have the octets as code points. -/
def ofLatin1 (octets : Bytes) : String :=
  String.ofList (octets.map fun b => Char.ofNat b.toNat)

/-- The octets of a text whose characters are all below 256. -/
def latin1? (text : String) : Option Bytes :=
  text.toList.mapM fun c => if c.toNat < 256 then some c.toNat.toUInt8 else none

/-- The octets of a character in UTF-16, most significant octet first. -/
def utf16Char (c : Char) : Bytes :=
  let n := c.toNat
  if n < 0x10000 then Bytes.ofNat 2 n
  else Bytes.ofNat 2 (0xd800 + (n - 0x10000) / 1024) ++ Bytes.ofNat 2 (0xdc00 + (n - 0x10000) % 1024)

/-- The octets of a text in UTF-16, most significant octet first. -/
def utf16 (text : String) : Bytes := text.toList.flatMap utf16Char

/-- The 16-bit units of an octet string of even length. -/
def units? : Bytes → Option (List Nat)
  | [] => some []
  | a :: b :: rest => (units? rest).map ((a.toNat * 256 + b.toNat) :: ·)
  | [_] => none

/-- The characters of 16-bit units; surrogates must come in pairs. -/
def ofUnits? : List Nat → Option (List Char)
  | [] => some []
  | [u] => if 0xd800 ≤ u ∧ u < 0xe000 then none else some [Char.ofNat u]
  | u :: v :: rest =>
    if 0xd800 ≤ u ∧ u < 0xdc00 then
      if 0xdc00 ≤ v ∧ v < 0xe000 then
        (ofUnits? rest).map (Char.ofNat (0x10000 + (u - 0xd800) * 1024 + (v - 0xdc00)) :: ·)
      else none
    else if 0xdc00 ≤ u ∧ u < 0xe000 then none
    else (ofUnits? (v :: rest)).map (Char.ofNat u :: ·)

/-- The text that UTF-16 octets denote, if they are well formed. -/
def ofUtf16? (octets : Bytes) : Option String := do
  return String.ofList (← ofUnits? (← units? octets))

/-- A character encoding. -/
structure Encoding where
  /-- The octets of a text, unless the encoding lacks one of its characters. -/
  encode? : String → Option Bytes
  /-- The text of octets, unless they are not well formed. -/
  decode? : Bytes → Option String

namespace Encoding

def utf8 : Encoding := ⟨fun text => some (Text.utf8 text), ofUtf8?⟩

def latin1 : Encoding := ⟨latin1?, fun octets => some (ofLatin1 octets)⟩

/-- UTF-16, most significant octet first. -/
def utf16 : Encoding := ⟨fun text => some (Text.utf16 text), ofUtf16?⟩

end Encoding

end Cryptogram.Text
