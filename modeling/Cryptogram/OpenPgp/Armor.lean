import Cryptogram.Failure
import Cryptogram.OpenPgp.Checksum
import Cryptogram.Text.Base64

/-!
# Armor

A message as text: a head line, header lines, a blank line, the message in base 64, a checksum and
a tail line (RFC 4880, section 6.2).  `Armor.write` writes such a block, and `Armor.read` reads the
first block that stands anywhere among other lines; octets that are no plain text are taken to be a
message without armor.
-/

namespace Cryptogram.Armor

/-! ## Writing -/

/-- The end of a line. -/
def lineFeed : UInt8 := 10

/-- What may stand before the end of a line. -/
def carriageReturn : UInt8 := 13

/-- The kind of block that is written. -/
def messageKind : Bytes := Bytes.ofAscii "MESSAGE"

/-- The head line of a kind of block. -/
def headLine (kind : Bytes) : Bytes :=
  Bytes.ofAscii "-----BEGIN PGP " ++ kind ++ Bytes.ofAscii "-----"

/-- The tail line of a kind of block. -/
def tailLine (kind : Bytes) : Bytes :=
  Bytes.ofAscii "-----END PGP " ++ kind ++ Bytes.ofAscii "-----"

def digits (octets : Bytes) : Bytes := (Base64.encode octets).map fun c => c.toNat.toUInt8

/-- The lines of the body, of 64 digits each; the empty message has an empty line. -/
def bodyLines (message : Bytes) : List Bytes :=
  match (digits message).blocks 64 with
  | [] => [[]]
  | lines => lines

/-- The line with the checksum of a message. -/
def checksumLine (message : Bytes) : Bytes :=
  Bytes.ofAscii "=" ++ digits (Bytes.ofNat 3 (Crc24.ofBytes message).toNat)

def blockLines (message : Bytes) : List Bytes :=
  [headLine messageKind, []] ++ bodyLines message ++ [checksumLine message, tailLine messageKind]

def write (message : Bytes) : Bytes := (blockLines message).flatMap fun line => line ++ [lineFeed]

/-! ## Lines -/

/-- The lines of a text; the last is what stands behind the last line feed. -/
def lines (text : Bytes) : List Bytes :=
  text.foldr
    (fun octet lines =>
      if octet = lineFeed then [] :: lines
      else match lines with
        | line :: rest => (octet :: line) :: rest
        | [] => [[octet]])
    [[]]

/-- The line without a carriage return at its end. -/
def trimEnd (line : Bytes) : Bytes :=
  if line.getLast? = some carriageReturn then line.dropLast else line

/-- Whether an octet may stand in the kind of a block. -/
def isKindOctet (b : UInt8) : Bool :=
  (65 ≤ b && b ≤ 90) || (48 ≤ b && b ≤ 57) || b == 32 || b == 44

/-- Whether an octet is a digit of base 64. -/
def isDigit (b : UInt8) : Bool := (Base64.value? (Char.ofNat b.toNat)).isSome

def equalsSign : UInt8 := 61

/-- The kind of block that a head line begins. -/
def kind? (line : Bytes) : Option Bytes :=
  let line := trimEnd line
  let kind := (line.drop 15).takeWhile isKindOctet
  if kind ≠ [] ∧ line = headLine kind then some kind else none

/-- Whether a colon and a space stand somewhere, with something behind them. -/
def hasColon : Bytes → Bool
  | 58 :: 32 :: _ :: _ => true
  | _ :: rest => hasColon rest
  | [] => false

/-- Whether a line is a header: a name, a colon, a space and a value. -/
def isHeader (line : Bytes) : Bool := hasColon (line.drop 1)

def isBlankLine (line : Bytes) : Bool := (trimEnd line).isEmpty

/-- Whether a line belongs to the body: 1 to 76 digits and at most two equals signs. -/
def isBodyLine (line : Bytes) : Bool :=
  let line := trimEnd line
  let size := (line.takeWhile isDigit).length
  let rest := line.dropWhile isDigit
  1 ≤ size && size ≤ 76 && rest.length ≤ 2 && rest.all (· == equalsSign)

/-- The digits of the checksum on its line. -/
def checksum? (line : Bytes) : Option Bytes :=
  match trimEnd line with
  | first :: rest => if first = equalsSign ∧ rest.length = 4 ∧ rest.all isDigit then some rest else none
  | [] => none

/-! ## Blocks -/

/-- A block as it stands in a text. -/
structure Block where
  kind : Bytes
  /-- The lines of the body. -/
  body : List Bytes
  /-- The digits of the checksum. -/
  checksum : Bytes
  deriving DecidableEq, Repr

/-- The block that begins on the first of the lines. -/
def blockAt? (lines : List Bytes) : Option Block :=
  match lines with
  | [] => none
  | head :: rest => do
    let kind ← kind? head
    let rest := rest.dropWhile isHeader
    let rest := if (rest.head?.any isBlankLine) then rest.tail else rest
    let body := rest.takeWhile isBodyLine
    if body = [] then none
    else match rest.dropWhile isBodyLine with
      | line :: tail :: _ => do
        let checksum ← checksum? line
        if (tailLine kind).isPrefixOf tail then some ⟨kind, body, checksum⟩ else none
      | _ => none

/-- The blocks that begin on any of the lines. -/
def blocks : List Bytes → List Block
  | [] => []
  | line :: rest =>
    match blockAt? (line :: rest) with
    | some block => block :: blocks rest
    | none => blocks rest

/-- The line above a signed text. -/
def signedHead : Bytes := headLine (Bytes.ofAscii "SIGNED MESSAGE")

/-- The first block, where a signed text goes together with the last block behind it. -/
def firstBlock? : List Bytes → Option Block
  | [] => none
  | line :: rest =>
    let signed := if trimEnd line = signedHead then (blocks rest.tail).getLast? else none
    match signed with
    | some block => some block
    | none =>
      match blockAt? (line :: rest) with
      | some block => some block
      | none => firstBlock? rest

/-! ## Reading -/

/-- Whether a block stands in a text. -/
def isArmored (text : Bytes) : Bool := !(blocks (lines text)).isEmpty

/-- Whether an octet is plain text. -/
def isPlain (b : UInt8) : Bool := (32 ≤ b && b ≤ 126) || b == 13 || b == 10 || b == 9

/-- Octets from digits of base 64. -/
def undigits? (octets : Bytes) : Option Bytes :=
  Base64.decode? (octets.map fun b => Char.ofNat b.toNat)

/-- What a text holds: the kind of the first block, if there is one, and the message. -/
structure Content where
  kind : Option Bytes
  message : Bytes
  deriving DecidableEq, Repr

/-- The content of the first block without regard to its checksum, and that checksum. -/
def open? (text : Bytes) : Option (Content × Option Nat) :=
  if !text.all isPlain then some (⟨none, text⟩, none)
  else do
    let block ← firstBlock? (lines text)
    let message ← undigits? block.body.flatten
    let checksum ← undigits? block.checksum
    return (⟨some block.kind, message⟩, some (Bytes.toNat checksum))

/-- The message of the first block; octets that are no plain text are the message themselves. -/
def read (text : Bytes) : Except Failure Bytes :=
  match open? text with
  | none => .error .armorMalformed
  | some (content, none) => .ok content.message
  | some (content, some expected) =>
    let computed := (Crc24.ofBytes content.message).toNat
    if computed = expected then .ok content.message else .error (.armorChecksum expected computed)

/-- A message that may be in armor. -/
def strip (octets : Bytes) : Except Failure Bytes :=
  if isArmored octets then read octets else .ok octets

end Cryptogram.Armor
