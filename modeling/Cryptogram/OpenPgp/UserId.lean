import Cryptogram.Text.Utf8

/-!
# User ids

A user id is a name, then perhaps a comment in parentheses, then perhaps an address in angle
brackets, with a space between them.  The name is as short as it can be, and then the comment; the
address is as long as it can be.  None of them holds a line feed, though one may stand at the end.
-/

namespace Cryptogram

/-- The parts of a user id; a part that is missing is empty. -/
structure UserId where
  name : List Char
  comment : List Char := []
  address : List Char := []
  deriving DecidableEq, Repr

namespace UserId

/-- Whether nothing is left, apart from a line feed. -/
def atEnd (rest : List Char) : Bool := rest == [] || rest == ['\n']

/-- Text without a line feed at its end. -/
def trimEnd (text : List Char) : List Char :=
  if text.getLast? = some '\n' then text.dropLast else text

/-- The address that makes up the rest, which is empty where nothing is left. -/
def address? (rest : List Char) : Option (List Char) :=
  match trimEnd rest with
  | ' ' :: '<' :: text =>
    let address := text.dropLast
    if text.getLast? = some '>' ∧ address ≠ [] ∧ '\n' ∉ address then some address else none
  | _ => if atEnd rest then some [] else none

/-- Whether a comment may end before the rest. -/
def endsComment (rest : List Char) : Bool := [' ', '<'].isPrefixOf rest || atEnd rest

/-- The shortest comment in front of what is left of a user id, given the characters of it so far
(last first), and the address behind it. -/
def commentFrom? : (comment : List Char) → (rest : List Char) → Option (List Char × List Char)
  | _, [] => none
  | comment, c :: rest =>
    let here :=
      if c = ')' ∧ comment ≠ [] ∧ endsComment rest then (address? rest).map fun a => (comment.reverse, a)
      else none
    match here with
    | some found => some found
    | none => if c = '\n' then none else commentFrom? (c :: comment) rest

/-- The comment and the address that make up the rest. -/
def remainder? (rest : List Char) : Option (List Char × List Char) :=
  let withComment :=
    match rest with
    | ' ' :: '(' :: text => commentFrom? [] text
    | _ => none
  match withComment with
  | some found => some found
  | none => (address? rest).map fun a => ([], a)

/-- The parts of a text, given the characters of the name so far (last first). -/
def splitFrom? : (name : List Char) → (rest : List Char) → Option UserId
  | _, [] => none
  | name, c :: rest =>
    if c = '\n' then none
    else match remainder? rest with
      | some (comment, address) => some ⟨(c :: name).reverse, comment, address⟩
      | none => splitFrom? (c :: name) rest

/-- The parts of a text; the empty text has empty parts. -/
def split? (text : List Char) : Option UserId := if text = [] then some ⟨[], [], []⟩ else splitFrom? [] text

/-- The user id with its parts in order. -/
def full (u : UserId) : List Char :=
  let comment := if u.comment = [] then [] else ['('] ++ u.comment ++ [')']
  let address := if u.address = [] then [] else ['<'] ++ u.address ++ ['>']
  [' '].intercalate ([u.name, comment, address].filter (· != []))

/-- The texts by which the user id is found. -/
def handles (u : UserId) : List (List Char) :=
  u.full :: [u.name, u.address].filter (· != [])

/-- The text of a user id packet: UTF-8, or else one character for each octet. -/
def ofOctets (octets : Bytes) : List Char :=
  ((Text.ofUtf8? octets).getD (Text.ofLatin1 octets)).toList

end UserId

end Cryptogram
