import Cryptogram.Binary64
import Cryptogram.Failure
import Cryptogram.Text.Integer

/-!
# Values from hosts

A host hands over the values of properties without regard to their types.  This file gives the text
of such a value, whether it counts as set, and the integer that it stands for.
-/

namespace Cryptogram

/-- A value that a host hands over. -/
inductive HostValue
  | absent
  | flag (b : Bool)
  | integer (n : Int)
  | real (x : Binary64)
  | text (s : String)
  | list (items : List HostValue)
  /-- Values under names, in order. -/
  | record (entries : List (String × HostValue))
  deriving Repr, Inhabited

namespace HostValue

/-- How a flag is written. -/
def flagText (b : Bool) : String := if b then "True" else "False"

mutual

/-- The value as it is written inside others, where texts are in quotes. -/
def shown : HostValue → String
  | .absent => "None"
  | .flag b => flagText b
  | .integer n => toString n
  | .real x => x.text
  | .text s => Text.quoted s
  | .list items => "[" ++ ", ".intercalate (shownItems items) ++ "]"
  | .record entries => "\x7b" ++ ", ".intercalate (shownEntries entries) ++ "\x7d"

/-- The items of a list. -/
def shownItems : List HostValue → List String
  | [] => []
  | item :: rest => item.shown :: shownItems rest

/-- The values of a record with their names. -/
def shownEntries : List (String × HostValue) → List String
  | [] => []
  | (name, value) :: rest => (Text.quoted name ++ ": " ++ value.shown) :: shownEntries rest

end

/-- The value as a text; a text stands for itself. -/
def display : HostValue → String
  | .text s => s
  | v => v.shown

/-- Whether the value counts as set: it is neither absent nor empty nor zero. -/
def isSet : HostValue → Bool
  | .absent => false
  | .flag b => b
  | .integer n => n ≠ 0
  | .real x => !x.isZero
  | .text s => s ≠ ""
  | .list items => !items.isEmpty
  | .record entries => !entries.isEmpty

/-- Whether the value is the empty text. -/
def isEmptyText : HostValue → Bool
  | .text s => s = ""
  | _ => false

/-- The integer that the value stands for, if it stands for one; a fraction is cut off, and infinity
is a failure. -/
def integer? : HostValue → Except Failure (Option Int)
  | .flag b => .ok (some (if b then 1 else 0))
  | .integer n => .ok (some n)
  | .real (.infinite _) => .error .infiniteNumber
  | .real x => .ok x.truncate?
  | .text s => .ok (Text.integer? s.toList)
  | _ => .ok none

end HostValue

end Cryptogram
