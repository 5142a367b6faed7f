import Cryptogram.Keyring.Item
import Cryptogram.OpenPgp.Armor

/-!
# Keyrings

A keyring is a sequence of packets, perhaps in armor.  A key is followed by what belongs to it: user
ids and subkeys.  `Ring.read` gives the keys of a keyring, one for each fingerprint; where a keyring
holds both halves of a key, the secret one counts.
-/

namespace Cryptogram.Keyring

/-- A key with what belongs to it. -/
structure RingKey where
  primary : KeyPacket
  userIds : List (List Char) := []
  /-- The subkeys by their key ids, each id once. -/
  subkeys : List (Bytes × KeyPacket) := []
  deriving DecidableEq, Repr

/-- A list of pairs with a value for a key: in its place if the key is there, else at the end. -/
def put {κ α : Type} [DecidableEq κ] (key : κ) (value : α) : List (κ × α) → List (κ × α)
  | [] => [(key, value)]
  | (k, a) :: rest => if k = key then (key, value) :: rest else (k, a) :: put key value rest

namespace RingKey

/-- Whether the key has no secret half. -/
def isPublic (k : RingKey) : Bool := k.primary.isPublic

/-- The key and its subkeys. -/
def packets (k : RingKey) : List KeyPacket := k.primary :: k.subkeys.map Prod.snd

/-- The key with another user id. -/
def addUserId (text : List Char) (k : RingKey) : RingKey := { k with userIds := k.userIds ++ [text] }

/-- The key with a subkey. -/
def addSubkey (keyId : Bytes) (subkey : KeyPacket) (k : RingKey) : RingKey :=
  { k with subkeys := put keyId subkey k.subkeys }

end RingKey

/-! ## Assembly -/

/-- Which packets come next. -/
inductive Expected
  /-- Anything but a signature. -/
  | packet
  /-- Signatures on the packet before, or another packet. -/
  | signatures
  /-- Signatures on a packet that does not belong into a keyring, or a packet that is lost with it. -/
  | lost
  deriving DecidableEq, Repr

/-- The keys that were put together so far. -/
structure Assembly where
  /-- The keys by key id and by whether they are public. -/
  keys : List ((Bytes × Bool) × RingKey) := []
  /-- The very first key, if another took its place. -/
  displaced : Option RingKey := none
  expected : Expected := .packet
  deriving DecidableEq, Repr

namespace Assembly

/-- The keys with the last one changed, if there is one. -/
def changeLast? (change : RingKey → RingKey) (a : Assembly) : Option Assembly :=
  match a.keys.getLast? with
  | none => none
  | some (name, k) => some { a with keys := a.keys.dropLast ++ [(name, change k)] }

/-- Another key; it takes the place of one with the same name. -/
def addKey (suite : Suite) (k : KeyPacket) (a : Assembly) : Assembly :=
  let name := (k.keyId suite, k.isPublic)
  let displaced :=
    match a.keys with
    | (first, old) :: _ => if first = name then a.displaced.or (some old) else a.displaced
    | [] => none
  { a with keys := put name ⟨k, [], []⟩ a.keys, displaced := displaced }

/-- A packet that is neither a signature nor lost. -/
def place? (suite : Suite) (a : Assembly) : Item → Option Assembly
  | .key false k => some (a.addKey suite k)
  | .key true k => a.changeLast? (·.addSubkey (k.keyId suite) k)
  | .userId text => a.changeLast? (·.addUserId text)
  | .userAttribute => a.changeLast? id
  | _ => some a

def step? (suite : Suite) (a : Assembly) (item : Item) : Option Assembly :=
  match a.expected, item with
  | .packet, .signature => none
  | _, .signature => some a
  | .lost, _ => some { a with expected := .packet }
  | _, .foreign => some { a with expected := .lost }
  | _, item => (a.place? suite item).map fun a => { a with expected := .signatures }

/-- The keys in order, the displaced one in front. -/
def toList (a : Assembly) : List RingKey := a.displaced.toList ++ a.keys.map Prod.snd

end Assembly

/-- The keys that packets make up; notes on trust are left out. -/
def assemble? (suite : Suite) (items : List Item) : Option (List RingKey) :=
  ((items.filter (· != .trust)).foldlM (Assembly.step? suite) {}).map Assembly.toList

/-- The keys with another one; of two with one fingerprint the first secret one, or else the first,
is kept. -/
def merge (suite : Suite) (keys : List RingKey) (k : RingKey) : List RingKey :=
  let name := k.primary.fingerprint suite
  match keys.find? fun old => old.primary.fingerprint suite = name with
  | none => keys ++ [k]
  | some old =>
    if old.isPublic && !k.isPublic then
      keys.map fun old => if old.primary.fingerprint suite = name then k else old
    else keys

/-! ## Reading -/

/-- Whether the kind of an armored block is that of a keyring. -/
def isKeyBlock (kind : Bytes) : Bool :=
  let word := Bytes.ofAscii "KEY"
  (List.range kind.length).any fun i => word.isPrefixOf (kind.drop i)

/-- The octets of a keyring without its armor. -/
def unarmored? (data : Bytes) : Option Bytes := do
  let (content, _) ← Armor.open? data
  if content.kind.all isKeyBlock then some content.message else none

/-- The keys of a keyring, at least one. -/
def Ring.read (suite : Suite) (location : String) (data : Bytes) : Except Failure (List RingKey) :=
  match unarmored? data >>= Item.ofBytes? >>= assemble? suite with
  | none => .error (.keyringMalformed location)
  | some keys =>
    match keys.foldl (merge suite) [] with
    | [] => .error (.keyringEmpty location)
    | keys => .ok keys

end Cryptogram.Keyring
