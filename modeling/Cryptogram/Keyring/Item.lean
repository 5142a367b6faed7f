import Cryptogram.Keyring.KeyPacket
import Cryptogram.OpenPgp.UserId

/-!
# Packets of keyrings

What a keyring is made of: keys, user ids, user attributes, signatures, and packets that do not
belong there.  Some tags have versions; a packet of an unknown version is skipped.
-/

namespace Cryptogram.Keyring

/-- One packet of a keyring. -/
inductive Item
  | key (isSubkey : Bool) (key : KeyPacket)
  | userId (text : List Char)
  | userAttribute
  | signature
  /-- A private note on trust. -/
  | trust
  /-- A packet that belongs into messages. -/
  | foreign
  /-- A packet of an unknown kind. -/
  | unknown
  deriving DecidableEq, Repr

namespace Item

/-- The tags with versions, and the version that is known. -/
def versions : List (Nat × Nat) :=
  [(Tag.pkesk, 3), (Tag.signature, 4), (Tag.skesk, 4), (Tag.onePassSignature, 3), (Tag.secretKey, 4),
    (Tag.publicKey, 4), (Tag.secretSubkey, 4), (Tag.publicSubkey, 4), (Tag.seipd, 1)]

/-- The version that is known for a tag, if the tag has versions. -/
def version? (tag : Nat) : Option Nat := (versions.find? fun e => e.1 = tag).map Prod.snd

/-- The tag of the packet with a hash behind encrypted data. -/
def hashTag : Nat := 19

/-- The tags of packets that belong into messages. -/
def foreignTags : List Nat :=
  [Tag.pkesk, Tag.skesk, Tag.onePassSignature, Tag.compressed, Tag.encrypted, Tag.marker, Tag.literal,
    Tag.seipd, hashTag]

/-- What follows the first part of a user attribute.  A picture has a header of its own. -/
def skipAttribute? (data : Bytes) : Option Bytes := do
  let (size, rest) ← readSize? data
  let type := Bytes.toNat (rest.take 1) % 128
  let rest := rest.drop 1
  if type = 1 then
    if rest.length < 16 then none else some (behind ((size : Int) - 17) (rest.drop 16))
  else some (behind ((size : Int) - 1) rest)

/-- What follows a user attribute with parts of so many octets. -/
def skipAttributes? : (fuel : Nat) → (size : Int) → Bytes → Option Bytes
  | 0, _, data => some data
  | fuel + 1, size, data =>
    if size ≤ 0 then some data
    else do
      let rest ← skipAttribute? data
      skipAttributes? fuel (size - (data.length - rest.length : Int)) rest

/-- The packet of a tag that has no versions, and what follows it. -/
def readUnversioned? (tag size : Nat) (data : Bytes) : Option (Item × Bytes) :=
  if tag = Tag.userId then
    some (.userId (UserId.ofOctets (data.take size)), data.drop size)
  else if tag = Tag.userAttribute then
    (skipAttributes? (data.length + 1) size data).map fun rest => (.userAttribute, rest)
  else if tag = Tag.trust then some (.trust, data.drop size)
  else if foreignTags.contains tag then some (.foreign, data.drop size)
  else some (.unknown, data.drop size)

/-- The packet of a tag with versions, and what follows it. -/
def readVersioned? (tag size known : Nat) (data : Bytes) : Option (Item × Bytes) :=
  match data with
  | [] => none
  | version :: data =>
    let rest := behind ((size : Int) - 1) data
    if tag = Tag.signature then some (.signature, rest)
    else if version.toNat ≠ known then some (.unknown, rest)
    else if tag = Tag.secretKey ∨ tag = Tag.secretSubkey then
      (KeyPacket.read? true size data).map fun (k, rest) => (.key (tag = Tag.secretSubkey) k, rest)
    else if tag = Tag.publicKey ∨ tag = Tag.publicSubkey then
      (KeyPacket.read? false size data).map fun (k, rest) => (.key (tag = Tag.publicSubkey) k, rest)
    else some (.foreign, rest)

/-- The packet at the front of `data`, and what follows it.  Tag zero is no packet: the header behind
it counts only for its size. -/
def read? (data : Bytes) : Option (Item × Bytes) := do
  let (header, rest) ← Header.read? data
  if header.tag = 0 then
    let (inner, rest) ← Header.read? rest
    return (.unknown, rest.drop inner.size)
  else match version? header.tag with
    | some known => readVersioned? header.tag header.size known rest
    | none => readUnversioned? header.tag header.size rest

/-- At most `fuel` packets that make up all data. -/
def readAll? : (fuel : Nat) → Bytes → Option (List Item)
  | _, [] => some []
  | 0, _ => none
  | fuel + 1, data => do
    let (item, rest) ← read? data
    return item :: (← readAll? fuel rest)

/-- The packets of a keyring. -/
def ofBytes? (data : Bytes) : Option (List Item) := readAll? data.length data

end Item

end Cryptogram.Keyring
