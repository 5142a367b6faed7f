import Cryptogram.Cipher.Stream
import Cryptogram.Padding
import Cryptogram.Transfer

/-!
# Encrypting and decrypting streams

Content is read in pieces and written as soon as it is transformed.  Encryption pads the message
where that is asked for.  Decryption keeps back a trailing tag, checks it at the end, and removes
padding; what it wrote before a failure stays written.
-/

namespace Cryptogram

/-- A block size for padding: at most 255 octets, where zero stands for no padding. -/
def paddingSize (size : Int) : Except Failure Nat :=
  if 0 ≤ size ∧ size ≤ 255 then .ok size.toNat else .error .paddingSize

namespace StreamCipher

/-- The pieces that come out of a padder which kept back `held`: the whole blocks that each piece
completes, and in the end what is left with the padding behind it. -/
def paddedFrom (pad : Nat) : (held : Bytes) → List Bytes → List Bytes
  | held, [] => [Padding.pad pad held]
  | held, piece :: rest =>
    let (whole, held) := Padding.collect pad held piece
    whole :: paddedFrom pad held rest

/-- The pieces of a message as they go into the cipher. -/
def paddedPieces (pad : Nat) (pieces : List Bytes) : List Bytes :=
  if pad = 0 then pieces else paddedFrom pad [] pieces

/-- Encrypts pieces, padded to blocks of `pad` octets unless that is zero; answers the final state. -/
def encryptPieces (c : StreamCipher) (pad : Nat) (pieces : List Bytes) : Transfer StreamState := do
  let (out, s) := c.start.feed .encrypt (paddedPieces pad pieces)
  Transfer.write out
  if s.aligned then pure s else Transfer.fail .unalignedInput

/-- The course of a decryption: the cipher, what may be padding, and what may be the tag. -/
structure Decryption where
  state : StreamState
  held : Bytes := []
  pending : Bytes := []

namespace Decryption

/-- Takes in a piece; all but the last `tagLength` octets are decrypted, and all of that but what
may be padding is put out. -/
def update (pad tagLength : Nat) (d : Decryption) (piece : Bytes) : Bytes × Decryption :=
  let data := d.pending ++ piece
  let cut := data.length - tagLength
  if cut = 0 then ([], { d with pending := data })
  else
    let (plain, state) := d.state.update .decrypt (data.take cut)
    if pad = 0 then (plain, ⟨state, [], data.drop cut⟩)
    else
      let (out, held) := Padding.release pad d.held plain
      (out, ⟨state, held, data.drop cut⟩)

/-- What pieces yield one after the other. -/
def feed (pad tagLength : Nat) : (d : Decryption) → List Bytes → Bytes × Decryption
  | d, [] => ([], d)
  | d, piece :: rest =>
    let (out, d) := d.update pad tagLength piece
    let (more, d) := feed pad tagLength d rest
    (out ++ more, d)

/-- The check at the end of a message without a tag; a mode with tags demands one. -/
def checkUntagged (s : StreamState) : Except Failure Unit :=
  match s with
  | .galois .. => .error .unalignedCiphertext
  | _ => if s.aligned then .ok () else .error .unalignedCiphertext

/-- The check at the end of a message with a tag; only tags of the full length are accepted. -/
def checkTagged (s : StreamState) (tag : Bytes) : Except Failure Unit :=
  match s.tag? with
  | none => .error .untaggedMode
  | some computed =>
    if tag.length ≠ Galois.tagLength then .error .unalignedCiphertext
    else if tag = computed then .ok ()
    else .error .tagMismatch

/-- The checks at the end of a message. -/
def check (tagLength : Nat) (d : Decryption) : Except Failure Unit :=
  if tagLength = 0 then checkUntagged d.state
  else if d.pending.length < tagLength then
    .error (.undersized .tag tagLength d.pending.length)
  else checkTagged d.state d.pending

/-- The last block without its padding. -/
def last (pad : Nat) (d : Decryption) : Except Failure Bytes :=
  if pad = 0 then .ok []
  else match Padding.unpadBlock? pad d.held with
    | some rest => .ok rest
    | none => .error .badPadding

end Decryption

/-- Decrypts pieces that end in a tag of `tagLength` octets and are padded to blocks of `pad`
octets, unless these are zero. -/
def decryptPieces (c : StreamCipher) (pad tagLength : Nat) (pieces : List Bytes) :
    Transfer Unit := do
  let (out, d) := Decryption.feed pad tagLength ⟨c.start, [], []⟩ pieces
  Transfer.write out
  d.check tagLength
  Transfer.write (← d.last pad)

end StreamCipher

end Cryptogram
