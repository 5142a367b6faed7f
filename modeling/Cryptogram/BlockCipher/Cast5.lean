import Cryptogram.BlockCipher.Basic
import Cryptogram.BlockCipher.Cast5.Boxes

/-!
# CAST5

A Feistel cipher with three alternating round functions: 12 rounds for keys of up to 80 bits, 16 for
longer ones.
-/

namespace Cryptogram.Cast5

/-- The word of a box for an octet. -/
def look (box : Array UInt32) (x : UInt8) : UInt32 := box.getD x.toNat 0

/-- The sixteen octets of four words. -/
def octets (words : List UInt32) : Array UInt8 := (words.flatMap Word.be32).toArray

/-- Four words of the schedule, each mixed from an old word, octets of the new words and one octet
of the old ones.  `pick` names the old word that starts each new one. -/
def nextWords (old : Array UInt8) (pick : List Nat) (outer : List Nat) (extra : List Nat) :
    Array UInt8 :=
  let word := fun n =>
    Word.ofBe32 (old.getD (4 * n) 0) (old.getD (4 * n + 1) 0) (old.getD (4 * n + 2) 0)
      (old.getD (4 * n + 3) 0)
  let o := fun i => old.getD (outer.getD i 0) 0
  let e := fun i => old.getD (extra.getD i 0) 0
  let w0 := word (pick.getD 0 0) ^^^ look box5 (o 0) ^^^ look box6 (o 1) ^^^ look box7 (o 2) ^^^
    look box8 (o 3) ^^^ look box7 (e 0)
  let n0 := (Word.be32 w0).toArray
  let w1 := word (pick.getD 1 0) ^^^ look box5 (n0.getD 0 0) ^^^ look box6 (n0.getD 2 0) ^^^
    look box7 (n0.getD 1 0) ^^^ look box8 (n0.getD 3 0) ^^^ look box8 (e 1)
  let n1 := (Word.be32 w1).toArray
  let w2 := word (pick.getD 2 0) ^^^ look box5 (n1.getD 3 0) ^^^ look box6 (n1.getD 2 0) ^^^
    look box7 (n1.getD 1 0) ^^^ look box8 (n1.getD 0 0) ^^^ look box5 (e 2)
  let n2 := (Word.be32 w2).toArray
  let w3 := word (pick.getD 3 0) ^^^ look box5 (n2.getD 2 0) ^^^ look box6 (n2.getD 1 0) ^^^
    look box7 (n2.getD 3 0) ^^^ look box8 (n2.getD 0 0) ^^^ look box6 (e 3)
  octets [w0, w1, w2, w3]

/-- The first kind of schedule step. -/
def stepZ (x : Array UInt8) : Array UInt8 :=
  nextWords x [0, 2, 3, 1] [13, 15, 12, 14] [8, 10, 9, 11]

/-- The second kind of schedule step. -/
def stepX (z : Array UInt8) : Array UInt8 :=
  nextWords z [2, 0, 1, 3] [5, 7, 4, 6] [0, 2, 1, 3]

/-- Four subkeys, each from four octets and a fifth looked up in the box of its position. -/
def subkeys (v : Array UInt8) (rows : List (List Nat)) : List UInt32 :=
  (rows.zip [box5, box6, box7, box8]).map fun (row, last) =>
    let o := fun i => v.getD (row.getD i 0) 0
    look box5 (o 0) ^^^ look box6 (o 1) ^^^ look box7 (o 2) ^^^ look box8 (o 3) ^^^ look last (o 4)

/-- Sixteen subkeys and the octets from which the next sixteen follow. -/
def sixteen (x : Array UInt8) : List UInt32 × Array UInt8 :=
  let z := stepZ x
  let k1 := subkeys z [[8, 9, 7, 6, 2], [10, 11, 5, 4, 6], [12, 13, 3, 2, 9], [14, 15, 1, 0, 12]]
  let x := stepX z
  let k2 := subkeys x [[3, 2, 12, 13, 8], [1, 0, 14, 15, 13], [7, 6, 8, 9, 3], [5, 4, 10, 11, 7]]
  let z := stepZ x
  let k3 := subkeys z [[3, 2, 12, 13, 9], [1, 0, 14, 15, 12], [7, 6, 8, 9, 2], [5, 4, 10, 11, 6]]
  let x := stepX z
  let k4 := subkeys x [[8, 9, 7, 6, 3], [10, 11, 5, 4, 7], [12, 13, 3, 2, 8], [14, 15, 1, 0, 13]]
  (k1 ++ k2 ++ k3 ++ k4, x)

/-- The masking and the rotation keys of the rounds, one pair to a round. -/
def expand (key : Bytes) : List (UInt32 × UInt32) :=
  let (masking, x) := sixteen (key ++ Bytes.zeros (16 - key.length)).toArray
  let (rotation, _) := sixteen x
  (masking.zip (rotation.map (· &&& 31))).take (if key.length ≤ 10 then 12 else 16)

/-- The round function; its kind depends on the number of the round. -/
def mangle (kind : Nat) (d masking rotation : UInt32) : UInt32 :=
  let sum := match kind with
    | 0 => masking + d
    | 1 => masking ^^^ d
    | _ => masking - d
  let i := Word.rotl32 sum rotation
  let a := look box1 (i >>> 24).toUInt8
  let b := look box2 (i >>> 16).toUInt8
  let c := look box3 (i >>> 8).toUInt8
  let e := look box4 i.toUInt8
  match kind with
  | 0 => ((a ^^^ b) - c) + e
  | 1 => ((a - b) + c) ^^^ e
  | _ => ((a + b) ^^^ c) - e

/-- Encrypts a block with the expanded key. -/
def encryptBlock (keys : List ((UInt32 × UInt32) × Nat)) (block : Bytes) : Bytes :=
  let (l, r) := keys.foldl
    (fun (l, r) ((masking, rotation), i) => (r, l ^^^ mangle (i % 3) r masking rotation))
    (Word.be32At block 0, Word.be32At block 1)
  Word.be32 r ++ Word.be32 l

end Cryptogram.Cast5

namespace Cryptogram

/-- CAST5 under a key of 5 to 16 octets. -/
def BlockFunction.cast5 (key : Bytes) : BlockFunction :=
  let keys := (Cast5.expand key).zipIdx
  ⟨8, Cast5.encryptBlock keys, fun _ => rfl⟩

end Cryptogram
