import Cryptogram.Bytes

/-!
# RC4

A stream cipher: a permutation of the octets, shuffled by the key, yields a key stream while it is
shuffled on.
-/

namespace Cryptogram.Rc4

/-- The permutation and two positions in it. -/
structure State where
  table : Array UInt8
  i : UInt8
  j : UInt8

/-- The octet at a position. -/
@[inline] def look (table : Array UInt8) (i : UInt8) : UInt8 := table.getD i.toNat 0

/-- The table with two octets exchanged. -/
@[inline] def swap (table : Array UInt8) (i j : UInt8) : Array UInt8 :=
  let x := look table i
  let y := look table j
  (table.setIfInBounds i.toNat y).setIfInBounds j.toNat x

/-- The state at the beginning of a message. -/
def start (key : Bytes) : State :=
  let octets := key.toArray
  let identity : Array UInt8 := Array.ofFn fun i : Fin 256 => i.val.toUInt8
  let (table, _) := (List.range 256).foldl
    (fun (table, j) i =>
      let j := j + look table i.toUInt8 + octets.getD (i % octets.size) 0
      (swap table i.toUInt8 j, j))
    (identity, (0 : UInt8))
  ⟨table, 0, 0⟩

/-- The next octet of the key stream. -/
@[inline] def next (s : State) : UInt8 × State :=
  let i := s.i + 1
  let j := s.j + look s.table i
  let table := swap s.table i j
  (look table (look table i + look table j), ⟨table, i, j⟩)

/-- A piece of a message combined with the key stream, and the state after it. -/
def apply (s : State) (piece : Bytes) : Bytes × State :=
  let (out, s) := piece.foldl
    (fun (out, s) b =>
      let (k, s) := next s
      ((b ^^^ k) :: out, s))
    (([] : Bytes), s)
  (out.reverse, s)

end Cryptogram.Rc4
