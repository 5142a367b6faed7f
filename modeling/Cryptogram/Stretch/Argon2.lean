import Cryptogram.Digest.Blake2b

/-!
# Argon2id

Memory-hard key stretching, version 1.3.  Memory is a matrix of blocks of 1024 octets with one row
to a lane.  In the first half of the first pass the block to mix in is chosen independently of the
password, afterwards by the block computed last.
-/

namespace Cryptogram.Argon2

/-- A memory block: 128 words of 64 bits. -/
abbrev Block := Array UInt64

def longHash (size : Nat) (message : Bytes) : Bytes :=
  let input := Word.le32 size.toUInt32 ++ message
  if size ≤ 64 then Blake2b.hash size input
  else
    let halves := (size + 31) / 32 - 2
    let first := Blake2b.hash 64 input
    let (last, out) := (List.range (halves - 1)).foldl
      (fun (v, out) _ =>
        let next := Blake2b.hash 64 v
        (next, out ++ next.take 32))
      (first, first.take 32)
    out ++ Blake2b.hash (size - 32 * halves) last

/-- The modified addition of the round function: twice the product of the low halves is added. -/
@[inline] def blend (x y : UInt64) : UInt64 :=
  x + y + 2 * (x &&& 0xffffffff) * (y &&& 0xffffffff)

/-- One mixing of four words. -/
def mix (v : Block) (q : Nat × Nat × Nat × Nat) : Block :=
  let (a, b, c, d) := q
  let va := blend (v.getD a 0) (v.getD b 0)
  let vd := Word.rotr64 (v.getD d 0 ^^^ va) 32
  let vc := blend (v.getD c 0) vd
  let vb := Word.rotr64 (v.getD b 0 ^^^ vc) 24
  let va := blend va vb
  let vd := Word.rotr64 (vd ^^^ va) 16
  let vc := blend vc vd
  let vb := Word.rotr64 (vb ^^^ vc) 63
  (((v.setIfInBounds a va).setIfInBounds b vb).setIfInBounds c vc).setIfInBounds d vd

/-- The permutation on the sixteen words at the given positions. -/
def permute (v : Block) (p : Nat → Nat) : Block :=
  Blake2b.quads.foldl (fun v (a, b, c, d) => mix v (p a, p b, p c, p d)) v

/-- The compression of two blocks: rows of sixteen words, then columns of pairs. -/
def compress (x y : Block) : Block :=
  let r := Array.zipWith (· ^^^ ·) x y
  let z := (List.range 8).foldl (fun z i => permute z fun k => 16 * i + k) r
  let z := (List.range 8).foldl (fun z i => permute z fun k => 2 * i + 16 * (k / 2) + k % 2) z
  Array.zipWith (· ^^^ ·) r z

def zeroBlock : Block := Array.replicate 128 0

/-- The cost parameters and the shape of the memory. -/
structure Layout where
  /-- The number of passes over the memory. -/
  passes : Nat
  /-- The number of lanes. -/
  lanes : Nat
  /-- The number of blocks asked for. -/
  memory : Nat

/-- The number of blocks in a quarter of a lane. -/
def Layout.segment (l : Layout) : Nat := l.memory / (4 * l.lanes)

/-- The number of blocks in a lane. -/
def Layout.lane (l : Layout) : Nat := 4 * l.segment

/-- The hash of all inputs that seeds the memory. -/
def seed (l : Layout) (password salt : Bytes) (length : Nat) : Bytes :=
  let number := fun n : Nat => Word.le32 n.toUInt32
  Blake2b.hash 64
    (number l.lanes ++ number length ++ number l.memory ++ number l.passes ++ number 0x13 ++
      number 2 ++ number password.length ++ password ++ number salt.length ++ salt ++ number 0 ++
      number 0)

/-- The pseudo-random words of a segment that is addressed independently of the password. -/
def addresses (l : Layout) (pass lane slice : Nat) : Array UInt64 :=
  let base : Block := #[pass.toUInt64, lane.toUInt64, slice.toUInt64,
    (l.lane * l.lanes).toUInt64, l.passes.toUInt64, 2] ++ Array.replicate 122 0
  (List.range ((l.segment + 127) / 128)).foldl
    (fun out i =>
      let input := base.setIfInBounds 6 (i + 1).toUInt64
      out ++ compress zeroBlock (compress zeroBlock input))
    #[]

/-- The lane and column of the block that the pseudo-random word `word` selects. -/
def select (l : Layout) (pass lane slice index : Nat) (word : UInt64) : Nat × Nat :=
  let low := word.toNat % 0x100000000
  let high := word.toNat / 0x100000000
  let from_ := if pass = 0 ∧ slice = 0 then lane else high % l.lanes
  let finished := if pass = 0 then slice * l.segment else 3 * l.segment
  let area :=
    if from_ = lane then finished + index - 1
    else if index = 0 then finished - 1
    else finished
  let x := low * low / 0x100000000
  let relative := area - 1 - area * x / 0x100000000
  let start := if pass = 0 then 0 else (slice + 1) % 4 * l.segment
  (from_, (start + relative) % l.lane)

/-- Fills one segment of the memory; the first two blocks of a lane are seeded before. -/
def fillSegment (l : Layout) (pass slice lane : Nat) (memory : Array Block) : Array Block :=
  let independent := pass = 0 ∧ slice < 2
  let words := if independent then addresses l pass lane slice else #[]
  let skip := if pass = 0 ∧ slice = 0 then 2 else 0
  (List.range' skip (l.segment - skip)).foldl
    (fun memory index =>
      let column := slice * l.segment + index
      let previous := memory.getD (lane * l.lane + (column + l.lane - 1) % l.lane) #[]
      let word := if independent then words.getD index 0 else previous.getD 0 0
      let (from_, at_) := select l pass lane slice index word
      let reference := memory.getD (from_ * l.lane + at_) #[]
      let here := lane * l.lane + column
      let block := compress previous reference
      let block :=
        if pass = 0 then block else Array.zipWith (· ^^^ ·) block (memory.getD here #[])
      memory.setIfInBounds here block)
    memory

/-- The memory with the first two blocks of each lane filled from the seed. -/
def seeded (l : Layout) (h : Bytes) : Array Block :=
  (List.range l.lanes).foldl
    (fun memory lane =>
      (List.range 2).foldl
        (fun memory i =>
          let octets := longHash 1024 (h ++ Word.le32 i.toUInt32 ++ Word.le32 lane.toUInt32)
          memory.setIfInBounds (lane * l.lane + i) (Word.wordsLe64 octets).toArray)
        memory)
    (Array.replicate (l.lane * l.lanes) zeroBlock)

/-- The first `length` octets derived from a password and a salt. -/
def derive (l : Layout) (password salt : Bytes) (length : Nat) : Bytes :=
  let memory := (List.range l.passes).foldl
    (fun memory pass => (List.range 4).foldl
      (fun memory slice => (List.range l.lanes).foldl
        (fun memory lane => fillSegment l pass slice lane memory) memory) memory)
    (seeded l (seed l password salt length))
  let last := (List.range l.lanes).foldl
    (fun block lane =>
      Array.zipWith (· ^^^ ·) block (memory.getD (lane * l.lane + l.lane - 1) #[]))
    zeroBlock
  longHash length (last.toList.flatMap Word.le64)

end Cryptogram.Argon2
