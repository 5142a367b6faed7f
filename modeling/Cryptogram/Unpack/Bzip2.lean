import Cryptogram.Unpack.Huffman

/-!
# Bzip2

Streams of blocks that were sorted by their rotations, moved to the front, and written in up to six
Huffman codes.  Each block has a checksum, and so has each stream.
-/

namespace Cryptogram.Bzip2

/-! ## Checksums -/

/-- The remainder after one more bit, where the generator is that of the CRC of 32 bits. -/
def crcBit (crc : UInt32) : UInt32 :=
  if crc &&& 0x80000000 = 0 then crc <<< 1 else (crc <<< 1) ^^^ 0x04c11db7

/-- The remainder after one more octet. -/
def crcOctet (crc : UInt32) (octet : UInt8) : UInt32 :=
  (List.range 8).foldl (fun crc _ => crcBit crc) (crc ^^^ (octet.toUInt32 <<< 24))

def blockCrc (octets : Bytes) : UInt32 := ~~~(octets.foldl crcOctet 0xffffffff)

/-- The checksum of a stream after one more block. -/
def combineCrc (stream block : UInt32) : UInt32 := ((stream <<< 1) ||| (stream >>> 31)) ^^^ block

/-! ## Runs, rotations and noise -/

/-- `count` times an octet behind others. -/
def pushRun (octet : UInt8) : (count : Nat) → Array UInt8 → Array UInt8
  | 0, out => out
  | count + 1, out => pushRun octet count (out.push octet)

/-- The course of expanding runs: four equal octets are followed by the number of further ones. -/
structure Expansion where
  out : Array UInt8 := #[]
  last : UInt8 := 0
  /-- The number of equal octets at the end, since the last number. -/
  equal : Nat := 0

def Expansion.next : Expansion → UInt8 → Expansion
  | ⟨out, last, equal⟩, octet =>
    if equal = 4 then ⟨pushRun last octet.toNat out, last, 0⟩
    else if equal ≠ 0 ∧ octet = last then ⟨out.push octet, octet, equal + 1⟩
    else ⟨out.push octet, octet, 1⟩

/-- The octets with their runs expanded, unless a number is missing at the end. -/
def expandRuns? (octets : Bytes) : Option Bytes :=
  let e := octets.foldl Expansion.next {}
  if e.equal = 4 then none else some e.out.toList

/-- The number of octets that are smaller than each octet. -/
def starts (column : Array UInt8) : Array Nat :=
  let counts := column.foldl (fun (counts : Array Nat) c => counts.modify c.toNat (· + 1))
    (Array.replicate 256 0)
  (counts.foldl (fun (acc : Array Nat × Nat) n => (acc.1.push acc.2, acc.2 + n)) (#[], 0)).1

/-- For each place of the sorted column, the place of the same octet in the last column. -/
def places (column : Array UInt8) : Array Nat :=
  let step (acc : Array Nat × Array Nat × Nat) (c : UInt8) : Array Nat × Array Nat × Nat :=
    (acc.1.setIfInBounds (acc.2.1.getD c.toNat 0) acc.2.2, acc.2.1.modify c.toNat (· + 1),
      acc.2.2 + 1)
  (column.foldl step (Array.replicate column.size 0, starts column, 0)).1

/-- The octets that are met when `count` places are followed. -/
def follow (column : Array UInt8) (next : Array Nat) : (count place : Nat) → Array UInt8 → Array UInt8
  | 0, _, out => out
  | count + 1, place, out =>
    let place := next.getD place 0
    follow column next count place (out.push (column.getD place 0))

/-- The octets whose sorted rotations end in `column` and have the octets themselves at `origin`. -/
def unsort (column : Array UInt8) (origin : Nat) : Bytes :=
  (follow column (places column) column.size origin #[]).toList

/-- The distances between the octets that the noise changes. -/
def noise : Array Nat :=
  #[619, 720, 127, 481, 931, 816, 813, 233, 566, 247, 985, 724, 205, 454, 863, 491, 741, 242, 949,
    214, 733, 859, 335, 708, 621, 574, 73, 654, 730, 472, 419, 436, 278, 496, 867, 210, 399, 680,
    480, 51, 878, 465, 811, 169, 869, 675, 611, 697, 867, 561, 862, 687, 507, 283, 482, 129, 807,
    591, 733, 623, 150, 238, 59, 379, 684, 877, 625, 169, 643, 105, 170, 607, 520, 932, 727, 476,
    693, 425, 174, 647, 73, 122, 335, 530, 442, 853, 695, 249, 445, 515, 909, 545, 703, 919, 874,
    474, 882, 500, 594, 612, 641, 801, 220, 162, 819, 984, 589, 513, 495, 799, 161, 604, 958, 533,
    221, 400, 386, 867, 600, 782, 382, 596, 414, 171, 516, 375, 682, 485, 911, 276, 98, 553, 163,
    354, 666, 933, 424, 341, 533, 870, 227, 730, 475, 186, 263, 647, 537, 686, 600, 224, 469, 68,
    770, 919, 190, 373, 294, 822, 808, 206, 184, 943, 795, 384, 383, 461, 404, 758, 839, 887, 715,
    67, 618, 276, 204, 918, 873, 777, 604, 560, 951, 160, 578, 722, 79, 804, 96, 409, 713, 940, 652,
    934, 970, 447, 318, 353, 859, 672, 112, 785, 645, 863, 803, 350, 139, 93, 354, 99, 820, 908,
    609, 772, 154, 274, 580, 184, 79, 626, 630, 742, 653, 282, 762, 623, 680, 81, 927, 626, 789,
    125, 411, 521, 938, 300, 821, 78, 343, 175, 128, 250, 170, 774, 972, 275, 999, 639, 495, 78,
    352, 126, 857, 956, 358, 619, 580, 124, 737, 594, 701, 612, 669, 112, 134, 694, 363, 992, 809,
    743, 168, 974, 944, 375, 748, 52, 600, 747, 642, 182, 862, 81, 344, 805, 988, 739, 511, 655,
    814, 334, 249, 515, 897, 955, 664, 981, 649, 113, 974, 459, 893, 228, 433, 837, 553, 268, 926,
    240, 102, 654, 459, 51, 686, 754, 806, 760, 493, 403, 415, 394, 687, 700, 946, 670, 656, 610,
    738, 392, 760, 799, 887, 653, 978, 321, 576, 617, 626, 502, 894, 679, 243, 440, 680, 879, 194,
    572, 640, 724, 926, 56, 204, 700, 707, 151, 457, 449, 797, 195, 791, 558, 945, 679, 297, 59, 87,
    824, 713, 663, 412, 693, 342, 606, 134, 108, 571, 364, 631, 212, 174, 643, 304, 329, 343, 97,
    430, 751, 497, 314, 983, 374, 822, 928, 140, 206, 73, 263, 980, 736, 876, 478, 430, 305, 170,
    514, 364, 692, 829, 82, 855, 953, 676, 246, 369, 970, 294, 750, 807, 827, 150, 790, 288, 923,
    804, 378, 215, 828, 592, 281, 565, 555, 710, 82, 896, 831, 547, 261, 524, 462, 293, 465, 502,
    56, 661, 821, 976, 991, 658, 869, 905, 758, 745, 193, 768, 550, 608, 933, 378, 286, 215, 979,
    792, 961, 61, 688, 793, 644, 986, 403, 106, 366, 905, 644, 372, 567, 466, 434, 645, 210, 389,
    550, 919, 135, 780, 773, 635, 389, 707, 100, 626, 958, 165, 504, 920, 176, 193, 713, 857, 265,
    203, 50, 668, 108, 645, 990, 626, 197, 510, 357, 358, 850, 858, 364, 936, 638]

/-- The octets with the noise taken away that some old writers add. -/
def quieten (octets : Bytes) : Bytes :=
  let step (acc : Array UInt8 × Nat × Nat) (octet : UInt8) : Array UInt8 × Nat × Nat :=
    let (wait, turn) :=
      if acc.2.1 = 0 then (noise.getD acc.2.2 0, (acc.2.2 + 1) % 512) else (acc.2.1, acc.2.2)
    (acc.1.push (if wait = 2 then octet ^^^ 1 else octet), wait - 1, turn)
  (octets.foldl step (#[], 0, 0)).1.toList

/-! ## Blocks -/

/-- The octets that occur in a block. -/
def alphabet : Decoder (List UInt8) := do
  let groups ← Decoder.replicate (Decoder.bit .highFirst) 16
  let parts ← groups.zipIdx.mapM fun (inUse, i) => do
    if inUse then do
      let flags ← Decoder.replicate (Decoder.bit .highFirst) 16
      return (flags.zipIdx.filter Prod.fst).map fun (_, j) => (16 * i + j).toUInt8
    else return []
  let octets := parts.flatten
  Decoder.require (!octets.isEmpty)
  return octets

/-- An element moved to the front of a list; the list itself where there is none. -/
def toFront {α : Type} (list : List α) (place : Nat) : List α :=
  match list[place]? with
  | some a => a :: list.eraseIdx place
  | none => list

/-- The number of set bits before a bit that is not set, which must be less than `limit`. -/
def unary : (limit : Nat) → Decoder Nat
  | 0 => Decoder.fail
  | limit + 1 => do
    if ← Decoder.bit .highFirst then return (← unary limit) + 1 else return 0

/-- The numbers of the codes, whose places in a list are given, where each moves to the front. -/
def unmove : (order : List Nat) → (places : List Nat) → List Nat
  | _, [] => []
  | order, place :: places =>
    let order := toFront order place
    order.headD 0 :: unmove order places

/-- Which code each group of fifty symbols is written in. -/
def selectors (codes : Nat) : Decoder (List Nat) := do
  let count ← Decoder.highNumber 15
  Decoder.require (1 ≤ count)
  let places ← Decoder.replicate (unary codes) count
  return unmove (List.range codes) (places.take 18002)

/-- The next length: steps of one up or down from the last, until a bit that is not set. -/
def lengthStep (length : Nat) : Decoder (Nat ⊕ Nat) := do
  Decoder.require (1 ≤ length && length ≤ 20)
  if ← Decoder.bit .highFirst then
    if ← Decoder.bit .highFirst then return .inl (length - 1) else return .inl (length + 1)
  else return .inr length

/-- The lengths of `count` words behind a word of length `last`. -/
def lengths : (count last : Nat) → Decoder (List Nat)
  | 0, _ => pure []
  | count + 1, last => do
    let length ← Decoder.loop lengthStep last
    return length :: (← lengths count length)

/-- A code with `count` words. -/
def code (count : Nat) : Decoder Huffman := do
  let first ← Decoder.highNumber 5
  return .ofLengths 21 (← lengths count first)

/-- The course of reading the symbols of a block. -/
structure Symbols where
  /-- The number of symbols so far. -/
  index : Nat := 0
  /-- The octets so far. -/
  column : Array UInt8 := #[]
  /-- The octets that occur, those used last in front. -/
  order : List UInt8
  /-- The length of the run of the first octet that is being read. -/
  run : Nat := 0
  /-- What the next digit of its length counts; one where no run is being read. -/
  place : Nat := 1

/-- The run put behind the column. -/
def Symbols.flush (limit : Nat) : Symbols → Decoder Symbols
  | ⟨index, column, order, run, _⟩ => do
    Decoder.require (column.size + run ≤ limit)
    return ⟨index, pushRun (order.headD 0) run column, order, 0, 1⟩

/-- One symbol: a digit of the length of a run, an octet by its place, or the end, which is the
value. -/
def symbolStep (limit : Nat) (codes : Array Huffman) (groups : Array Nat) (s : Symbols) :
    Decoder (Symbols ⊕ Array UInt8) := do
  match groups[s.index / 50]? >>= fun group => codes[group]? with
  | none => Decoder.fail
  | some code =>
    let n ← code.symbol .highFirst
    let s := { s with index := s.index + 1 }
    if n ≤ 1 then do
      Decoder.require (s.place < 0x200000)
      return .inl { s with run := s.run + (n + 1) * s.place, place := 2 * s.place }
    else do
      let s ← s.flush limit
      if n = s.order.length + 1 then return .inr s.column
      else do
        Decoder.require (s.column.size < limit)
        let order := toFront s.order (n - 1)
        return .inl { s with column := s.column.push (order.headD 0), order := order }

/-- The checksum of a block, and the block. -/
def block (level : Nat) : Decoder (UInt32 × Bytes) := do
  let limit := 100000 * level
  let crc ← Decoder.highNumber 32
  let noisy ← Decoder.bit .highFirst
  let origin ← Decoder.highNumber 24
  Decoder.require (origin ≤ 10 + limit)
  let octets ← alphabet
  let count ← Decoder.highNumber 3
  Decoder.require (2 ≤ count && count ≤ 6)
  let groups ← selectors count
  let codes ← Decoder.replicate (code (octets.length + 2)) count
  let column ← Decoder.loop (symbolStep limit codes.toArray groups.toArray) { order := octets }
  Decoder.require (origin < column.size)
  let sorted := unsort column origin
  match expandRuns? (if noisy then quieten sorted else sorted) with
  | none => Decoder.fail
  | some plain =>
    Decoder.require (blockCrc plain == crc.toUInt32)
    return (crc.toUInt32, plain)

/-! ## Streams -/

/-- Octets that must come next. -/
def expect : Bytes → Decoder Unit
  | [] => pure ()
  | octet :: rest => do
    let n ← Decoder.highNumber 8
    Decoder.require (n == octet.toNat)
    expect rest

/-- What comes behind the header or a block, given the checksum of the stream so far: a block, or the
end, which is the value. -/
def part (level : Nat) (crc : UInt32) : Decoder (UInt32 ⊕ Unit) := do
  let first ← Decoder.highNumber 8
  if first = 0x17 then do
    expect [0x72, 0x45, 0x38, 0x50, 0x90]
    let whole ← Decoder.highNumber 32
    Decoder.require (whole.toUInt32 == crc)
    return .inr ()
  else do
    Decoder.require (first == 0x31)
    expect [0x41, 0x59, 0x26, 0x53, 0x59]
    let (sum, plain) ← block level
    Decoder.emitAll plain
    return .inl (combineCrc crc sum)

def stream : Decoder Unit := do
  expect [0x42, 0x5a, 0x68]
  let level ← Decoder.highNumber 8
  Decoder.require (0x31 ≤ level && level ≤ 0x39)
  Decoder.loop (part (level - 0x30)) 0
  Decoder.align

/-- What at most `fuel` streams unpack to, behind what earlier ones did.  Octets behind a stream that
are no stream are not looked at. -/
def unpackFrom : (fuel : Nat) → (first : Bool) → Bytes → Option Bytes
  | 0, _, _ => some []
  | fuel + 1, first, octets =>
    if octets = [] then some []
    else match stream { rest := octets } with
      | .done _ s => (unpackFrom fuel false s.rest).map (s.out.toList ++ ·)
      | .cut _ => none
      | .invalid => if first then none else some []

def unpack? (octets : Bytes) : Option Bytes := unpackFrom octets.length true octets

end Cryptogram.Bzip2
