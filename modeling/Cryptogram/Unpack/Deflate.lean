import Cryptogram.Unpack.Huffman

/-!
# Deflate

Blocks of literals and of references to what was put out before (RFC 1951), and the same between a
header and a checksum (RFC 1950).
-/

namespace Cryptogram.Deflate

/-- The least length and the number of further bits of each length symbol, from 257 up. -/
def lengthCodes : List (Nat × Nat) :=
  [(3, 0), (4, 0), (5, 0), (6, 0), (7, 0), (8, 0), (9, 0), (10, 0), (11, 1), (13, 1), (15, 1), (17, 1),
    (19, 2), (23, 2), (27, 2), (31, 2), (35, 3), (43, 3), (51, 3), (59, 3), (67, 4), (83, 4), (99, 4),
    (115, 4), (131, 5), (163, 5), (195, 5), (227, 5), (258, 0)]

/-- The least distance and the number of further bits of each distance symbol. -/
def distanceCodes : List (Nat × Nat) :=
  [(1, 0), (2, 0), (3, 0), (4, 0), (5, 1), (7, 1), (9, 2), (13, 2), (17, 3), (25, 3), (33, 4), (49, 4),
    (65, 5), (97, 5), (129, 6), (193, 6), (257, 7), (385, 7), (513, 8), (769, 8), (1025, 9), (1537, 9),
    (2049, 10), (3073, 10), (4097, 11), (6145, 11), (8193, 12), (12289, 12), (16385, 13), (24577, 13)]

/-- The number that a symbol and its further bits denote. -/
def spread (codes : List (Nat × Nat)) (symbol : Nat) : Decoder Nat := do
  match codes[symbol]? with
  | none => Decoder.fail
  | some (base, width) => return base + (← Decoder.lowNumber width)

/-- The codes of a block. -/
structure Codes where
  literals : Huffman
  distances : Huffman

/-- One literal or reference; the end of the block is the value. -/
def step (codes : Codes) (_ : Unit) : Decoder (Unit ⊕ Unit) := do
  let n ← codes.literals.symbol .lowFirst
  if n < 256 then do
    Decoder.emit n.toUInt8
    return .inl ()
  else if n = 256 then return .inr ()
  else do
    let length ← spread lengthCodes (n - 257)
    let distance ← spread distanceCodes (← codes.distances.symbol .lowFirst)
    Decoder.copy distance length
    return .inl ()

/-- The codes of blocks that do not bring their own. -/
def fixedCodes : Codes :=
  ⟨.ofLengths 1 (List.replicate 144 8 ++ List.replicate 112 9 ++ List.replicate 24 7 ++
      List.replicate 8 8),
    .ofLengths 1 (List.replicate 32 5)⟩

/-- The order in which the lengths of the code for lengths are given. -/
def lengthOrder : List Nat :=
  [16, 17, 18, 0, 8, 7, 9, 6, 10, 5, 11, 4, 12, 3, 13, 2, 14, 1, 15]

/-- The lengths in the order of their symbols, from those given in the order above. -/
def arrange (given : List Nat) : List Nat :=
  (List.range 19).map fun symbol => (given[lengthOrder.idxOf symbol]?).getD 0

/-- The next length or run of lengths behind those read so far (last first), until there are
`count`. -/
def lengthsStep (code : Huffman) (count : Nat) (read : List Nat) :
    Decoder (List Nat ⊕ List Nat) := do
  let n := (← code.symbol? .lowFirst).getD 0
  let read ← do
    if n < 16 then pure (n :: read)
    else if n = 16 then do
      let times := 3 + (← Decoder.lowNumber 2)
      match read with
      | [] => Decoder.fail
      | last :: _ => pure (List.replicate times last ++ read)
    else if n = 17 then do
      let times := 3 + (← Decoder.lowNumber 3)
      pure (List.replicate times 0 ++ read)
    else do
      let times := 11 + (← Decoder.lowNumber 7)
      pure (List.replicate times 0 ++ read)
  if read.length < count then return .inl read
  else if read.length = count then return .inr read.reverse
  else Decoder.fail

/-- Whether a code for lengths has just enough words, or none. -/
def exact (h : Huffman) : Bool := h.spare? == some 0 || h.symbols.isEmpty

/-- Whether a code has just enough words, or at most one. -/
def nearlyExact (h : Huffman) : Bool :=
  h.spare? == some 0 || (h.spare?.isSome && h.counts.length ≤ 1)

/-- The codes that a block brings with it. -/
def ownCodes : Decoder Codes := do
  let literals := 257 + (← Decoder.lowNumber 5)
  let distances := 1 + (← Decoder.lowNumber 5)
  let given := 4 + (← Decoder.lowNumber 4)
  Decoder.require (literals ≤ 286 && distances ≤ 30)
  let code := Huffman.ofLengths 1 (arrange (← Decoder.replicate (Decoder.lowNumber 3) given))
  Decoder.require (exact code)
  let lengths ← Decoder.loop (lengthsStep code (literals + distances)) []
  Decoder.require (lengths[256]? != some 0)
  let codes : Codes := ⟨.ofLengths 1 (lengths.take literals), .ofLengths 1 (lengths.drop literals)⟩
  Decoder.require (nearlyExact codes.literals && nearlyExact codes.distances)
  return codes

/-- Octets that were not packed, behind their number and its complement. -/
def stored : Decoder Unit := do
  Decoder.align
  let size ← Decoder.lowNumber 16
  let complement ← Decoder.lowNumber 16
  Decoder.require (size + complement = 65535)
  Decoder.passOn size

/-- One block; the last is the value. -/
def block (_ : Unit) : Decoder (Unit ⊕ Unit) := do
  let final ← Decoder.bit .lowFirst
  match ← Decoder.lowNumber 2 with
  | 0 => stored
  | 1 => Decoder.loop (step fixedCodes) ()
  | 2 => do
    let codes ← ownCodes
    Decoder.loop (step codes) ()
  | _ => Decoder.fail
  return if final then .inr () else .inl ()

/-- Blocks up to the last. -/
def blocks : Decoder Unit := Decoder.loop block ()

/-- What bare blocks unpack to.  Octets that end too early give what they hold, and octets behind the
last block are not looked at. -/
def unpack? (octets : Bytes) : Option Bytes :=
  match blocks { rest := octets } with
  | .done _ s => some s.out.toList
  | .cut out => some out.toList
  | .invalid => none

/-- Two sums modulo 65521: of the octets, and of the first sums. -/
def adler32 (octets : Bytes) : Nat :=
  let (a, b) := octets.foldl
    (fun (a, b) octet => let a := (a + octet.toNat) % 65521; (a, (b + a) % 65521)) (1, 0)
  b * 65536 + a

/-- Blocks between a header and a checksum. -/
def framed : Decoder Unit := do
  let method ← Decoder.lowNumber 8
  let flags ← Decoder.lowNumber 8
  Decoder.require ((method * 256 + flags) % 31 == 0 && method % 16 == 8 && method / 16 ≤ 7 &&
    flags / 32 % 2 == 0)
  blocks
  Decoder.align
  let sum ← Decoder.replicate (Decoder.lowNumber 8) 4
  let out ← Decoder.produced
  Decoder.require (Bytes.toNat (sum.map Nat.toUInt8) == adler32 out.toList)

/-- What framed blocks unpack to; octets behind the checksum are not looked at. -/
def unpackFramed? (octets : Bytes) : Option Bytes :=
  match framed { rest := octets } with
  | .done _ s => some s.out.toList
  | _ => none

end Cryptogram.Deflate
