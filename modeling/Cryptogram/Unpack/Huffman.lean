import Cryptogram.Unpack.Decoder

/-!
# Canonical Huffman codes

A code is given by the lengths of its words: the words of one length are consecutive numbers in the
order of their symbols, and begin behind the words of smaller length.
-/

namespace Cryptogram

/-- A canonical code. -/
structure Huffman where
  /-- The number of words of each length, from one bit up. -/
  counts : List Nat
  /-- The symbols in the order of their words. -/
  symbols : Array Nat
  deriving Repr

namespace Huffman

/-- The symbols whose word has a length. -/
def ofLength (lengths : List Nat) (length : Nat) : List Nat :=
  (lengths.zipIdx.filter fun entry => entry.1 == length).map Prod.snd

/-- The code with the given lengths, where zero stands for no word.  At least `least` bits are read
before they are given up as no word. -/
def ofLengths (least : Nat) (lengths : List Nat) : Huffman :=
  let words := (List.range (lengths.foldl max least)).map fun i => ofLength lengths (i + 1)
  ⟨words.map List.length, words.flatten.toArray⟩

/-- The words that are left over when those of each length are taken away; none if there are too
many words. -/
def spareFrom : (counts : List Nat) → (spare : Nat) → Option Nat
  | [], spare => some spare
  | count :: counts, spare =>
    if 2 * spare < count then none else spareFrom counts (2 * spare - count)

/-- The words of the greatest length that are left over. -/
def spare? (h : Huffman) : Option Nat := spareFrom h.counts 1

/-- Reads on: `ahead` words lie before the bits so far among those of their length or longer, and
`index` symbols have shorter words. -/
def symbolFrom (order : BitOrder) (symbols : Array Nat) :
    (counts : List Nat) → (ahead index : Nat) → Decoder (Option Nat)
  | [], _, _ => pure none
  | count :: counts, ahead, index => do
    let b ← Decoder.bit order
    let ahead := 2 * ahead + b.toNat
    if ahead < count then pure symbols[index + ahead]?
    else symbolFrom order symbols counts (ahead - count) (index + count)

/-- The next symbol; none if the bits are no word. -/
def symbol? (h : Huffman) (order : BitOrder) : Decoder (Option Nat) :=
  symbolFrom order h.symbols h.counts 0 0

def symbol (h : Huffman) (order : BitOrder) : Decoder Nat := do
  match ← h.symbol? order with
  | some n => pure n
  | none => Decoder.fail

end Huffman

end Cryptogram
