import Cryptogram.BlockCipher.Basic

/-!
# Blowfish

A Feistel cipher of sixteen rounds whose subkeys and boxes start as the fractional bits of pi and
are then encrypted under the key.
-/

namespace Cryptogram.Blowfish

/-- The sum of `fuel` terms `± scale / ((2 k + 1) * base ^ (2 k + 1))` from the term whose power is
`power` on; the terms below one are zero. -/
def arctanTerms (base : Nat) : (fuel : Nat) → (power k : Nat) → Int
  | 0, _, _ => 0
  | fuel + 1, power, k =>
    if power = 0 then 0
    else
      let term : Int := (power / (2 * k + 1) : Nat)
      (if k % 2 = 0 then term else -term) + arctanTerms base fuel (power / (base * base)) (k + 1)

/-- The number `scale * arctan (1 / base)`, up to rounding. -/
def arctan (scale base : Nat) : Int := arctanTerms base (Nat.log2 scale + 1) (scale / base) 0

/-- The number of words that the cipher takes from pi: 18 subkeys and four boxes of 256. -/
def wordCount : Nat := 18 + 4 * 256

/-- The first fractional bits of pi as words, by Machin's formula with 64 bits to spare. -/
def piWords : Array UInt32 :=
  let scale := 1 <<< (32 * wordCount + 64)
  let pi := (16 * arctan scale 5 - 4 * arctan scale 239).toNat
  Array.ofFn fun i : Fin wordCount => (pi >>> (32 * (wordCount - 1 - i.val) + 64)).toUInt32

/-- The subkeys and boxes in one array: 18 subkeys, then the boxes. -/
abbrev Schedule := Array UInt32

/-- The mixing function of the boxes. -/
def mangle (s : Schedule) (x : UInt32) : UInt32 :=
  let a := s.getD (18 + (x >>> 24).toNat) 0
  let b := s.getD (274 + ((x >>> 16) &&& 255).toNat) 0
  let c := s.getD (530 + ((x >>> 8) &&& 255).toNat) 0
  let d := s.getD (786 + (x &&& 255).toNat) 0
  ((a + b) ^^^ c) + d

/-- Two of the sixteen rounds, which leave the halves in their places. -/
@[inline] def twoRounds (s : Schedule) (lr : UInt32 × UInt32) (i : Nat) : UInt32 × UInt32 :=
  let l := lr.1 ^^^ s.getD (2 * i) 0
  let r := lr.2 ^^^ mangle s l ^^^ s.getD (2 * i + 1) 0
  (l ^^^ mangle s r, r)

/-- Encrypts a pair of halves. -/
def encryptPair (s : Schedule) (l r : UInt32) : UInt32 × UInt32 :=
  let lr := (List.range 8).foldl (twoRounds s) (l, r)
  (lr.2 ^^^ s.getD 17 0, lr.1 ^^^ s.getD 16 0)

/-- The word number `i` of the endless repetition of a key. -/
def keyWord (key : Array UInt8) (i : Nat) : UInt32 :=
  let at_ := fun j => key.getD ((4 * i + j) % key.size) 0
  Word.ofBe32 (at_ 0) (at_ 1) (at_ 2) (at_ 3)

/-- Mixes a key into the subkeys and replaces all entries by a chain of encryptions, into which the
four words of a salt are mixed in turn. -/
def absorb (s : Schedule) (key : Array UInt8) (salt : Array UInt32) : Schedule :=
  let keyed := (List.range 18).foldl (fun s i => s.modify i (· ^^^ keyWord key i)) s
  ((List.range (wordCount / 2)).foldl
    (fun (s, l, r) i =>
      let l := l ^^^ salt.getD (2 * i % 4) 0
      let r := r ^^^ salt.getD (2 * i % 4 + 1) 0
      let (l, r) := encryptPair s l r
      ((s.setIfInBounds (2 * i) l).setIfInBounds (2 * i + 1) r, l, r))
    (keyed, (0 : UInt32), (0 : UInt32))).1

/-- The schedule of a key. -/
def expand (key : Bytes) : Schedule := absorb piWords key.toArray #[]

def encryptBlock (s : Schedule) (block : Bytes) : Bytes :=
  let (l, r) := encryptPair s (Word.be32At block 0) (Word.be32At block 1)
  Word.be32 l ++ Word.be32 r

end Cryptogram.Blowfish

namespace Cryptogram

/-- Blowfish under a key of 4 to 56 octets. -/
def BlockFunction.blowfish (key : Bytes) : BlockFunction :=
  let s := Blowfish.expand key
  ⟨8, Blowfish.encryptBlock s, fun _ => rfl⟩

end Cryptogram
