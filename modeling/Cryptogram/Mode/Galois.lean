import Cryptogram.Mode.Counter

/-!
# Galois/counter mode

Counter mode with an authentication tag: the value of a polynomial over the field with 2^128
elements, whose coefficients are the blocks of the ciphertext, under a mask.
-/

namespace Cryptogram.Galois

/-- An element of the field, most significant half first; the first bit is the constant term. -/
abbrev Element := UInt64 × UInt64

/-- The sum of two elements. -/
@[inline] def add (x y : Element) : Element := (x.1 ^^^ y.1, x.2 ^^^ y.2)

/-- An element times the indeterminate. -/
@[inline] def shift (x : Element) : Element :=
  let carry : UInt64 := if x.2 &&& 1 = 1 then 0xe100000000000000 else 0
  ((x.1 >>> 1) ^^^ carry, (x.2 >>> 1) ||| (x.1 <<< 63))

/-- Whether the `i`-th bit of an element is set. -/
@[inline] def bit (x : Element) (i : Nat) : Bool :=
  if i < 64 then (x.1 >>> (63 - i).toUInt64) &&& 1 = 1
  else (x.2 >>> (127 - i).toUInt64) &&& 1 = 1

/-- The product of two elements. -/
def mul (x y : Element) : Element :=
  ((List.range 128).foldl
    (fun (sum, power) i => (if bit x i then add sum power else sum, shift power))
    (((0, 0), y) : Element × Element)).1

/-- The elements of a string of whole blocks. -/
def elements : List UInt64 → List Element
  | a :: b :: rest => (a, b) :: elements rest
  | _ => []

/-- The string filled up with zero octets to whole blocks. -/
def filled (bytes : Bytes) : Bytes := bytes ++ Bytes.zeros ((16 - bytes.length % 16) % 16)

/-- The value of the polynomial of a string of whole blocks at `h`. -/
def hash (h : Element) (blocks : Bytes) : Element :=
  (elements (Word.wordsBe64 blocks)).foldl (fun y x => mul (add y x) h) (0, 0)

/-- The octets of an element. -/
def octets (x : Element) : Bytes := Word.be64 x.1 ++ Word.be64 x.2

/-- The element at which polynomials are evaluated. -/
def point (f : BlockFunction) : Element :=
  match Word.wordsBe64 (f.apply (Bytes.zeros 16)) with
  | a :: b :: _ => (a, b)
  | _ => (0, 0)

/-- The block before the first numbered block: the nonce and the number one for a nonce of twelve
octets, and else the hash of the nonce. -/
def firstBlock (f : BlockFunction) (nonce : Bytes) : Bytes :=
  if nonce.length = 12 then nonce ++ [0, 0, 0, 1]
  else octets (hash (point f) (filled nonce ++ Bytes.ofNat 16 (8 * nonce.length)))

/-- The `i`-th numbered block of a message behind the first block. -/
def numbered (first : Bytes) (i : Nat) : Bytes := Counter.narrow first (i + 1)

/-- A piece of a message combined with the key stream from `position` on. -/
def apply (f : BlockFunction) (nonce : Bytes) (position : Nat) (piece : Bytes) : Bytes :=
  Counter.apply f (numbered (firstBlock f nonce)) position piece

/-- The number of octets of a tag. -/
def tagLength : Nat := 16

/-- The tag of a ciphertext. -/
def tag (f : BlockFunction) (nonce ciphertext : Bytes) : Bytes :=
  let sum := hash (point f) (filled ciphertext ++ Bytes.ofNat 16 (8 * ciphertext.length))
  Bytes.xor (octets sum) (f.apply (firstBlock f nonce))

end Cryptogram.Galois
