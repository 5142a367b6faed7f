import Cryptogram.Bytes

/-!
# Machine words

Words of 16, 32 and 64 bits as octets, in both orders, and their rotations.  Reading a word from
too few octets takes the missing ones as zero.
-/

namespace Cryptogram.Word

/-- Rotation to the left of 32 bits by `0 < n < 32`. -/
@[inline] def rotl32 (x n : UInt32) : UInt32 := (x <<< n) ||| (x >>> (32 - n))

/-- Rotation to the right of 32 bits by `0 < n < 32`. -/
@[inline] def rotr32 (x n : UInt32) : UInt32 := (x >>> n) ||| (x <<< (32 - n))

/-- Rotation to the right of 64 bits by `0 < n < 64`. -/
@[inline] def rotr64 (x n : UInt64) : UInt64 := (x >>> n) ||| (x <<< (64 - n))

/-- Rotation to the left of 64 bits by `0 < n < 64`. -/
@[inline] def rotl64 (x n : UInt64) : UInt64 := (x <<< n) ||| (x >>> (64 - n))

/-- Four octets, most significant first. -/
def be32 (x : UInt32) : Bytes :=
  [(x >>> 24).toUInt8, (x >>> 16).toUInt8, (x >>> 8).toUInt8, x.toUInt8]

/-- Four octets, least significant first. -/
def le32 (x : UInt32) : Bytes :=
  [x.toUInt8, (x >>> 8).toUInt8, (x >>> 16).toUInt8, (x >>> 24).toUInt8]

/-- Eight octets, most significant first. -/
def be64 (x : UInt64) : Bytes :=
  [(x >>> 56).toUInt8, (x >>> 48).toUInt8, (x >>> 40).toUInt8, (x >>> 32).toUInt8,
    (x >>> 24).toUInt8, (x >>> 16).toUInt8, (x >>> 8).toUInt8, x.toUInt8]

/-- Eight octets, least significant first. -/
def le64 (x : UInt64) : Bytes :=
  [x.toUInt8, (x >>> 8).toUInt8, (x >>> 16).toUInt8, (x >>> 24).toUInt8,
    (x >>> 32).toUInt8, (x >>> 40).toUInt8, (x >>> 48).toUInt8, (x >>> 56).toUInt8]

@[simp] theorem length_be32 (x : UInt32) : (be32 x).length = 4 := rfl
@[simp] theorem length_le32 (x : UInt32) : (le32 x).length = 4 := rfl
@[simp] theorem length_be64 (x : UInt64) : (be64 x).length = 8 := rfl
@[simp] theorem length_le64 (x : UInt64) : (le64 x).length = 8 := rfl

/-- The word of four octets, most significant first. -/
@[inline] def ofBe32 (a b c d : UInt8) : UInt32 :=
  (a.toUInt32 <<< 24) ||| (b.toUInt32 <<< 16) ||| (c.toUInt32 <<< 8) ||| d.toUInt32

/-- The word of eight octets, most significant first. -/
@[inline] def ofBe64 (a b c d e f g h : UInt8) : UInt64 :=
  ((ofBe32 a b c d).toUInt64 <<< 32) ||| (ofBe32 e f g h).toUInt64

/-- The 32-bit words of an octet string, most significant octet first; an incomplete last word is
dropped. -/
def wordsBe32 : Bytes → List UInt32
  | a :: b :: c :: d :: rest => ofBe32 a b c d :: wordsBe32 rest
  | _ => []

/-- The 32-bit words of an octet string, least significant octet first. -/
def wordsLe32 : Bytes → List UInt32
  | a :: b :: c :: d :: rest => ofBe32 d c b a :: wordsLe32 rest
  | _ => []

/-- The 64-bit words of an octet string, most significant octet first. -/
def wordsBe64 : Bytes → List UInt64
  | a :: b :: c :: d :: e :: f :: g :: h :: rest => ofBe64 a b c d e f g h :: wordsBe64 rest
  | _ => []

/-- The 64-bit words of an octet string, least significant octet first. -/
def wordsLe64 : Bytes → List UInt64
  | a :: b :: c :: d :: e :: f :: g :: h :: rest => ofBe64 h g f e d c b a :: wordsLe64 rest
  | _ => []

/-- The `i`-th 32-bit word of a block, most significant octet first. -/
def be32At (block : Bytes) (i : Nat) : UInt32 :=
  match block.drop (4 * i) with
  | a :: b :: c :: d :: _ => ofBe32 a b c d
  | _ => 0

/-- The `i`-th 64-bit word of a block, most significant octet first. -/
def be64At (block : Bytes) (i : Nat) : UInt64 :=
  match block.drop (8 * i) with
  | a :: b :: c :: d :: e :: f :: g :: h :: _ => ofBe64 a b c d e f g h
  | _ => 0

end Cryptogram.Word
