import Cryptogram.BlockCipher.Basic

/-!
# RC2

Sixteen mixing and two mashing rounds on four 16-bit words.  The effective key length limits how
many bits of the expanded key take part.
-/

namespace Cryptogram.Rc2

/-- The permutation of the octets that expands the key, taken from the digits of pi. -/
def permutation : Array UInt8 :=
  #[0xd9, 0x78, 0xf9, 0xc4, 0x19, 0xdd, 0xb5, 0xed, 0x28, 0xe9, 0xfd, 0x79, 0x4a, 0xa0, 0xd8, 0x9d,
    0xc6, 0x7e, 0x37, 0x83, 0x2b, 0x76, 0x53, 0x8e, 0x62, 0x4c, 0x64, 0x88, 0x44, 0x8b, 0xfb, 0xa2,
    0x17, 0x9a, 0x59, 0xf5, 0x87, 0xb3, 0x4f, 0x13, 0x61, 0x45, 0x6d, 0x8d, 0x09, 0x81, 0x7d, 0x32,
    0xbd, 0x8f, 0x40, 0xeb, 0x86, 0xb7, 0x7b, 0x0b, 0xf0, 0x95, 0x21, 0x22, 0x5c, 0x6b, 0x4e, 0x82,
    0x54, 0xd6, 0x65, 0x93, 0xce, 0x60, 0xb2, 0x1c, 0x73, 0x56, 0xc0, 0x14, 0xa7, 0x8c, 0xf1, 0xdc,
    0x12, 0x75, 0xca, 0x1f, 0x3b, 0xbe, 0xe4, 0xd1, 0x42, 0x3d, 0xd4, 0x30, 0xa3, 0x3c, 0xb6, 0x26,
    0x6f, 0xbf, 0x0e, 0xda, 0x46, 0x69, 0x07, 0x57, 0x27, 0xf2, 0x1d, 0x9b, 0xbc, 0x94, 0x43, 0x03,
    0xf8, 0x11, 0xc7, 0xf6, 0x90, 0xef, 0x3e, 0xe7, 0x06, 0xc3, 0xd5, 0x2f, 0xc8, 0x66, 0x1e, 0xd7,
    0x08, 0xe8, 0xea, 0xde, 0x80, 0x52, 0xee, 0xf7, 0x84, 0xaa, 0x72, 0xac, 0x35, 0x4d, 0x6a, 0x2a,
    0x96, 0x1a, 0xd2, 0x71, 0x5a, 0x15, 0x49, 0x74, 0x4b, 0x9f, 0xd0, 0x5e, 0x04, 0x18, 0xa4, 0xec,
    0xc2, 0xe0, 0x41, 0x6e, 0x0f, 0x51, 0xcb, 0xcc, 0x24, 0x91, 0xaf, 0x50, 0xa1, 0xf4, 0x70, 0x39,
    0x99, 0x7c, 0x3a, 0x85, 0x23, 0xb8, 0xb4, 0x7a, 0xfc, 0x02, 0x36, 0x5b, 0x25, 0x55, 0x97, 0x31,
    0x2d, 0x5d, 0xfa, 0x98, 0xe3, 0x8a, 0x92, 0xae, 0x05, 0xdf, 0x29, 0x10, 0x67, 0x6c, 0xba, 0xc9,
    0xd3, 0x00, 0xe6, 0xcf, 0xe1, 0x9e, 0xa8, 0x2c, 0x63, 0x16, 0x01, 0x3f, 0x58, 0xe2, 0x89, 0xa9,
    0x0d, 0x38, 0x34, 0x1b, 0xab, 0x33, 0xff, 0xb0, 0xbb, 0x48, 0x0c, 0x5f, 0xb9, 0xb1, 0xcd, 0x2e,
    0xc5, 0xf3, 0xdb, 0x47, 0xe5, 0xa5, 0x9c, 0x77, 0x0a, 0xa6, 0x20, 0x68, 0xfe, 0x7f, 0xc1, 0xad]

def permuted (x : UInt8) : UInt8 := permutation.getD x.toNat 0

/-- The 128 octets of the expanded key. -/
def expandOctets (key : Bytes) (effectiveBits : Nat) : Array UInt8 :=
  let t := key.length
  let filled := (List.range' t (128 - t)).foldl
    (fun l i => l.push (permuted (l.getD (i - 1) 0 + l.getD (i - t) 0))) key.toArray
  let t8 := (effectiveBits + 7) / 8
  let mask : UInt8 := (255 >>> (8 * t8 - effectiveBits)).toUInt8
  let l := filled.modify (128 - t8) fun x => permuted (x &&& mask)
  (List.range (128 - t8)).reverse.foldl
    (fun l i => l.setIfInBounds i (permuted (l.getD (i + 1) 0 ^^^ l.getD (i + t8) 0))) l

/-- The 64 words of the expanded key. -/
def expand (key : Bytes) (effectiveBits : Nat) : Array UInt16 :=
  let l := expandOctets key effectiveBits
  Array.ofFn fun i : Fin 64 =>
    (l.getD (2 * i) 0).toUInt16 ||| ((l.getD (2 * i + 1) 0).toUInt16 <<< 8)

/-- The four words of a block. -/
structure State where
  a : UInt16
  b : UInt16
  c : UInt16
  d : UInt16

/-- Rotation of 16 bits to the left. -/
def rotl16 (x n : UInt16) : UInt16 := (x <<< n) ||| (x >>> (16 - n))

/-- A mixing round with the key words from position `j`. -/
def mix (k : Array UInt16) (s : State) (j : Nat) : State :=
  let a := rotl16 (s.a + k.getD j 0 + (s.d &&& s.c) + (~~~s.d &&& s.b)) 1
  let b := rotl16 (s.b + k.getD (j + 1) 0 + (a &&& s.d) + (~~~a &&& s.c)) 2
  let c := rotl16 (s.c + k.getD (j + 2) 0 + (b &&& a) + (~~~b &&& s.d)) 3
  let d := rotl16 (s.d + k.getD (j + 3) 0 + (c &&& b) + (~~~c &&& a)) 5
  ⟨a, b, c, d⟩

/-- A mashing round: each word picks a key word by the word before it. -/
def mash (k : Array UInt16) (s : State) : State :=
  let pick := fun x : UInt16 => k.getD (x &&& 63).toNat 0
  let a := s.a + pick s.d
  let b := s.b + pick a
  let c := s.c + pick b
  let d := s.d + pick c
  ⟨a, b, c, d⟩

def unmix (k : Array UInt16) (s : State) (j : Nat) : State :=
  let d := rotl16 s.d 11 - k.getD (j + 3) 0 - (s.c &&& s.b) - (~~~s.c &&& s.a)
  let c := rotl16 s.c 13 - k.getD (j + 2) 0 - (s.b &&& s.a) - (~~~s.b &&& d)
  let b := rotl16 s.b 14 - k.getD (j + 1) 0 - (s.a &&& d) - (~~~s.a &&& c)
  let a := rotl16 s.a 15 - k.getD j 0 - (d &&& c) - (~~~d &&& b)
  ⟨a, b, c, d⟩

def unmash (k : Array UInt16) (s : State) : State :=
  let pick := fun x : UInt16 => k.getD (x &&& 63).toNat 0
  let d := s.d - pick s.c
  let c := s.c - pick s.b
  let b := s.b - pick s.a
  let a := s.a - pick d
  ⟨a, b, c, d⟩

/-- Runs mixing rounds `first` to `first + count - 1`. -/
def mixes (k : Array UInt16) (first count : Nat) (s : State) : State :=
  (List.range' first count).foldl (fun s r => mix k s (4 * r)) s

def unmixes (k : Array UInt16) (first count : Nat) (s : State) : State :=
  (List.range' first count).reverse.foldl (fun s r => unmix k s (4 * r)) s

/-- The words of a block, least significant octet first. -/
def State.ofBlock (block : Bytes) : State :=
  let word := fun i =>
    (block.getD (2 * i) 0).toUInt16 ||| ((block.getD (2 * i + 1) 0).toUInt16 <<< 8)
  ⟨word 0, word 1, word 2, word 3⟩

/-- The octets of the words. -/
def State.octets (s : State) : Bytes :=
  [s.a.toUInt8, (s.a >>> 8).toUInt8, s.b.toUInt8, (s.b >>> 8).toUInt8,
    s.c.toUInt8, (s.c >>> 8).toUInt8, s.d.toUInt8, (s.d >>> 8).toUInt8]

end Cryptogram.Rc2

namespace Cryptogram

/-- RC2 under a key of 1 to 128 octets of which `effectiveBits` bits take effect. -/
def BlockCipher.rc2 (effectiveBits : Nat) (key : Bytes) : BlockCipher :=
  let k := Rc2.expand key effectiveBits
  { size := 8
    encrypt := fun block =>
      (Rc2.mixes k 11 5 (Rc2.mash k (Rc2.mixes k 5 6 (Rc2.mash k (Rc2.mixes k 0 5
        (Rc2.State.ofBlock block)))))).octets
    decrypt := fun block =>
      (Rc2.unmixes k 0 5 (Rc2.unmash k (Rc2.unmixes k 5 6 (Rc2.unmash k (Rc2.unmixes k 11 5
        (Rc2.State.ofBlock block)))))).octets
    length_encrypt := fun _ => rfl
    length_decrypt := fun _ => rfl }

end Cryptogram
