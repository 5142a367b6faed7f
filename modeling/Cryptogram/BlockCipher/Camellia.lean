import Cryptogram.BlockCipher.Basic

/-!
# Camellia

A Feistel cipher on 64-bit halves with a key-dependent linear layer after every six rounds: 18
rounds for keys of 128 bits, 24 for longer ones.
-/

namespace Cryptogram.Camellia

/-- The substitution box from which the other three follow by rotation. -/
def sbox : Array UInt8 :=
  #[0x70, 0x82, 0x2c, 0xec, 0xb3, 0x27, 0xc0, 0xe5, 0xe4, 0x85, 0x57, 0x35, 0xea, 0x0c, 0xae, 0x41,
    0x23, 0xef, 0x6b, 0x93, 0x45, 0x19, 0xa5, 0x21, 0xed, 0x0e, 0x4f, 0x4e, 0x1d, 0x65, 0x92, 0xbd,
    0x86, 0xb8, 0xaf, 0x8f, 0x7c, 0xeb, 0x1f, 0xce, 0x3e, 0x30, 0xdc, 0x5f, 0x5e, 0xc5, 0x0b, 0x1a,
    0xa6, 0xe1, 0x39, 0xca, 0xd5, 0x47, 0x5d, 0x3d, 0xd9, 0x01, 0x5a, 0xd6, 0x51, 0x56, 0x6c, 0x4d,
    0x8b, 0x0d, 0x9a, 0x66, 0xfb, 0xcc, 0xb0, 0x2d, 0x74, 0x12, 0x2b, 0x20, 0xf0, 0xb1, 0x84, 0x99,
    0xdf, 0x4c, 0xcb, 0xc2, 0x34, 0x7e, 0x76, 0x05, 0x6d, 0xb7, 0xa9, 0x31, 0xd1, 0x17, 0x04, 0xd7,
    0x14, 0x58, 0x3a, 0x61, 0xde, 0x1b, 0x11, 0x1c, 0x32, 0x0f, 0x9c, 0x16, 0x53, 0x18, 0xf2, 0x22,
    0xfe, 0x44, 0xcf, 0xb2, 0xc3, 0xb5, 0x7a, 0x91, 0x24, 0x08, 0xe8, 0xa8, 0x60, 0xfc, 0x69, 0x50,
    0xaa, 0xd0, 0xa0, 0x7d, 0xa1, 0x89, 0x62, 0x97, 0x54, 0x5b, 0x1e, 0x95, 0xe0, 0xff, 0x64, 0xd2,
    0x10, 0xc4, 0x00, 0x48, 0xa3, 0xf7, 0x75, 0xdb, 0x8a, 0x03, 0xe6, 0xda, 0x09, 0x3f, 0xdd, 0x94,
    0x87, 0x5c, 0x83, 0x02, 0xcd, 0x4a, 0x90, 0x33, 0x73, 0x67, 0xf6, 0xf3, 0x9d, 0x7f, 0xbf, 0xe2,
    0x52, 0x9b, 0xd8, 0x26, 0xc8, 0x37, 0xc6, 0x3b, 0x81, 0x96, 0x6f, 0x4b, 0x13, 0xbe, 0x63, 0x2e,
    0xe9, 0x79, 0xa7, 0x8c, 0x9f, 0x6e, 0xbc, 0x8e, 0x29, 0xf5, 0xf9, 0xb6, 0x2f, 0xfd, 0xb4, 0x59,
    0x78, 0x98, 0x06, 0x6a, 0xe7, 0x46, 0x71, 0xba, 0xd4, 0x25, 0xab, 0x42, 0x88, 0xa2, 0x8d, 0xfa,
    0x72, 0x07, 0xb9, 0x55, 0xf8, 0xee, 0xac, 0x0a, 0x36, 0x49, 0x2a, 0x68, 0x3c, 0x38, 0xf1, 0xa4,
    0x40, 0x28, 0xd3, 0x7b, 0xbb, 0xc9, 0x43, 0xc1, 0x15, 0xe3, 0xad, 0xf4, 0x77, 0xc7, 0x80, 0x9e]

/-- Rotation of eight bits to the left. -/
def rotl8 (x n : UInt8) : UInt8 := (x <<< n) ||| (x >>> (8 - n))

def substitute (kind : Nat) (x : UInt8) : UInt8 :=
  match kind with
  | 1 => sbox.getD x.toNat 0
  | 2 => rotl8 (sbox.getD x.toNat 0) 1
  | 3 => rotl8 (sbox.getD x.toNat 0) 7
  | _ => sbox.getD (rotl8 x 1).toNat 0

def mangle (half key : UInt64) : UInt64 :=
  let x := half ^^^ key
  let t1 := substitute 1 (x >>> 56).toUInt8
  let t2 := substitute 2 (x >>> 48).toUInt8
  let t3 := substitute 3 (x >>> 40).toUInt8
  let t4 := substitute 4 (x >>> 32).toUInt8
  let t5 := substitute 2 (x >>> 24).toUInt8
  let t6 := substitute 3 (x >>> 16).toUInt8
  let t7 := substitute 4 (x >>> 8).toUInt8
  let t8 := substitute 1 x.toUInt8
  Word.ofBe64
    (t1 ^^^ t3 ^^^ t4 ^^^ t6 ^^^ t7 ^^^ t8)
    (t1 ^^^ t2 ^^^ t4 ^^^ t5 ^^^ t7 ^^^ t8)
    (t1 ^^^ t2 ^^^ t3 ^^^ t5 ^^^ t6 ^^^ t8)
    (t2 ^^^ t3 ^^^ t4 ^^^ t5 ^^^ t6 ^^^ t7)
    (t1 ^^^ t2 ^^^ t6 ^^^ t7 ^^^ t8)
    (t2 ^^^ t3 ^^^ t5 ^^^ t7 ^^^ t8)
    (t3 ^^^ t4 ^^^ t5 ^^^ t6 ^^^ t8)
    (t1 ^^^ t4 ^^^ t5 ^^^ t6 ^^^ t7)

/-- The linear layer of the left half. -/
def layer (x key : UInt64) : UInt64 :=
  let l := (x >>> 32).toUInt32
  let r := x.toUInt32 ^^^ Word.rotl32 (l &&& (key >>> 32).toUInt32) 1
  let l := l ^^^ (r ||| key.toUInt32)
  (l.toUInt64 <<< 32) ||| r.toUInt64

/-- The inverse linear layer, used on the right half. -/
def unlayer (x key : UInt64) : UInt64 :=
  let r := x.toUInt32
  let l := (x >>> 32).toUInt32 ^^^ (r ||| key.toUInt32)
  let r := r ^^^ Word.rotl32 (l &&& (key >>> 32).toUInt32) 1
  (l.toUInt64 <<< 32) ||| r.toUInt64

/-- The constants of the key schedule. -/
def sigma : Array UInt64 :=
  #[0xa09e667f3bcc908b, 0xb67ae8584caa73b2, 0xc6ef372fe94f82be, 0x54ff53a5f1d36f1c,
    0x10e527fade682d1d, 0xb05688c2b3e6c1fd]

/-- Two rounds of the key schedule with the constants from position `i`. -/
def twist (i : Nat) (d : UInt64 × UInt64) : UInt64 × UInt64 :=
  let b := d.2 ^^^ mangle d.1 (sigma.getD i 0)
  (d.1 ^^^ mangle b (sigma.getD (i + 1) 0), b)

/-- The two halves of 128 bits after a rotation to the left. -/
def rotated (x : UInt64 × UInt64) (n : Nat) : List UInt64 :=
  let v := (x.1.toNat <<< 64) + x.2.toNat
  let r := (v <<< n ||| v >>> (128 - n)) % (1 <<< 128)
  [(r >>> 64).toUInt64, r.toUInt64]

/-- The subkeys: whitening at both ends, rounds in sixes, and the layers between them. -/
structure Schedule where
  whitenIn : UInt64 × UInt64
  whitenOut : UInt64 × UInt64
  rounds : List (List UInt64)
  layers : List (UInt64 × UInt64)

/-- A pair of subkeys out of a list of two. -/
def pair : List UInt64 → UInt64 × UInt64
  | [a, b] => (a, b)
  | _ => (0, 0)

/-- The schedule of a key of 16, 24 or 32 octets. -/
def expand (key : Bytes) : Schedule :=
  let kl := (Word.be64At key 0, Word.be64At key 1)
  let third := Word.be64At key 2
  let kr :=
    if key.length = 16 then (0, 0)
    else if key.length = 24 then (third, ~~~third)
    else (third, Word.be64At key 3)
  let d := twist 0 (kl.1 ^^^ kr.1, kl.2 ^^^ kr.2)
  let ka := twist 2 (d.1 ^^^ kl.1, d.2 ^^^ kl.2)
  let kb := twist 4 (ka.1 ^^^ kr.1, ka.2 ^^^ kr.2)
  if key.length = 16 then
    { whitenIn := kl
      whitenOut := pair (rotated ka 111)
      rounds :=
        [rotated ka 0 ++ rotated kl 15 ++ rotated ka 15,
          rotated kl 45 ++ (rotated ka 45).take 1 ++ (rotated kl 60).drop 1 ++ rotated ka 60,
          rotated kl 94 ++ rotated ka 94 ++ rotated kl 111]
      layers := [pair (rotated ka 30), pair (rotated kl 77)] }
  else
    { whitenIn := kl
      whitenOut := pair (rotated kb 111)
      rounds :=
        [rotated kb 0 ++ rotated kr 15 ++ rotated ka 15,
          rotated kb 30 ++ rotated kl 45 ++ rotated ka 45,
          rotated kr 60 ++ rotated kb 60 ++ rotated kl 77,
          rotated kr 94 ++ rotated ka 94 ++ rotated kl 111]
      layers := [pair (rotated kr 30), pair (rotated kl 60), pair (rotated ka 77)] }

/-- Six rounds on both halves. -/
def sixRounds (d : UInt64 × UInt64) : List UInt64 → UInt64 × UInt64
  | a :: b :: rest =>
    let r := d.2 ^^^ mangle d.1 a
    sixRounds (d.1 ^^^ mangle r b, r) rest
  | _ => d

/-- All rounds with the layers between the sixes. -/
def run (d : UInt64 × UInt64) : List (List UInt64) → List (UInt64 × UInt64) → UInt64 × UInt64
  | six :: rest, k :: layers =>
    let e := sixRounds d six
    run (layer e.1 k.1, unlayer e.2 k.2) rest layers
  | six :: _, [] => sixRounds d six
  | [], _ => d

/-- Encrypts a block with the expanded key. -/
def encryptBlock (s : Schedule) (block : Bytes) : Bytes :=
  let d := run (Word.be64At block 0 ^^^ s.whitenIn.1, Word.be64At block 1 ^^^ s.whitenIn.2)
    s.rounds s.layers
  Word.be64 (d.2 ^^^ s.whitenOut.1) ++ Word.be64 (d.1 ^^^ s.whitenOut.2)

end Cryptogram.Camellia

namespace Cryptogram

/-- Camellia under a key of 16, 24 or 32 octets. -/
def BlockFunction.camellia (key : Bytes) : BlockFunction :=
  let s := Camellia.expand key
  ⟨16, Camellia.encryptBlock s, fun _ => rfl⟩

end Cryptogram
