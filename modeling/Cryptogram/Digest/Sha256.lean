import Cryptogram.Digest.Basic

/-!
# SHA-256 and SHA-224

Eight chaining words of 32 bits and sixty-four steps.  SHA-224 starts from other words and drops
the last one.
-/

namespace Cryptogram.Sha256

/-- The chaining words. -/
structure State where
  a : UInt32
  b : UInt32
  c : UInt32
  d : UInt32
  e : UInt32
  f : UInt32
  g : UInt32
  h : UInt32

/-- The first 32 bits of the fractional parts of the cube roots of the first 64 primes. -/
def cubeRoots : Array UInt32 :=
  #[0x428a2f98, 0x71374491, 0xb5c0fbcf, 0xe9b5dba5, 0x3956c25b, 0x59f111f1, 0x923f82a4, 0xab1c5ed5,
    0xd807aa98, 0x12835b01, 0x243185be, 0x550c7dc3, 0x72be5d74, 0x80deb1fe, 0x9bdc06a7, 0xc19bf174,
    0xe49b69c1, 0xefbe4786, 0x0fc19dc6, 0x240ca1cc, 0x2de92c6f, 0x4a7484aa, 0x5cb0a9dc, 0x76f988da,
    0x983e5152, 0xa831c66d, 0xb00327c8, 0xbf597fc7, 0xc6e00bf3, 0xd5a79147, 0x06ca6351, 0x14292967,
    0x27b70a85, 0x2e1b2138, 0x4d2c6dfc, 0x53380d13, 0x650a7354, 0x766a0abb, 0x81c2c92e, 0x92722c85,
    0xa2bfe8a1, 0xa81a664b, 0xc24b8b70, 0xc76c51a3, 0xd192e819, 0xd6990624, 0xf40e3585, 0x106aa070,
    0x19a4c116, 0x1e376c08, 0x2748774c, 0x34b0bcb5, 0x391c0cb3, 0x4ed8aa4a, 0x5b9cca4f, 0x682e6ff3,
    0x748f82ee, 0x78a5636f, 0x84c87814, 0x8cc70208, 0x90befffa, 0xa4506ceb, 0xbef9a3f7, 0xc67178f2]

def schedule (block : Bytes) : Array UInt32 :=
  (List.range 48).foldl
    (fun w i =>
      let x := w.getD (i + 1) 0
      let y := w.getD (i + 14) 0
      let s0 := Word.rotr32 x 7 ^^^ Word.rotr32 x 18 ^^^ (x >>> 3)
      let s1 := Word.rotr32 y 17 ^^^ Word.rotr32 y 19 ^^^ (y >>> 10)
      w.push (w.getD i 0 + s0 + w.getD (i + 9) 0 + s1))
    (Word.wordsBe32 block).toArray

def step (w : Array UInt32) (s : State) (i : Nat) : State :=
  let s1 := Word.rotr32 s.e 6 ^^^ Word.rotr32 s.e 11 ^^^ Word.rotr32 s.e 25
  let ch := (s.e &&& s.f) ^^^ (~~~s.e &&& s.g)
  let t1 := s.h + s1 + ch + cubeRoots.getD i 0 + w.getD i 0
  let s0 := Word.rotr32 s.a 2 ^^^ Word.rotr32 s.a 13 ^^^ Word.rotr32 s.a 22
  let maj := (s.a &&& s.b) ^^^ (s.a &&& s.c) ^^^ (s.b &&& s.c)
  ⟨t1 + s0 + maj, s.a, s.b, s.c, s.d + t1, s.e, s.f, s.g⟩

def compress (s : State) (block : Bytes) : State :=
  let t := (List.range 64).foldl (step (schedule block)) s
  ⟨s.a + t.a, s.b + t.b, s.c + t.c, s.d + t.d, s.e + t.e, s.f + t.f, s.g + t.g, s.h + t.h⟩

def absorb (initial : State) (message : Bytes) : State :=
  let write := fun n => Word.be64 n.toUInt64
  ((Digest.padded 64 8 write message).blocks 64).foldl compress initial

def hash256 (message : Bytes) : Bytes :=
  let s := absorb
    ⟨0x6a09e667, 0xbb67ae85, 0x3c6ef372, 0xa54ff53a, 0x510e527f, 0x9b05688c, 0x1f83d9ab, 0x5be0cd19⟩ message
  Word.be32 s.a ++ Word.be32 s.b ++ Word.be32 s.c ++ Word.be32 s.d ++
    Word.be32 s.e ++ Word.be32 s.f ++ Word.be32 s.g ++ Word.be32 s.h

def hash224 (message : Bytes) : Bytes :=
  let s := absorb
    ⟨0xc1059ed8, 0x367cd507, 0x3070dd17, 0xf70e5939, 0xffc00b31, 0x68581511, 0x64f98fa7, 0xbefa4fa4⟩ message
  Word.be32 s.a ++ Word.be32 s.b ++ Word.be32 s.c ++ Word.be32 s.d ++
    Word.be32 s.e ++ Word.be32 s.f ++ Word.be32 s.g

end Cryptogram.Sha256

namespace Cryptogram

/-- SHA-256 as a hash function of 32 octets. -/
def Digest.sha256 : Digest := ⟨32, 64, Sha256.hash256, fun _ => rfl⟩

/-- SHA-224 as a hash function of 28 octets. -/
def Digest.sha224 : Digest := ⟨28, 64, Sha256.hash224, fun _ => rfl⟩

end Cryptogram
