import Cryptogram.Digest.Basic

/-!
# SHA-1

Five chaining words and eighty steps over an expanded message schedule.
-/

namespace Cryptogram.Sha1

/-- The chaining words. -/
structure State where
  a : UInt32
  b : UInt32
  c : UInt32
  d : UInt32
  e : UInt32

/-- The schedule of eighty words: each later word mixes four earlier ones. -/
def schedule (block : Bytes) : Array UInt32 :=
  (List.range 64).foldl
    (fun w i =>
      let k := i + 16
      let x := w.getD (k - 3) 0 ^^^ w.getD (k - 8) 0 ^^^ w.getD (k - 14) 0 ^^^ w.getD (k - 16) 0
      w.push (Word.rotl32 x 1))
    (Word.wordsBe32 block).toArray

/-- One step with its mixing function and constant. -/
def step (w : Array UInt32) (s : State) (i : Nat) : State :=
  let (f, k) :=
    if i < 20 then ((s.b &&& s.c) ||| (~~~s.b &&& s.d), 0x5a827999)
    else if i < 40 then (s.b ^^^ s.c ^^^ s.d, 0x6ed9eba1)
    else if i < 60 then ((s.b &&& s.c) ||| (s.b &&& s.d) ||| (s.c &&& s.d), 0x8f1bbcdc)
    else (s.b ^^^ s.c ^^^ s.d, 0xca62c1d6)
  ⟨Word.rotl32 s.a 5 + f + s.e + k + w.getD i 0, s.a, Word.rotl32 s.b 30, s.c, s.d⟩

def compress (s : State) (block : Bytes) : State :=
  let t := (List.range 80).foldl (step (schedule block)) s
  ⟨s.a + t.a, s.b + t.b, s.c + t.c, s.d + t.d, s.e + t.e⟩

def initial : State := ⟨0x67452301, 0xefcdab89, 0x98badcfe, 0x10325476, 0xc3d2e1f0⟩

def State.octets (s : State) : Bytes :=
  Word.be32 s.a ++ Word.be32 s.b ++ Word.be32 s.c ++ Word.be32 s.d ++ Word.be32 s.e

def hash (message : Bytes) : Bytes :=
  let write := fun n => Word.be64 n.toUInt64
  (((Digest.padded 64 8 write message).blocks 64).foldl compress initial).octets

end Cryptogram.Sha1

namespace Cryptogram

/-- SHA-1 as a hash function of 20 octets. -/
def Digest.sha1 : Digest := ⟨20, 64, Sha1.hash, fun _ => rfl⟩

end Cryptogram
