import Cryptogram.Digest.Basic

/-!
# RIPEMD-160

Two lines of eighty steps over the same message words in different orders, added at the end.
-/

namespace Cryptogram.Ripemd160

/-- The chaining words. -/
structure State where
  a : UInt32
  b : UInt32
  c : UInt32
  d : UInt32
  e : UInt32

/-- The message words that the left line takes, step by step. -/
def leftOrder : Array Nat :=
  #[0, 1, 2, 3, 4, 5, 6, 7, 8, 9, 10, 11, 12, 13, 14, 15,
    7, 4, 13, 1, 10, 6, 15, 3, 12, 0, 9, 5, 2, 14, 11, 8,
    3, 10, 14, 4, 9, 15, 8, 1, 2, 7, 0, 6, 13, 11, 5, 12,
    1, 9, 11, 10, 0, 8, 12, 4, 13, 3, 7, 15, 14, 5, 6, 2,
    4, 0, 5, 9, 7, 12, 2, 10, 14, 1, 3, 8, 11, 6, 15, 13]

/-- The message words that the right line takes, step by step. -/
def rightOrder : Array Nat :=
  #[5, 14, 7, 0, 9, 2, 11, 4, 13, 6, 15, 8, 1, 10, 3, 12,
    6, 11, 3, 7, 0, 13, 5, 10, 14, 15, 8, 12, 4, 9, 1, 2,
    15, 5, 1, 3, 7, 14, 6, 9, 11, 8, 12, 2, 10, 0, 4, 13,
    8, 6, 4, 1, 3, 11, 15, 0, 5, 12, 2, 13, 9, 7, 10, 14,
    12, 15, 10, 4, 1, 5, 8, 7, 6, 2, 13, 14, 0, 3, 9, 11]

/-- The rotation amounts of the left line. -/
def leftAmounts : Array UInt32 :=
  #[11, 14, 15, 12, 5, 8, 7, 9, 11, 13, 14, 15, 6, 7, 9, 8,
    7, 6, 8, 13, 11, 9, 7, 15, 7, 12, 15, 9, 11, 7, 13, 12,
    11, 13, 6, 7, 14, 9, 13, 15, 14, 8, 13, 6, 5, 12, 7, 5,
    11, 12, 14, 15, 14, 15, 9, 8, 9, 14, 5, 6, 8, 6, 5, 12,
    9, 15, 5, 11, 6, 8, 13, 12, 5, 12, 13, 14, 11, 8, 5, 6]

/-- The rotation amounts of the right line. -/
def rightAmounts : Array UInt32 :=
  #[8, 9, 9, 11, 13, 15, 15, 5, 7, 7, 8, 11, 14, 14, 12, 6,
    9, 13, 15, 7, 12, 8, 9, 11, 7, 7, 12, 7, 6, 15, 13, 11,
    9, 7, 15, 11, 8, 6, 6, 14, 12, 13, 5, 14, 13, 13, 7, 5,
    15, 5, 8, 11, 14, 14, 6, 14, 6, 9, 12, 9, 12, 5, 15, 8,
    8, 5, 12, 9, 12, 5, 14, 6, 8, 13, 6, 5, 15, 13, 11, 11]

/-- The added constants of the five rounds of the left line. -/
def leftConstants : Array UInt32 := #[0x00000000, 0x5a827999, 0x6ed9eba1, 0x8f1bbcdc, 0xa953fd4e]

/-- The added constants of the five rounds of the right line. -/
def rightConstants : Array UInt32 := #[0x50a28be6, 0x5c4dd124, 0x6d703ef3, 0x7a6d76e9, 0x00000000]

/-- The mixing functions, one to a round. -/
def mix (round : Nat) (x y z : UInt32) : UInt32 :=
  match round with
  | 0 => x ^^^ y ^^^ z
  | 1 => (x &&& y) ||| (~~~x &&& z)
  | 2 => (x ||| ~~~y) ^^^ z
  | 3 => (x &&& z) ||| (y &&& ~~~z)
  | _ => x ^^^ (y ||| ~~~z)

/-- One step of a line with its mixing function, word, rotation and constant. -/
def step (s : State) (round : Nat) (word amount constant : UInt32) : State :=
  let sum := s.a + mix round s.b s.c s.d + word + constant
  ⟨s.e, Word.rotl32 sum amount + s.e, s.b, Word.rotl32 s.c 10, s.d⟩

def compress (s : State) (block : Bytes) : State :=
  let words := (Word.wordsLe32 block).toArray
  let left := (List.range 80).foldl
    (fun t i => step t (i / 16) (words.getD (leftOrder.getD i 0) 0) (leftAmounts.getD i 1)
      (leftConstants.getD (i / 16) 0)) s
  let right := (List.range 80).foldl
    (fun t i => step t (4 - i / 16) (words.getD (rightOrder.getD i 0) 0) (rightAmounts.getD i 1)
      (rightConstants.getD (i / 16) 0)) s
  ⟨s.b + left.c + right.d, s.c + left.d + right.e, s.d + left.e + right.a, s.e + left.a + right.b,
    s.a + left.b + right.c⟩

def initial : State := ⟨0x67452301, 0xefcdab89, 0x98badcfe, 0x10325476, 0xc3d2e1f0⟩

def State.octets (s : State) : Bytes :=
  Word.le32 s.a ++ Word.le32 s.b ++ Word.le32 s.c ++ Word.le32 s.d ++ Word.le32 s.e

def hash (message : Bytes) : Bytes :=
  let write := fun n => Word.le64 n.toUInt64
  (((Digest.padded 64 8 write message).blocks 64).foldl compress initial).octets

end Cryptogram.Ripemd160

namespace Cryptogram

/-- RIPEMD-160 as a hash function of 20 octets. -/
def Digest.ripemd160 : Digest := ⟨20, 64, Ripemd160.hash, fun _ => rfl⟩

end Cryptogram
