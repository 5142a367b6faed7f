/-!
# Octet strings

Every message, key and packet is a list of octets.  This file gives the operations that the rest of
the library shares: big-endian numbers, exclusive or, cutting into blocks, and the endless
repetition of a string.
-/

namespace Cryptogram

/-- A string of octets. -/
abbrev Bytes := List UInt8

namespace Bytes

/-- The octets of an ASCII text. -/
def ofAscii (text : String) : Bytes := text.toList.map fun c => c.toNat.toUInt8

/-- The number that the octets denote, most significant octet first. -/
def toNat (bytes : Bytes) : Nat := bytes.foldl (fun n b => n * 256 + b.toNat) 0

/-- The lowest `width` octets of a number, most significant octet first. -/
def ofNat : (width : Nat) → (n : Nat) → Bytes
  | 0, _ => []
  | width + 1, n => ofNat width (n / 256) ++ [n.toUInt8]

@[simp] theorem length_ofNat (width n : Nat) : (ofNat width n).length = width := by
  induction width generalizing n with
  | zero => rfl
  | succ width ih => simp [ofNat, ih]

/-- Octet by octet exclusive or, as long as the shorter string. -/
def xor (a b : Bytes) : Bytes := List.zipWith (· ^^^ ·) a b

@[simp] theorem length_xor (a b : Bytes) : (xor a b).length = min a.length b.length :=
  List.length_zipWith

def sum (bytes : Bytes) : Nat := bytes.foldl (fun n b => n + b.toNat) 0

def zeros (n : Nat) : Bytes := List.replicate n 0

@[simp] theorem length_zeros (n : Nat) : (zeros n).length = n := List.length_replicate

/-- At most `count` blocks of `size` octets from the front of a string. -/
def takeBlocks (size : Nat) : (count : Nat) → Bytes → List Bytes
  | 0, _ => []
  | count + 1, bytes => if bytes = [] then [] else bytes.take size :: takeBlocks size count (bytes.drop size)

/-- The string cut into blocks of `size` octets; the last block may be shorter. -/
def blocks (size : Nat) (bytes : Bytes) : List Bytes :=
  if size = 0 then [] else takeBlocks size bytes.length bytes

/-- The first `n` octets of the endless repetition of a string; the empty string has none. -/
def cycle (bytes : Bytes) (n : Nat) : Bytes :=
  if bytes = [] then []
  else (List.replicate (n / bytes.length) bytes).flatten ++ bytes.take (n % bytes.length)

/-- Zero octets put in front until the string has `width` octets. -/
def padLeft (width : Nat) (bytes : Bytes) : Bytes := zeros (width - bytes.length) ++ bytes

end Bytes

end Cryptogram
