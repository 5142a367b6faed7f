import Cryptogram.Word

/-!
# Hash functions

A hash function is given with the size of its output and of the block that it compresses, because
the constructions around it (key derivation, message authentication) depend on both.  The functions
of this library pad a message to whole blocks and fold a compression function over them.
-/

namespace Cryptogram

/-- A hash function with an output of fixed size. -/
structure Digest where
  /-- The number of octets of a hash. -/
  size : Nat
  /-- The number of octets that one compression takes in. -/
  block : Nat
  /-- The hash of a message. -/
  hash : Bytes → Bytes
  length_hash : ∀ message, (hash message).length = size

attribute [simp] Digest.length_hash

namespace Digest

/-- The message, a set bit, zero bits up to the last `field` octets of a block, and there the
length of the message in bits, written by `write`. -/
def padded (block field : Nat) (write : Nat → Bytes) (message : Bytes) : Bytes :=
  let used := message.length + 1 + field
  message ++ 0x80 :: Bytes.zeros ((block - used % block) % block) ++ write (8 * message.length)

/-- The hash function applied `count` times, and once when `count` is smaller. -/
def iterate (d : Digest) (count : Int) (message : Bytes) : Bytes :=
  (List.range (count - 1).toNat).foldl (fun h _ => d.hash h) (d.hash message)

@[simp] theorem length_iterate (d : Digest) (count : Int) (message : Bytes) :
    (d.iterate count message).length = d.size := by
  unfold iterate
  generalize (List.range (count - 1).toNat) = l
  have key : ∀ h : Bytes, h.length = d.size → (l.foldl (fun h _ => d.hash h) h).length = d.size := by
    induction l with
    | nil => exact fun h e => e
    | cons _ l ih => exact fun h _ => ih _ (d.length_hash h)
  exact key _ (d.length_hash message)

end Digest

end Cryptogram
