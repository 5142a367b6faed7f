import Cryptogram.Bytes

/-!
# Sources

Octets that are read piece by piece.  A read is given at least one octet while there are any, but
perhaps fewer than it asks for: how many is a property of the source.  `Source.chunks` is the list
of pieces that a reader sees who reads to the end; `Source.readExactly` reads on until it has what it
asked for.
-/

namespace Cryptogram

/-- Octets to be read. -/
structure Source where
  /-- The octets that were not read yet. -/
  rest : Bytes
  /-- The number of reads so far. -/
  reads : Nat := 0
  /-- The most octets that each read is given, if there is a limit; never less than one. -/
  limit : Nat → Option Nat := fun _ => none

namespace Source

/-- The most octets that the next read is given when it asks for `n`. -/
def grant (s : Source) (n : Nat) : Nat :=
  match s.limit s.reads with
  | none => n
  | some most => min n (max 1 most)

/-- Reads at most `n` octets; none only at the end, or when none are asked for. -/
def read (s : Source) (n : Nat) : Bytes × Source :=
  (s.rest.take (s.grant n), { s with rest := s.rest.drop (s.grant n), reads := s.reads + 1 })

/-- The pieces of at most `fuel` reads of `size` octets. -/
def chunksWithin (size : Nat) : (fuel : Nat) → Source → List Bytes
  | 0, _ => []
  | fuel + 1, s =>
    let (chunk, s) := s.read size
    if chunk = [] then [] else chunk :: chunksWithin size fuel s

/-- The pieces in which the source is read to its end, `size` octets at a time. -/
def chunks (s : Source) (size : Nat) : List Bytes := chunksWithin size s.rest.length s

/-- At most `fuel` reads, until `want` octets are there. -/
def gather : (fuel : Nat) → (want : Nat) → Source → Bytes × Source
  | 0, _, s => ([], s)
  | fuel + 1, want, s =>
    if want = 0 then ([], s)
    else
      let (chunk, s) := s.read want
      if chunk = [] then ([], s)
      else
        let (more, s) := gather fuel (want - chunk.length) s
        (chunk ++ more, s)

/-- Reads `n` octets, fewer only at the end. -/
def readExactly (s : Source) (n : Nat) : Bytes × Source := gather n n s

end Source

end Cryptogram
