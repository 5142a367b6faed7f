import Cryptogram.Failure
import Cryptogram.Unpack.Bzip2
import Cryptogram.Unpack.Deflate

/-!
# Compressed data

The body of a packet that holds packets in compressed form: the number of the algorithm and what it
made of them (RFC 4880, section 5.6).
-/

namespace Cryptogram

/-- What octets unpack to, unless they are invalid or cut. -/
def Compression.unpack? (algorithm : Compression) (octets : Bytes) : Option Bytes :=
  match algorithm with
  | .uncompressed => some octets
  | .zip => Deflate.unpack? octets
  | .zlib => Deflate.unpackFramed? octets
  | .bzip2 => Bzip2.unpack? octets

/-- The packets that a body holds. -/
def decompress (body : Bytes) : Except Failure Bytes :=
  match body with
  | [] => .error .compressedEmpty
  | id :: octets =>
    match Compression.ofId? id.toNat with
    | none => .error (.unknownCompression id.toNat)
    | some algorithm =>
      match algorithm.unpack? octets with
      | some plain => .ok plain
      | none => .error (.decompression algorithm)

end Cryptogram
