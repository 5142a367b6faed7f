import Cryptogram.Digest.Hmac

/-!
# PBKDF2

Key stretching by iterated keyed hashing (PKCS #5 version 2).
-/

namespace Cryptogram.Pbkdf2

/-- The `index`-th block of output: the exclusive or of `iterations` chained codes. -/
def block (d : Digest) (password salt : Bytes) (iterations index : Nat) : Bytes :=
  let first := d.hmac password (salt ++ Bytes.ofNat 4 index)
  ((List.range (iterations - 1)).foldl
    (fun (u, sum) _ =>
      let next := d.hmac password u
      (next, Bytes.xor sum next))
    (first, first)).2

/-- The first `length` octets derived from a password and a salt. -/
def derive (d : Digest) (password salt : Bytes) (iterations length : Nat) : Bytes :=
  ((List.range ((length + d.size - 1) / d.size)).flatMap
    fun i => block d password salt iterations (i + 1)).take length

end Cryptogram.Pbkdf2
