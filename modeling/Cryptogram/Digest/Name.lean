/-!
# The hash functions by name

The hash functions that key derivations and messages refer to, with the sizes of their outputs and
of the blocks that they compress.
-/

namespace Cryptogram

/-- A hash function, by name. -/
inductive HashName
  | md5
  | sha1
  | ripemd160
  | sha224
  | sha256
  | sha384
  | sha512
  deriving DecidableEq, Repr

namespace HashName

def all : List HashName := [.md5, .sha1, .ripemd160, .sha224, .sha256, .sha384, .sha512]

/-- The number of octets of a hash. -/
def size : HashName → Nat
  | .md5 => 16
  | .sha1 => 20
  | .ripemd160 => 20
  | .sha224 => 28
  | .sha256 => 32
  | .sha384 => 48
  | .sha512 => 64

/-- The number of octets that one compression takes in. -/
def block : HashName → Nat
  | .sha384 => 128
  | .sha512 => 128
  | _ => 64

/-- The name in lower case. -/
def text : HashName → String
  | .md5 => "md5"
  | .sha1 => "sha1"
  | .ripemd160 => "ripemd160"
  | .sha224 => "sha224"
  | .sha256 => "sha256"
  | .sha384 => "sha384"
  | .sha512 => "sha512"

def ofText? (name : String) : Option HashName := all.find? fun h => h.text = name

end HashName

end Cryptogram
