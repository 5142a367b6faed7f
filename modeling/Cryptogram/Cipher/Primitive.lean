import Cryptogram.Failure
import Cryptogram.Suite

/-!
# Ciphers and their keys

Which primitive serves a family or an OpenPGP algorithm, and which key lengths it accepts.
-/

namespace Cryptogram

/-- A cipher that accepts keys of certain lengths. -/
inductive Primitive
  | aes
  | tripleDes
  | rc4
  | cast5
  | blowfish
  | idea
  | camellia
  deriving DecidableEq, Repr

namespace Primitive

def name : Primitive → String
  | .aes => "AES"
  | .tripleDes => "3DES"
  | .rc4 => "RC4"
  | .cast5 => "CAST5"
  | .blowfish => "Blowfish"
  | .idea => "IDEA"
  | .camellia => "camellia"

/-- Whether the cipher takes keys of so many bits. -/
def accepts (p : Primitive) (bits : Nat) : Bool :=
  match p with
  | .aes => [128, 192, 256].contains bits
  | .tripleDes => [64, 128, 192].contains bits
  | .rc4 => [40, 56, 64, 80, 128, 160, 192, 256].contains bits
  | .cast5 => 40 ≤ bits && bits ≤ 128 && bits % 8 == 0
  | .blowfish => 32 ≤ bits && bits ≤ 448 && bits % 8 == 0
  | .idea => bits == 128
  | .camellia => [128, 192, 256].contains bits

/-- The number of key bits that the cipher uses; shorter keys of Triple DES are repeated. -/
def usedBits (p : Primitive) (bits : Nat) : Nat := if p = .tripleDes then 192 else bits

end Primitive

/-- The primitive that serves a family. -/
def Family.primitive? : Family → Option Primitive
  | .aes => some .aes
  | .des => some .tripleDes
  | .tripleDes => some .tripleDes
  | .rc4 => some .rc4
  | _ => none

/-- The primitive of a family for a key, if there is one that accepts it. -/
def Family.primitiveFor (family : Family) (key : Bytes) : Except Failure Primitive :=
  match family.primitive? with
  | none => .error (.noCipher family.name)
  | some p =>
    if p.accepts (8 * key.length) then .ok p
    else .error (.keySize family (8 * key.length) p.name)

/-- The primitive that serves an OpenPGP algorithm. -/
def Symmetric.primitive? : Symmetric → Option Primitive
  | .aes128 => some .aes
  | .aes192 => some .aes
  | .aes256 => some .aes
  | .tripleDes => some .tripleDes
  | .des => some .tripleDes
  | .cast5 => some .cast5
  | .blowfish => some .blowfish
  | .idea => some .idea
  | .camellia128 => some .camellia
  | .camellia192 => some .camellia
  | .camellia256 => some .camellia
  | _ => none

/-- The primitive of an OpenPGP algorithm for a key, if there is one that accepts it. -/
def Symmetric.primitiveFor (algorithm : Symmetric) (key : Bytes) : Except Failure Primitive :=
  match algorithm.primitive? with
  | none => .error (.noSymmetric algorithm)
  | some p =>
    if p.accepts (8 * key.length) then .ok p
    else .error (.symmetricKeySize algorithm (8 * key.length) p.name)

/-- The block function of a primitive under a key; a stream cipher has none and is not asked. -/
def Suite.forward (suite : Suite) (p : Primitive) (key : Bytes) : BlockFunction :=
  match p with
  | .tripleDes => (suite.tripleDes key).forward
  | .cast5 => suite.cast5 key
  | .blowfish => suite.blowfish key
  | .idea => suite.idea key
  | .camellia => suite.camellia key
  | _ => (suite.aes key).forward

/-- The block function of an OpenPGP algorithm under a key. -/
def Suite.symmetric (suite : Suite) (algorithm : Symmetric) (key : Bytes) :
    Except Failure BlockFunction :=
  (algorithm.primitiveFor key).map fun p => suite.forward p key

/-- The block function of an OpenPGP algorithm under a key, for feedback from an initial vector of
its block size. -/
def Suite.feedback (suite : Suite) (algorithm : Symmetric) (key iv : Bytes) :
    Except Failure BlockFunction := do
  let f ← suite.symmetric algorithm key
  if iv.length = f.size then .ok f else .error .feedbackIvSize

/-- Whether the algorithm has a usable cipher. -/
def Symmetric.supported (algorithm : Symmetric) : Bool :=
  algorithm.keySize != 0 && algorithm.blockSize != 0 &&
    match algorithm.primitive? with
    | some p => p.accepts (8 * algorithm.keySize)
    | none => false

end Cryptogram
