import Cryptogram.Failure
import Cryptogram.Suite
import Cryptogram.Text.Base64

/-!
# Key derivation

A password and a salt become a key.  The password-based methods derive their initial vector with it,
by the scheme of the method; the strong derivations give a key only.
-/

namespace Cryptogram

/-- A key, and an initial vector where one is derived. -/
structure DerivedKey where
  key : Bytes
  iv : Bytes := []
  deriving DecidableEq, Repr

/-- The lengths of key and initial vector, in words. -/
def DerivedKey.text (d : DerivedKey) : String :=
  let key := d.key.length
  let iv := d.iv.length
  s!"DerivedKey(key=<{key} bytes>, iv=<{iv} bytes>)"

namespace Derivation

/-- The least number of blocks of `size` octets that have `length` octets together. -/
def blockCount (size length : Nat) : Nat := (length + size - 1) / size

/-- `count` chained hashes: each takes in the one before it and the seed. -/
def chain (d : Digest) (seed : Bytes) (iterations : Int) : (count : Nat) → (previous : Bytes) → Bytes
  | 0, _ => []
  | count + 1, previous =>
    let block := d.iterate iterations (previous ++ seed)
    block ++ chain d seed iterations count block

/-- Key and initial vector from chained hashes of password and salt. -/
def bytesToKey (d : Digest) (password salt : Bytes) (keyLength ivLength : Nat) (iterations : Int) :
    DerivedKey :=
  let material := chain d (password ++ salt) iterations (blockCount d.size (keyLength + ivLength)) []
  ⟨material.take keyLength, (material.drop keyLength).take ivLength⟩

/-- Key and initial vector of eight octets each from an iterated hash (PKCS #5 version 1). -/
def pbkdf1 (d : Digest) (password salt : Bytes) (iterations : Int) : DerivedKey :=
  let block := d.iterate iterations (password ++ salt)
  ⟨block.take 8, (block.drop 8).take 8⟩

/-- A string repeated up to a whole number of blocks. -/
def fill (size : Nat) (bytes : Bytes) : Bytes :=
  bytes.cycle (size * blockCount size bytes.length)

/-- The working buffer after a block of output: the repeated block and one are added to each of its
blocks. -/
def nextBuffer (size : Nat) (output buffer : Bytes) : Bytes :=
  let sum := Bytes.toNat (fill size output) + 1
  (buffer.blocks size).flatMap fun block => Bytes.ofNat size (Bytes.toNat block + sum)

/-- `count` blocks of output from a working buffer. -/
def pkcs12Blocks (d : Digest) (diversifier : Bytes) (iterations : Int) :
    (count : Nat) → (buffer : Bytes) → Bytes
  | 0, _ => []
  | count + 1, buffer =>
    let output := d.iterate iterations (diversifier ++ buffer)
    output ++ pkcs12Blocks d diversifier iterations count (nextBuffer d.block output buffer)

/-- The first `length` octets for a purpose, from an encoded password (RFC 7292, appendix B.2). -/
def pkcs12 (d : Digest) (password salt : Bytes) (purpose : UInt8) (iterations : Int)
    (length : Nat) : Bytes :=
  (pkcs12Blocks d (List.replicate d.block purpose) iterations (blockCount d.size length)
    (fill d.block salt ++ fill d.block password)).take length

/-- A password in UTF-16 with a final zero; the empty password stays empty. -/
def pkcs12Password (password : Bytes) : Except Failure Bytes :=
  if password = [] then .ok []
  else match Text.ofUtf8? password with
    | some text => .ok (Text.utf16 text ++ [0, 0])
    | none => .error .undecodable

/-- The purpose of key material. -/
def keyPurpose : UInt8 := 1

/-- The purpose of initial vectors. -/
def ivPurpose : UInt8 := 2

/-- Key and initial vector of a method by its own scheme. -/
def byScheme (suite : Suite) (password salt : Bytes) (method : Method) (iterations : Int) :
    Except Failure DerivedKey :=
  match method.traits.digest, method.traits.scheme with
  | none, _ => .error (.noPasswordDigest method)
  | some h, some .openssl =>
    .ok (bytesToKey (suite.digest h) password salt method.keySize method.blockSize 1)
  | some h, some .pkcs5v1 => .ok (pbkdf1 (suite.digest h) password salt iterations)
  | some h, some .pkcs12 => do
    let encoded ← pkcs12Password password
    let d := suite.digest h
    return ⟨pkcs12 d encoded salt keyPurpose iterations method.keySize,
      pkcs12 d encoded salt ivPurpose iterations method.blockSize⟩
  | some _, none => .error (.notPasswordBased method)

/-- The digit of the salt alphabet that stands for a digit of base-64 text. -/
def saltDigit (c : Char) : Char :=
  match Base64.value? c with
  | some n => Bcrypt.alphabet.getD n c
  | none => c

/-- The text of a salt of at least sixteen octets: 22 digits for the first sixteen. -/
def saltText (salt : Bytes) : List Char :=
  ((Base64.encode (salt.take 16)).map saltDigit).take 22

/-- A key from the hash that the bcrypt function gives for at most 72 octets of the password. -/
def byBcrypt (suite : Suite) (password salt : Bytes) (cost length : Nat) : Except Failure Bytes :=
  match suite.bcrypt cost (saltText salt) (password.take 72) with
  | some digits =>
    let octets := digits.map fun c => c.toNat.toUInt8
    .ok (((suite.digest .sha512).hash octets).take length)
  | none => .error .bcryptSalt

/-- A key of the strong derivations. -/
def strong (suite : Suite) (password salt : Bytes) (kdf : KeyDerivation) (length : Nat)
    (settings : Settings) : Except Failure Bytes :=
  match kdf with
  | .pbkdf2 => .ok (suite.pbkdf2 password salt settings.pbkdf2Iterations.toNat length)
  | .bcrypt => byBcrypt suite password salt settings.bcryptCost.toNat length
  | .scrypt =>
    match suite.scrypt password salt settings.scryptN.toNat settings.scryptR.toNat
        settings.scryptP.toNat length with
    | some key => .ok key
    | none => .error (.scryptMemory settings.scryptN settings.scryptR)
  | .argon2 =>
    let layout : Argon2.Layout :=
      ⟨settings.argon2Passes.toNat, settings.argon2Lanes.toNat, settings.argon2Memory.toNat⟩
    match suite.argon2 layout password salt length with
    | some key => .ok key
    | none => .error .argon2Refused
  | _ => .error (.withoutPassword kdf)

/-- The key material of a method from a password and a salt. -/
def derive (suite : Suite) (password salt : Bytes) (kdf : KeyDerivation) (method : Method)
    (settings : Settings) : Except Failure DerivedKey :=
  match kdf with
  | .legacy => byScheme suite password salt method settings.legacyIterations
  | .opensslBytesToKey =>
    match method.traits.digest with
    | some h => .ok (bytesToKey (suite.digest h) password salt method.keySize method.blockSize 1)
    | none => .error (.noPasswordDigest method)
  | _ => (strong suite password salt kdf method.keySize settings).map fun key => ⟨key, []⟩

end Derivation

end Cryptogram
