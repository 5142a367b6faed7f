import Cryptogram.Digest.Name

/-!
# Identifiers of OpenPGP

The numbers by which packets refer to ciphers, public-key algorithms, hash functions and
compression, and the tags of packets (RFC 4880, section 9).
-/

namespace Cryptogram

inductive Symmetric
  | plaintext
  | idea
  | tripleDes
  | cast5
  | blowfish
  | safer
  | des
  | aes128
  | aes192
  | aes256
  | twofish
  | camellia128
  | camellia192
  | camellia256
  deriving DecidableEq, Repr

namespace Symmetric

/-- Every algorithm, in the order of the numbers. -/
def all : List Symmetric :=
  [.plaintext, .idea, .tripleDes, .cast5, .blowfish, .safer, .des, .aes128, .aes192, .aes256, .twofish,
    .camellia128, .camellia192, .camellia256]

def id : Symmetric → Nat
  | .plaintext => 0
  | .idea => 1
  | .tripleDes => 2
  | .cast5 => 3
  | .blowfish => 4
  | .safer => 5
  | .des => 6
  | .aes128 => 7
  | .aes192 => 8
  | .aes256 => 9
  | .twofish => 10
  | .camellia128 => 11
  | .camellia192 => 12
  | .camellia256 => 13

def ofId? (n : Nat) : Option Symmetric := all.find? fun a => a.id = n

def name : Symmetric → String
  | .plaintext => "PLAINTEXT"
  | .idea => "IDEA"
  | .tripleDes => "TRIPLE_DES"
  | .cast5 => "CAST5"
  | .blowfish => "BLOWFISH"
  | .safer => "SAFER"
  | .des => "DES"
  | .aes128 => "AES_128"
  | .aes192 => "AES_192"
  | .aes256 => "AES_256"
  | .twofish => "TWOFISH"
  | .camellia128 => "CAMELLIA_128"
  | .camellia192 => "CAMELLIA_192"
  | .camellia256 => "CAMELLIA_256"

/-- The number of octets of a key, and zero without a usable cipher. -/
def keySize : Symmetric → Nat
  | .plaintext => 0
  | .idea => 16
  | .tripleDes => 24
  | .cast5 => 16
  | .blowfish => 16
  | .safer => 0
  | .des => 8
  | .aes128 => 16
  | .aes192 => 24
  | .aes256 => 32
  | .twofish => 32
  | .camellia128 => 16
  | .camellia192 => 24
  | .camellia256 => 32

/-- The number of octets of a block, and zero without a usable cipher. -/
def blockSize : Symmetric → Nat
  | .plaintext => 0
  | .idea => 8
  | .tripleDes => 8
  | .cast5 => 8
  | .blowfish => 8
  | .safer => 0
  | .des => 8
  | .aes128 => 16
  | .aes192 => 16
  | .aes256 => 16
  | .twofish => 16
  | .camellia128 => 16
  | .camellia192 => 16
  | .camellia256 => 16

/-- The algorithms that are offered for encryption. -/
def offered : List Symmetric := all.filter fun a => a != .plaintext && a != .safer

/-- The algorithm that is used unless another is chosen. -/
def preferred : Symmetric := .aes128

end Symmetric

inductive PublicKeyAlgorithm
  | rsa
  | rsaEncryptOnly
  | rsaSignOnly
  | elgamalEncryptOnly
  | dsa
  | ecdh
  | ecdsa
  | elgamal
  | eddsa
  | x25519
  | ed25519
  deriving DecidableEq, Repr

namespace PublicKeyAlgorithm

/-- Every algorithm, in the order of the numbers. -/
def all : List PublicKeyAlgorithm :=
  [.rsa, .rsaEncryptOnly, .rsaSignOnly, .elgamalEncryptOnly, .dsa, .ecdh, .ecdsa, .elgamal, .eddsa,
    .x25519, .ed25519]

def id : PublicKeyAlgorithm → Nat
  | .rsa => 1
  | .rsaEncryptOnly => 2
  | .rsaSignOnly => 3
  | .elgamalEncryptOnly => 16
  | .dsa => 17
  | .ecdh => 18
  | .ecdsa => 19
  | .elgamal => 20
  | .eddsa => 22
  | .x25519 => 25
  | .ed25519 => 27

def ofId? (n : Nat) : Option PublicKeyAlgorithm := all.find? fun a => a.id = n

/-- Whether messages can be encrypted to an RSA key of this kind. -/
def encryptsWithRsa : PublicKeyAlgorithm → Bool
  | .rsa => true
  | .rsaEncryptOnly => true
  | _ => false

end PublicKeyAlgorithm

namespace HashName

def id : HashName → Nat
  | .md5 => 1
  | .sha1 => 2
  | .ripemd160 => 3
  | .sha256 => 8
  | .sha384 => 9
  | .sha512 => 10
  | .sha224 => 11

def ofId? (n : Nat) : Option HashName := all.find? fun h => h.id = n

end HashName

inductive Compression
  | uncompressed
  | zip
  | zlib
  | bzip2
  deriving DecidableEq, Repr

namespace Compression

def id : Compression → Nat
  | .uncompressed => 0
  | .zip => 1
  | .zlib => 2
  | .bzip2 => 3

def ofId? (n : Nat) : Option Compression :=
  [Compression.uncompressed, .zip, .zlib, .bzip2].find? fun a => a.id = n

def name : Compression → String
  | .uncompressed => "UNCOMPRESSED"
  | .zip => "ZIP"
  | .zlib => "ZLIB"
  | .bzip2 => "BZIP2"

end Compression

namespace Tag

/-- A session key encrypted to a public key. -/
def pkesk : Nat := 1
def signature : Nat := 2
/-- A session key encrypted under a passphrase. -/
def skesk : Nat := 3
/-- The announcement of a signature. -/
def onePassSignature : Nat := 4
def secretKey : Nat := 5
def publicKey : Nat := 6
def secretSubkey : Nat := 7
def compressed : Nat := 8
/-- Encrypted packets without integrity protection. -/
def encrypted : Nat := 9
/-- A packet to be ignored. -/
def marker : Nat := 10
/-- The content of a message. -/
def literal : Nat := 11
/-- A keyring's private notes on trust. -/
def trust : Nat := 12
def userId : Nat := 13
def publicSubkey : Nat := 14
def userAttribute : Nat := 17
/-- Encrypted packets with integrity protection. -/
def seipd : Nat := 18

end Tag

end Cryptogram
