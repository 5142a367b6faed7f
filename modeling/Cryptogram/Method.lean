import Cryptogram.Digest.Name

/-!
# Encryption methods

The closed catalog of methods.  Each has a member name, the name of its algorithm, a cipher family
with a key length, a block mode, and, for password-based methods, a hash function and a scheme that
turns a password and a salt into a key and an initial vector.
-/

namespace Cryptogram

/-- A family of ciphers. -/
inductive Family
  | aes
  | twofish
  | des
  | tripleDes
  | rc2
  | rc4
  | openPgp
  deriving DecidableEq, Repr

namespace Family

def all : List Family := [.aes, .twofish, .des, .tripleDes, .rc2, .rc4, .openPgp]

def name : Family → String
  | .aes => "AES"
  | .twofish => "Twofish"
  | .des => "DES"
  | .tripleDes => "DESede"
  | .rc2 => "RC2"
  | .rc4 => "RC4"
  | .openPgp => "PGP"

def ofName? (name : String) : Option Family := all.find? fun f => f.name = name

/-- The number of octets of a block, and zero where there are no blocks. -/
def blockSize : Family → Nat
  | .aes => 16
  | .twofish => 16
  | .des => 8
  | .tripleDes => 8
  | .rc2 => 8
  | .rc4 => 0
  | .openPgp => 0

end Family

/-- How a method runs its cipher over a message. -/
inductive BlockMode
  | cbc
  | ctr
  | gcm
  | stream
  | none
  deriving DecidableEq, Repr

def BlockMode.name : BlockMode → String
  | .cbc => "CBC"
  | .ctr => "CTR"
  | .gcm => "GCM"
  | .stream => "STREAM"
  | .none => "NONE"

/-- How a password-based method turns a password and a salt into key material. -/
inductive Scheme
  /-- Chained hashes, where the iteration count plays no part. -/
  | openssl
  /-- PKCS #5 version 1. -/
  | pkcs5v1
  /-- RFC 7292, appendix B. -/
  | pkcs12
  deriving DecidableEq, Repr

def Scheme.name : Scheme → String
  | .openssl => "openssl"
  | .pkcs5v1 => "pkcs5v1"
  | .pkcs12 => "pkcs12"

/-- What is fixed about a method. -/
structure Traits where
  /-- The name of the member. -/
  name : String
  /-- The name of the algorithm. -/
  algorithm : String
  family : Family
  /-- The length of the key in bits; for keyed methods, of a derived key. -/
  keyBits : Nat
  mode : BlockMode
  /-- Whether messages are padded to whole blocks. -/
  padded : Bool
  digest : Option HashName := Option.none
  scheme : Option Scheme := Option.none
  /-- Whether the method takes a raw key, or a key from a strong derivation. -/
  keyed : Bool := false
  /-- Whether a policy on key lengths applies to the method. -/
  unlimited : Bool := false
  openPgp : Bool := false
  /-- Whether messages are written in ASCII armor. -/
  armored : Bool := false
  deriving DecidableEq, Repr

/-- An encryption method. -/
inductive Method
  | md5Aes128
  | md5Aes192
  | md5Aes256
  | md5Des
  | md5Rc2
  | sha1Rc2
  | sha1Des
  | shaAes128
  | shaAes192
  | shaAes256
  | shaRc2Bits40
  | shaRc2Bits128
  | shaRc4Bits40
  | shaRc4Bits128
  | sha256Aes128
  | sha256Aes192
  | sha256Aes256
  | shaTripleDes2
  | shaTripleDes3
  | shaTwofish
  | openPgp
  | openPgpArmored
  | aesCbcUnpadded
  | aesCbc
  | aesCtr
  | aesGcm
  deriving DecidableEq, Repr

namespace Traits

/-- A password-based method; a block cipher is chained and padded. -/
def passwordBased (name algorithm : String) (family : Family) (keyBits : Nat) (digest : HashName)
    (scheme : Scheme) (unlimited : Bool) : Traits :=
  let mode := if family = .rc4 then BlockMode.stream else .cbc
  { name, algorithm, family, keyBits, mode, padded := decide (mode = .cbc), digest := some digest,
    scheme := some scheme, unlimited }

/-- A method that runs AES under a given key. -/
def keyedAes (name algorithm : String) (mode : BlockMode) (padded : Bool) : Traits :=
  { name, algorithm, family := .aes, keyBits := 128, mode, padded, keyed := true }

def pgp (name algorithm : String) (armored : Bool) : Traits :=
  { name, algorithm, family := .openPgp, keyBits := 0, mode := .none, padded := true,
    openPgp := true, armored }

end Traits

namespace Method

open Traits

/-- Every method, in the order of the catalog. -/
def all : List Method :=
  [.md5Aes128, .md5Aes192, .md5Aes256, .md5Des, .md5Rc2, .sha1Rc2, .sha1Des, .shaAes128, .shaAes192,
    .shaAes256, .shaRc2Bits40, .shaRc2Bits128, .shaRc4Bits40, .shaRc4Bits128, .sha256Aes128,
    .sha256Aes192, .sha256Aes256, .shaTripleDes2, .shaTripleDes3, .shaTwofish, .openPgp,
    .openPgpArmored, .aesCbcUnpadded, .aesCbc, .aesCtr, .aesGcm]

/-- What is fixed about a method. -/
def traits : Method → Traits
  | .md5Aes128 =>
    passwordBased "MD5_128AES" "PBEWITHMD5AND128BITAES-CBC-OPENSSL" .aes 128 .md5 .openssl false
  | .md5Aes192 =>
    passwordBased "MD5_192AES" "PBEWITHMD5AND192BITAES-CBC-OPENSSL" .aes 192 .md5 .openssl true
  | .md5Aes256 =>
    passwordBased "MD5_256AES" "PBEWITHMD5AND256BITAES-CBC-OPENSSL" .aes 256 .md5 .openssl true
  | .md5Des => passwordBased "MD5_DES" "PBEWITHMD5ANDDES" .des 64 .md5 .pkcs5v1 false
  | .md5Rc2 => passwordBased "MD5_RC2" "PBEWITHMD5ANDRC2" .rc2 64 .md5 .pkcs5v1 false
  | .sha1Rc2 => passwordBased "SHA1_RC2" "PBEWITHSHA1ANDRC2" .rc2 64 .sha1 .pkcs5v1 false
  | .sha1Des => passwordBased "SHA1_DES" "PBEWITHSHA1ANDDES" .des 64 .sha1 .pkcs5v1 false
  | .shaAes128 =>
    passwordBased "SHA_128AES" "PBEWITHSHAAND128BITAES-CBC-BC" .aes 128 .sha1 .pkcs12 false
  | .shaAes192 =>
    passwordBased "SHA_192AES" "PBEWITHSHAAND192BITAES-CBC-BC" .aes 192 .sha1 .pkcs12 true
  | .shaAes256 =>
    passwordBased "SHA_256AES" "PBEWITHSHAAND256BITAES-CBC-BC" .aes 256 .sha1 .pkcs12 true
  | .shaRc2Bits40 =>
    passwordBased "SHA_40RC2" "PBEWITHSHAAND40BITRC2-CBC" .rc2 40 .sha1 .pkcs12 false
  | .shaRc2Bits128 =>
    passwordBased "SHA_128RC2" "PBEWITHSHAAND128BITRC2-CBC" .rc2 128 .sha1 .pkcs12 false
  | .shaRc4Bits40 => passwordBased "SHA_40RC4" "PBEWITHSHAAND40BITRC4" .rc4 40 .sha1 .pkcs12 false
  | .shaRc4Bits128 =>
    passwordBased "SHA_128RC4" "PBEWITHSHAAND128BITRC4" .rc4 128 .sha1 .pkcs12 false
  | .sha256Aes128 =>
    passwordBased "SHA256_128AES" "PBEWITHSHA256AND128BITAES-CBC-BC" .aes 128 .sha256 .pkcs12 false
  | .sha256Aes192 =>
    passwordBased "SHA256_192AES" "PBEWITHSHA256AND192BITAES-CBC-BC" .aes 192 .sha256 .pkcs12 true
  | .sha256Aes256 =>
    passwordBased "SHA256_256AES" "PBEWITHSHA256AND256BITAES-CBC-BC" .aes 256 .sha256 .pkcs12 true
  | .shaTripleDes2 =>
    passwordBased "SHA_2KEYTRIPLEDES" "PBEWITHSHAAND2-KEYTRIPLEDES-CBC" .tripleDes 128 .sha1 .pkcs12
      false
  | .shaTripleDes3 =>
    passwordBased "SHA_3KEYTRIPLEDES" "PBEWITHSHAAND3-KEYTRIPLEDES-CBC" .tripleDes 192 .sha1 .pkcs12
      false
  | .shaTwofish =>
    passwordBased "SHA_TWOFISH" "PBEWITHSHAANDTWOFISH-CBC" .twofish 256 .sha1 .pkcs12 true
  | .openPgp => pgp "PGP" "PGP" false
  | .openPgpArmored => pgp "PGP_ASCII_ARMOR" "PGP-ASCII-ARMOR" true
  | .aesCbcUnpadded => keyedAes "AES_CBC_NO_PADDING" "AES/CBC/NoPadding" .cbc false
  | .aesCbc => keyedAes "AES_CBC" "AES/CBC/PKCS7Padding" .cbc true
  | .aesCtr => keyedAes "AES_CTR" "AES/CTR/NoPadding" .ctr false
  | .aesGcm => keyedAes "AES_GCM" "AES/GCM/NoPadding" .gcm false

def name (m : Method) : String := m.traits.name

def algorithm (m : Method) : String := m.traits.algorithm

def family (m : Method) : Family := m.traits.family

/-- The length of the key in bits. -/
def keyBits (m : Method) : Nat := m.traits.keyBits

/-- The length of the key in octets. -/
def keySize (m : Method) : Nat := m.keyBits / 8

def mode (m : Method) : BlockMode := m.traits.mode

/-- The number of octets of a block, and zero where there are no blocks. -/
def blockSize (m : Method) : Nat := m.family.blockSize

/-- Whether the method takes a raw key, or a key from a strong derivation. -/
def keyed (m : Method) : Bool := m.traits.keyed

/-- Whether the method writes OpenPGP messages. -/
def isOpenPgp (m : Method) : Bool := m.traits.openPgp

/-- Whether the method takes its key and initial vector from a password. -/
def passwordBased (m : Method) : Bool := !m.keyed && !m.isOpenPgp

/-- The block size to which messages are padded, and zero where they are not. -/
def padSize (m : Method) : Nat := if m.traits.padded then m.blockSize else 0

/-- The length of the salt of the legacy derivation: a block, or eight octets without blocks. -/
def legacySaltLength (m : Method) : Nat := if m.blockSize = 0 then 8 else m.blockSize

def ofName? (name : String) : Option Method := all.find? fun m => m.name = name

/-- The lengths in bits that a raw key may have. -/
def rawKeyBits : List Nat := [128, 192, 256]

end Method

end Cryptogram
