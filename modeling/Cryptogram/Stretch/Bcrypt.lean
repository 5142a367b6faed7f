import Cryptogram.BlockCipher.Blowfish

/-!
# Bcrypt

Password hashing by a deliberately expensive key schedule.  The hash is written in an alphabet of
its own, in which salts are written too.
-/

namespace Cryptogram.Bcrypt

/-- The digits of the base-64 notation, in order. -/
def alphabet : List Char :=
  "./ABCDEFGHIJKLMNOPQRSTUVWXYZabcdefghijklmnopqrstuvwxyz0123456789".toList

/-- The words of the text that is encrypted. -/
def plaintext : List (UInt32 × UInt32) :=
  [(0x4f727068, 0x65616e42), (0x65686f6c, 0x64657253), (0x63727944, 0x6f756274)]

/-- Applies a function `n` times. -/
def times {α : Type} (f : α → α) (n : Nat) (x : α) : α := (List.range n).foldl (fun x _ => f x) x

/-- The expensive key schedule with `2 ^ cost` rounds. -/
def schedule (cost : Nat) (salt : Bytes) (key : Array UInt8) : Blowfish.Schedule :=
  let saltOctets := salt.toArray
  let saltWords := (Word.wordsBe32 salt).toArray
  times (fun s => Blowfish.absorb (Blowfish.absorb s key #[]) saltOctets #[]) (1 <<< cost)
    (Blowfish.absorb Blowfish.piWords key saltWords)

/-- The 23 octets of the hash of a password, which ends with a zero octet for this purpose. -/
def raw (cost : Nat) (salt password : Bytes) : Bytes :=
  let s := schedule cost salt (password ++ [0]).toArray
  let out := plaintext.flatMap fun (l, r) =>
    let (l, r) := times (fun lr : UInt32 × UInt32 => Blowfish.encryptPair s lr.1 lr.2) 64 (l, r)
    Word.be32 l ++ Word.be32 r
  out.take 23

/-- The digits of a string of octets, without padding. -/
def encode : Bytes → List Char
  | a :: b :: c :: rest =>
    let n := a.toNat * 65536 + b.toNat * 256 + c.toNat
    digit (n / 262144) :: digit (n / 4096 % 64) :: digit (n / 64 % 64) :: digit (n % 64) ::
      encode rest
  | [a, b] =>
    let n := a.toNat * 65536 + b.toNat * 256
    [digit (n / 262144), digit (n / 4096 % 64), digit (n / 64 % 64)]
  | [a] => [digit (a.toNat / 4), digit (a.toNat % 4 * 16)]
  | [] => []
where
  /-- The digit of a value below 64. -/
  digit (n : Nat) : Char := alphabet.getD n '.'

def value? (c : Char) : Option Nat := alphabet.findIdx? (· = c)

/-- The octets that digits without padding denote; bits left over are dropped. -/
def decode? : List Char → Option Bytes
  | a :: b :: c :: d :: rest => do
    let n := (← value? a) * 262144 + (← value? b) * 4096 + (← value? c) * 64 + (← value? d)
    return Bytes.ofNat 3 n ++ (← decode? rest)
  | [a, b, c] => do
    let n := (← value? a) * 262144 + (← value? b) * 4096 + (← value? c) * 64
    return (Bytes.ofNat 3 n).take 2
  | [a, b] => do
    let n := (← value? a) * 262144 + (← value? b) * 4096
    return (Bytes.ofNat 3 n).take 1
  | [_] => none
  | [] => some []

/-- The 31 digits of the hash of a password under a salt that is written in 22 digits; none when
the digits do not denote 16 octets. -/
def hash? (cost : Nat) (saltDigits : List Char) (password : Bytes) : Option (List Char) :=
  match decode? saltDigits with
  | some salt => if salt.length = 16 then some (encode (raw cost salt password)) else none
  | none => none

end Cryptogram.Bcrypt
