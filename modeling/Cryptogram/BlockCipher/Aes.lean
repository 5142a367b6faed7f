import Cryptogram.BlockCipher.Basic

/-!
# AES

Substitution, row shifts and column mixing over the field of 256 elements.  The substitution box is
computed from its definition, inversion followed by an affine map.
-/

namespace Cryptogram.Aes

/-- Multiplication by the polynomial `x` in the field. -/
def double (x : UInt8) : UInt8 := (x <<< 1) ^^^ (if x < 0x80 then 0 else 0x1b)

def mul (x y : UInt8) : UInt8 :=
  ((List.range 8).foldl
    (fun (sum, x) i => (if y.toNat.testBit i then sum ^^^ x else sum, double x)) ((0 : UInt8), x)).1

/-- The inverse in the field, `x ^ 254`; zero stays zero. -/
def inverse (x : UInt8) : UInt8 :=
  ((List.range 7).foldl (fun (product, power) _ => (mul product (mul power power), mul power power))
    ((1 : UInt8), x)).1

/-- Rotation of eight bits to the left. -/
def rotl8 (x n : UInt8) : UInt8 := (x <<< n) ||| (x >>> (8 - n))

/-- The affine map of the substitution. -/
def affine (x : UInt8) : UInt8 :=
  x ^^^ rotl8 x 1 ^^^ rotl8 x 2 ^^^ rotl8 x 3 ^^^ rotl8 x 4 ^^^ 0x63

/-- The values of a function on all octets. -/
def table (f : UInt8 → UInt8) : Array UInt8 := Array.ofFn fun i : Fin 256 => f i.val.toUInt8

def sbox : Array UInt8 := table fun x => affine (inverse x)

/-- The inverse of the substitution box. -/
def inverseSbox : Array UInt8 :=
  (List.range 256).foldl (fun t i => t.setIfInBounds (sbox.getD i 0).toNat i.toUInt8)
    (Array.replicate 256 0)

def times2 : Array UInt8 := table (mul 2)
def times3 : Array UInt8 := table (mul 3)
def times9 : Array UInt8 := table (mul 9)
def times11 : Array UInt8 := table (mul 11)
def times13 : Array UInt8 := table (mul 13)
def times14 : Array UInt8 := table (mul 14)

/-- The number of rounds for a key. -/
def rounds (key : Bytes) : Nat := key.length / 4 + 6

/-- The round keys one after another, sixteen octets each. -/
def expand (key : Bytes) : Array UInt8 :=
  let width := key.length
  let words := 4 * (rounds key + 1)
  ((List.range' (width / 4) (words - width / 4)).foldl
    (fun (out, constant) i =>
      let prev := fun j => out.getD (4 * (i - 1) + j) 0
      let old := fun j => out.getD (4 * i + j - width) 0
      let sub := fun x : UInt8 => sbox.getD x.toNat 0
      if i % (width / 4) = 0 then
        (((((out.push (old 0 ^^^ sub (prev 1) ^^^ constant)).push (old 1 ^^^ sub (prev 2))).push
          (old 2 ^^^ sub (prev 3))).push (old 3 ^^^ sub (prev 0))), double constant)
      else if width = 32 ∧ i % 8 = 4 then
        (((((out.push (old 0 ^^^ sub (prev 0))).push (old 1 ^^^ sub (prev 1))).push
          (old 2 ^^^ sub (prev 2))).push (old 3 ^^^ sub (prev 3))), constant)
      else
        (((((out.push (old 0 ^^^ prev 0)).push (old 1 ^^^ prev 1)).push
          (old 2 ^^^ prev 2)).push (old 3 ^^^ prev 3)), constant))
    (key.toArray, (1 : UInt8))).1

def addKey (keys : Array UInt8) (round : Nat) (s : Array UInt8) : Array UInt8 :=
  Array.ofFn fun i : Fin 16 => s.getD i 0 ^^^ keys.getD (16 * round + i) 0

/-- Substitutes every octet and shifts the rows to the left. -/
def substitute (s : Array UInt8) : Array UInt8 :=
  Array.ofFn fun i : Fin 16 => sbox.getD (s.getD ((i.val + 4 * (i.val % 4)) % 16) 0).toNat 0

def unsubstitute (s : Array UInt8) : Array UInt8 :=
  Array.ofFn fun i : Fin 16 =>
    inverseSbox.getD (s.getD ((i.val + 16 - 4 * (i.val % 4)) % 16) 0).toNat 0

/-- Mixes every column with the coefficients of four tables. -/
def mixWith (t0 t1 : UInt8 → UInt8) (t2 t3 : UInt8 → UInt8) (s : Array UInt8) : Array UInt8 :=
  Array.ofFn fun i : Fin 16 =>
    let column := i.val / 4 * 4
    let row := i.val % 4
    t0 (s.getD i 0) ^^^ t1 (s.getD (column + (row + 1) % 4) 0) ^^^
      t2 (s.getD (column + (row + 2) % 4) 0) ^^^ t3 (s.getD (column + (row + 3) % 4) 0)

def mixColumns (s : Array UInt8) : Array UInt8 :=
  mixWith (fun x => times2.getD x.toNat 0) (fun x => times3.getD x.toNat 0) id id s

def unmixColumns (s : Array UInt8) : Array UInt8 :=
  mixWith (fun x => times14.getD x.toNat 0) (fun x => times11.getD x.toNat 0)
    (fun x => times13.getD x.toNat 0) (fun x => times9.getD x.toNat 0) s

/-- The sixteen octets of a state. -/
def octets (s : Array UInt8) : Bytes := (Array.ofFn fun i : Fin 16 => s.getD i 0).toList

theorem length_octets (s : Array UInt8) : (octets s).length = 16 := by simp [octets]

/-- Encrypts a block with expanded round keys. -/
def encryptBlock (keys : Array UInt8) (rounds : Nat) (block : Bytes) : Bytes :=
  let s := (List.range' 1 (rounds - 1)).foldl (fun s r => addKey keys r (mixColumns (substitute s)))
    (addKey keys 0 block.toArray)
  octets (addKey keys rounds (substitute s))

/-- Decrypts a block with expanded round keys. -/
def decryptBlock (keys : Array UInt8) (rounds : Nat) (block : Bytes) : Bytes :=
  let s := (List.range' 1 (rounds - 1)).reverse.foldl
    (fun s r => unmixColumns (addKey keys r (unsubstitute s))) (addKey keys rounds block.toArray)
  octets (addKey keys 0 (unsubstitute s))

end Cryptogram.Aes

namespace Cryptogram

/-- AES under a key of 16, 24 or 32 octets. -/
def BlockCipher.aes (key : Bytes) : BlockCipher :=
  let keys := Aes.expand key
  let rounds := Aes.rounds key
  { size := 16
    encrypt := Aes.encryptBlock keys rounds
    decrypt := Aes.decryptBlock keys rounds
    length_encrypt := fun _ => Aes.length_octets _
    length_decrypt := fun _ => Aes.length_octets _ }

end Cryptogram
