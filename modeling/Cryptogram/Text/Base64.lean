import Cryptogram.Bytes

/-!
# Base-64 text

Octets in groups of three, each written as four digits; a last group that is not full is filled up
with equals signs.
-/

namespace Cryptogram.Base64

/-- The digits in the order of their values. -/
def alphabet : List Char :=
  "ABCDEFGHIJKLMNOPQRSTUVWXYZabcdefghijklmnopqrstuvwxyz0123456789+/".toList

/-- The digit of a value below 64. -/
def digit (n : Nat) : Char :=
  if n < 26 then Char.ofNat (65 + n)
  else if n < 52 then Char.ofNat (71 + n)
  else if n < 62 then Char.ofNat (n - 4)
  else if n = 62 then '+'
  else '/'

def value? (c : Char) : Option Nat :=
  if 'A' ≤ c ∧ c ≤ 'Z' then some (c.toNat - 65)
  else if 'a' ≤ c ∧ c ≤ 'z' then some (c.toNat - 71)
  else if '0' ≤ c ∧ c ≤ '9' then some (c.toNat + 4)
  else if c = '+' then some 62
  else if c = '/' then some 63
  else none

/-- The four characters of a group of at most three octets. -/
def group : Bytes → List Char
  | [a, b, c] =>
    let n := a.toNat * 65536 + b.toNat * 256 + c.toNat
    [digit (n / 262144), digit (n / 4096 % 64), digit (n / 64 % 64), digit (n % 64)]
  | [a, b] =>
    let n := a.toNat * 65536 + b.toNat * 256
    [digit (n / 262144), digit (n / 4096 % 64), digit (n / 64 % 64), '=']
  | [a] =>
    let n := a.toNat * 65536
    [digit (n / 262144), digit (n / 4096 % 64), '=', '=']
  | _ => []

/-- The text of a string of octets. -/
def encode (octets : Bytes) : List Char := (octets.blocks 3).flatMap group

/-- Decodes digits: `bits` are the values of the `count` digits of the group at hand.  Other
characters are passed over; an equals sign ends the text when it completes a group; a group of one
digit is an error, and so is a group without its equals signs. -/
def decodeFrom : (count bits equals : Nat) → (done : Bytes) → List Char → Option Bytes
  | count, _, _, done, [] => if count = 0 then some done.reverse else none
  | count, bits, equals, done, c :: rest =>
    if c = '=' then
      if count ≥ 2 ∧ count + equals + 1 ≥ 4 then
        some done.reverse
      else decodeFrom count bits (if count ≥ 2 then equals + 1 else equals) done rest
    else match value? c with
      | none => decodeFrom count bits equals done rest
      | some v =>
        if count = 0 then decodeFrom 1 v 0 done rest
        else if count = 1 then
          decodeFrom 2 (v % 16) 0 ((bits * 4 + v / 16).toUInt8 :: done) rest
        else if count = 2 then
          decodeFrom 3 (v % 4) 0 ((bits * 16 + v / 4).toUInt8 :: done) rest
        else decodeFrom 0 0 0 ((bits * 64 + v).toUInt8 :: done) rest

/-- The octets that a text denotes. -/
def decode? (text : List Char) : Option Bytes := decodeFrom 0 0 0 [] text

end Cryptogram.Base64
