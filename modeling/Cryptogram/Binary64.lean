/-!
# Binary floating point

Numbers of 53 binary digits, as hosts hand them over: how a decimal number is rounded to one, its
integer part, and its decimal text.  The text has the fewest digits that are rounded back to the
number, and of several such the one nearest to it.
-/

namespace Cryptogram

/-- A floating-point number. -/
inductive Binary64
  /-- The mantissa times a power of two. -/
  | finite (negative : Bool) (mantissa : Nat) (exponent : Int)
  | infinite (negative : Bool)
  | nan
  deriving DecidableEq, Repr

namespace Binary64

/-- The greatest power of two that does not exceed a positive quotient, as its exponent. -/
def log2Quotient (n d : Nat) : Int :=
  if d ≤ n then (n / d).log2 else -(((d - 1) / n).log2 + 1 : Int)

/-- A quotient rounded to the nearest number, and a tie to the even one. -/
def roundHalfEven (n d : Nat) : Nat :=
  let q := n / d
  let r := n % d
  if d < 2 * r ∨ (d = 2 * r ∧ q % 2 = 1) then q + 1 else q

def minExponent : Int := -1074

/-- The greatest exponent of a mantissa of 53 digits. -/
def maxExponent : Int := 971

/-- A numerator and a denominator times a power of a base. -/
def scale (base : Nat) (e : Int) (n d : Nat) : Nat × Nat :=
  if 0 ≤ e then (n * base.pow e.toNat, d) else (n, d * base.pow (-e).toNat)

/-- The number nearest to a quotient. -/
def ofQuotient (negative : Bool) (n d : Nat) : Binary64 :=
  if n = 0 then .finite negative 0 minExponent
  else
    let e := max minExponent (log2Quotient n d - 52)
    let (n, d) := scale 2 (-e) n d
    let m := roundHalfEven n d
    let (m, e) := if m = 0x20000000000000 then (0x10000000000000, e + 1) else (m, e)
    if maxExponent < e then .infinite negative else .finite negative m e

/-- The number nearest to an integer times a power of ten. -/
def ofDecimal (negative : Bool) (digits : Nat) (exponent : Int) : Binary64 :=
  let width := (Nat.toDigits 10 digits).length
  if digits = 0 ∨ exponent + width < -400 then .finite negative 0 minExponent
  else if 400 < exponent + width then .infinite negative
  else
    let (n, d) := scale 10 exponent digits 1
    ofQuotient negative n d

/-! ## Decimal text -/

/-- The number of decimal digits in front of the point of a positive quotient; where there are none,
minus the number of zeros behind it. -/
def decimalPoint (n d : Nat) : Int :=
  if d ≤ n then (Nat.toDigits 10 (n / d)).length
  else 1 - (Nat.toDigits 10 ((d - 1) / n)).length

/-- Whether a decimal number is rounded to the number with a mantissa and an exponent. -/
def isRoundedTo (mantissa : Nat) (exponent : Int) (digits : Nat) (tens : Int) : Bool :=
  let (n, d) := scale 10 tens digits 1
  let (n, d) := scale 2 (-exponent) n d
  let gap := if mantissa = 0x10000000000000 ∧ minExponent < exponent then 1 else 2
  let low := (4 * mantissa - gap) * d
  let high := (4 * mantissa + 2) * d
  if mantissa % 2 = 0 then low ≤ 4 * n && 4 * n ≤ high else low < 4 * n && 4 * n < high

/-- The number of so many digits that is nearest to a quotient among those that are rounded to it. -/
def nearest? (mantissa : Nat) (exponent : Int) (n d : Nat) (tens : Int) : Option Nat :=
  let (n, d) := scale 10 (-tens) n d
  let below := n / d
  let r := n % d
  let first := if 2 * r < d ∨ (2 * r = d ∧ below % 2 = 0) then below else below + 1
  [first, below, below + 1].find? fun digits => isRoundedTo mantissa exponent digits tens

/-- The fewest digits of a positive number, and the power of ten that they count. -/
def shortest (mantissa : Nat) (exponent : Int) : Nat × Int :=
  let (n, d) := scale 2 exponent mantissa 1
  let point := decimalPoint n d
  let found := (List.range 17).findSome? fun (i : Nat) =>
    let tens := point - ((i : Nat) + 1 : Int)
    (nearest? mantissa exponent n d tens).map fun digits => (digits, tens)
  found.getD (0, 0)

/-- Digits without zeros at their end. -/
def trimZeros (digits : List Char) : List Char := (digits.reverse.dropWhile (· = '0')).reverse

/-- The exponent of a power of ten, with a sign and at least two digits. -/
def exponentText (e : Int) : List Char :=
  let digits := Nat.toDigits 10 e.natAbs
  (if e < 0 then '-' else '+') :: (if digits.length < 2 then '0' :: digits else digits)

/-- Digits with a point behind so many of them; far from the point, as a power of ten. -/
def layout (digits : List Char) (point : Int) : List Char :=
  let size : Int := digits.length
  if -4 < point ∧ point ≤ 0 then ['0', '.'] ++ List.replicate (-point).toNat '0' ++ digits
  else if 0 < point ∧ point ≤ 16 then
    if size ≤ point then digits ++ List.replicate (point - size).toNat '0' ++ ['.', '0']
    else digits.take point.toNat ++ '.' :: digits.drop point.toNat
  else
    let fraction := if size ≤ 1 then [] else '.' :: digits.drop 1
    digits.take 1 ++ fraction ++ 'e' :: exponentText (point - 1)

def text : Binary64 → String
  | .nan => "nan"
  | .infinite negative => if negative then "-inf" else "inf"
  | .finite negative mantissa exponent =>
    let body :=
      if mantissa = 0 then ['0', '.', '0']
      else
        let (digits, tens) := shortest mantissa exponent
        let digits := Nat.toDigits 10 digits
        layout (trimZeros digits) (digits.length + tens)
    String.ofList (if negative then '-' :: body else body)

/-- The integer part of a number. -/
def truncate? : Binary64 → Option Int
  | .finite negative mantissa exponent =>
    let (n, d) := scale 2 exponent mantissa 1
    some (if negative then -(n / d : Nat) else (n / d : Nat))
  | _ => none

def isZero : Binary64 → Bool
  | .finite _ 0 _ => true
  | _ => false

end Binary64

end Cryptogram
