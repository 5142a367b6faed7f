/-!
# White space

The Unicode white space characters, and text without them at its ends.
-/

namespace Cryptogram.Text

/-- The code points of the white space characters. -/
def blanks : List Nat :=
  [0x9, 0xa, 0xb, 0xc, 0xd, 0x1c, 0x1d, 0x1e, 0x1f, 0x20, 0x85, 0xa0, 0x1680, 0x2000, 0x2001, 0x2002,
    0x2003, 0x2004, 0x2005, 0x2006, 0x2007, 0x2008, 0x2009, 0x200a, 0x2028, 0x2029, 0x202f, 0x205f,
    0x3000]

def isBlank (c : Char) : Bool := blanks.contains c.toNat

/-- The text without the characters of a class at either end. -/
def stripBy (p : Char → Bool) (text : List Char) : List Char :=
  ((text.dropWhile p).reverse.dropWhile p).reverse

/-- The text without white space at either end. -/
def strip (text : List Char) : List Char := stripBy isBlank text

end Cryptogram.Text
