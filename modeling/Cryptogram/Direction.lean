/-!
# Directions

Whether content is encrypted or decrypted.
-/

namespace Cryptogram

inductive Direction
  | encrypt
  | decrypt
  deriving DecidableEq, Repr

namespace Direction

def all : List Direction := [.encrypt, .decrypt]

def name : Direction → String
  | .encrypt => "ENCRYPT"
  | .decrypt => "DECRYPT"

def hostName : Direction → String
  | .encrypt => "Encrypt"
  | .decrypt => "Decrypt"

def ofName? (name : String) : Option Direction := all.find? fun d => d.name = name

end Direction

end Cryptogram
