import Cryptogram.Failure
import Cryptogram.Text.Utf8

/-!
# Secrets

A password, passphrase or raw key.  Once it is cleared its octets are zeros, and nothing but its
length can be learned from it.
-/

namespace Cryptogram

/-- A secret. -/
structure Secret where
  content : Bytes
  cleared : Bool := false
  deriving DecidableEq, Repr

namespace Secret

/-! ## Making -/

/-- The secret with the octets of a text. -/
def ofText (encoding : Text.Encoding) (text : String) : Except Failure Secret :=
  match encoding.encode? text with
  | some octets => .ok ⟨octets, false⟩
  | none => .error .unencodable

/-- The secret that hexadecimal digits denote, with white space around them. -/
def ofHex (text : String) : Except Failure Secret :=
  match Text.ofHex (Text.strip text.toList) with
  | .ok octets => .ok ⟨octets, false⟩
  | .error fault => .error (.hexKey fault)

/-! ## Operations -/

/-- The secret after it was cleared. -/
def clear (s : Secret) : Secret := if s.cleared then s else ⟨Bytes.zeros s.content.length, true⟩

/-- The octets, unless the secret was cleared. -/
def octets (s : Secret) : Except Failure Bytes :=
  if s.cleared then .error .secretCleared else .ok s.content

/-- The text that the octets denote. -/
def decode (encoding : Text.Encoding) (s : Secret) : Except Failure String := do
  match encoding.decode? (← s.octets) with
  | some text => return text
  | none => .error .undecodable

def size (s : Secret) : Nat := s.content.length

def bits (s : Secret) : Nat := 8 * s.size

/-- Whether there is anything to keep secret. -/
def isSet (s : Secret) : Bool := !s.cleared && s.content ≠ []

/-- Whether the secret consists of these octets. -/
def hasOctets (octets : Bytes) (s : Secret) : Bool := !s.cleared && s.content == octets

/-- Whether two secrets are the same; a cleared one is the same as none. -/
def same (a b : Secret) : Bool := !a.cleared && !b.cleared && a.content == b.content

/-- What may be shown of a secret. -/
def text (s : Secret) : String :=
  let size := s.size
  if s.cleared then "SecretValue(<cleared>)" else s!"SecretValue(<{size} bytes>)"

/-! ## Sequences of operations -/

/-- An operation on a secret. -/
inductive Operation
  | octets
  | decode (encoding : Text.Encoding)
  | size
  | isSet
  | bits
  | isCleared
  | text
  | clear
  /-- The end of a scope, at which the secret is cleared. -/
  | leave
  /-- Asks within a scope whether the secret is there; at the end of the scope it is cleared. -/
  | scope
  | hasOctets (octets : Bytes)
  | same (other : Secret)
  /-- Compares the secret with a text, which it never equals. -/
  | isText (text : String)
  | hash

inductive Answer
  | nothing
  | octets (b : Bytes)
  | text (s : String)
  | number (n : Nat)
  | flag (b : Bool)
  deriving DecidableEq, Repr

/-- The answer of an operation. -/
def answer (s : Secret) : Operation → Except Failure Answer
  | .octets => s.octets.map .octets
  | .decode encoding => (s.decode encoding).map .text
  | .size => .ok (.number s.size)
  | .isSet => .ok (.flag s.isSet)
  | .bits => .ok (.number s.bits)
  | .isCleared => .ok (.flag s.cleared)
  | .text => .ok (.text s.text)
  | .clear => .ok .nothing
  | .leave => .ok .nothing
  | .scope => .ok (.flag !s.cleared)
  | .hasOctets octets => .ok (.flag (s.hasOctets octets))
  | .same other => .ok (.flag (s.same other))
  | .isText _ => .ok (.flag false)
  | .hash => .error .secretUnhashable

/-- The secret after an operation. -/
def after (s : Secret) : Operation → Secret
  | .clear => s.clear
  | .leave => s.clear
  | .scope => s.clear
  | _ => s

/-- The answers of operations one after the other. -/
def run : Secret → List Operation → List (Except Failure Answer)
  | _, [] => []
  | s, op :: rest => s.answer op :: run (s.after op) rest

end Secret

end Cryptogram
