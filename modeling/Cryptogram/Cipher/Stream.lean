import Cryptogram.Cipher.Primitive
import Cryptogram.Direction
import Cryptogram.Mode.Chaining
import Cryptogram.Mode.Feedback
import Cryptogram.Mode.Galois
import Cryptogram.Mode.Rc4

/-!
# Ciphers over streams

A cipher under a key and an initial vector in one of the block modes, and the state of such a cipher
in the course of a message.
-/

namespace Cryptogram

/-- A cipher in a mode, ready to begin a message. -/
inductive StreamCipher
  | chained (cipher : BlockCipher) (iv : Bytes)
  | counter (f : BlockFunction) (nonce : Bytes)
  | galois (f : BlockFunction) (nonce : Bytes)
  | rc4 (key : Bytes)

/-- RC2 in chaining mode with an effective key length. -/
def Suite.chainedRc2 (suite : Suite) (effectiveBits : Int) (key iv : Bytes) :
    Except Failure StreamCipher :=
  let refuse (fault : Rc2Fault) : Except Failure StreamCipher :=
    .error (.rc2 fault (8 * key.length) effectiveBits)
  if key.length < 5 ∨ 128 < key.length then refuse (.keySize key.length)
  else if effectiveBits < 40 ∨ 1024 < effectiveBits then refuse (.effectiveBits effectiveBits)
  else if iv.length ≠ 8 then refuse .ivSize
  else .ok (.chained (suite.rc2 effectiveBits.toNat key) iv)

/-- The block cipher of a primitive that runs backwards too. -/
def Suite.bothWays (suite : Suite) (p : Primitive) (key : Bytes) : BlockCipher :=
  match p with
  | .tripleDes => suite.tripleDes key
  | _ => suite.aes key

/-- The cipher of a method under a key and an initial vector; the key is checked first. -/
def Suite.methodCipher (suite : Suite) (method : Method) (key iv : Bytes) :
    Except Failure StreamCipher :=
  if method.family = .rc2 then suite.chainedRc2 method.keyBits key iv
  else do
    let p ← method.family.primitiveFor key
    match method.mode with
    | .cbc =>
      if iv.length = method.blockSize then .ok (.chained (suite.bothWays p key) iv)
      else .error (.chainIvSize method iv.length)
    | .ctr =>
      if iv.length = method.blockSize then .ok (.counter (suite.forward p key) iv)
      else .error (.counterIvSize method iv.length)
    | .gcm =>
      if 8 ≤ iv.length ∧ iv.length ≤ 128 then .ok (.galois (suite.forward p key) iv)
      else .error .gcmIvSize
    | .stream => .ok (.rc4 key)
    | .none => .error (.noCipher method.family.name)

/-- Whether the cipher of a method can be built. -/
def Method.supported (m : Method) : Bool :=
  m.isOpenPgp || m.family = .rc2 ||
    match m.family.primitive? with
    | some p => p.accepts m.keyBits
    | none => false

/-- The state of a cipher in the course of a message. -/
inductive StreamState
  | chained (cipher : BlockCipher) (buffered : Buffered Bytes)
  | counter (f : BlockFunction) (nonce : Bytes) (position : Nat)
  /-- The ciphertext so far is kept, last piece first, for its tag. -/
  | galois (f : BlockFunction) (nonce : Bytes) (position : Nat) (pieces : List Bytes)
  | rc4 (state : Rc4.State)

namespace StreamCipher

/-- The state at the beginning of a message. -/
def start : StreamCipher → StreamState
  | .chained cipher iv => .chained cipher ⟨iv, []⟩
  | .counter f nonce => .counter f nonce 0
  | .galois f nonce => .galois f nonce 0 []
  | .rc4 key => .rc4 (Rc4.start key)

end StreamCipher

namespace StreamState

/-- Takes in a piece of the message and puts out what it yields. -/
def update (direction : Direction) (s : StreamState) (piece : Bytes) : Bytes × StreamState :=
  match s with
  | .chained cipher buffered =>
    let transform :=
      match direction with
      | .encrypt => Chaining.encryptor cipher
      | .decrypt => Chaining.decryptor cipher
    let (out, buffered) := buffered.update transform piece
    (out, .chained cipher buffered)
  | .counter f nonce position =>
    (Counter.apply f (Counter.wide nonce) position piece,
      .counter f nonce (position + piece.length))
  | .galois f nonce position pieces =>
    let out := Galois.apply f nonce position piece
    let encrypted :=
      match direction with
      | .encrypt => out
      | .decrypt => piece
    (out, .galois f nonce (position + piece.length) (encrypted :: pieces))
  | .rc4 state =>
    let (out, state) := Rc4.apply state piece
    (out, .rc4 state)

/-- Whether no block was begun; only chained ciphers have blocks. -/
def aligned : StreamState → Bool
  | .chained _ buffered => buffered.aligned
  | _ => true

/-- The tag of the ciphertext so far, in the mode that has tags. -/
def tag? : StreamState → Option Bytes
  | .galois f nonce _ pieces => some (Galois.tag f nonce pieces.reverse.flatten)
  | _ => none

/-- What pieces yield one after the other. -/
def feed (direction : Direction) : (s : StreamState) → List Bytes → Bytes × StreamState
  | s, [] => ([], s)
  | s, piece :: rest =>
    let (out, s) := s.update direction piece
    let (more, s) := feed direction s rest
    (out ++ more, s)

end StreamState

end Cryptogram
