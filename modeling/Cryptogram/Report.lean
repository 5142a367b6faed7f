import Cryptogram.Text.Quoted

/-!
# Reports of failures

The classes of the library's failures form a tree.  A report names a class, or a kind of failure
outside the tree, and holds a message with context; its text shows the message and then the context
in parentheses.
-/

namespace Cryptogram

/-- A class of failures of the library itself. -/
inductive ErrorClass
  | any
  /-- Settings that are missing, invalid or in conflict. -/
  | configuration
  | validationFailed
  | keyring
  | keyringNotFound
  | keyringFormat
  | publicKeyNotFound
  | keyringPassphrase
  /-- Input without the expected layout. -/
  | format
  | undersizedInput
  | pgpFormat
  | armor
  /-- A failed cryptographic operation. -/
  | crypto
  | unsupportedAlgorithm
  | cipherInitialization
  | decryption
  | integrity
  | sessionKey
  deriving DecidableEq, Repr

namespace ErrorClass

def all : List ErrorClass :=
  [.any, .configuration, .validationFailed, .keyring, .keyringNotFound, .keyringFormat,
    .publicKeyNotFound, .keyringPassphrase, .format, .undersizedInput, .pgpFormat, .armor, .crypto,
    .unsupportedAlgorithm, .cipherInitialization, .decryption, .integrity, .sessionKey]

def name : ErrorClass → String
  | .any => "EncryptContentError"
  | .configuration => "ConfigurationError"
  | .validationFailed => "ValidationFailedError"
  | .keyring => "KeyringError"
  | .keyringNotFound => "KeyringNotFoundError"
  | .keyringFormat => "KeyringFormatError"
  | .publicKeyNotFound => "PublicKeyNotFoundError"
  | .keyringPassphrase => "KeyringPassphraseError"
  | .format => "FormatError"
  | .undersizedInput => "UndersizedInputError"
  | .pgpFormat => "PGPFormatError"
  | .armor => "ArmorError"
  | .crypto => "CryptoError"
  | .unsupportedAlgorithm => "UnsupportedAlgorithmError"
  | .cipherInitialization => "CipherInitializationError"
  | .decryption => "DecryptionError"
  | .integrity => "IntegrityError"
  | .sessionKey => "SessionKeyError"

def ofName? (name : String) : Option ErrorClass := all.find? fun c => c.name = name

/-- The class together with every class above it, from the bottom up. -/
def lineage : ErrorClass → List ErrorClass
  | .any => [.any]
  | .configuration => [.configuration, .any]
  | .validationFailed => [.validationFailed, .configuration, .any]
  | .keyring => [.keyring, .configuration, .any]
  | .keyringNotFound => [.keyringNotFound, .keyring, .configuration, .any]
  | .keyringFormat => [.keyringFormat, .keyring, .configuration, .any]
  | .publicKeyNotFound => [.publicKeyNotFound, .keyring, .configuration, .any]
  | .keyringPassphrase => [.keyringPassphrase, .keyring, .configuration, .any]
  | .format => [.format, .any]
  | .undersizedInput => [.undersizedInput, .format, .any]
  | .pgpFormat => [.pgpFormat, .format, .any]
  | .armor => [.armor, .pgpFormat, .format, .any]
  | .crypto => [.crypto, .any]
  | .unsupportedAlgorithm => [.unsupportedAlgorithm, .crypto, .any]
  | .cipherInitialization => [.cipherInitialization, .crypto, .any]
  | .decryption => [.decryption, .crypto, .any]
  | .integrity => [.integrity, .crypto, .any]
  | .sessionKey => [.sessionKey, .crypto, .any]

end ErrorClass

/-- A kind of failure outside the classes of the library. -/
inductive OutsideKind
  /-- A value outside the domain of an operation. -/
  | value
  /-- A value of the wrong type. -/
  | wrongType
  /-- Octets that are no text in the encoding at hand. -/
  | decoding
  /-- A text that the encoding at hand cannot express. -/
  | encoding
  /-- A number without a representation. -/
  | overflow
  | zeroDivision
  /-- An operation that the value at hand does not have. -/
  | missingOperation
  | unknownKey
  /-- An operation at the wrong time. -/
  | wrongState
  /-- A number that does not fit its field. -/
  | fieldOverflow
  /-- A refused key stretching. -/
  | stretching
  /-- Too many levels of nesting. -/
  | recursion
  deriving DecidableEq, Repr

inductive ErrorKind
  | own (c : ErrorClass)
  | outside (k : OutsideKind)
  deriving DecidableEq, Repr

/-- Whether the failure belongs to a class or to one below it. -/
def ErrorKind.isA (kind : ErrorKind) (c : ErrorClass) : Bool :=
  match kind with
  | .own d => d.lineage.contains c
  | .outside _ => false

/-- A value in the context of a message. -/
inductive ContextValue
  | text (s : String)
  | number (n : Int)
  | flag (b : Bool)
  | absent
  deriving DecidableEq, Repr

/-- The value as it stands in the text of a report. -/
def ContextValue.show : ContextValue → String
  | .text s => Text.quoted s
  | .number n => toString n
  | .flag true => "True"
  | .flag false => "False"
  | .absent => "None"

/-- The context of a message, in order. -/
abbrev Context := List (String × ContextValue)

/-- What is said about a failure.  There is no message where the words are not the library's. -/
structure Report where
  kind : ErrorKind
  message : Option String
  context : Context := []
  deriving DecidableEq, Repr

namespace Report

/-- The context in parentheses behind a message. -/
def withContext (message : String) (context : Context) : String :=
  if context.isEmpty then message
  else
    let shown := ", ".intercalate (context.map fun (key, value) => key ++ "=" ++ value.show)
    s!"{message} ({shown})"

def text? (r : Report) : Option String := r.message.map fun m => withContext m r.context

end Report

end Cryptogram
