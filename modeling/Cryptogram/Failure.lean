import Cryptogram.Finding
import Cryptogram.KeyDerivation
import Cryptogram.OpenPgp.Algorithm
import Cryptogram.Report
import Cryptogram.Settings
import Cryptogram.Text.Hex

/-!
# Failures

Every way in which an operation of the library can fail is a constructor named for the cause.
`Failure.report` gives each cause its kind, its message and its context.
-/

namespace Cryptogram

/-- A violated rule on execution plans. -/
inductive PlanFault
  /-- Not exactly one key source. -/
  | keySources (count : Nat)
  | rawKeyMisplaced (method : Method) (kdf : KeyDerivation)
  | keyringMisplaced (method : Method)
  | publicKeyToDecrypt
  | privateKeysToEncrypt
  | passwordTooWeaklyDerived (method : Method) (kdf : KeyDerivation)
  deriving DecidableEq, Repr

/-- What is wrong with the parameters of RC2. -/
inductive Rc2Fault
  | keySize (size : Nat)
  | effectiveBits (bits : Int)
  | ivSize
  deriving DecidableEq, Repr

/-- What a message is too short to contain. -/
inductive Missing
  | tag
  | saltHeader
  | opensslSalt
  | salt
  | iv
  deriving DecidableEq, Repr

/-- A cause of failure. -/
inductive Failure
  /-- A failure that arose elsewhere and is passed on with its report. -/
  | reported (class_ : ErrorClass) (message : String) (context : Context)
  -- Values and records
  | settings (fault : SettingsFault)
  | plan (fault : PlanFault)
  | cacheSize
  | unknownProperty (key : String)
  | unknownField
  | wrongType
  | missingOperation
  | infiniteNumber
  | unknownNumber
  | octetRange
  | negativeNumber
  | fieldOverflow
  -- Secrets and text
  | secretCleared
  | secretUnhashable
  | hexKey (fault : Text.HexFault)
  | undecodable
  | unencodable
  -- Key derivation
  | withoutPassword (kdf : KeyDerivation)
  | notPasswordBased (method : Method)
  | noPasswordDigest (method : Method)
  | scryptMemory (n r : Int)
  | bcryptSalt
  | argon2Refused
  | nothingToHash
  | zeroModulus
  -- Ciphers
  | noCipher (family : String)
  | keySize (family : Family) (bits : Nat) (cipher : String)
  | rc2 (fault : Rc2Fault) (keyBits : Nat) (effectiveBits : Int)
  | noSymmetric (algorithm : Symmetric)
  | symmetricKeySize (algorithm : Symmetric) (bits : Nat) (cipher : String)
  | chainIvSize (method : Method) (size : Nat)
  | counterIvSize (method : Method) (size : Nat)
  | gcmIvSize
  | feedbackIvSize
  | paddingSize
  | untaggedMode
  | partialBlock
  | unalignedInput
  | unalignedCiphertext
  | badPadding
  | tagMismatch
  -- Frames
  | undersized (what : Missing) (expected actual : Nat)
  | missingSaltDelimiter
  | missingIvDelimiter
  | cannotFrame (kdf : KeyDerivation)
  | notKeyed (method : Method)
  | rawKeyMissing (method : Method)
  | rawKeyBits (method : Method) (bits : Nat)
  | notStrong (method : Method) (kdf : KeyDerivation)
  | passwordMissing (method : Method) (kdf : KeyDerivation)
  -- OpenPGP packets
  | armorMalformed
  | armorChecksum (expected computed : Nat)
  | packetHeader (octet : UInt8) (offset : Nat)
  | lengthMissing (offset : Nat)
  | twoOctetLengthCut (offset : Nat)
  | fiveOctetLengthCut (offset : Nat)
  | oldLengthCut (offset : Nat)
  | bodyCut (need have_ offset : Nat)
  | skeskShort (size : Nat)
  | skeskVersion (version : Nat)
  | unknownSymmetric (id : Nat)
  | pkeskShort (size : Nat)
  | pkeskVersion (version : Nat)
  | unknownPublicKey (id : Nat)
  | literalShort (size : Nat)
  | literalCut
  | literalFormat (format : String)
  | literalFormatLength
  | compressedEmpty
  | unknownCompression (id : Nat)
  | decompression (algorithm : Compression)
  | mpiShort
  | mpiCut (need have_ : Int)
  | s2kCut
  | s2kSaltCut
  | s2kCountMissing
  | s2kType (type : Nat)
  | s2kTypeUnwritable (type : Int)
  | unknownHash (id : Nat)
  | s2kKeySize (size : Int)
  -- OpenPGP messages
  | sessionKeySize (algorithm : Symmetric) (size : Nat)
  | noEncryptionKey
  | unexpectedPacket (tag : Nat)
  | noEncryptedData
  | noSkesk
  | noSkeskForPassword (skesks pkesks : Nat)
  | noKeyForRecipients (skesks pkesks : Nat)
  | noDecryptionKey (skesks pkesks : Nat)
  | sessionKeyAlgorithm
  | sessionKeyLength (algorithm : Symmetric)
  | payloadShort (size : Nat)
  | payloadAlgorithm (id : Nat)
  | payloadKeySize (size : Nat) (algorithm : Symmetric)
  | payloadChecksum
  | noSessionKeyFits
  | seipdEmpty
  | seipdVersion (version : Nat)
  | encryptedShort (size least : Nat)
  | feedbackCheck
  | mdcHeader (octets : Bytes)
  | mdcMismatch
  | unexpectedInner (tag : Nat)
  | noLiteral
  | nestedTooDeeply
  | payloadTooLong
  -- Keyrings
  | keyringMissing (location : String)
  | keyringUnreadable (location : String)
  | locationUnusable
  | keyringMalformed (location : String)
  | keyringEmpty (location : String)
  | noPublicKey (location : String)
  | severalPublicKeys (count : Nat) (location : String)
  | noRsaKey (location : String)
  | noSecretKeys (location : String)
  | cannotUnlock (location : String)
  | wrongPassphrase (location : String)
  | rsaNumbers
  -- Validation
  | invalid (findings : List Finding)
  deriving DecidableEq, Repr

/-- What a violated rule on plans demands. -/
def PlanFault.message : PlanFault → String
  | .keySources count => s!"Exactly one key source must be set, got {count}"
  | .rawKeyMisplaced method kdf =>
    let name := method.name
    let kdf := kdf.name
    s!"A raw key requires a keyed cipher with KDF None, not {name}/{kdf}"
  | .keyringMisplaced method =>
    let name := method.name
    s!"Keyrings are only used with PGP, not {name}"
  | .publicKeyToDecrypt => "A public key is only used to encrypt"
  | .privateKeysToEncrypt => "A private keyring is only used to decrypt"
  | .passwordTooWeaklyDerived method kdf =>
    let name := method.name
    let kdf := kdf.name
    s!"A password with {name} requires a strong KDF, not {kdf}"

/-- What is wrong with the parameters. -/
def Rc2Fault.message : Rc2Fault → String
  | .keySize size => s!"Incorrect ARC2 key length ({size} bytes)"
  | .effectiveBits bits =>
    s!"'effective_key_len' must be at least 40 and no larger than 1024 (not {bits})"
  | .ivSize => "Incorrect IV length (it must be 8 bytes long)"

def Missing.message : Missing → String
  | .tag => "Input is too short to contain an authentication tag"
  | .saltHeader => "Input is too short to contain a salt header or a cipher block"
  | .opensslSalt => "Input is too short to contain the OpenSSL salt"
  | .salt => "Input is too short to contain the salt"
  | .iv => "Input is too short to contain the IV"

namespace Failure

/-- The report on a failure of one of the library's classes. -/
def own (c : ErrorClass) (message : String) (context : Context := []) : Report :=
  ⟨.own c, some message, context⟩

/-- The report on a failure outside the classes, with the library's words. -/
def value (k : OutsideKind) (message : String) : Report := ⟨.outside k, some message, []⟩

/-- The report on a failure without words of the library. -/
def silent (k : OutsideKind) : Report := ⟨.outside k, none, []⟩

/-- The report on a failure of a class of keyring failures. -/
def ofKeyring (c : ErrorClass) (message location : String) : Report :=
  own c message [("keyring", .text location)]

/-- The counts of session key packets, as context. -/
def packetCounts (skesks pkesks : Nat) : Context :=
  [("skesk_count", .number skesks), ("pkesk_count", .number pkesks)]

/-- What is said about a failure. -/
def report : Failure → Report
  | .reported c message context => own c message context
  | .settings fault => value .value fault.message
  | .plan fault => value .value fault.message
  | .cacheSize => value .value "max_size must be positive"
  | .unknownProperty key => value .unknownKey s!"Unknown property: {key}"
  | .unknownField => silent .wrongType
  | .wrongType => silent .wrongType
  | .missingOperation => silent .missingOperation
  | .infiniteNumber => silent .overflow
  | .unknownNumber => silent .value
  | .octetRange => silent .value
  | .negativeNumber => silent .overflow
  | .fieldOverflow => silent .fieldOverflow
  | .secretCleared => value .wrongState "SecretValue has been cleared"
  | .secretUnhashable => value .wrongType "SecretValue is not hashable"
  | .hexKey .notAscii => silent .value
  | .hexKey .oddLength => value .value "Invalid hexadecimal key: Odd-length string"
  | .hexKey .notDigit => value .value "Invalid hexadecimal key: Non-hexadecimal digit found"
  | .undecodable => silent .decoding
  | .unencodable => silent .encoding
  | .withoutPassword kdf =>
    let shown := kdf.displayName
    own .unsupportedAlgorithm s!"{shown} does not derive keys from a password"
      [("kdf", .text kdf.name)]
  | .notPasswordBased method =>
    let name := method.name
    own .unsupportedAlgorithm s!"{name} is not a password-based method" [("method", .text name)]
  | .noPasswordDigest method =>
    let name := method.name
    own .unsupportedAlgorithm s!"{name} has no password-based digest" [("method", .text name)]
  | .scryptMemory n r =>
    own .cipherInitialization "Scrypt parameters exceed available memory"
      [("n", .number n), ("r", .number r)]
  | .bcryptSalt => silent .value
  | .argon2Refused => silent .stretching
  | .nothingToHash => silent .zeroDivision
  | .zeroModulus => silent .zeroDivision
  | .noCipher family =>
    own .unsupportedAlgorithm s!"No implementation for cipher {family}" [("cipher", .text family)]
  | .keySize family bits cipher =>
    let name := family.name
    own .cipherInitialization s!"Invalid key for {name}: Invalid key size ({bits}) for {cipher}."
      [("cipher", .text name), ("key_bits", .number bits)]
  | .rc2 fault keyBits effectiveBits =>
    let why := fault.message
    own .cipherInitialization s!"Invalid key or IV for RC2: {why}"
      [("cipher", .text "RC2"), ("key_bits", .number keyBits),
        ("effective_bits", .number effectiveBits)]
  | .noSymmetric algorithm =>
    let name := algorithm.name
    own .unsupportedAlgorithm s!"No implementation for OpenPGP cipher {name}"
      [("algorithm", .number algorithm.id)]
  | .symmetricKeySize algorithm bits cipher =>
    let name := algorithm.name
    own .cipherInitialization s!"Invalid key for {name}: Invalid key size ({bits}) for {cipher}."
      [("algorithm", .number algorithm.id)]
  | .chainIvSize method size =>
    let name := method.name
    own .cipherInitialization s!"Invalid IV for {name}: Invalid IV size ({size}) for CBC."
      [("method", .text name), ("iv_length", .number size)]
  | .counterIvSize method size =>
    let name := method.name
    own .cipherInitialization s!"Invalid IV for {name}: Invalid nonce size ({size}) for CTR."
      [("method", .text name), ("iv_length", .number size)]
  | .gcmIvSize => silent .value
  | .feedbackIvSize => silent .value
  | .paddingSize => silent .value
  | .untaggedMode => silent .missingOperation
  | .partialBlock =>
    value .value "The length of the provided data is not a multiple of the block length."
  | .unalignedInput => own .format "Input length is not a multiple of the cipher block size"
  | .unalignedCiphertext =>
    own .format "Ciphertext length is not a multiple of the cipher block size"
  | .badPadding =>
    own .decryption "Invalid padding, the key or password is probably wrong"
  | .tagMismatch => own .integrity "Authentication tag verification failed"
  | .undersized what expected actual =>
    own .undersizedInput what.message [("expected", .number expected), ("actual", .number actual)]
  | .missingSaltDelimiter => own .format "Missing salt delimiter" [("delimiter", .text "NiFiSALT")]
  | .missingIvDelimiter => own .format "Missing IV delimiter" [("delimiter", .text "NiFiIV")]
  | .cannotFrame kdf =>
    let shown := kdf.displayName
    own .unsupportedAlgorithm s!"{shown} cannot frame password-based ciphertext"
      [("kdf", .text kdf.name)]
  | .notKeyed method =>
    let name := method.name
    own .unsupportedAlgorithm s!"{name} is not a keyed cipher" [("method", .text name)]
  | .rawKeyMissing method =>
    own .cipherInitialization "A raw key is required when the KDF is None"
      [("method", .text method.name)]
  | .rawKeyBits method bits =>
    own .cipherInitialization s!"Raw key must be 128, 192 or 256 bits, got {bits}"
      [("method", .text method.name)]
  | .notStrong method kdf =>
    let name := method.name
    let shown := kdf.displayName
    own .unsupportedAlgorithm s!"{shown} cannot be used with keyed cipher {name}"
      [("method", .text name), ("kdf", .text kdf.name)]
  | .passwordMissing method kdf =>
    let shown := kdf.displayName
    own .cipherInitialization s!"A password is required with {shown}" [("method", .text method.name)]
  | .armorMalformed => own .armor "Invalid ASCII armor: *"
  | .armorChecksum expected computed =>
    own .armor "Armor checksum mismatch"
      [("expected", .text (String.ofList (Text.hexDigits 6 expected))),
        ("computed", .text (String.ofList (Text.hexDigits 6 computed)))]
  | .packetHeader octet offset =>
    let shown := Text.hex [octet]
    own .pgpFormat s!"Invalid packet header: 0x{shown}" [("offset", .number offset)]
  | .lengthMissing offset => own .pgpFormat "Missing length byte" [("offset", .number offset)]
  | .twoOctetLengthCut offset =>
    own .pgpFormat "Incomplete two-byte length" [("offset", .number offset)]
  | .fiveOctetLengthCut offset =>
    own .pgpFormat "Incomplete five-byte length" [("offset", .number offset)]
  | .oldLengthCut offset =>
    own .pgpFormat "Incomplete old format length" [("offset", .number offset)]
  | .bodyCut need have_ offset =>
    own .pgpFormat s!"Packet body truncated: need {need} bytes, have {have_}"
      [("offset", .number offset)]
  | .skeskShort size => own .pgpFormat s!"SKESK body too short: {size} bytes"
  | .skeskVersion version => own .pgpFormat s!"Unsupported SKESK version: {version}"
  | .unknownSymmetric id => own .pgpFormat s!"Unknown symmetric algorithm: {id}"
  | .pkeskShort size => own .pgpFormat s!"PKESK body too short: {size} bytes"
  | .pkeskVersion version => own .pgpFormat s!"Unsupported PKESK version: {version}"
  | .unknownPublicKey id => own .pgpFormat s!"Unknown public key algorithm: {id}"
  | .literalShort size => own .pgpFormat s!"Literal data packet too short: {size} bytes"
  | .literalCut => own .pgpFormat "Literal data header truncated"
  | .literalFormat format =>
    let shown := Text.quoted format
    value .value s!"Unknown literal data format: {shown}"
  | .literalFormatLength => silent .wrongType
  | .compressedEmpty => own .pgpFormat "Compressed data packet is empty"
  | .unknownCompression id => own .pgpFormat s!"Unknown compression algorithm: {id}"
  | .decompression algorithm =>
    let name := algorithm.name
    own .pgpFormat s!"Failed to decompress {name} data: *"
  | .mpiShort => own .pgpFormat "MPI too short"
  | .mpiCut need have_ => own .pgpFormat s!"MPI data incomplete: need {need}, have {have_}"
  | .s2kCut => own .pgpFormat "S2K specifier truncated"
  | .s2kSaltCut => own .pgpFormat "S2K salt truncated"
  | .s2kCountMissing => own .pgpFormat "S2K count missing"
  | .s2kType type => own .pgpFormat s!"Unsupported S2K type: {type}"
  | .s2kTypeUnwritable type => value .value s!"Unsupported S2K type: {type}"
  | .unknownHash id => own .pgpFormat s!"Unknown S2K hash algorithm: {id}"
  | .s2kKeySize size => value .value s!"S2K key size must be at most 32 bytes, got {size}"
  | .sessionKeySize algorithm size =>
    let name := algorithm.name
    let expected := algorithm.keySize
    value .value s!"{name} session key must be {expected} bytes, got {size}"
  | .noEncryptionKey => own .sessionKey "A password or a public key is required to encrypt"
  | .unexpectedPacket tag =>
    own .pgpFormat s!"Unexpected packet before encrypted data: tag {tag}"
  | .noEncryptedData => own .pgpFormat "No encrypted data packet found"
  | .noSkesk => own .pgpFormat "Message has no symmetric-key encrypted session key packet"
  | .noSkeskForPassword skesks pkesks =>
    own .sessionKey "Message has no password-encrypted session key" (packetCounts skesks pkesks)
  | .noKeyForRecipients skesks pkesks =>
    own .sessionKey "No private key in the keyring matches the message recipients"
      (packetCounts skesks pkesks)
  | .noDecryptionKey skesks pkesks =>
    own .sessionKey "A password or a private keyring is required to decrypt"
      (packetCounts skesks pkesks)
  | .sessionKeyAlgorithm =>
    own .sessionKey "Session key algorithm is invalid, the passphrase is probably wrong"
  | .sessionKeyLength algorithm =>
    own .sessionKey "Session key length is invalid, the passphrase is probably wrong"
      [("algorithm", .text algorithm.name)]
  | .payloadShort size => own .sessionKey s!"Session key payload too short: {size} bytes"
  | .payloadAlgorithm id => own .sessionKey s!"Unknown symmetric algorithm: {id}"
  | .payloadKeySize size algorithm =>
    let name := algorithm.name
    own .sessionKey s!"Session key size {size} does not match {name}"
  | .payloadChecksum => own .sessionKey "Session key checksum mismatch"
  | .noSessionKeyFits => own .decryption "No session key decrypted the message"
  | .seipdEmpty => own .pgpFormat "SEIPD packet is empty"
  | .seipdVersion version => own .pgpFormat s!"Unsupported SEIPD version: {version}"
  | .encryptedShort size least =>
    own .pgpFormat s!"Encrypted data too short: {size} < {least}"
  | .feedbackCheck =>
    own .decryption "CFB prefix verification failed, the key or passphrase is probably wrong"
  | .mdcHeader octets =>
    let shown := Text.hex octets
    own .integrity s!"Invalid MDC header: {shown}"
  | .mdcMismatch =>
    own .integrity "MDC verification failed, data may be corrupted or tampered"
  | .unexpectedInner tag => own .pgpFormat s!"Unexpected packet in decrypted data: tag {tag}"
  | .noLiteral => own .pgpFormat "Decrypted data has no literal data packet"
  | .nestedTooDeeply => silent .recursion
  | .payloadTooLong => silent .value
  | .keyringMissing location =>
    ofKeyring .keyringNotFound s!"FileNotFoundError: {location}" location
  | .keyringUnreadable location => ofKeyring .keyring "Unable to read keyring: *" location
  | .locationUnusable => silent .value
  | .keyringMalformed location =>
    ofKeyring .keyringFormat "Invalid OpenPGP keyring format: *" location
  | .keyringEmpty location =>
    ofKeyring .keyringFormat "Invalid OpenPGP keyring format: no keys found" location
  | .noPublicKey location =>
    ofKeyring .publicKeyNotFound "Could not find a public key with the given userId" location
  | .severalPublicKeys count location =>
    ofKeyring .publicKeyNotFound s!"Found {count} public keys matching the given userId" location
  | .noRsaKey location =>
    ofKeyring .publicKeyNotFound "The public key for the given userId has no RSA encryption key"
      location
  | .noSecretKeys location =>
    ofKeyring .keyringFormat "Keyring does not contain any secret keys" location
  | .cannotUnlock location =>
    ofKeyring .keyringFormat "Unable to unlock secret key: *" location
  | .wrongPassphrase location =>
    ofKeyring .keyringPassphrase
      "Private Keyring File could not be opened with the provided Private Keyring Passphrase" location
  | .rsaNumbers => silent .value
  | .invalid findings =>
    let summary := "; ".intercalate (findings.map Finding.text)
    own .validationFailed s!"Configuration is invalid: {summary}"

def kind (f : Failure) : ErrorKind := f.report.kind

/-- The message without its context. -/
def message? (f : Failure) : Option String := f.report.message

def text? (f : Failure) : Option String := f.report.text?

/-- Whether the failure belongs to one of the library's classes. -/
def isOwn (f : Failure) : Bool := f.kind.isA .any

end Failure

end Cryptogram
