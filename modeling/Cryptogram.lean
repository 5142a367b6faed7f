import Cryptogram.Keyring.Loader
import Cryptogram.Processor
import Cryptogram.Proofs.BlockCipher.Aes
import Cryptogram.Proofs.BlockCipher.Aes.Field
import Cryptogram.Proofs.BlockCipher.Basic
import Cryptogram.Proofs.BlockCipher.Rc2
import Cryptogram.Proofs.BlockCipher.TripleDes
import Cryptogram.Proofs.Cipher.Decryption
import Cryptogram.Proofs.Cipher.Encryption
import Cryptogram.Proofs.Cipher.Stream
import Cryptogram.Proofs.Cipher.WholeMessage
import Cryptogram.Proofs.Derivation
import Cryptogram.Proofs.Failure
import Cryptogram.Proofs.Frame.Keyed
import Cryptogram.Proofs.Frame.PasswordBased
import Cryptogram.Proofs.Frame.Recognition
import Cryptogram.Proofs.Frame.Unsalted
import Cryptogram.Proofs.Keyring.Loading
import Cryptogram.Proofs.Keyring.Recipients
import Cryptogram.Proofs.Keyring.Unlocking
import Cryptogram.Proofs.Mode.Chaining
import Cryptogram.Proofs.Mode.Counter
import Cryptogram.Proofs.Mode.Feedback
import Cryptogram.Proofs.Mode.Rc4
import Cryptogram.Proofs.Octets
import Cryptogram.Proofs.OpenPgp.Armor
import Cryptogram.Proofs.OpenPgp.EncryptedKey
import Cryptogram.Proofs.OpenPgp.Failures
import Cryptogram.Proofs.OpenPgp.ForeignMessage
import Cryptogram.Proofs.OpenPgp.Integrity
import Cryptogram.Proofs.OpenPgp.Message
import Cryptogram.Proofs.OpenPgp.PacketFraming
import Cryptogram.Proofs.OpenPgp.PacketReading
import Cryptogram.Proofs.OpenPgp.PacketWriting
import Cryptogram.Proofs.OpenPgp.PassphraseKeys
import Cryptogram.Proofs.OpenPgp.PublicKey
import Cryptogram.Proofs.OpenPgp.Sealed
import Cryptogram.Proofs.OpenPgp.SessionKey
import Cryptogram.Proofs.OpenPgp.SeveralPassphrases
import Cryptogram.Proofs.OpenPgp.StringToKey
import Cryptogram.Proofs.OpenPgp.UserId
import Cryptogram.Proofs.Outcomes
import Cryptogram.Proofs.Padding
import Cryptogram.Proofs.Plan
import Cryptogram.Proofs.Processor
import Cryptogram.Proofs.Resolution
import Cryptogram.Proofs.Settings
import Cryptogram.Proofs.Source
import Cryptogram.Proofs.Suite
import Cryptogram.Proofs.Text.Base64
import Cryptogram.Proofs.Text.Hex
import Cryptogram.Proofs.Text.Utf8
import Cryptogram.Proofs.Validation
import Cryptogram.Proofs.Validation.KeyLength
import Cryptogram.Proofs.Validation.Keyrings
import Cryptogram.Proofs.Validation.Passing
import Cryptogram.Proofs.Validation.Plans
import Cryptogram.Proofs.Validation.Rules
import Cryptogram.Proofs.Validation.Secrecy
import Cryptogram.Proofs.Word
import Cryptogram.Proofs.Cache
import Cryptogram.Proofs.Keyring.Memory
import Cryptogram.Proofs.OpenPgp.ArmoredMessage
import Cryptogram.Proofs.OpenPgp.PublicKeyMessage
import Cryptogram.Proofs.Validation.Influence
import Cryptogram.Proofs.Clearing
import Cryptogram.Proofs.Authenticated
import Cryptogram.Proofs.OpenPgp.ArmoredText
import Cryptogram.Proofs.OpenPgp.Nesting
import Cryptogram.Proofs.OpenPgp.Unprotected
import Cryptogram.Proofs.OpenPgp.Compressed
import Cryptogram.Proofs.OpenPgp.DamagedArmor
import Cryptogram.Proofs.OpenPgp.PublicKeyPacket
import Cryptogram.Proofs.OpenPgp.IrrelevantPackets
import Cryptogram.Proofs.OpenPgp.LiteralData
import Cryptogram.Proofs.Derivation.HashChain
import Cryptogram.Proofs.Derivation.WorkingBuffer
import Cryptogram.Proofs.Validation.Relaxing
import Cryptogram.Proofs.Keyring.Opening
import Cryptogram.Proofs.Keyring.Selection
import Cryptogram.Proofs.OpenPgp.RoundedCount
import Cryptogram.Proofs.Derivation.BcryptSalt
import Cryptogram.Proofs.Mode.Calls
import Cryptogram.Proofs.Properties
