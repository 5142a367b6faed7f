import Cryptogram.Proofs.Cipher.WholeMessage
import Cryptogram.Proofs.Frame.Recognition

/-!
# Frames without a salt

Without a salt there is no marker in front of the ciphertext, and the ciphertext itself may begin like
one.  Such a frame loses sixteen octets to what looks like a header, while any decryption to the
content needs as many octets of ciphertext as the frame has (`length_of_decryptWhole`).  So the
content comes back exactly when the frame does not begin with the marker
(`decrypt_eq_content_iff`).
-/

namespace Cryptogram

namespace StreamCipher

variable {c : StreamCipher} {pad : Nat} {input message : Bytes}

/-- How many octets of ciphertext are decrypted to a message depends on the length of the message. -/
theorem length_of_decryptWhole (h : c.Fits) (hf : c.Framed pad 0) (hi : c.Invertible)
    (hd : c.decryptWhole pad input = ⟨message, .ok ()⟩) :
    input.length = (filled pad message).length := by
  obtain ⟨aligned, whole⟩ := eq_encrypted_of_decryptWhole h hf hi hd
  rw [hf.tag?_eq_none, Option.getD_none, List.append_nil] at whole
  rw [whole, length_encrypted h aligned]

/-- Without padding, all that makes whole blocks is the encryption of some message. -/
theorem exists_encrypted_eq (h : c.Fits) (hf : c.Framed 0 0) (hi : c.Invertible)
    (aligned : c.Aligned input) : ∃ message, c.encrypted 0 message = input := by
  obtain ⟨message, back⟩ : ∃ message, c.decryptWhole 0 input = ⟨message, .ok ()⟩ := by
    cases c with
    | chained cipher iv =>
      have blocks : cipher.size ∣ input.length := aligned
      refine ⟨Chaining.decrypt cipher iv (Buffered.whole cipher.size input), ?_⟩
      rw [decryptWhole, if_neg (not_not.2 blocks), if_pos rfl]
    | galois f nonce => exact absurd hf.2 (by decide)
    | _ => exact ⟨_, rfl⟩
  obtain ⟨-, whole⟩ := eq_encrypted_of_decryptWhole h hf hi back
  rw [hf.tag?_eq_none, Option.getD_none, List.append_nil] at whole
  exact ⟨message, whole.symm⟩

end StreamCipher

namespace PasswordBased

open StreamCipher (filled)

variable {suite : Suite} {method : Method} {settings settings' : Settings} {frame content : Bytes}

/-- A padded message is at least as long as the marker. -/
theorem length_marker_le_filled (hm : method.passwordBased = true) (padded : method.padSize ≠ 0)
    (content : Bytes) : 8 ≤ (filled method.padSize content).length := by
  have block : 8 ≤ method.padSize := by
    revert hm padded
    cases method <;> decide
  obtain ⟨n, pos, -, blocks, -, fill⟩ :=
    Padding.exists_pad_eq (Nat.pos_of_ne_zero padded) content
  rw [filled, if_neg padded, fill, List.length_append, List.length_replicate]
  exact block.trans (Nat.le_of_dvd (by omega) blocks)

theorem layout_of_unmarked (enough : method.padSize ≠ 0 → 8 ≤ frame.length)
    (unmarked : ¬ marker <+: frame) : layout method .opensslBytesToKey frame = .ok ([], frame) := by
  rw [layout, if_pos rfl, if_neg fun short => absurd (enough short.2) (by omega), if_neg unmarked]

/-- Behind the marker, the first sixteen octets are not taken for ciphertext. -/
theorem length_ciphertext_of_marked (marked : marker <+: frame) {salt ciphertext : Bytes}
    (h : layout method .opensslBytesToKey frame = .ok (salt, ciphertext)) :
    ciphertext.length + 16 = frame.length := by
  have eight : 8 ≤ frame.length := marked.length_le
  rw [layout, if_pos rfl, if_neg fun short => absurd short.1 (by omega), if_pos marked] at h
  split_ifs at h
  cases h
  rw [List.length_drop]
  omega

/-- What is decrypted behind a marker is not what as long a frame is the whole encryption of. -/
theorem decryptWhole_ne_of_marked (invertible : suite.Invertible) (hm : method.passwordBased = true)
    (marked : marker <+: frame) (whole : frame.length = (filled method.padSize content).length)
    (password : Bytes) : decryptWhole suite method .opensslBytesToKey password settings frame ≠
      ⟨content, .ok ()⟩ := by
  intro back
  unfold decryptWhole at back
  obtain ⟨⟨salt, ciphertext⟩, found, back⟩ := Transfer.exists_of_lift_bind back
  obtain ⟨derived, -, back⟩ := Transfer.exists_of_lift_bind back
  obtain ⟨c, built, back⟩ := Transfer.exists_of_lift_bind back
  have serves := Suite.methodCipher_serves built
  have framed := serves.framed
  rw [tagLength_of_passwordBased hm] at framed
  have less := length_ciphertext_of_marked marked found
  have same := StreamCipher.length_of_decryptWhole serves.fits framed (serves.invertible invertible)
    back
  omega

/-- Without a salt, a password stands for one cipher, whatever the content and the settings are. -/
structure Unsalted (suite : Suite) (method : Method) (password : Bytes) (c : StreamCipher) : Prop where
  fits : c.Fits
  framed : c.Framed method.padSize 0
  invertible : c.Invertible
  aligned : ∀ content, c.Aligned (filled method.padSize content)
  encrypt_eq : ∀ (settings : Settings) (source : Source), 1 ≤ settings.bufferSize.toNat →
    encrypt suite method .opensslBytesToKey password [] settings source =
      ⟨c.encrypted method.padSize source.rest, .ok ()⟩
  decryptWhole_eq : ∀ (settings : Settings) (frame : Bytes),
    layout method .opensslBytesToKey frame = .ok ([], frame) →
      decryptWhole suite method .opensslBytesToKey password settings frame =
        c.decryptWhole method.padSize frame

theorem exists_unsalted (invertible : suite.Invertible) (hm : method.passwordBased = true)
    (supported : method.supported = true) (password : String) :
    ∃ c, Unsalted suite method (Text.utf8 password) c := by
  obtain ⟨derived, c, made, built⟩ := exists_cipher suite hm supported
    (show KeyDerivation.forPassword.contains .opensslBytesToKey = true by decide) password [] {}
  have made' (settings : Settings) : Derivation.derive suite (Text.utf8 password) []
      .opensslBytesToKey method settings = .ok derived := made
  have serves := Suite.methodCipher_serves built
  have framed := serves.framed
  rw [tagLength_of_passwordBased hm] at framed
  refine ⟨c, serves.fits, framed, serves.invertible invertible,
    fun content => serves.aligned_filled fun e =>
      absurd e (ne_aesCbcUnpadded_of_passwordBased hm),
    fun settings source hb => encrypt_eq hm hb (made' settings) built source,
    fun settings frame unsalted => ?_⟩
  unfold decryptWhole
  rw [unsalted, Transfer.lift_ok_bind]
  dsimp only
  rw [made', Transfer.lift_ok_bind, built, Transfer.lift_ok_bind]

/-- Content that is encrypted with an empty salt comes back exactly when the frame does not happen to
begin with the marker. -/
theorem decrypt_eq_content_iff (invertible : suite.Invertible)
    (hb : 1 ≤ settings.bufferSize.toNat) (hb' : 1 ≤ settings'.bufferSize.toNat)
    (hm : method.passwordBased = true) (ht : method ≠ .shaTwofish) (password : String)
    (source : Source) (e : Entropy) :
    check method .opensslBytesToKey = .ok () ∧ ∃ frame,
      encryptFresh suite method .opensslBytesToKey (Text.utf8 password) (some []) settings source e =
          (⟨frame, .ok ()⟩, e) ∧
        ∀ source' : Source, source'.rest = frame →
          (decrypt suite method .opensslBytesToKey (Text.utf8 password) settings' source' =
              ⟨source.rest, .ok ()⟩ ↔ ¬ marker <+: frame) := by
  obtain ⟨c, unsalted⟩ := exists_unsalted invertible hm (supported_of_ne_shaTwofish hm ht) password
  have aligned := unsalted.aligned source.rest
  have width := StreamCipher.length_encrypted unsalted.fits aligned
  refine ⟨check_of_passwordBased hm (by decide), c.encrypted method.padSize source.rest,
    Prod.ext (unsalted.encrypt_eq settings source hb) rfl, fun source' rest => ?_⟩
  rw [decrypt_eq suite hb' hm, rest]
  constructor
  · exact fun back marked => decryptWhole_ne_of_marked invertible hm marked width _ back
  · intro unmarked
    have found := layout_of_unmarked
      (fun padded => width ▸ length_marker_le_filled hm padded _) unmarked
    have back := StreamCipher.decryptWhole_encrypted unsalted.fits unsalted.framed
      unsalted.invertible aligned
    rw [unsalted.framed.tag?_eq_none, Option.getD_none, List.append_nil] at back
    rw [unsalted.decryptWhole_eq settings' _ found, back]

/-- Nothing is encrypted to nothing, which is shorter than any header, and comes back. -/
theorem decrypt_eq_content_iff_nil :
    Suite.standard.Invertible ∧ 1 ≤ ({ bufferSize := 3 } : Settings).bufferSize.toNat ∧
      1 ≤ ({} : Settings).bufferSize.toNat ∧ Method.shaRc4Bits40.passwordBased = true ∧
      Method.shaRc4Bits40 ≠ .shaTwofish ∧
      encryptFresh .standard .shaRc4Bits40 .opensslBytesToKey (Text.utf8 "pw") (some [])
          { bufferSize := 3 } { rest := [] } ⟨fun _ => 0, 0, fun _ => 0⟩ =
        (⟨[], .ok ()⟩, ⟨fun _ => 0, 0, fun _ => 0⟩) ∧
      ∀ source : Source, source.rest = [] →
        decrypt .standard .shaRc4Bits40 .opensslBytesToKey (Text.utf8 "pw") {} source =
          ⟨[], .ok ()⟩ := by
  have buffer : 1 ≤ ({ bufferSize := 3 } : Settings).bufferSize.toNat := by decide
  have buffer' : 1 ≤ ({} : Settings).bufferSize.toNat := by decide
  obtain ⟨-, frame, encrypted, back⟩ := decrypt_eq_content_iff Suite.invertible_standard buffer
    buffer' (show Method.shaRc4Bits40.passwordBased = true by decide) (by decide) "pw"
    { rest := [] } ⟨fun _ => 0, 0, fun _ => 0⟩
  have frame_eq : frame = [] :=
    (congrArg (fun made => made.1.written) encrypted).symm.trans (by decide)
  subst frame_eq
  exact ⟨Suite.invertible_standard, buffer, buffer', by decide, by decide, encrypted,
    fun source rest => (back source rest).2 (by decide)⟩

/-- A method that does not pad makes every frame out of some content, so there is content that is
encrypted to the marker with anything behind it, and that does not come back. -/
theorem exists_content_of_marked (invertible : suite.Invertible)
    (hb : 1 ≤ settings.bufferSize.toNat) (hb' : 1 ≤ settings'.bufferSize.toNat)
    (hm : method.passwordBased = true) (unpadded : method.padSize = 0) (password : String)
    (tail : Bytes) :
    ∃ content, ∀ source : Source, source.rest = content →
      encrypt suite method .opensslBytesToKey (Text.utf8 password) [] settings source =
          ⟨marker ++ tail, .ok ()⟩ ∧
        ∀ source' : Source, source'.rest = marker ++ tail →
          decrypt suite method .opensslBytesToKey (Text.utf8 password) settings' source' ≠
            ⟨content, .ok ()⟩ := by
  have supported : method.supported = true := by
    revert hm unpadded
    cases method <;> decide
  obtain ⟨c, unsalted⟩ := exists_unsalted invertible hm supported password
  have framed := unsalted.framed
  have aligned := unsalted.aligned (marker ++ tail)
  rw [unpadded] at framed aligned
  rw [filled, if_pos rfl] at aligned
  obtain ⟨content, whole⟩ :=
    StreamCipher.exists_encrypted_eq unsalted.fits framed unsalted.invertible aligned
  rw [← unpadded] at whole
  have width := StreamCipher.length_encrypted unsalted.fits (unsalted.aligned content)
  refine ⟨content, fun source rest => ⟨?_, fun source' rest' => ?_⟩⟩
  · rw [unsalted.encrypt_eq settings source hb, rest, whole]
  · rw [whole] at width
    rw [decrypt_eq suite hb' hm, rest']
    exact decryptWhole_ne_of_marked invertible hm (List.prefix_append _ _) width _

end PasswordBased

end Cryptogram
