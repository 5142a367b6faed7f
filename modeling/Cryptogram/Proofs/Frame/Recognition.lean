import Cryptogram.Proofs.Frame.Keyed
import Cryptogram.Proofs.Frame.PasswordBased

/-!
# What frames are recognized by

`PasswordBased.layout` and `Keyed.layout` tell from the octets of a frame alone where its fields and
its ciphertext are, or what is wrong with it.  The readers of both kinds of frames find exactly this,
however few octets they are given at a time (`PasswordBased.openFrame_eq`, `Keyed.openFrame_eq`), and
what was read in search of a header is decrypted with the rest.  So decryption is a function of the
octets of a frame, and a frame without its header leaves nothing behind (`openFrame_eq_layout`).
-/

namespace Cryptogram

/-! ## Password-based frames -/

namespace PasswordBased

variable {method : Method} {kdf : KeyDerivation} {settings : Settings}

/-- The salt and the ciphertext of a frame. -/
def layout (method : Method) (kdf : KeyDerivation) (frame : Bytes) :
    Except Failure (Bytes × Bytes) :=
  if kdf = .opensslBytesToKey then
    if frame.length < 8 ∧ method.padSize ≠ 0 then .error (.undersized .saltHeader 8 frame.length)
    else if marker <+: frame then
      if frame.length < 16 then .error (.undersized .opensslSalt 16 frame.length)
      else .ok ((frame.drop 8).take 8, frame.drop 16)
    else .ok ([], frame)
  else
    let length := kdf.saltLength method
    if frame.length < length then .error (.undersized .salt length frame.length)
    else .ok (frame.take length, frame.drop length)

/-- Decryption of a frame that is there at once. -/
def decryptWhole (suite : Suite) (method : Method) (kdf : KeyDerivation) (password : Bytes)
    (settings : Settings) (frame : Bytes) : Transfer Unit := do
  let (salt, ciphertext) ← layout method kdf frame
  let derived ← Derivation.derive suite password salt kdf method settings
  let cipher ← suite.methodCipher method derived.key derived.iv
  cipher.decryptWhole method.padSize ciphertext

/-- What was found: the salt, and the ciphertext whether it was read already or not. -/
def found (opened : Opening × Source) : Bytes × Bytes :=
  (opened.1.salt, opened.1.head ++ opened.2.rest)

theorem map_found_openBare (length : Nat) (source : Source) :
    (openBare length source).map found =
      if source.rest.length < length then .error (.undersized .salt length source.rest.length)
      else .ok (source.rest.take length, source.rest.drop length) := by
  obtain ⟨-, behind⟩ := source.readExactly_eq length
  rw [openBare_eq]
  split_ifs
  · rfl
  · exact congrArg (Except.ok <| Prod.mk _ ·) behind

theorem map_found_openMarked (padded : Bool) (source : Source) :
    (openMarked padded source).map found =
      if source.rest.length < 8 ∧ padded = true then
        .error (.undersized .saltHeader 8 source.rest.length)
      else if marker <+: source.rest then
        if source.rest.length < 16 then .error (.undersized .opensslSalt 16 source.rest.length)
        else .ok ((source.rest.drop 8).take 8, source.rest.drop 16)
      else .ok ([], source.rest) := by
  obtain ⟨-, behind⟩ := source.readExactly_eq 8
  obtain ⟨-, behind'⟩ := (source.readExactly 8).2.readExactly_eq 8
  rw [behind, List.drop_drop] at behind'
  rw [openMarked_eq]
  split_ifs
  · rfl
  · rfl
  · exact congrArg (Except.ok <| Prod.mk _ ·) behind'
  · rw [Except.map, found]
    dsimp only
    rw [behind, List.take_append_drop]

/-- What is found in front of the ciphertext depends on the octets alone. -/
theorem openFrame_eq (method : Method) (kdf : KeyDerivation) (source : Source) :
    (openFrame method kdf source).map found = layout method kdf source.rest := by
  unfold openFrame layout
  by_cases openssl : kdf = .opensslBytesToKey
  · rw [if_pos openssl, if_pos openssl, map_found_openMarked]
    simp only [decide_eq_true_eq]
  · rw [if_neg openssl, if_neg openssl]
    exact map_found_openBare _ source

theorem passwordBased_of_check (h : check method kdf = .ok ()) : method.passwordBased = true := by
  unfold check at h
  split_ifs at h with other
  rw [Method.passwordBased, ← Bool.not_or, Bool.not_eq_true', ← Bool.not_eq_true]
  exact other

/-- What was read in search of the marker is decrypted with what follows. -/
theorem decrypt_eq (suite : Suite) (hb : 1 ≤ settings.bufferSize.toNat)
    (hm : method.passwordBased = true) (kdf : KeyDerivation) (password : Bytes) (source : Source) :
    decrypt suite method kdf password settings source =
      decryptWhole suite method kdf password settings source.rest := by
  unfold decrypt decryptWhole
  rw [← openFrame_eq]
  cases openFrame method kdf source with
  | error f => rfl
  | ok opened =>
    rw [Except.map, Transfer.lift_ok_bind, Transfer.lift_ok_bind]
    dsimp only [found]
    cases Derivation.derive suite password opened.1.salt kdf method settings with
    | error f => rfl
    | ok derived =>
      rw [Transfer.lift_ok_bind, Transfer.lift_ok_bind]
      cases hc : suite.methodCipher method derived.key derived.iv with
      | error f => rfl
      | ok c =>
        have serves := Suite.methodCipher_serves hc
        have framed := serves.framed
        rw [tagLength_of_passwordBased hm] at framed
        rw [Transfer.lift_ok_bind, Transfer.lift_ok_bind,
          StreamCipher.decryptPieces_flatten serves.fits framed, List.flatten_cons,
          opened.2.flatten_chunks hb]

end PasswordBased

/-! ## Keyed frames -/

namespace Keyed

variable {secret : Secret} {settings : Settings}

/-- The initial vector and the ciphertext behind a salt. -/
def layoutBehind (salt rest : Bytes) : Except Failure (Bytes × Bytes × Bytes) :=
  if rest.length < 22 then .error (.undersized .iv 22 rest.length)
  else if (rest.drop 16).take 6 ≠ ivDelimiter then .error .missingIvDelimiter
  else .ok (salt, rest.take 16, rest.drop 22)

/-- The salt, which a raw key has none of, the initial vector and the ciphertext of a frame. -/
def layout (secret : Secret) (frame : Bytes) : Except Failure (Bytes × Bytes × Bytes) :=
  match secret with
  | .raw _ => layoutBehind [] frame
  | .password _ _ =>
    if frame.length < 24 then .error (.undersized .salt 24 frame.length)
    else if (frame.drop 16).take 8 ≠ saltDelimiter then .error .missingSaltDelimiter
    else layoutBehind (frame.take 16) (frame.drop 24)

/-- Decryption of a frame that is there at once. -/
def decryptWhole (suite : Suite) (method : Method) (secret : Secret) (settings : Settings)
    (frame : Bytes) : Transfer Unit := do
  let (salt, iv, ciphertext) ← layout secret frame
  let key ← secret.key suite method settings salt
  let cipher ← suite.methodCipher method key iv
  cipher.decryptWhole method.padSize ciphertext

/-- What was found: the fields, and the ciphertext that was not read yet. -/
def found (opened : Bytes × Bytes × Source) : Bytes × Bytes × Bytes :=
  (opened.1, opened.2.1, opened.2.2.rest)

/-- Behind the salt, or where there is none, the initial vector is found. -/
theorem readField_iv_eq (salt : Bytes) (source : Source) :
    Except.map found (do
      let (iv, source) ← readField ivLength ivDelimiter .iv .missingIvDelimiter source
      return (salt, iv, source)) = layoutBehind salt source.rest := by
  obtain ⟨-, behind⟩ := source.readExactly_eq 22
  rw [readField_eq, layoutBehind, show ivLength = 16 from rfl, show ivDelimiter.length = 6 from rfl]
  by_cases short : source.rest.length < 22
  · rw [if_pos short, if_pos short]
    rfl
  by_cases undelimited : (source.rest.drop 16).take 6 ≠ ivDelimiter
  · rw [if_neg short, if_pos undelimited, if_neg short, if_pos undelimited]
    rfl
  · rw [if_neg short, if_neg undelimited, if_neg short, if_neg undelimited]
    exact congrArg (fun rest => Except.ok (salt, source.rest.take 16, rest)) behind

/-- What is found in front of the ciphertext depends on the octets alone. -/
theorem openFrame_eq (valid : secret.Valid) (source : Source) :
    (openFrame secret source).map found = layout secret source.rest := by
  cases secret with
  | raw key => exact readField_iv_eq [] source
  | password octets kdf =>
    obtain ⟨-, behind⟩ := source.readExactly_eq 24
    have width : kdf.ownSaltLength = 16 := ownSaltLength_of_strong valid
    unfold openFrame layout
    dsimp only [Secret.saltLength?]
    rw [readField_eq, width, show saltDelimiter.length = 8 from rfl]
    by_cases short : source.rest.length < 24
    · rw [if_pos short, if_pos short]
      rfl
    by_cases undelimited : (source.rest.drop 16).take 8 ≠ saltDelimiter
    · rw [if_neg short, if_pos undelimited, if_neg short, if_pos undelimited]
      rfl
    · rw [if_neg short, if_neg undelimited, if_neg short, if_neg undelimited, ← behind]
      exact readField_iv_eq (source.rest.take 16) _

theorem decrypt_eq (suite : Suite) (method : Method) (hb : 1 ≤ settings.bufferSize.toNat)
    (valid : secret.Valid) (source : Source) :
    decrypt suite method secret settings source =
      decryptWhole suite method secret settings source.rest := by
  unfold decrypt decryptWhole
  rw [← openFrame_eq valid]
  cases openFrame secret source with
  | error f => rfl
  | ok opened =>
    rw [Except.map, Transfer.lift_ok_bind, Transfer.lift_ok_bind]
    dsimp only [found]
    cases secret.key suite method settings opened.1 with
    | error f => rfl
    | ok key =>
      rw [Transfer.lift_ok_bind, Transfer.lift_ok_bind]
      cases hc : suite.methodCipher method key opened.2.1 with
      | error f => rfl
      | ok c =>
        have serves := Suite.methodCipher_serves hc
        rw [Transfer.lift_ok_bind, Transfer.lift_ok_bind,
          StreamCipher.decryptPieces_flatten serves.fits serves.framed,
          opened.2.2.flatten_chunks hb]

end Keyed

/-! ## Both kinds -/

/-- However a frame is read, what is found in it is what its octets say, and decryption is that of
the octets.  Without a header nothing is written, and the failure tells how many octets there are and
how many there should be, or which delimiter is missing. -/
theorem openFrame_eq_layout (suite : Suite) (method : Method) (kdf : KeyDerivation)
    {settings : Settings} (hb : 1 ≤ settings.bufferSize.toNat) (source : Source) :
    (PasswordBased.check method kdf = .ok () →
      (PasswordBased.openFrame method kdf source).map PasswordBased.found =
          PasswordBased.layout method kdf source.rest ∧
        ∀ password,
          PasswordBased.decrypt suite method kdf password settings source =
              PasswordBased.decryptWhole suite method kdf password settings source.rest ∧
            ∀ f, PasswordBased.layout method kdf source.rest = .error f →
              PasswordBased.decrypt suite method kdf password settings source = ⟨[], .error f⟩) ∧
      (∀ key password secret, Keyed.Secret.check method kdf key password = .ok secret →
        (Keyed.openFrame secret source).map Keyed.found = Keyed.layout secret source.rest ∧
          Keyed.decrypt suite method secret settings source =
            Keyed.decryptWhole suite method secret settings source.rest ∧
          ∀ f, Keyed.layout secret source.rest = .error f →
            Keyed.decrypt suite method secret settings source = ⟨[], .error f⟩) ∧
      (∀ what expected actual, (Failure.undersized what expected actual).kind = .own .undersizedInput ∧
        (Failure.undersized what expected actual).report.context =
          [("expected", .number expected), ("actual", .number actual)]) ∧
      Failure.missingSaltDelimiter.kind = .own .format ∧
      Failure.missingIvDelimiter.kind = .own .format := by
  refine ⟨fun made => ⟨PasswordBased.openFrame_eq method kdf source, fun password => ?_⟩,
    fun key password secret made => ?_, fun _ _ _ => ⟨rfl, rfl⟩, rfl, rfl⟩
  · have whole := PasswordBased.decrypt_eq suite hb (PasswordBased.passwordBased_of_check made)
      kdf password source
    refine ⟨whole, fun f absent => ?_⟩
    rw [whole, PasswordBased.decryptWhole, absent, Transfer.lift_error_bind]
  · obtain ⟨-, valid, -⟩ := Keyed.Secret.check_eq_ok_iff.1 made
    have whole := Keyed.decrypt_eq suite method hb valid source
    refine ⟨Keyed.openFrame_eq valid source, whole, fun f absent => ?_⟩
    rw [whole, Keyed.decryptWhole, absent, Transfer.lift_error_bind]

/-- Half of a salt behind the marker, and an initial vector with another delimiter behind it. -/
theorem openFrame_eq_layout_absent :
    1 ≤ ({} : Settings).bufferSize.toNat ∧
      PasswordBased.check .shaRc4Bits40 .opensslBytesToKey = .ok () ∧
      PasswordBased.decrypt .standard .shaRc4Bits40 .opensslBytesToKey (Text.utf8 "pw") {}
          ⟨PasswordBased.marker ++ [1, 2, 3, 4], 0, fun _ => some 1⟩ =
        ⟨[], .error (.undersized .opensslSalt 16 12)⟩ ∧
      Keyed.Secret.check .aesGcm .rawKey (some (Bytes.zeros 16)) none =
        .ok (.raw (Bytes.zeros 16)) ∧
      Keyed.decrypt .standard .aesGcm (.raw (Bytes.zeros 16)) {}
          ⟨Bytes.zeros 23, 0, fun _ => some 1⟩ = ⟨[], .error .missingIvDelimiter⟩ := by
  have buffer : 1 ≤ ({} : Settings).bufferSize.toNat := by decide
  have salted := openFrame_eq_layout .standard .shaRc4Bits40 .opensslBytesToKey buffer
    ⟨PasswordBased.marker ++ [1, 2, 3, 4], 0, fun _ => some 1⟩
  have keyed := openFrame_eq_layout .standard .aesGcm .rawKey buffer
    ⟨Bytes.zeros 23, 0, fun _ => some 1⟩
  exact ⟨buffer, rfl, ((salted.1 rfl).2 _).2 _ (by decide), rfl,
    (keyed.2.1 (some (Bytes.zeros 16)) none _ rfl).2.2 _ (by decide)⟩

end Cryptogram
