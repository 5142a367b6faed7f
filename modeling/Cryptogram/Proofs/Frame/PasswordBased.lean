import Cryptogram.Frame.PasswordBased
import Cryptogram.Proofs.Cipher.Encryption
import Cryptogram.Proofs.Derivation
import Cryptogram.Proofs.Settings
import Cryptogram.Proofs.Suite

/-!
# Frames of password-based methods there and back

A salt of the length that the derivation asks for is found again in front of the ciphertext
(`openFrame_header`), and decryption of a frame gives the content back, in whatever pieces both sides
read (`decrypt_encryptFresh`).  In the other direction, what can be decrypted is a header with the
salt that is found in it and ciphertext (`openFrame_eq_ok`), and encryption of the content under that
salt writes it again (`encryptFresh_frameSalt`).
-/

namespace Cryptogram.PasswordBased

variable {method : Method} {kdf : KeyDerivation} {salt : Bytes}

/-! ## Readers -/

theorem openBare_eq (length : Nat) (source : Source) :
    openBare length source =
      if source.rest.length < length then .error (.undersized .salt length source.rest.length)
      else .ok (⟨source.rest.take length, []⟩, (source.readExactly length).2) := by
  obtain ⟨data, -⟩ := source.readExactly_eq length
  unfold openBare
  dsimp only
  rw [data, List.length_take]
  by_cases short : source.rest.length < length
  · have all : min length source.rest.length = source.rest.length := by omega
    rw [all, if_pos short]
  · rw [if_neg (by omega), if_neg short]

theorem openMarked_eq (padded : Bool) (source : Source) :
    openMarked padded source =
      if source.rest.length < 8 ∧ padded = true then
        .error (.undersized .saltHeader 8 source.rest.length)
      else if marker <+: source.rest then
        if source.rest.length < 16 then .error (.undersized .opensslSalt 16 source.rest.length)
        else .ok (⟨(source.rest.drop 8).take 8, []⟩, ((source.readExactly 8).2.readExactly 8).2)
      else .ok (⟨[], source.rest.take 8⟩, (source.readExactly 8).2) := by
  obtain ⟨data, behind⟩ := source.readExactly_eq 8
  obtain ⟨data', -⟩ := (source.readExactly 8).2.readExactly_eq 8
  rw [behind] at data'
  have width : (source.rest.take 8).length = min 8 source.rest.length := List.length_take
  have marked : source.rest.take 8 = marker ↔ marker <+: source.rest :=
    eq_comm.trans List.prefix_iff_eq_take.symm
  unfold openMarked
  dsimp only
  rw [show marker.length = 8 from rfl, show markedSaltLength = 8 from rfl, data, data', width]
  by_cases short : source.rest.length < 8 ∧ padded = true
  · have all : min 8 source.rest.length = source.rest.length := by omega
    rw [if_pos short, all, if_pos (by simpa using short)]
  have enough : ¬ (decide (min 8 source.rest.length < 8) && padded) = true := by
    rw [Bool.and_eq_true, decide_eq_true_eq]
    exact fun both => short ⟨by omega, both.2⟩
  rw [if_neg short, if_neg enough]
  by_cases salted : marker <+: source.rest
  · have eight : 8 ≤ source.rest.length := salted.length_le
    have width' : ((source.rest.drop 8).take 8).length = min 8 (source.rest.length - 8) := by
      rw [List.length_take, List.length_drop]
    rw [if_neg (not_not.2 (marked.2 salted)), if_pos salted, width']
    by_cases cut : source.rest.length < 16
    · have total : min 8 source.rest.length + min 8 (source.rest.length - 8) =
          source.rest.length := by omega
      rw [if_pos (by omega), if_pos cut, total]
    · rw [if_neg (by omega), if_neg cut]
  · rw [if_pos (mt marked.1 salted), if_neg salted]

theorem openBare_append {salt : Bytes} {length : Nat} (h : salt.length = length) {source : Source}
    {rest : Bytes} (hs : source.rest = salt ++ rest) :
    ∃ behind, openBare length source = .ok (⟨salt, []⟩, behind) ∧ behind.rest = rest := by
  obtain ⟨-, behind⟩ := source.readExactly_eq length
  have total := congrArg List.length hs
  rw [List.length_append] at total
  refine ⟨_, ?_, by rw [behind, hs, List.drop_left' h]⟩
  rw [openBare_eq, if_neg (by omega), hs, List.take_left' h]

theorem openMarked_append {salt : Bytes} (h : salt.length = markedSaltLength) {source : Source}
    {rest : Bytes} (hs : source.rest = marker ++ salt ++ rest) (padded : Bool) :
    ∃ behind, openMarked padded source = .ok (⟨salt, []⟩, behind) ∧ behind.rest = rest := by
  obtain ⟨-, behind⟩ := source.readExactly_eq 8
  obtain ⟨-, behind'⟩ := (source.readExactly 8).2.readExactly_eq 8
  have eight : salt.length = 8 := h
  have total := congrArg List.length hs
  rw [List.length_append, List.length_append, show marker.length = 8 from rfl, eight] at total
  rw [List.append_assoc] at hs
  have front : source.rest.drop 8 = salt ++ rest := by rw [hs]; rfl
  refine ⟨_, ?_, by rw [behind', behind, front, List.drop_left' eight]⟩
  rw [openMarked_eq, if_neg (by omega), if_pos (hs ▸ List.prefix_append _ _), if_neg (by omega),
    front, List.take_left' eight]

/-- What was put in front of the ciphertext is found there. -/
theorem openFrame_header (hk : KeyDerivation.forPassword.contains kdf = true)
    (h : salt.length = kdf.saltLength method) {source : Source} {rest : Bytes}
    (hs : source.rest = header kdf salt ++ rest) :
    ∃ behind, openFrame method kdf source = .ok (⟨salt, []⟩, behind) ∧ behind.rest = rest := by
  unfold openFrame
  cases kdf with
  | legacy => exact openBare_append h hs
  | opensslBytesToKey =>
    have ne : salt ≠ [] := List.ne_nil_of_length_eq_add_one h
    have front : header .opensslBytesToKey salt = marker ++ salt := by
      rw [header, if_pos rfl, if_neg ne]
    rw [front] at hs
    exact openMarked_append h hs _
  | _ => exact absurd hk (by decide)

/-- Of the settings, only the iterations have a part in the keys of frames. -/
theorem derive_congr (suite : Suite) (hk : KeyDerivation.forPassword.contains kdf = true)
    (password salt : Bytes) (method : Method) {settings settings' : Settings}
    (same : settings'.legacyIterations = settings.legacyIterations) :
    Derivation.derive suite password salt kdf method settings' =
      Derivation.derive suite password salt kdf method settings := by
  cases kdf with
  | legacy => rw [Derivation.derive, Derivation.derive, same]
  | opensslBytesToKey => rfl
  | _ => exact absurd hk (by decide)

theorem tagLength_of_passwordBased (hm : method.passwordBased = true) :
    Keyed.tagLength method = 0 := by
  cases method <;> first
    | rfl
    | exact absurd hm (by decide)

theorem ne_aesCbcUnpadded_of_passwordBased (hm : method.passwordBased = true) :
    method ≠ .aesCbcUnpadded := by
  rintro rfl
  cases hm

/-- A password and a salt stand for a key, and the key for a cipher. -/
theorem exists_cipher (suite : Suite) (hm : method.passwordBased = true)
    (supported : method.supported = true) (hk : KeyDerivation.forPassword.contains kdf = true)
    (password : String) (salt : Bytes) (settings : Settings) :
    ∃ derived c, Derivation.derive suite (Text.utf8 password) salt kdf method settings = .ok derived ∧
      suite.methodCipher method derived.key derived.iv = .ok c := by
  have notOpenPgp : method.isOpenPgp = false := by
    revert hm
    cases method <;> decide
  obtain ⟨derived, made, key, iv⟩ :=
    Derivation.exists_derive_password suite hm hk password salt settings
  obtain ⟨c, built⟩ := suite.exists_methodCipher ⟨supported, notOpenPgp, .inl key, iv⟩
  exact ⟨derived, c, made, built⟩

/-- Under a cipher that is there, the header is written and all of the content behind it. -/
theorem encrypt_eq {suite : Suite} {settings : Settings} (hm : method.passwordBased = true)
    (buffer : 1 ≤ settings.bufferSize.toNat) {password : Bytes} {derived : DerivedKey}
    {c : StreamCipher} (made : Derivation.derive suite password salt kdf method settings = .ok derived)
    (built : suite.methodCipher method derived.key derived.iv = .ok c) (source : Source) :
    encrypt suite method kdf password salt settings source =
      ⟨header kdf salt ++ c.encrypted method.padSize source.rest, .ok ()⟩ := by
  obtain ⟨s, written, -⟩ := (Suite.methodCipher_serves built).encryptPieces_chunks buffer source
    fun e => absurd e (ne_aesCbcUnpadded_of_passwordBased hm)
  unfold encrypt
  rw [made, Transfer.lift_ok_bind, Transfer.write_bind, built, Transfer.lift_ok_bind,
    Transfer.bind_of_ok written]
  simp

/-- Content of any length is put into a frame, from which it comes back. -/
theorem exists_frame {suite : Suite} (invertible : suite.Invertible) {settings settings' : Settings}
    (buffer : 1 ≤ settings.bufferSize.toNat) (buffer' : 1 ≤ settings'.bufferSize.toNat)
    (same : settings'.legacyIterations = settings.legacyIterations) (hm : method.passwordBased = true)
    (supported : method.supported = true) (hk : KeyDerivation.forPassword.contains kdf = true)
    (password : String) (h : salt.length = kdf.saltLength method) (content : Bytes) :
    ∃ frame,
      (∀ source : Source, source.rest = content →
        encrypt suite method kdf (Text.utf8 password) salt settings source = ⟨frame, .ok ()⟩) ∧
      ∀ source : Source, source.rest = frame →
        decrypt suite method kdf (Text.utf8 password) settings' source = ⟨content, .ok ()⟩ := by
  obtain ⟨derived, c, made, built⟩ := exists_cipher suite hm supported hk password salt settings
  have made' := (derive_congr suite hk (Text.utf8 password) salt method same).trans made
  have untagged := tagLength_of_passwordBased hm
  have serves := Suite.methodCipher_serves built
  set ciphertext := c.encrypted method.padSize content with hciphertext
  refine ⟨header kdf salt ++ ciphertext, ?_, ?_⟩
  · rintro source rfl
    exact encrypt_eq hm buffer made built source
  · intro source hs
    obtain ⟨behind, opened, rest⟩ := openFrame_header hk h hs
    have flat : ([] :: behind.chunks settings'.bufferSize.toNat).flatten =
        ciphertext ++ (c.tag? ciphertext).getD [] := by
      rw [List.flatten_cons, List.nil_append, behind.flatten_chunks buffer', rest,
        serves.tag?_of_untagged untagged, Option.getD_none, List.append_nil]
    have back := serves.decryptPieces_encrypted invertible
      (fun e => absurd e (ne_aesCbcUnpadded_of_passwordBased hm)) flat
    rw [untagged] at back
    unfold decrypt
    rw [opened, Transfer.lift_ok_bind]
    dsimp only
    rw [made', Transfer.lift_ok_bind, built, Transfer.lift_ok_bind, back]

/-! ## With a salt that is given or drawn -/

theorem supported_of_ne_shaTwofish (hm : method.passwordBased = true) (ht : method ≠ .shaTwofish) :
    method.supported = true := by
  revert hm ht
  cases method <;> decide

theorem check_of_passwordBased (hm : method.passwordBased = true)
    (hk : KeyDerivation.forPassword.contains kdf = true) : check method kdf = .ok () := by
  have kind : (method.keyed || method.isOpenPgp) = false := by
    revert hm
    cases method <;> decide
  rw [check, kind, hk]
  rfl

/-- Every method but the one without a cipher gives the content of a frame back, whatever salt is
given or drawn, and whatever pieces are read on either side. -/
theorem decrypt_encryptFresh {suite : Suite} (invertible : suite.Invertible)
    {settings settings' : Settings} (hs : settings.Accepted) (hs' : settings'.Accepted)
    (same : settings'.legacyIterations = settings.legacyIterations)
    (hm : method.passwordBased = true) (ht : method ≠ .shaTwofish)
    (hk : kdf ∈ KeyDerivation.forPassword) (password : String) {given : Option Bytes}
    (hg : ∀ salt ∈ given, salt.length = kdf.saltLength method) (source : Source) (e : Entropy) :
    check method kdf = .ok () ∧ ∃ frame e',
      encryptFresh suite method kdf (Text.utf8 password) given settings source e =
          (⟨frame, .ok ()⟩, e') ∧
        ∀ source' : Source, source'.rest = frame →
          decrypt suite method kdf (Text.utf8 password) settings' source' =
            ⟨source.rest, .ok ()⟩ := by
  have serves : KeyDerivation.forPassword.contains kdf = true := List.contains_iff_mem.2 hk
  have length : (e.drawUnless given (kdf.saltLength method)).1.length = kdf.saltLength method := by
    cases given with
    | none => exact e.length_peek _
    | some salt => exact hg salt rfl
  obtain ⟨frame, encrypted, decrypted⟩ := exists_frame invertible hs.bufferSize hs'.bufferSize same
    hm (supported_of_ne_shaTwofish hm ht) serves password length source.rest
  exact ⟨check_of_passwordBased hm serves, frame, _, Prod.ext (encrypted source rfl) rfl, decrypted⟩

/-- The marker as the salt and as the content, written octet by octet and read by five. -/
theorem decrypt_encryptFresh_marker :
    Suite.standard.Invertible ∧ ({} : Settings).Accepted ∧ ({ bufferSize := 5 } : Settings).Accepted ∧
      ({ bufferSize := 5 } : Settings).legacyIterations = ({} : Settings).legacyIterations ∧
      Method.sha256Aes256.passwordBased = true ∧ Method.sha256Aes256 ≠ .shaTwofish ∧
      KeyDerivation.opensslBytesToKey ∈ KeyDerivation.forPassword ∧
      (∀ salt ∈ some marker,
        salt.length = KeyDerivation.opensslBytesToKey.saltLength .sha256Aes256) ∧
      check .sha256Aes256 .opensslBytesToKey = .ok () ∧ ∃ frame e',
        encryptFresh .standard .sha256Aes256 .opensslBytesToKey (Text.utf8 "pw") (some marker) {}
            { rest := marker, limit := fun _ => some 1 } ⟨fun i => i.toUInt8, 0, fun _ => 0xff⟩ =
          (⟨frame, .ok ()⟩, e') ∧
        ∀ source : Source, source.rest = frame →
          decrypt .standard .sha256Aes256 .opensslBytesToKey (Text.utf8 "pw") { bufferSize := 5 }
            source = ⟨marker, .ok ()⟩ := by
  have accepted : ({} : Settings).Accepted := Settings.accepted_default
  have accepted' : ({ bufferSize := 5 } : Settings).Accepted :=
    Settings.accepted_of_bufferSize_pos (by decide)
  have length : ∀ salt ∈ some marker,
      salt.length = KeyDerivation.opensslBytesToKey.saltLength .sha256Aes256 := by
    rintro salt ⟨⟩
    decide
  exact ⟨Suite.invertible_standard, accepted, accepted', rfl, by decide, by decide, by decide, length,
    decrypt_encryptFresh Suite.invertible_standard accepted accepted' rfl (by decide) (by decide)
      (by decide) "pw" length { rest := marker, limit := fun _ => some 1 }
      ⟨fun i => i.toUInt8, 0, fun _ => 0xff⟩⟩

/-! ## Back and there -/

/-- The salt in front of a frame; input without the marker has none. -/
def frameSalt (method : Method) (kdf : KeyDerivation) (frame : Bytes) : Bytes :=
  if kdf = .opensslBytesToKey then
    if frame.take marker.length = marker then (frame.drop marker.length).take markedSaltLength else []
  else frame.take (kdf.saltLength method)

theorem openBare_eq_ok {length : Nat} {source behind : Source} {opening : Opening}
    (h : openBare length source = .ok (opening, behind)) :
    opening.salt = source.rest.take length ∧
      source.rest = opening.salt ++ (opening.head ++ behind.rest) := by
  obtain ⟨-, rest⟩ := source.readExactly_eq length
  rw [openBare_eq] at h
  split_ifs at h
  cases h
  exact ⟨rfl, by rw [List.nil_append, rest, List.take_append_drop]⟩

/-- Either the marker and a salt stand in front, or what was read there is ciphertext. -/
theorem openMarked_eq_ok {padded : Bool} {source behind : Source} {opening : Opening}
    (h : openMarked padded source = .ok (opening, behind)) :
    opening.salt = frameSalt method .opensslBytesToKey source.rest ∧
      source.rest = header .opensslBytesToKey opening.salt ++ (opening.head ++ behind.rest) := by
  obtain ⟨-, rest⟩ := source.readExactly_eq 8
  obtain ⟨-, rest'⟩ := (source.readExactly 8).2.readExactly_eq 8
  have marked : source.rest.take marker.length = marker ↔ marker <+: source.rest :=
    eq_comm.trans List.prefix_iff_eq_take.symm
  rw [openMarked_eq] at h
  unfold frameSalt header
  rw [if_pos rfl, if_pos rfl]
  split_ifs at h with short salted cut
  · cases h
    -- The header of an empty salt has no marker, so the salt must be seen not to be empty.
    have ne : (source.rest.drop 8).take 8 ≠ [] := by
      rw [Ne, List.take_eq_nil_iff, List.drop_eq_nil_iff]
      omega
    have front := List.take_append_drop marker.length source.rest
    rw [marked.2 salted] at front
    rw [if_pos (marked.2 salted), if_neg ne, rest', rest, List.nil_append, List.append_assoc,
      List.take_append_drop]
    exact ⟨rfl, front.symm⟩
  · cases h
    rw [if_neg (mt marked.1 salted), if_pos rfl, List.nil_append, rest, List.take_append_drop]
    exact ⟨rfl, rfl⟩

/-- What is found in front of the ciphertext stands there. -/
theorem openFrame_eq_ok (hk : KeyDerivation.forPassword.contains kdf = true)
    {source behind : Source} {opening : Opening}
    (h : openFrame method kdf source = .ok (opening, behind)) :
    opening.salt = frameSalt method kdf source.rest ∧
      source.rest = header kdf opening.salt ++ (opening.head ++ behind.rest) := by
  unfold openFrame at h
  cases kdf with
  | legacy => exact openBare_eq_ok h
  | opensslBytesToKey => exact openMarked_eq_ok h
  | _ => exact absurd hk (by decide)

/-- Whatever is decrypted without failure, encryption of the content under its salt writes again. -/
theorem encryptFresh_frameSalt {suite : Suite} (invertible : suite.Invertible)
    {settings settings' : Settings} (hs : settings.Accepted) (hs' : settings'.Accepted)
    (same : settings'.legacyIterations = settings.legacyIterations)
    (hm : method.passwordBased = true) (hk : kdf ∈ KeyDerivation.forPassword) {password : Bytes}
    {source source' : Source}
    (hd : decrypt suite method kdf password settings source = ⟨source'.rest, .ok ()⟩) (e : Entropy) :
    (∃ head behind,
      openFrame method kdf source = .ok (⟨frameSalt method kdf source.rest, head⟩, behind)) ∧
      encryptFresh suite method kdf password (some (frameSalt method kdf source.rest)) settings'
        source' e = (⟨source.rest, .ok ()⟩, e) := by
  have serves : KeyDerivation.forPassword.contains kdf = true := List.contains_iff_mem.2 hk
  have untagged := tagLength_of_passwordBased hm
  unfold decrypt at hd
  obtain ⟨⟨⟨salt, head⟩, behind⟩, opened, hd⟩ := Transfer.exists_of_lift_bind hd
  obtain ⟨derived, hkey, hd⟩ := Transfer.exists_of_lift_bind hd
  obtain ⟨c, hc, hd⟩ := Transfer.exists_of_lift_bind hd
  obtain ⟨used, layout⟩ := openFrame_eq_ok serves opened
  dsimp only at used layout hkey
  have fits := Suite.methodCipher_serves hc
  rw [← untagged] at hd
  obtain ⟨ciphertext, s, written, -, whole⟩ :=
    fits.encryptPieces_decrypted invertible hd (source'.flatten_chunks hs'.bufferSize)
  rw [List.flatten_cons, behind.flatten_chunks hs.bufferSize, fits.tag?_of_untagged untagged,
    Option.getD_none, List.append_nil] at whole
  have again : encrypt suite method kdf password salt settings' source' = ⟨source.rest, .ok ()⟩ := by
    unfold encrypt
    rw [derive_congr suite serves password salt method same, hkey, Transfer.lift_ok_bind,
      Transfer.write_bind, hc, Transfer.lift_ok_bind, Transfer.bind_of_ok written, layout, whole]
    simp
  rw [← used]
  exact ⟨⟨head, behind, opened⟩, Prod.ext again rfl⟩

/-- Input that is shorter than the marker has no salt. -/
theorem encryptFresh_frameSalt_unmarked :
    Suite.standard.Invertible ∧ ({} : Settings).Accepted ∧ ({ bufferSize := 1 } : Settings).Accepted ∧
      ({ bufferSize := 1 } : Settings).legacyIterations = ({} : Settings).legacyIterations ∧
      Method.shaRc4Bits40.passwordBased = true ∧
      KeyDerivation.opensslBytesToKey ∈ KeyDerivation.forPassword ∧
      frameSalt .shaRc4Bits40 .opensslBytesToKey [146, 223, 73] = [] ∧ ∃ content,
        decrypt .standard .shaRc4Bits40 .opensslBytesToKey (Text.utf8 "pw") {}
          { rest := [146, 223, 73] } = ⟨content, .ok ()⟩ ∧
        encryptFresh .standard .shaRc4Bits40 .opensslBytesToKey (Text.utf8 "pw") (some [])
            { bufferSize := 1 } { rest := content } ⟨fun _ => 0, 0, fun _ => 0⟩ =
          (⟨[146, 223, 73], .ok ()⟩, ⟨fun _ => 0, 0, fun _ => 0⟩) := by
  have accepted : ({} : Settings).Accepted := Settings.accepted_default
  have accepted' : ({ bufferSize := 1 } : Settings).Accepted :=
    Settings.accepted_of_bufferSize_pos (by decide)
  have unsalted : frameSalt .shaRc4Bits40 .opensslBytesToKey [146, 223, 73] = [] := by decide
  let content := (decrypt .standard .shaRc4Bits40 .opensslBytesToKey (Text.utf8 "pw") {}
    { rest := [146, 223, 73] }).written
  have opens : decrypt .standard .shaRc4Bits40 .opensslBytesToKey (Text.utf8 "pw") {}
      { rest := [146, 223, 73] } = ⟨({ rest := content } : Source).rest, .ok ()⟩ :=
    Transfer.ext rfl (by decide)
  have again := (encryptFresh_frameSalt Suite.invertible_standard accepted accepted' rfl (by decide)
    (by decide) opens ⟨fun _ => 0, 0, fun _ => 0⟩).2
  rw [unsalted] at again
  exact ⟨Suite.invertible_standard, accepted, accepted', rfl, by decide, by decide, unsalted, content,
    opens, again⟩

end Cryptogram.PasswordBased
