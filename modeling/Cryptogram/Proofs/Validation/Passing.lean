import Cryptogram.Proofs.Failure
import Cryptogram.Proofs.Validation

/-!
# Checks that are passed

A check of properties is passed if it comes to an end without findings.  Each check is described by
what it asks and by the resolution behind it; behind the choices and the policy, the family of the
method decides (`passes_evaluate_iff_checkFamily`).
-/

namespace Cryptogram

/-- The cipher that a value chooses for messages: the one with its number, or without a value the
one that stands otherwise. -/
inductive HostValue.Selects (standing : Symmetric) : HostValue → Symmetric → Prop
  | absent : Selects standing .absent standing
  | empty : Selects standing (.text "") standing
  | number {value : HostValue} {a : Symmetric} (offered : a ∈ Symmetric.offered)
      (number : value.integer? = .ok (some a.id)) (supported : a.supported = true) :
      Selects standing value a

namespace Resolution

variable {suite : Suite} {source : KeyringSource} {settings : Settings} {m : Method}
  {k : KeyDerivation} {p : Properties} {r r' : Resolution} {value : HostValue}

/-! ## Checks that are passed -/

/-- A check that comes to an end without findings. -/
def Passes (checked : Except Failure Resolution) (r' : Resolution) : Prop :=
  checked = .ok r' ∧ r'.findings = []

theorem passes_ok : Passes (.ok r) r' ↔ r.findings = [] ∧ r' = r := by
  unfold Passes
  constructor
  · rintro ⟨same, clean⟩
    cases same
    exact ⟨clean, rfl⟩
  · rintro ⟨clean, rfl⟩
    exact ⟨rfl, clean⟩

theorem not_passes_error {f : Failure} : ¬ Passes (.error f) r' := by
  rintro ⟨h, -⟩
  cases h

theorem not_passes (found : r.findings ≠ []) : ¬ Passes (.ok r) r' :=
  fun h => found (passes_ok.1 h).1

theorem passes_bind {α : Type} {x : Except Failure α} {next : α → Except Failure Resolution} :
    Passes (x >>= next) r' ↔ ∃ a, x = .ok a ∧ Passes (next a) r' := by
  cases x with
  | error f => exact iff_of_false not_passes_error (by simp)
  | ok a => simp [bind, Except.bind]

/-- The resolution with a password. -/
def withPassword (password : String) (r : Resolution) : Resolution :=
  { r.keep ⟨Text.utf8 password, false⟩ with password := some r.vault.next }

/-- The resolution with a raw key. -/
def withRawKey (key : Bytes) (r : Resolution) : Resolution :=
  { r.keep ⟨key, false⟩ with rawKey := some r.vault.next }

theorem passes_givenPassword (set : value.isSet = true) :
    Passes (r.givenPassword settings value) r' ↔
      r.findings = [] ∧ settings.AcceptsPassword r.allowWeak value ∧
        ∃ s, value = .text s ∧ r' = r.withPassword s := by
  cases value with
  | text s =>
    have accepts : settings.AcceptsPassword r.allowWeak (.text s) ↔
        ¬((Text.utf8 s).length < settings.minPasswordLength ∧ !r.allowWeak) := by
      constructor
      · rintro ⟨_, ⟨⟩, -, weak | long⟩ ⟨short, strict⟩
        · simp [weak] at strict
        · omega
      · intro holds
        refine ⟨s, rfl, of_decide_eq_true set, ?_⟩
        by_cases short : ((Text.utf8 s).length : Int) < settings.minPasswordLength
        · exact .inl (by simpa [short] using holds)
        · exact .inr (not_lt.1 short)
    unfold givenPassword acceptPassword
    dsimp only
    rw [accepts]
    split_ifs with weak
    · exact iff_of_false (not_passes (findings_fail .password _ .absent r)) fun all => all.2.1 weak
    · rw [passes_ok, and_iff_right weak]
      simp only [HostValue.text.injEq, exists_eq_left']
      rfl
  | _ =>
    refine iff_of_false not_passes_error ?_
    rintro ⟨-, -, s, ⟨⟩, -⟩

theorem passes_acceptRawKey {octets : Bytes} :
    Passes (.ok (r.acceptRawKey settings ⟨octets, false⟩)) r' ↔
      r.findings = [] ∧ 8 * octets.length ∈ Method.rawKeyBits ∧
        settings.Permits (8 * octets.length) ∧ r' = r.withRawKey octets := by
  have bits : Secret.bits ⟨octets, false⟩ = 8 * octets.length := rfl
  unfold acceptRawKey
  dsimp only
  rw [bits, ← and_assoc (a := _ ∈ _), ← rawKeyFault?_eq_none_iff]
  cases rawKeyFault? settings (8 * octets.length) with
  | none =>
    rw [passes_ok, and_iff_right rfl]
    rfl
  | some explanation =>
    refine iff_of_false (not_passes (findings_fail .rawKey explanation .absent _)) ?_
    rintro ⟨-, ⟨⟩, -⟩

theorem passes_checkRawKey :
    Passes (r.checkRawKey settings m k value) r' ↔
      r.findings = [] ∧ ∃ s octets, value = .text s ∧ Text.ofHex (Text.strip s.toList) = .ok octets ∧
        8 * octets.length ∈ Method.rawKeyBits ∧ settings.Permits (8 * octets.length) ∧
          r' = r.withRawKey octets := by
  unfold checkRawKey
  dsimp only
  split_ifs with unset
  · refine iff_of_false (not_passes (findings_fail _ _ _ _)) ?_
    rintro ⟨-, s, octets, rfl, digits, bits, -⟩
    obtain rfl : s = "" := by simpa [HostValue.isSet] using unset
    cases digits
    exact absurd bits (by decide)
  · cases value with
    | text s =>
      dsimp only
      unfold Secret.ofHex
      cases denoted : Text.ofHex (Text.strip s.toList) with
      | error fault =>
        refine iff_of_false (not_passes (findings_fail _ _ _ _)) ?_
        rintro ⟨-, _, octets, ⟨⟩, found, -⟩
        rw [denoted] at found
        cases found
      | ok octets => simp [passes_acceptRawKey, denoted]
    | _ =>
      refine iff_of_false not_passes_error ?_
      rintro ⟨-, s, octets, ⟨⟩, -⟩

/-! ## Families of methods -/

theorem passes_checkKeyed :
    Passes (r.checkKeyed settings m p) r' ↔
      (r.kdf = none ∧ Passes (.ok r) r') ∨
        (r.kdf = some .rawKey ∧ Passes (r.checkRawKey settings m .rawKey p.rawKey) r') ∨
          (∃ k, r.kdf = some k ∧ k.strong = true) ∧ p.password.isSet = true ∧
            Passes (r.givenPassword settings p.password) r' := by
  unfold checkKeyed
  cases r.kdf with
  | none => simp
  | some k =>
    simp only [reduceCtorEq, false_and, false_or, Option.some.injEq, exists_eq_left']
    split_ifs with foreign raw unset
    · have neither : k ≠ .rawKey ∧ k.strong ≠ true := by
        cases k <;> first
          | decide
          | exact absurd foreign (by decide)
      exact iff_of_false (not_passes (findings_fail _ _ _ _)) (by simp [neither])
    · have weak : k.strong ≠ true := by
        rw [raw]
        decide
      rw [or_iff_left fun all => weak all.1, and_iff_right raw, raw]
    · refine iff_of_false (not_passes (findings_fail _ _ _ _)) ?_
      rintro (⟨isRaw, -⟩ | ⟨-, set, -⟩)
      · exact raw isRaw
      · simp [set] at unset
    · have strong : k.strong = true := by
        cases k <;> first
          | rfl
          | exact absurd rfl raw
          | exact absurd (by decide) foreign
      have set : p.password.isSet = true := by simpa using unset
      rw [or_iff_right fun both => raw both.1, and_iff_right strong, and_iff_right set]

theorem passes_checkPasswordBased :
    Passes (r.checkPasswordBased settings m p) r' ↔
      (∀ k ∈ r.kdf, k ∈ KeyDerivation.forPassword) ∧ p.password.isSet = true ∧
        Passes (r.givenPassword settings p.password) r' := by
  unfold checkPasswordBased
  dsimp only
  split_ifs with unset
  · refine iff_of_false (not_passes (findings_fail _ _ _ _)) fun all => ?_
    simp [all.2.1] at unset
  have set : p.password.isSet = true := by simpa using unset
  rw [and_iff_right set, passes_bind]
  constructor
  · rintro ⟨next, given, passes⟩
    rw [kdf_of_givenPassword given] at passes
    cases chosen : r.kdf with
    | none =>
      rw [chosen] at passes
      cases passes.1
      exact ⟨by simp, given, passes.2⟩
    | some k =>
      rw [chosen] at passes
      dsimp only at passes
      split_ifs at passes with serves
      · cases passes.1
        refine ⟨?_, given, passes.2⟩
        rintro _ ⟨⟩
        exact List.contains_iff_mem.1 serves
      · exact absurd passes (not_passes (findings_fail _ _ _ _))
  · rintro ⟨serves, given, clean⟩
    refine ⟨r', given, ?_⟩
    rw [kdf_of_givenPassword given]
    cases chosen : r.kdf with
    | none => exact ⟨rfl, clean⟩
    | some k =>
      dsimp only
      rw [if_pos (List.contains_iff_mem.2 (serves k chosen))]
      exact ⟨rfl, clean⟩

/-! ## OpenPGP -/

theorem selects_of_unset {standing a : Symmetric} (unset : value = .absent ∨ value = .text "") :
    value.Selects standing a ↔ a = standing := by
  constructor
  · rintro (- | - | ⟨-, number, -⟩)
    · rfl
    · rfl
    · rcases unset with rfl | rfl <;> cases number
  · rintro rfl
    rcases unset with rfl | rfl
    · exact .absent
    · exact .empty

theorem selects_of_set {standing a : Symmetric} (present : value ≠ .absent)
    (nonempty : value ≠ .text "") :
    value.Selects standing a ↔
      ∃ n, value.integer? = .ok (some n) ∧ offered? n = some a ∧ a.supported = true := by
  constructor
  · rintro (- | - | ⟨offered, number, supported⟩)
    · exact absurd rfl present
    · exact absurd rfl nonempty
    · exact ⟨_, number, offered?_eq_some_iff.2 ⟨offered, rfl⟩, supported⟩
  · rintro ⟨n, number, found, supported⟩
    obtain ⟨offered, rfl⟩ := offered?_eq_some_iff.1 found
    exact .number offered number supported

theorem passes_checkCipher :
    Passes (r.checkCipher value) r' ↔
      r.findings = [] ∧ ∃ a, value.Selects r.cipher a ∧ r' = { r with cipher := a } := by
  unfold checkCipher
  split
  · simp only [passes_ok, selects_of_unset (.inl rfl), exists_eq_left]
  · simp only [passes_ok, selects_of_unset (.inr rfl), exists_eq_left]
  rename_i present nonempty
  simp only [selects_of_set present nonempty]
  rw [passes_bind]
  constructor
  · rintro ⟨number, read, passes⟩
    cases number with
    | none => exact absurd passes (not_passes (findings_fail _ _ _ _))
    | some n =>
      dsimp only at passes
      cases found : offered? n with
      | none =>
        rw [found] at passes
        exact absurd passes (not_passes (findings_fail _ _ _ _))
      | some a =>
        rw [found] at passes
        dsimp only at passes
        split_ifs at passes with supported
        · obtain ⟨clean, same⟩ := passes_ok.1 passes
          exact ⟨clean, a, ⟨n, read, found, supported⟩, same⟩
        · exact absurd passes (not_passes (findings_fail _ _ _ _))
  · rintro ⟨clean, a, ⟨n, read, found, supported⟩, rfl⟩
    refine ⟨some n, read, ?_⟩
    dsimp only
    rw [found]
    dsimp only
    rw [if_pos supported]
    exact passes_ok.2 ⟨clean, rfl⟩

theorem not_passes_failKeyring {subject : Field} {location : HostValue} {f : Failure} :
    ¬ Passes (r.failKeyring subject location f) r' := by
  unfold failKeyring
  split
  · split_ifs
    · exact not_passes (findings_fail _ _ _ _)
    · exact not_passes_error
  · exact not_passes_error

theorem passes_checkRecipient :
    Passes (r.checkRecipient suite source m p) r' ↔
      r.findings = [] ∧ p.publicKeyring.isSet = true ∧ p.publicKeyUserId.isSet = true ∧
        ∃ key, recipient suite source p.publicKeyring p.publicKeyUserId = .ok key ∧
          r' = { r with publicKey := some key } := by
  unfold checkRecipient
  split_ifs with unset
  · refine iff_of_false (not_passes (findings_fail _ _ _ _)) ?_
    rintro ⟨-, ring, user, -⟩
    simp [ring, user] at unset
  simp only [Bool.or_eq_true, Bool.not_eq_true', not_or, Bool.not_eq_false] at unset
  rw [and_iff_right unset.1, and_iff_right unset.2]
  cases recipient suite source p.publicKeyring p.publicKeyUserId with
  | ok key => simp [passes_ok]
  | error f => exact iff_of_false not_passes_failKeyring (by simp)

/-- The resolution with the keys of a keyring, whose passphrase is cleared. -/
def withPrivateKeyring (passphrase : String) (keys : PrivateKeyring) (r : Resolution) : Resolution :=
  { r with
    vault := (r.vault.keep ⟨Text.utf8 passphrase, false⟩).clear r.vault.next
    privateKeyring := some keys }

theorem passes_checkPrivateKeyring :
    Passes (r.checkPrivateKeyring suite source m p) r' ↔
      r.findings = [] ∧ p.privateKeyring.isSet = true ∧
        ∃ passphrase keys, p.privateKeyringPassphrase = .text passphrase ∧ passphrase ≠ "" ∧
          source.privateKeys suite p.privateKeyring passphrase = .ok keys ∧
            r' = r.withPrivateKeyring passphrase keys := by
  unfold checkPrivateKeyring
  split_ifs with unset
  · refine iff_of_false (not_passes (findings_fail _ _ _ _)) ?_
    rintro ⟨-, ring, passphrase, keys, given, ne, -⟩
    rw [given, HostValue.isSet_text ne, ring] at unset
    cases unset
  simp only [Bool.or_eq_true, Bool.not_eq_true', not_or, Bool.not_eq_false] at unset
  rw [and_iff_right unset.1]
  cases given : p.privateKeyringPassphrase with
  | text passphrase =>
    have ne : passphrase ≠ "" := by
      rw [given] at unset
      exact of_decide_eq_true unset.2
    have opened : (do
        let data ← source p.privateKeyring
        Keyring.readPrivate suite p.privateKeyring.display (Text.utf8 passphrase) data) =
        source.privateKeys suite p.privateKeyring passphrase := rfl
    dsimp only
    rw [opened]
    simp only [HostValue.text.injEq, exists_and_left, exists_eq_left', and_iff_right ne]
    cases source.privateKeys suite p.privateKeyring passphrase with
    | ok keys =>
      simp only [Except.ok.injEq, exists_eq_left', passes_ok]
      rfl
    | error f => exact iff_of_false not_passes_failKeyring (by simp)
  | _ =>
    refine iff_of_false not_passes_error ?_
    rintro ⟨-, passphrase, keys, ⟨⟩, -⟩

/-- What is asked for messages once their cipher is known. -/
def checkOpenPgpKey (suite : Suite) (source : KeyringSource) (m : Method) (p : Properties)
    (r : Resolution) : Except Failure Resolution :=
  if p.password.isSet then
    match p.password with
    | .text s => .ok (r.withPassword s)
    | _ => .error .wrongType
  else match r.mode with
    | none => .ok r
    | some .encrypt => r.checkRecipient suite source m p
    | some .decrypt => r.checkPrivateKeyring suite source m p

/-- The rules for OpenPGP ask for the cipher first. -/
theorem checkOpenPgp_eq (suite : Suite) (source : KeyringSource) (m : Method) (p : Properties)
    (r : Resolution) : r.checkOpenPgp suite source m p =
      r.checkCipher p.cipher >>= checkOpenPgpKey suite source m p :=
  rfl

theorem passes_checkOpenPgpKey :
    Passes (r.checkOpenPgpKey suite source m p) r' ↔
      (p.password.isSet = true ∧
        r.findings = [] ∧ ∃ s, p.password = .text s ∧ r' = r.withPassword s) ∨
      (p.password.isSet = false ∧
        ((r.mode = none ∧ Passes (.ok r) r') ∨
          (r.mode = some .encrypt ∧ Passes (r.checkRecipient suite source m p) r') ∨
          (r.mode = some .decrypt ∧ Passes (r.checkPrivateKeyring suite source m p) r'))) := by
  unfold checkOpenPgpKey
  split_ifs with set
  · rw [and_iff_right set, or_iff_left fun both => by simp [both.1] at set]
    cases p.password with
    | text s =>
      simp only [HostValue.text.injEq, exists_eq_left', passes_ok]
      rfl
    | _ => exact iff_of_false not_passes_error (by simp)
  · rw [or_iff_right fun both => set both.1, and_iff_right (Bool.eq_false_iff.2 set)]
    cases r.mode with
    | none => simp
    | some d => cases d <;> simp

theorem clean_of_passes_checkOpenPgpKey (h : Passes (r.checkOpenPgpKey suite source m p) r') :
    r.findings = [] := by
  obtain ⟨-, clean, -⟩ | ⟨-, ⟨-, passes⟩ | ⟨-, passes⟩ | ⟨-, passes⟩⟩ := passes_checkOpenPgpKey.1 h
  · exact clean
  · exact (passes_ok.1 passes).1
  · exact (passes_checkRecipient.1 passes).1
  · exact (passes_checkPrivateKeyring.1 passes).1

theorem passes_checkOpenPgp :
    Passes (r.checkOpenPgp suite source m p) r' ↔ ∃ a, p.cipher.Selects r.cipher a ∧
      Passes (checkOpenPgpKey suite source m p { r with cipher := a }) r' := by
  rw [checkOpenPgp_eq, passes_bind]
  constructor
  · rintro ⟨next, checked, passes⟩
    have clean := clean_of_passes_checkOpenPgpKey passes
    obtain ⟨-, a, selects, rfl⟩ := passes_checkCipher.1 ⟨checked, clean⟩
    exact ⟨a, selects, passes⟩
  · rintro ⟨a, selects, passes⟩
    have clean := clean_of_passes_checkOpenPgpKey passes
    have checked : Passes (r.checkCipher p.cipher) { r with cipher := a } :=
      passes_checkCipher.2 ⟨clean, a, selects, rfl⟩
    exact ⟨_, checked.1, passes⟩

/-! ## All rules -/

/-- What the family of a method asks. -/
def checkFamily (suite : Suite) (settings : Settings) (source : KeyringSource) (m : Method)
    (p : Properties) (r : Resolution) : Except Failure Resolution :=
  if m.isOpenPgp then r.checkOpenPgp suite source m p
  else if m.keyed then r.checkKeyed settings m p
  else r.checkPasswordBased settings m p

/-- Behind the choices and the policy, the family of the method is asked. -/
theorem evaluate_of_method (found : methods.choose? p.algorithm = some m) :
    evaluate suite settings source p =
      ((ofChoices p).checkPolicy settings m).checkFamily suite settings source m p := by
  unfold evaluate
  dsimp only
  rw [method_ofChoices, found]
  rfl

theorem evaluate_of_no_method (found : methods.choose? p.algorithm = none) :
    evaluate suite settings source p = .ok (ofChoices p) := by
  unfold evaluate
  dsimp only
  rw [method_ofChoices, found]

/-- Behind a finding nothing passes. -/
theorem clean_of_passes_checkFamily (h : Passes (r.checkFamily suite settings source m p) r') :
    r.findings = [] := by
  have given (set : p.password.isSet = true)
      (passes : Passes (r.givenPassword settings p.password) r') : r.findings = [] :=
    ((passes_givenPassword set).1 passes).1
  unfold checkFamily at h
  split_ifs at h with openPgp keyed
  · obtain ⟨a, -, passes⟩ := passes_checkOpenPgp.1 h
    have clean := clean_of_passes_checkOpenPgpKey passes
    exact clean
  · obtain ⟨-, passes⟩ | ⟨-, passes⟩ | ⟨-, set, passes⟩ := passes_checkKeyed.1 h
    · exact (passes_ok.1 passes).1
    · exact (passes_checkRawKey.1 passes).1
    · exact given set passes
  · obtain ⟨-, set, passes⟩ := passes_checkPasswordBased.1 h
    exact given set passes

/-- The resolution of the chosen members. -/
def ofMembers (d : Direction) (m : Method) (k : KeyDerivation) (weak : Bool) : Resolution :=
  { mode := some d, method := some m, kdf := some k, allowWeak := weak }

theorem passes_ofChoices :
    Passes (.ok (ofChoices p)) r ↔ ∃ d m k weak, p.mode.NamesDirection d ∧
      p.algorithm.Names Method.name Method.algorithm m ∧
      p.kdf.Names KeyDerivation.name KeyDerivation.displayName k ∧ p.allowWeak.Allows weak ∧
      r = ofMembers d m k weak := by
  simp only [← choose?_directions, ← choose?_methods, ← choose?_kdfs, ← allowance?_eq_some_iff]
  have members {d : Direction} {m : Method} {k : KeyDerivation} {weak : Bool}
      (mode : directions.choose? p.mode = some d) (method : methods.choose? p.algorithm = some m)
      (kdf : kdfs.choose? p.kdf = some k) (allowance : allowance? p.allowWeak = some weak) :
      ofChoices p = ofMembers d m k weak := by
    rw [ofChoices_eq, choose_of_some mode, choose_of_some method, choose_of_some kdf, checkAllowance,
      allowance]
    rfl
  rw [passes_ok, findings_ofChoices]
  simp only [Option.isSome_iff_exists]
  constructor
  · rintro ⟨⟨⟨d, mode⟩, ⟨m, method⟩, ⟨k, kdf⟩, ⟨weak, allowance⟩⟩, rfl⟩
    exact ⟨d, m, k, weak, mode, method, kdf, allowance, members mode method kdf allowance⟩
  · rintro ⟨d, m, k, weak, mode, method, kdf, allowance, rfl⟩
    exact ⟨⟨⟨d, mode⟩, ⟨m, method⟩, ⟨k, kdf⟩, ⟨weak, allowance⟩⟩,
      (members mode method kdf allowance).symm⟩

/-- Behind the choices and the policy, the family of the method decides. -/
theorem passes_evaluate_iff_checkFamily :
    Passes (evaluate suite settings source p) r' ↔ ∃ d m k weak, p.mode.NamesDirection d ∧
      p.algorithm.Names Method.name Method.algorithm m ∧
      p.kdf.Names KeyDerivation.name KeyDerivation.displayName k ∧ p.allowWeak.Allows weak ∧
      m.Buildable suite ∧ (m.traits.unlimited = true → settings.Permits m.keyBits) ∧
      Passes ((ofMembers d m k weak).checkFamily suite settings source m p) r' := by
  have kept {m : Method} (clean : (ofChoices p).findings = [])
      (permits : m.traits.unlimited = true → settings.Permits m.keyBits)
      (supported : m.supported = true) : (ofChoices p).checkPolicy settings m = ofChoices p :=
    (checkPolicy_clean ((findings_checkPolicy settings m _).2 ⟨clean, permits, supported⟩)).1
  simp only [Method.buildable_iff]
  constructor
  · intro h
    cases found : methods.choose? p.algorithm with
    | none =>
      rw [evaluate_of_no_method found] at h
      obtain ⟨d, m, k, weak, -, method, -⟩ := passes_ofChoices.1 h
      rw [choose?_methods.2 method] at found
      cases found
    | some m =>
      rw [evaluate_of_method found] at h
      obtain ⟨clean, permits, supported⟩ :=
        (findings_checkPolicy settings m _).1 (clean_of_passes_checkFamily h)
      obtain ⟨d, m', k, weak, mode, method, kdf, allowance, same⟩ :=
        passes_ofChoices.1 (passes_ok.2 ⟨clean, rfl⟩)
      rw [kept clean permits supported, same] at h
      rw [choose?_methods.2 method] at found
      cases found
      exact ⟨d, m, k, weak, mode, method, kdf, allowance, supported, permits, h⟩
  · rintro ⟨d, m, k, weak, mode, method, kdf, allowance, supported, permits, passes⟩
    obtain ⟨clean, same⟩ :=
      passes_ok.1 (passes_ofChoices.2 ⟨d, m, k, weak, mode, method, kdf, allowance, rfl⟩)
    rwa [evaluate_of_method (choose?_methods.2 method), kept clean permits supported, ← same]

end Resolution

end Cryptogram
