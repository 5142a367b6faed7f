import Cryptogram.Proofs.Validation.Rules

/-!
# What the validation accepts

Each check leaves a finding exactly if its own rule is violated (`Resolution.Checks`), so properties
are without findings exactly if they obey all rules (`validate_eq_nil_iff_obeys`).
-/

namespace Cryptogram

namespace Resolution

/-! ## Choices -/

theorem findings_choose {α : Type} (c : Catalog α) (subject : Field) (choice : Choice α)
    (r : Resolution) : (r.choose c subject choice).2.findings = [] ↔
      r.findings = [] ∧ (c.choose? choice).isSome = true := by
  cases e : c.choose? choice with
  | some a =>
    rw [choose_of_some e]
    exact (and_iff_left rfl).symm
  | none =>
    refine iff_of_false (fun clean => ?_) (fun both => nomatch both.2)
    obtain ⟨a, found, -⟩ := choose_clean clean
    rw [e] at found
    cases found

theorem findings_checkAllowance (value : HostValue) (r : Resolution) :
    (r.checkAllowance value).findings = [] ↔
      r.findings = [] ∧ (allowance? value).isSome = true := by
  unfold checkAllowance
  cases allowance? value with
  | some b => exact (and_iff_left rfl).symm
  | none => exact iff_of_false (findings_fail _ _ _ _) fun both => nomatch both.2

theorem findings_ofChoices (p : Properties) :
    (ofChoices p).findings = [] ↔ (directions.choose? p.mode).isSome = true ∧
      (methods.choose? p.algorithm).isSome = true ∧ (kdfs.choose? p.kdf).isSome = true ∧
      (allowance? p.allowWeak).isSome = true := by
  have start : ({} : Resolution).findings = [] := rfl
  rw [ofChoices_eq, findings_checkAllowance]
  dsimp only
  rw [findings_choose, findings_choose, findings_choose, and_iff_right start, and_assoc, and_assoc]

theorem choices_ofChoices (p : Properties) :
    (ofChoices p).mode = directions.choose? p.mode ∧ (ofChoices p).kdf = kdfs.choose? p.kdf ∧
      ∀ weak, allowance? p.allowWeak = some weak → (ofChoices p).allowWeak = weak := by
  rw [ofChoices_eq, ← fst_choose directions .mode p.mode {}, ← fst_choose kdfs .kdf p.kdf]
  unfold checkAllowance
  cases allowance? p.allowWeak with
  | none => exact ⟨rfl, rfl, nofun⟩
  | some b => exact ⟨rfl, rfl, fun _ => Option.some.inj⟩

/-! ## What a check leaves -/

/-- A check that comes to an end, and leaves a finding exactly if its rule is violated. -/
def Checks (rule : Prop) (r : Resolution) (checked : Except Failure Resolution) : Prop :=
  ∃ r', checked = .ok r' ∧ (r'.findings = [] ↔ r.findings = [] ∧ rule)

namespace Checks

variable {rule rule' : Prop} {r r' : Resolution} {checked : Except Failure Resolution}

theorem passed (h : rule) (same : r'.findings = r.findings) : Checks rule r (.ok r') :=
  ⟨r', rfl, by rw [same, and_iff_left h]⟩

theorem failed (h : ¬rule) (found : r'.findings ≠ []) : Checks rule r (.ok r') :=
  ⟨r', rfl, iff_of_false found fun both => h both.2⟩

/-- Behind a finding no rule counts. -/
theorem of_ne_nil (found : r.findings ≠ []) : Checks rule r (.ok r) :=
  ⟨r, rfl, iff_of_false found fun both => found both.1⟩

theorem congr (h : Checks rule r checked) (same : rule ↔ rule') : Checks rule' r checked := by
  rwa [← propext same]

/-- A keyring that is refused violates a rule. -/
theorem failKeyring {f : Failure} (kind : f.kind.isA .keyring = true) (h : ¬rule)
    (subject : Field) (location : HostValue) :
    Checks rule r (r'.failKeyring subject location f) := by
  unfold Resolution.failKeyring
  unfold ErrorKind.isA at kind
  cases e : f.kind with
  | own c =>
    rw [e] at kind
    dsimp only at kind ⊢
    rw [if_pos kind]
    exact failed h (findings_fail _ _ _ _)
  | outside k =>
    rw [e] at kind
    cases kind

end Checks

variable {suite : Suite} {source : KeyringSource} {settings : Settings} {m : Method} {p : Properties}
  {r r' : Resolution} {value : HostValue}

theorem findings_checkPolicy (settings : Settings) (m : Method) (r : Resolution) :
    (r.checkPolicy settings m).findings = [] ↔ r.findings = [] ∧
      (m.traits.unlimited = true → settings.Permits m.keyBits) ∧ m.supported = true := by
  unfold checkPolicy
  cases e : settings.maxKeyBits with
  | none =>
    have permits : settings.Permits m.keyBits := by simp [Settings.Permits, e]
    dsimp only
    split_ifs with supported
    · exact (and_iff_left ⟨fun _ => permits, supported⟩).symm
    · exact iff_of_false (findings_fail _ _ _ _) fun both => supported both.2.2
  | some limit =>
    have permits : settings.Permits m.keyBits ↔ ¬ limit < m.keyBits := by
      simp [Settings.Permits, e]
    dsimp only
    rw [permits, ← not_and]
    split_ifs with supported tooLong
    · exact iff_of_false (findings_fail _ _ _ _) fun both => both.2.1 tooLong
    · exact (and_iff_left ⟨tooLong, supported⟩).symm
    · exact iff_of_false (findings_fail _ _ _ _) fun both => supported both.2.2
    · exact iff_of_false (findings_fail _ _ _ _) fun both => supported both.2.2

/-- Of what was chosen, the policy changes nothing. -/
theorem choices_checkPolicy (settings : Settings) (m : Method) (r : Resolution) :
    (r.checkPolicy settings m).mode = r.mode ∧ (r.checkPolicy settings m).kdf = r.kdf ∧
      (r.checkPolicy settings m).allowWeak = r.allowWeak := by
  unfold checkPolicy
  cases settings.maxKeyBits with
  | none => dsimp only; split_ifs <;> exact ⟨rfl, rfl, rfl⟩
  | some limit => dsimp only; split_ifs <;> exact ⟨rfl, rfl, rfl⟩

/-! ## Passwords and raw keys -/

theorem isSet_of_acceptsPassword {weak : Bool} (h : settings.AcceptsPassword weak value) :
    value.isSet = true := by
  obtain ⟨s, rfl, ne, -⟩ := h
  exact HostValue.isSet_text ne

theorem checks_givenPassword (typed : value.IsOptionalText) (set : value.isSet = true) :
    Checks (settings.AcceptsPassword r.allowWeak value) r (r.givenPassword settings value) := by
  obtain ⟨s, rfl, ne⟩ := value.exists_text_of_isSet typed set
  unfold givenPassword acceptPassword
  dsimp only
  split_ifs with weak
  · refine .failed ?_ (findings_fail .password _ .absent r)
    rintro ⟨_, ⟨⟩, -, allowed | long⟩
    · simp [allowed] at weak
    · omega
  · refine .passed ⟨s, rfl, ne, ?_⟩ rfl
    simp only [Bool.not_eq_true', not_and, Bool.not_eq_false] at weak
    by_cases short : ((Text.utf8 s).length : Int) < settings.minPasswordLength
    · exact .inl (weak short)
    · exact .inr (not_lt.1 short)

theorem rawKeyFault?_eq_none_iff {bits : Nat} :
    rawKeyFault? settings bits = none ↔ bits ∈ Method.rawKeyBits ∧ settings.Permits bits := by
  unfold rawKeyFault? Settings.Permits
  split_ifs with unknown
  · simp only [Bool.not_eq_true', List.contains_eq_mem, decide_eq_false_iff_not] at unknown
    exact iff_of_false (fun h => nomatch h) fun both => unknown both.1
  · simp only [Bool.not_eq_true', List.contains_eq_mem, decide_eq_false_iff_not,
      not_not] at unknown
    rw [and_iff_right unknown]
    cases settings.maxKeyBits with
    | none => simp
    | some limit =>
      dsimp only
      split_ifs with tooLong <;> simp [tooLong]
      omega

theorem checks_acceptRawKey {octets : Bytes} (r : Resolution) :
    Checks (8 * octets.length ∈ Method.rawKeyBits ∧ settings.Permits (8 * octets.length)) r
      (.ok (r.acceptRawKey settings ⟨octets, false⟩)) := by
  have bits : Secret.bits ⟨octets, false⟩ = 8 * octets.length := rfl
  unfold acceptRawKey
  dsimp only
  rw [bits]
  cases fault : rawKeyFault? settings (8 * octets.length) with
  | none => exact .passed (rawKeyFault?_eq_none_iff.1 fault) rfl
  | some explanation =>
    refine .failed (fun holds => ?_) (findings_fail .rawKey explanation .absent _)
    rw [rawKeyFault?_eq_none_iff.2 holds] at fault
    cases fault

theorem checks_checkRawKey (typed : value.IsOptionalText) (m : Method) (k : KeyDerivation) :
    Checks (settings.AcceptsRawKey value) r (r.checkRawKey settings m k value) := by
  unfold checkRawKey
  dsimp only
  split_ifs with unset
  · refine .failed ?_ (findings_fail _ _ _ _)
    rintro ⟨s, rfl, -, bits, -⟩
    obtain rfl : s = "" := by simpa [HostValue.isSet] using unset
    exact absurd bits (by decide)
  rcases typed with rfl | ⟨s, rfl⟩
  · exact absurd rfl unset
  dsimp only
  unfold Secret.ofHex
  cases found : Text.ofHex (Text.strip s.toList) with
  | error fault =>
    refine .failed ?_ (findings_fail _ _ _ _)
    rintro ⟨_, ⟨⟩, digits, bits, -⟩
    have even : (Text.strip s.toList).length = 2 * ((Text.strip s.toList).length / 2) := by
      simp only [Method.rawKeyBits, List.mem_cons, List.not_mem_nil, or_false] at bits
      omega
    obtain ⟨octets, denoted, -⟩ := Text.exists_ofHex_iff.2 ⟨digits, even⟩
    rw [found] at denoted
    cases denoted
  | ok octets =>
    obtain ⟨digits, length⟩ := Text.exists_ofHex_iff.1 ⟨octets, found, rfl⟩
    have bits : 8 * octets.length = 4 * (Text.strip s.toList).length := by omega
    refine (checks_acceptRawKey r).congr ?_
    rw [bits]
    constructor
    · rintro ⟨known, permits⟩
      exact ⟨s, rfl, digits, known, permits⟩
    · rintro ⟨_, ⟨⟩, -, known, permits⟩
      exact ⟨known, permits⟩

/-! ## Families of methods -/

/-- Where no derivation was chosen there is a finding already, so nothing more is asked. -/
theorem checks_checkKeyed (typed : p.Typed) (chosen : r.kdf = none → r.findings ≠ []) (m : Method) :
    Checks (∃ k ∈ r.kdf, (k = .rawKey ∧ settings.AcceptsRawKey p.rawKey) ∨
      (k.strong = true ∧ settings.AcceptsPassword r.allowWeak p.password)) r
      (r.checkKeyed settings m p) := by
  unfold checkKeyed
  cases kdf : r.kdf with
  | none => exact .of_ne_nil (chosen kdf)
  | some k =>
    simp only [Option.mem_def, Option.some.injEq, exists_eq_left']
    split_ifs with foreign raw unset
    · have neither : k ≠ .rawKey ∧ k.strong ≠ true := by
        cases k <;> first
          | decide
          | exact absurd foreign (by decide)
      exact .failed (by simp [neither]) (findings_fail _ _ _ _)
    · have weak : k.strong ≠ true := by
        rw [raw]
        decide
      refine (checks_checkRawKey typed.rawKey m k).congr ?_
      rw [and_iff_right raw, or_iff_left fun both => weak both.1]
    · refine .failed ?_ (findings_fail _ _ _ _)
      rintro (⟨isRaw, -⟩ | ⟨-, accepts⟩)
      · exact raw isRaw
      · simp [isSet_of_acceptsPassword accepts] at unset
    · have strong : k.strong = true := by
        cases k <;> first
          | rfl
          | exact absurd rfl raw
          | exact absurd (by decide) foreign
      refine (checks_givenPassword typed.password (by simpa using unset)).congr ?_
      rw [and_iff_right strong, or_iff_right fun both => raw both.1]

theorem checks_checkPasswordBased (typed : p.Typed) (chosen : r.kdf = none → r.findings ≠ [])
    (m : Method) :
    Checks (settings.AcceptsPassword r.allowWeak p.password ∧
      ∃ k ∈ r.kdf, k ∈ KeyDerivation.forPassword) r (r.checkPasswordBased settings m p) := by
  unfold checkPasswordBased
  dsimp only
  split_ifs with unset
  · refine .failed (fun both => ?_) (findings_fail _ _ _ _)
    simp [isSet_of_acceptsPassword both.1] at unset
  have accepted : Checks (settings.AcceptsPassword r.allowWeak p.password) r
      (r.givenPassword settings p.password) :=
    checks_givenPassword typed.password (by simpa using unset)
  obtain ⟨next, given, clean⟩ := accepted
  have kdf := kdf_of_givenPassword given
  rw [given]
  simp only [bind, Except.bind, kdf]
  cases e : r.kdf with
  | none =>
    -- The password is looked at even so, but its rule cannot undo the finding.
    refine ⟨next, rfl, iff_of_false (fun found => ?_) fun both => chosen e both.1⟩
    exact chosen e (clean.1 found).1
  | some k =>
    dsimp only
    simp only [Option.mem_def, Option.some.injEq, exists_eq_left']
    split_ifs with serves
    · refine ⟨next, rfl, clean.trans ?_⟩
      rw [and_iff_left (List.contains_iff_mem.1 serves)]
    · exact .failed (fun both => serves (List.contains_iff_mem.2 both.2)) (findings_fail _ _ _ _)

/-! ## OpenPGP -/

theorem offered?_eq_some_iff {n : Int} {a : Symmetric} :
    offered? n = some a ↔ a ∈ Symmetric.offered ∧ (a.id : Int) = n := by
  have apart : ∀ a ∈ Symmetric.offered, ∀ b ∈ Symmetric.offered, a.id = b.id → a = b := by decide
  have sound {b : Symmetric} (h : offered? n = some b) :
      b ∈ Symmetric.offered ∧ (b.id : Int) = n := by
    unfold offered? at h
    exact ⟨List.mem_of_find?_eq_some h, by simpa using List.find?_some h⟩
  refine ⟨sound, ?_⟩
  rintro ⟨offered, number⟩
  have found : (offered? n).isSome = true :=
    List.find?_isSome.2 ⟨a, offered, decide_eq_true number⟩
  obtain ⟨b, found⟩ := Option.isSome_iff_exists.1 found
  obtain ⟨offered', number'⟩ := sound found
  rw [apart a offered b offered' (by omega)]
  exact found

theorem checks_checkCipher (suite : Suite) (typed : value.IsOptionalText ∨ ∃ n, value = .integer n) :
    Checks (value.ChoosesCipher suite) r (r.checkCipher value) := by
  obtain ⟨number, read⟩ : ∃ number, value.integer? = .ok number := by
    rcases typed with (rfl | ⟨s, rfl⟩) | ⟨n, rfl⟩ <;> exact ⟨_, rfl⟩
  unfold checkCipher
  split
  · exact .passed (.inl rfl) rfl
  · exact .passed (.inr (.inl rfl)) rfl
  rename_i present nonempty
  have chooses : value.ChoosesCipher suite ↔
      ∃ a ∈ Symmetric.offered, number = some (a.id : Int) ∧ a.supported = true := by
    rw [HostValue.ChoosesCipher, or_iff_right present, or_iff_right nonempty]
    simp only [read, Except.ok.injEq, Symmetric.buildable_iff]
  rw [read]
  simp only [bind, Except.bind]
  refine Checks.congr ?_ chooses.symm
  cases number with
  | none => exact .failed (by simp) (findings_fail _ _ _ _)
  | some n =>
    dsimp only
    cases found : offered? n with
    | none =>
      refine .failed ?_ (findings_fail _ _ _ _)
      rintro ⟨a, offered, same, -⟩
      rw [offered?_eq_some_iff.2 ⟨offered, (Option.some.inj same).symm⟩] at found
      cases found
    | some a =>
      dsimp only
      obtain ⟨offered, number⟩ := offered?_eq_some_iff.1 found
      split_ifs with supported
      · exact .passed ⟨a, offered, congrArg some number.symm, supported⟩ rfl
      · refine .failed ?_ (findings_fail _ _ _ _)
        rintro ⟨b, offered', same, supported'⟩
        rw [offered?_eq_some_iff.2 ⟨offered', (Option.some.inj same).symm⟩] at found
        cases found
        exact supported supported'

/-- The rule for the cipher changes the findings and the cipher, and nothing else. -/
theorem exists_of_checkCipher (h : r.checkCipher value = .ok r') :
    ∃ findings cipher, r' = { r with findings := findings, cipher := cipher } := by
  unfold checkCipher at h
  split at h
  · cases h
    exact ⟨_, _, rfl⟩
  · cases h
    exact ⟨_, _, rfl⟩
  cases number : value.integer? with
  | error f =>
    rw [number] at h
    cases h
  | ok n =>
    rw [number] at h
    simp only [bind, Except.bind] at h
    cases n with
    | none =>
      cases h
      exact ⟨_, _, rfl⟩
    | some n =>
      dsimp only at h
      cases found : offered? n with
      | none =>
        rw [found] at h
        cases h
        exact ⟨_, _, rfl⟩
      | some a =>
        rw [found] at h
        dsimp only at h
        split_ifs at h <;>
        · cases h
          exact ⟨_, _, rfl⟩

theorem mode_of_checkCipher (h : r.checkCipher value = .ok r') : r'.mode = r.mode := by
  obtain ⟨findings, cipher, rfl⟩ := exists_of_checkCipher h
  rfl

theorem checks_checkRecipient (typed : p.Typed) (reports : source.Reports suite) (m : Method) :
    Checks (p.LoadsRecipient suite source) r (r.checkRecipient suite source m p) := by
  unfold checkRecipient
  split_ifs with unset
  · refine .failed ?_ (findings_fail _ _ _ _)
    rintro ⟨ring, user, -⟩
    simp [ring, user] at unset
  simp only [Bool.or_eq_true, Bool.not_eq_true', not_or, Bool.not_eq_false] at unset
  obtain ⟨ring, user⟩ := unset
  cases loaded : recipient suite source p.publicKeyring p.publicKeyUserId with
  | ok key => exact .passed ⟨ring, user, key, loaded⟩ rfl
  | error f =>
    refine .failKeyring ?_ ?_ _ _
    · obtain ⟨location, at_, -⟩ := HostValue.exists_text_of_isSet typed.publicKeyring ring
      obtain ⟨userId, of_, -⟩ := HostValue.exists_text_of_isSet typed.publicKeyUserId user
      rw [at_, of_] at loaded
      exact reports.recipient loaded
    · rintro ⟨-, -, key, found⟩
      rw [loaded] at found
      cases found

theorem checks_checkPrivateKeyring (typed : p.Typed) (reports : source.Reports suite) (m : Method) :
    Checks (p.LoadsPrivateKeys suite source) r (r.checkPrivateKeyring suite source m p) := by
  unfold checkPrivateKeyring
  split_ifs with unset
  · refine .failed ?_ (findings_fail _ _ _ _)
    rintro ⟨ring, passphrase, -, given, ne, -⟩
    rw [given, HostValue.isSet_text ne, ring] at unset
    cases unset
  simp only [Bool.or_eq_true, Bool.not_eq_true', not_or, Bool.not_eq_false] at unset
  obtain ⟨ring, set⟩ := unset
  obtain ⟨passphrase, given, ne⟩ :=
    HostValue.exists_text_of_isSet typed.privateKeyringPassphrase set
  have opened : (do
      let data ← source p.privateKeyring
      Keyring.readPrivate suite p.privateKeyring.display (Text.utf8 passphrase) data) =
      source.privateKeys suite p.privateKeyring passphrase := rfl
  rw [given]
  dsimp only
  rw [opened]
  cases loaded : source.privateKeys suite p.privateKeyring passphrase with
  | ok keys => exact .passed ⟨ring, passphrase, keys, given, ne, loaded⟩ rfl
  | error f =>
    refine .failKeyring ?_ ?_ _ _
    · obtain ⟨location, at_, -⟩ := HostValue.exists_text_of_isSet typed.privateKeyring ring
      rw [at_] at loaded
      exact reports.privateKeys loaded
    · rintro ⟨-, passphrase', keys, given', -, found⟩
      cases given.symm.trans given'
      rw [loaded] at found
      cases found

theorem checks_checkOpenPgp (typed : p.Typed) (reports : source.Reports suite)
    (chosen : r.mode = none → r.findings ≠ []) (m : Method) :
    Checks (p.cipher.ChoosesCipher suite ∧ (p.password.isSet = true ∨
      (r.mode = some .encrypt ∧ p.LoadsRecipient suite source) ∨
      (r.mode = some .decrypt ∧ p.LoadsPrivateKeys suite source))) r
      (r.checkOpenPgp suite source m p) := by
  obtain ⟨next, checked, clean⟩ := checks_checkCipher (r := r) suite typed.cipher
  have mode := mode_of_checkCipher checked
  unfold checkOpenPgp
  rw [checked]
  simp only [bind, Except.bind]
  split_ifs with set
  · obtain ⟨s, given, -⟩ := HostValue.exists_text_of_isSet typed.password set
    rw [given] at set ⊢
    exact ⟨_, rfl, clean.trans (by simp [set])⟩
  · rw [mode]
    cases e : r.mode with
    | none =>
      refine ⟨next, rfl, iff_of_false (fun found => ?_) fun both => chosen e both.1⟩
      exact chosen e (clean.1 found).1
    | some d =>
      cases d with
      | encrypt =>
        obtain ⟨r', loaded, still⟩ := checks_checkRecipient (r := next) typed reports m
        exact ⟨r', loaded, by simp [still, clean, set, and_assoc]⟩
      | decrypt =>
        obtain ⟨r', loaded, still⟩ := checks_checkPrivateKeyring (r := next) typed reports m
        exact ⟨r', loaded, by simp [still, clean, set, and_assoc]⟩

/-! ## All rules -/

theorem supplies_openPgp_iff {weak : Bool} {d : Direction} {k : KeyDerivation}
    (kind : m.isOpenPgp = true) :
    p.Supplies suite settings source weak d m k ↔ p.cipher.ChoosesCipher suite ∧
      (p.password.isSet = true ∨ (d = .encrypt ∧ p.LoadsRecipient suite source) ∨
        (d = .decrypt ∧ p.LoadsPrivateKeys suite source)) := by
  have notKeyed : m.keyed ≠ true := by
    intro keyed
    rw [Method.isOpenPgp_of_keyed keyed] at kind
    cases kind
  have notPasswordBased : m.passwordBased ≠ true := by
    intro passwordBased
    rw [Method.isOpenPgp_of_passwordBased passwordBased] at kind
    cases kind
  constructor
  · rintro (⟨other, -, -⟩ | ⟨other, -, -⟩ | ⟨other, -, -⟩ | ⟨-, cipher, set⟩ |
      ⟨-, cipher, encrypts, loads⟩ | ⟨-, cipher, decrypts, loads⟩)
    · exact absurd other notPasswordBased
    · exact absurd other notKeyed
    · exact absurd other notKeyed
    · exact ⟨cipher, .inl set⟩
    · exact ⟨cipher, .inr (.inl ⟨encrypts, loads⟩)⟩
    · exact ⟨cipher, .inr (.inr ⟨decrypts, loads⟩)⟩
  · rintro ⟨cipher, set | ⟨encrypts, loads⟩ | ⟨decrypts, loads⟩⟩
    · exact .openPgpPassword kind cipher set
    · exact .recipient kind cipher encrypts loads
    · exact .privateKeyring kind cipher decrypts loads

theorem supplies_keyed_iff {weak : Bool} {d : Direction} {k : KeyDerivation}
    (kind : m.keyed = true) :
    p.Supplies suite settings source weak d m k ↔
      (k = .rawKey ∧ settings.AcceptsRawKey p.rawKey) ∨
        (k.strong = true ∧ settings.AcceptsPassword weak p.password) := by
  have notOpenPgp : m.isOpenPgp ≠ true := by simp [Method.isOpenPgp_of_keyed kind]
  have notPasswordBased : m.passwordBased ≠ true := by
    intro passwordBased
    rw [Method.keyed_of_passwordBased passwordBased] at kind
    cases kind
  constructor
  · rintro (⟨other, -, -⟩ | ⟨-, raw, key⟩ | ⟨-, strong, password⟩ | ⟨other, -, -⟩ |
      ⟨other, -, -, -⟩ | ⟨other, -, -, -⟩)
    · exact absurd other notPasswordBased
    · exact .inl ⟨raw, key⟩
    · exact .inr ⟨strong, password⟩
    all_goals exact absurd other notOpenPgp
  · rintro (⟨raw, key⟩ | ⟨strong, password⟩)
    · exact .rawKey kind raw key
    · exact .strong kind strong password

theorem supplies_passwordBased_iff {weak : Bool} {d : Direction} {k : KeyDerivation}
    (kind : m.passwordBased = true) :
    p.Supplies suite settings source weak d m k ↔
      settings.AcceptsPassword weak p.password ∧ k ∈ KeyDerivation.forPassword := by
  have notOpenPgp : m.isOpenPgp ≠ true := by simp [Method.isOpenPgp_of_passwordBased kind]
  have notKeyed : m.keyed ≠ true := by simp [Method.keyed_of_passwordBased kind]
  constructor
  · rintro (⟨-, serves, password⟩ | ⟨other, -, -⟩ | ⟨other, -, -⟩ | ⟨other, -, -⟩ |
      ⟨other, -, -, -⟩ | ⟨other, -, -, -⟩)
    · exact ⟨password, serves⟩
    · exact absurd other notKeyed
    · exact absurd other notKeyed
    all_goals exact absurd other notOpenPgp
  · rintro ⟨password, serves⟩
    exact .passwordBased kind serves password

/-- Behind the choices and the policy, the rule of a family decides. -/
theorem Checks.obeys_iff {rule : Prop} {checked : Except Failure Resolution}
    (found : methods.choose? p.algorithm = some m)
    (h : Checks rule ((ofChoices p).checkPolicy settings m) checked)
    (same : ∀ d k weak, directions.choose? p.mode = some d → kdfs.choose? p.kdf = some k →
      allowance? p.allowWeak = some weak → (rule ↔ p.Supplies suite settings source weak d m k)) :
    ∃ r, checked = .ok r ∧ (r.findings = [] ↔ p.Obeys suite settings source) := by
  obtain ⟨r, ended, clean⟩ := h
  refine ⟨r, ended, ?_⟩
  rw [clean, findings_checkPolicy, findings_ofChoices, found]
  constructor
  · rintro ⟨⟨⟨mode, -, kdf, allowance⟩, permits, supported⟩, holds⟩
    obtain ⟨d, mode⟩ := Option.isSome_iff_exists.1 mode
    obtain ⟨k, kdf⟩ := Option.isSome_iff_exists.1 kdf
    obtain ⟨weak, allowance⟩ := Option.isSome_iff_exists.1 allowance
    exact ⟨d, m, k, weak, choose?_directions.1 mode, choose?_methods.1 found, choose?_kdfs.1 kdf,
      allowance?_eq_some_iff.1 allowance, Method.buildable_iff.2 supported, permits,
      (same d k weak mode kdf allowance).1 holds⟩
  · rintro ⟨d, m', k, weak, mode, method, kdf, allowance, buildable, permits, supplies⟩
    rw [← choose?_directions] at mode
    rw [← choose?_methods, found] at method
    rw [← choose?_kdfs] at kdf
    rw [← allowance?_eq_some_iff] at allowance
    cases method
    refine ⟨⟨⟨?_, rfl, ?_, ?_⟩, permits, Method.buildable_iff.1 buildable⟩,
      (same d k weak mode kdf allowance).2 supplies⟩
    · exact Option.isSome_of_eq_some mode
    · exact Option.isSome_of_eq_some kdf
    · exact Option.isSome_of_eq_some allowance

theorem exists_evaluate (settings : Settings) (typed : p.Typed) (reports : source.Reports suite) :
    ∃ r, evaluate suite settings source p = .ok r ∧
      (r.findings = [] ↔ p.Obeys suite settings source) := by
  obtain ⟨mode, kdf, weak⟩ := choices_ofChoices p
  unfold evaluate
  dsimp only
  rw [method_ofChoices]
  cases found : methods.choose? p.algorithm with
  | none =>
    refine ⟨_, rfl, iff_of_false ?_ ?_⟩
    · rw [findings_ofChoices, found]
      exact fun all => nomatch all.2.1
    · rintro ⟨d, m, k, weak, -, method, -⟩
      rw [← choose?_methods, found] at method
      cases method
  | some m =>
    dsimp only
    obtain ⟨mode', kdf', weak'⟩ := choices_checkPolicy settings m (ofChoices p)
    -- A choice without a member has left a finding before the families are asked.
    have chosen : ((ofChoices p).checkPolicy settings m).findings = [] →
        (directions.choose? p.mode).isSome = true ∧ (kdfs.choose? p.kdf).isSome = true := by
      rw [findings_checkPolicy, findings_ofChoices]
      exact fun all => ⟨all.1.1, all.1.2.2.1⟩
    rw [mode] at mode'
    rw [kdf] at kdf'
    split_ifs with openPgp keyed
    · refine (checks_checkOpenPgp typed reports (fun none clean => ?_) m).obeys_iff found ?_
      · rw [← mode', none] at chosen
        cases (chosen clean).1
      · intro d k weak hd hk hw
        rw [supplies_openPgp_iff openPgp, mode', hd, Option.some.injEq, Option.some.injEq]
    · refine (checks_checkKeyed typed (fun none clean => ?_) m).obeys_iff found ?_
      · rw [← kdf', none] at chosen
        cases (chosen clean).2
      · intro d k allowed hd hk hw
        rw [supplies_keyed_iff keyed, kdf', hk, weak', weak allowed hw]
        simp only [Option.mem_def, Option.some.injEq, exists_eq_left']
    · have kind : m.passwordBased = true := by simp [Method.passwordBased, keyed, openPgp]
      refine (checks_checkPasswordBased typed (fun none clean => ?_) m).obeys_iff found ?_
      · rw [← kdf', none] at chosen
        cases (chosen clean).2
      · intro d k allowed hd hk hw
        rw [supplies_passwordBased_iff kind, kdf', hk, weak', weak allowed hw]
        simp only [Option.mem_def, Option.some.injEq, exists_eq_left']

end Resolution

/-! ## Validation -/

namespace Validation

open Resolution

variable {suite : Suite} {source : KeyringSource} {p : Properties}

/-- Properties are without findings exactly if they obey the rules. -/
theorem validate_eq_nil_iff_obeys (settings : Settings) (typed : p.Typed)
    (reports : source.Reports suite) :
    ∃ findings vault, validate suite settings source p = .ok (findings, vault) ∧
      (findings = [] ↔ p.Obeys suite settings source) := by
  obtain ⟨r, evaluated, clean⟩ := exists_evaluate settings typed reports
  refine ⟨r.findings, r.discard.vault, ?_, clean⟩
  unfold validate
  rw [evaluated]
  rfl

/-- Texts of a host, for AES under a password, with a source that knows no keyring. -/
theorem validate_eq_nil_iff_obeys_argon2 :
    let p : Properties :=
      { mode := .given (.text "Decrypt"), algorithm := .given (.text "AES/GCM/NoPadding"),
        kdf := .given (.text "ARGON2"), password := .text "correct horse battery staple",
        cipher := .absent, allowWeak := .text "not-allowed" }
    p.Typed ∧ (KeyringSource.ofShelf {}).Reports .standard ∧
      ∃ findings vault, validate .standard {} (.ofShelf {}) p = .ok (findings, vault) ∧
        (findings = [] ↔ p.Obeys .standard {} (.ofShelf {})) := by
  intro p
  have typed : p.Typed :=
    { password := .inr ⟨_, rfl⟩
      rawKey := .inl rfl
      publicKeyring := .inl rfl
      publicKeyUserId := .inl rfl
      privateKeyring := .inl rfl
      privateKeyringPassphrase := .inl rfl
      cipher := .inl (.inl rfl) }
  have reports : (KeyringSource.ofShelf {}).Reports .standard :=
    { recipient := by
        rintro location userId f ⟨⟩
        rfl
      privateKeys := by
        rintro location passphrase f ⟨⟩
        rfl }
  exact ⟨typed, reports, validate_eq_nil_iff_obeys {} typed reports⟩

/-- The name of a direction behind that of its catalog is neither its name nor known to hosts, and
is accepted all the same. -/
theorem validate_qualified_direction :
    (∀ d, ¬ (Choice.given (.text "Mode.ENCRYPT")).Names Direction.name Direction.hostName d) ∧
      ∃ vault, validate .standard {} (.ofShelf {})
        { mode := .given (.text "Mode.ENCRYPT"), rawKey := .text "0123456789ABCDEFFEDCBA9876543210" } =
          .ok ([], vault) := by
  refine ⟨?_, _, rfl⟩
  rintro d (h | h | h)
  · cases h
  · cases d <;> simp [Direction.name] at h
  · cases d <;> simp [Direction.hostName] at h

end Validation

end Cryptogram
