import Cryptogram.Proofs.Keyring.Loading
import Cryptogram.Proofs.Validation.Plans

/-!
# Validation in front of keyrings

The rules for OpenPGP come to an end for all properties of texts, except for those whose key is looked
for in a keyring that cannot be loaded (`Resolution.failsWith_evaluate`).
-/

namespace Cryptogram

namespace Properties

variable (suite : Suite) (source : KeyringSource) (p : Properties)

/-- Properties of the methods for OpenPGP. -/
def ForMessages : Prop :=
  ∃ m, p.algorithm.Names Method.name Method.algorithm m ∧ m.isOpenPgp = true

/-- The keyring of the recipient is one with a key that is not legible. -/
def MeetsIllegible : Prop :=
  ∃ location userId data, p.publicKeyring = .text location ∧ location ≠ "" ∧
    p.publicKeyUserId = .text userId ∧ userId ≠ "" ∧ source (.text location) = .ok data ∧
      Keyring.Ring.Illegible suite location data

/-- The private keyring is one that breaks off under its passphrase. -/
def MeetsBreaking : Prop :=
  ∃ location passphrase data, p.privateKeyring = .text location ∧ location ≠ "" ∧
    p.privateKeyringPassphrase = .text passphrase ∧ passphrase ≠ "" ∧
      source (.text location) = .ok data ∧
        Keyring.Ring.Breaks suite location (Text.utf8 passphrase) data

/-- Without a password, the keyring that the direction asks for cannot be loaded. -/
def Trips : Prop :=
  p.password.isSet = false ∧
    (p.mode.NamesDirection .encrypt ∧ p.MeetsIllegible suite source ∨
      p.mode.NamesDirection .decrypt ∧ p.MeetsBreaking suite source)

end Properties

namespace Resolution

variable {suite : Suite} {source : KeyringSource} {p : Properties} {r : Resolution}

/-! ## Checks of keyrings -/

/-- A failure about keyrings becomes a finding, and any other is passed on. -/
theorem failKeyring_cases (subject : Field) (location : HostValue) (f : Failure) (r : Resolution) :
    (∃ r', f.OfKeyring ∧ r.failKeyring subject location f = .ok r') ∨
      f.Foreign ∧ r.failKeyring subject location f = .error f := by
  unfold failKeyring Failure.OfKeyring Failure.Foreign ErrorKind.isA
  cases f.kind with
  | outside k => exact .inr ⟨rfl, rfl⟩
  | own c =>
    dsimp only
    cases c.lineage.contains .keyring with
    | true => exact .inl ⟨_, rfl, rfl⟩
    | false => exact .inr ⟨rfl, rfl⟩

theorem failsIn_failKeyring (subject : Field) (location : HostValue) (f : Failure) :
    FailsIn Failure.Foreign (r.failKeyring subject location f) := by
  obtain ⟨r', -, found⟩ | ⟨foreign, passed⟩ := failKeyring_cases subject location f r
  · rw [found]
    exact .ok _
  · rw [passed]
    exact .error foreign

theorem failsWith_failKeyring {subject : Field} {location : HostValue} {f : Failure} :
    FailsWith Failure.Foreign (r.failKeyring subject location f) ↔ f.Foreign := by
  obtain ⟨r', about, found⟩ | ⟨foreign, passed⟩ := failKeyring_cases subject location f r
  · rw [found]
    exact iff_of_false (not_failsWith_ok _) about.not_foreign
  · rw [passed]
    exact failsWith_error

theorem failsIn_checkRecipient (m : Method) :
    FailsIn Failure.Foreign (r.checkRecipient suite source m p) := by
  unfold checkRecipient
  split_ifs
  · exact .ok _
  · split
    · exact .ok _
    · exact failsIn_failKeyring _ _ _

theorem failsWith_checkRecipient (typed : p.Typed) (serves : source.Serves) (m : Method) :
    FailsWith Failure.Foreign (r.checkRecipient suite source m p) ↔
      p.MeetsIllegible suite source := by
  unfold checkRecipient
  split_ifs with unset
  · refine iff_of_false (not_failsWith_ok _) ?_
    rintro ⟨location, userId, data, ring, named, user, asked, -⟩
    rw [ring, user, HostValue.isSet_text named, HostValue.isSet_text asked] at unset
    cases unset
  simp only [Bool.or_eq_true, Bool.not_eq_true', not_or, Bool.not_eq_false] at unset
  obtain ⟨location, ring, named⟩ := HostValue.exists_text_of_isSet typed.publicKeyring unset.1
  obtain ⟨userId, user, asked⟩ := HostValue.exists_text_of_isSet typed.publicKeyUserId unset.2
  have meets : FailsWith Failure.Foreign (recipient suite source (.text location) (.text userId)) ↔
      p.MeetsIllegible suite source := by
    rw [KeyringSource.failsWith_recipient serves]
    constructor
    · rintro ⟨data, served, illegible⟩
      exact ⟨location, userId, data, ring, named, user, asked, served, illegible⟩
    · rintro ⟨location', userId', data, ring', -, user', -, served, illegible⟩
      cases ring.symm.trans ring'
      exact ⟨data, served, illegible⟩
  rw [← meets, ring, user]
  cases recipient suite source (.text location) (.text userId) with
  | ok key => exact iff_of_false (not_failsWith_ok _) (not_failsWith_ok _)
  | error f => exact failsWith_failKeyring.trans failsWith_error.symm

theorem failsIn_checkPrivateKeyring (typed : p.Typed) (m : Method) :
    FailsIn Failure.Foreign (r.checkPrivateKeyring suite source m p) := by
  unfold checkPrivateKeyring
  split_ifs with unset
  · exact .ok _
  simp only [Bool.or_eq_true, Bool.not_eq_true', not_or, Bool.not_eq_false] at unset
  obtain ⟨passphrase, given, -⟩ :=
    HostValue.exists_text_of_isSet typed.privateKeyringPassphrase unset.2
  rw [given]
  dsimp only
  split
  · exact .ok _
  · exact failsIn_failKeyring _ _ _

theorem failsWith_checkPrivateKeyring (typed : p.Typed) (serves : source.Serves) (m : Method) :
    FailsWith Failure.Foreign (r.checkPrivateKeyring suite source m p) ↔
      p.MeetsBreaking suite source := by
  unfold checkPrivateKeyring
  split_ifs with unset
  · refine iff_of_false (not_failsWith_ok _) ?_
    rintro ⟨location, passphrase, data, ring, named, given, asked, -⟩
    rw [ring, given, HostValue.isSet_text named, HostValue.isSet_text asked] at unset
    cases unset
  simp only [Bool.or_eq_true, Bool.not_eq_true', not_or, Bool.not_eq_false] at unset
  obtain ⟨location, ring, named⟩ := HostValue.exists_text_of_isSet typed.privateKeyring unset.1
  obtain ⟨passphrase, given, asked⟩ :=
    HostValue.exists_text_of_isSet typed.privateKeyringPassphrase unset.2
  have meets : FailsWith Failure.Foreign (source.privateKeys suite (.text location) passphrase) ↔
      p.MeetsBreaking suite source := by
    rw [KeyringSource.failsWith_privateKeys serves]
    constructor
    · rintro ⟨data, served, breaks⟩
      exact ⟨location, passphrase, data, ring, named, given, asked, served, breaks⟩
    · rintro ⟨location', passphrase', data, ring', -, given', -, served, breaks⟩
      cases ring.symm.trans ring'
      cases given.symm.trans given'
      exact ⟨data, served, breaks⟩
  have opened : (do
      let data ← source (.text location)
      Keyring.readPrivate suite (HostValue.text location).display (Text.utf8 passphrase) data) =
      source.privateKeys suite (.text location) passphrase := rfl
  rw [← meets, ring, given]
  dsimp only
  rw [opened]
  cases source.privateKeys suite (.text location) passphrase with
  | ok keys => exact iff_of_false (not_failsWith_ok _) (not_failsWith_ok _)
  | error f => exact failsWith_failKeyring.trans failsWith_error.symm

/-! ## OpenPGP -/

theorem exists_checkCipher (typed : p.Typed) (r : Resolution) :
    ∃ next, r.checkCipher p.cipher = .ok next ∧ next.mode = r.mode := by
  obtain ⟨next, checked, -⟩ := checks_checkCipher (r := r) .standard typed.cipher
  exact ⟨next, checked, mode_of_checkCipher checked⟩

theorem failsIn_checkOpenPgp (typed : p.Typed) (m : Method) :
    FailsIn Failure.Foreign (r.checkOpenPgp suite source m p) := by
  obtain ⟨next, checked, -⟩ := exists_checkCipher typed r
  unfold checkOpenPgp
  rw [checked]
  simp only [bind, Except.bind]
  split_ifs with set
  · obtain ⟨password, given, -⟩ := HostValue.exists_text_of_isSet typed.password set
    rw [given]
    exact .ok _
  · split
    · exact .ok _
    · exact failsIn_checkRecipient m
    · exact failsIn_checkPrivateKeyring typed m

theorem failsWith_checkOpenPgp (typed : p.Typed) (serves : source.Serves) (m : Method) :
    FailsWith Failure.Foreign (r.checkOpenPgp suite source m p) ↔ p.password.isSet = false ∧
      (r.mode = some .encrypt ∧ p.MeetsIllegible suite source ∨
        r.mode = some .decrypt ∧ p.MeetsBreaking suite source) := by
  obtain ⟨next, checked, mode⟩ := exists_checkCipher typed r
  unfold checkOpenPgp
  rw [checked, ← mode]
  simp only [bind, Except.bind]
  split_ifs with set
  · obtain ⟨password, given, -⟩ := HostValue.exists_text_of_isSet typed.password set
    rw [set, given]
    exact iff_of_false (not_failsWith_ok _) (by simp)
  · rw [and_iff_right (Bool.eq_false_iff.2 set)]
    cases next.mode with
    | none => exact iff_of_false (not_failsWith_ok _) (by simp)
    | some d =>
      cases d with
      | encrypt => simpa using failsWith_checkRecipient typed serves m
      | decrypt => simpa using failsWith_checkPrivateKeyring typed serves m

/-! ## All rules -/

theorem evaluate_openPgp {m : Method} (method : p.algorithm.Names Method.name Method.algorithm m)
    (kind : m.isOpenPgp = true) (settings : Settings) : ∃ r : Resolution,
      evaluate suite settings source p = r.checkOpenPgp suite source m p ∧
        r.mode = directions.choose? p.mode := by
  refine ⟨(ofChoices p).checkPolicy settings m, ?_, ?_⟩
  · rw [evaluate_of_method (choose?_methods.2 method), checkFamily, if_pos kind]
  · rw [(choices_checkPolicy settings m (ofChoices p)).1, (choices_ofChoices p).1]

theorem failsIn_evaluate (typed : p.Typed) (kind : p.ForMessages) (settings : Settings) :
    FailsIn Failure.Foreign (evaluate suite settings source p) := by
  obtain ⟨m, method, openPgp⟩ := kind
  obtain ⟨r, evaluated, -⟩ := evaluate_openPgp method openPgp settings
  rw [evaluated]
  exact failsIn_checkOpenPgp typed m

theorem failsWith_evaluate (typed : p.Typed) (kind : p.ForMessages) (serves : source.Serves)
    (settings : Settings) :
    FailsWith Failure.Foreign (evaluate suite settings source p) ↔ p.Trips suite source := by
  obtain ⟨m, method, openPgp⟩ := kind
  obtain ⟨r, evaluated, mode⟩ := evaluate_openPgp method openPgp settings
  rw [evaluated, failsWith_checkOpenPgp typed serves, mode, choose?_directions, choose?_directions]
  rfl

end Resolution

namespace Validation

variable {suite : Suite} {source : KeyringSource} {p : Properties}

/-- There is a list of findings unless a keyring that is asked cannot be loaded. -/
theorem exists_validate_iff (settings : Settings) (typed : p.Typed) (kind : p.ForMessages)
    (serves : source.Serves) :
    (∃ findings vault, validate suite settings source p = .ok (findings, vault)) ↔
      ¬ p.Trips suite source := by
  rw [← Resolution.failsWith_evaluate typed kind serves settings]
  unfold validate
  constructor
  · rintro ⟨findings, vault, h⟩ ⟨f, failed, -⟩
    rw [failed] at h
    cases h
  · intro other
    obtain ⟨r, evaluated⟩ := (Resolution.failsIn_evaluate typed kind settings).exists_ok other
    rw [evaluated]
    exact ⟨_, _, rfl⟩

end Validation

end Cryptogram
