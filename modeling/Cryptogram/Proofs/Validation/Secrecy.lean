import Cryptogram.Proofs.Text.Hex
import Cryptogram.Proofs.Validation.Influence

/-!
# Secrets that are not revealed

What validation and resolution tell of passwords and raw keys is whether they are there, whether a
password is long enough and how many octets a raw key denotes; the text of properties tells only
whether they are there (`Validation.secrets_unrevealed`).  The secrets themselves stay in the vault, so
two resolutions are compared by what they are without it (`Resolution.outline`).
-/

namespace Cryptogram

/-! ## Secrets that look alike -/

/-- A text whose characters are digits for so many octets, with white space around them. -/
def Text.Denotes (s : String) (count : Nat) : Prop :=
  (∀ c ∈ strip s.toList, IsHexDigit c) ∧ (strip s.toList).length = 2 * count

namespace HostValue

/-- Two passwords that are not set, or two texts of which both are shorter than a length or
neither. -/
inductive AlikeAsPasswords (least : Int) : HostValue → HostValue → Prop
  | unset {a b : HostValue} (left : a.isSet = false) (right : b.isSet = false) : AlikeAsPasswords least a b
  | texts {s t : String} (left : s ≠ "") (right : t ≠ "")
      (side : ((Text.utf8 t).length : Int) < least ↔ ((Text.utf8 s).length : Int) < least) :
      AlikeAsPasswords least (.text s) (.text t)

/-- Two raw keys that are not set, two texts that are no digits, or digits for as many octets. -/
inductive AlikeAsRawKeys : HostValue → HostValue → Prop
  | unset {a b : HostValue} (left : a.isSet = false) (right : b.isSet = false) : AlikeAsRawKeys a b
  | malformed {s t : String} (left : ∀ n, ¬ Text.Denotes s n) (right : ∀ n, ¬ Text.Denotes t n) :
      AlikeAsRawKeys (.text s) (.text t)
  | digits {s t : String} {n : Nat} (left : s ≠ "") (right : t ≠ "") (denotes : Text.Denotes s n)
      (denotes' : Text.Denotes t n) : AlikeAsRawKeys (.text s) (.text t)

end HostValue

theorem Secret.exists_ofHex {s : String} {n : Nat} (h : Text.Denotes s n) :
    ∃ octets, ofHex s = .ok ⟨octets, false⟩ ∧ octets.length = n := by
  obtain ⟨octets, denoted, length⟩ := Text.exists_ofHex_iff.2 h
  refine ⟨octets, ?_, length⟩
  unfold ofHex
  rw [denoted]

theorem Secret.exists_ofHex_error {s : String} (h : ∀ n, ¬ Text.Denotes s n) :
    ∃ f, ofHex s = .error f := by
  unfold ofHex
  cases denoted : Text.ofHex (Text.strip s.toList) with
  | error fault => exact ⟨_, rfl⟩
  | ok octets => exact absurd (Text.exists_ofHex_iff.1 ⟨octets, denoted, rfl⟩) (h _)

theorem Text.denotes_empty : Denotes "" 0 := ⟨nofun, rfl⟩

/-! ## Resolutions without their vaults -/

namespace Resolution

variable {suite : Suite} {settings : Settings} {source : KeyringSource} {m : Method}
  {k : KeyDerivation} {p : Properties} {r : Resolution} {a b password rawKey : HostValue}

/-- What a resolution shows: everything but the secrets themselves. -/
def outline (r : Resolution) : Resolution := { r with vault := {} }

/-- Two evaluations that show the same. -/
def ShowSame (first second : Except Failure Resolution) : Prop :=
  second.map outline = first.map outline

theorem ShowSame.refl (run : Except Failure Resolution) : ShowSame run run := rfl

theorem ShowSame.ok {r r' : Resolution} (h : r'.outline = r.outline) : ShowSame (.ok r) (.ok r') :=
  congrArg Except.ok h

theorem ShowSame.cases {first second : Except Failure Resolution} (h : ShowSame first second) :
    (∃ f, first = .error f ∧ second = .error f) ∨
      ∃ r vault, first = .ok r ∧ second = .ok { r with vault } := by
  unfold ShowSame at h
  cases first with
  | error f =>
    cases second with
    | error f' =>
      cases h
      exact .inl ⟨f, rfl, rfl⟩
    | ok r' => cases h
  | ok r =>
    cases second with
    | error f' => cases h
    | ok r' =>
      have same : r' = { r with vault := r'.vault } :=
        congrArg (fun o => { o with vault := r'.vault }) (Except.ok.inj h)
      exact .inr ⟨r, r'.vault, rfl, congrArg Except.ok same⟩

theorem outline_acceptPassword {s t : String}
    (side : ((Text.utf8 t).length : Int) < settings.minPasswordLength ↔
      ((Text.utf8 s).length : Int) < settings.minPasswordLength) :
    (r.acceptPassword settings t).outline = (r.acceptPassword settings s).outline := by
  unfold acceptPassword
  dsimp only
  simp only [side]
  split_ifs <;> rfl

theorem showSame_givenPassword (alike : a.AlikeAsPasswords settings.minPasswordLength b)
    (set : a.isSet = true) :
    ShowSame (r.givenPassword settings a) (r.givenPassword settings b) := by
  cases alike with
  | unset left => simp [left] at set
  | texts left right side => exact .ok (outline_acceptPassword side)

theorem outline_acceptRawKey {first second : Secret} (bits : second.bits = first.bits) :
    (r.acceptRawKey settings second).outline = (r.acceptRawKey settings first).outline := by
  unfold acceptRawKey
  dsimp only
  rw [bits]
  cases rawKeyFault? settings first.bits <;> rfl

theorem showSame_checkRawKey (alike : a.AlikeAsRawKeys b) (m : Method) (k : KeyDerivation) :
    ShowSame (r.checkRawKey settings m k a) (r.checkRawKey settings m k b) := by
  unfold checkRawKey
  dsimp only
  cases alike with
  | unset left right =>
    rw [left, right]
    exact .refl _
  | @malformed s t left right =>
    have set {s : String} (h : ∀ n, ¬ Text.Denotes s n) : (HostValue.text s).isSet = true :=
      HostValue.isSet_text fun empty => h 0 (empty ▸ Text.denotes_empty)
    obtain ⟨_, fault⟩ := Secret.exists_ofHex_error left
    obtain ⟨_, fault'⟩ := Secret.exists_ofHex_error right
    rw [set left, set right]
    dsimp only
    rw [fault, fault']
    exact .refl _
  | digits left right denotes denotes' =>
    obtain ⟨octets, found, length⟩ := Secret.exists_ofHex denotes
    obtain ⟨octets', found', length'⟩ := Secret.exists_ofHex denotes'
    have bits : Secret.bits ⟨octets', false⟩ = Secret.bits ⟨octets, false⟩ := by
      show 8 * octets'.length = 8 * octets.length
      rw [length, length']
    rw [HostValue.isSet_text left, HostValue.isSet_text right]
    dsimp only
    rw [found, found']
    exact .ok (outline_acceptRawKey bits)

/-! ## Families of methods -/

section

variable (passwords : p.password.AlikeAsPasswords settings.minPasswordLength password)
  (keys : p.rawKey.AlikeAsRawKeys rawKey)

include passwords in
theorem isSet_of_alike : password.isSet = p.password.isSet := by
  generalize p.password = given at passwords
  cases passwords with
  | unset left right => rw [left, right]
  | texts left right => rw [HostValue.isSet_text left, HostValue.isSet_text right]

include passwords keys in
theorem showSame_checkKeyed (m : Method) :
    ShowSame (r.checkKeyed settings m p) (r.checkKeyed settings m { p with password, rawKey }) := by
  unfold checkKeyed
  cases r.kdf with
  | none => exact .refl _
  | some k =>
    dsimp only
    rw [isSet_of_alike passwords]
    split_ifs with foreign raw unset
    · exact .refl _
    · exact showSame_checkRawKey keys m k
    · exact .refl _
    · exact showSame_givenPassword passwords (by simpa using unset)

include passwords in
theorem showSame_checkPasswordBased (m : Method) :
    ShowSame (r.checkPasswordBased settings m p)
      (r.checkPasswordBased settings m { p with password, rawKey }) := by
  unfold checkPasswordBased
  dsimp only
  rw [isSet_of_alike passwords]
  split_ifs with unset
  · exact .refl _
  generalize p.password = given at passwords unset
  cases passwords with
  | unset left => simp [left] at unset
  | @texts s t left right side =>
    -- What is asked of the key derivation does not look at the vault.
    have kdf (s : String) : (r.acceptPassword settings s).kdf = r.kdf :=
      @kdf_of_givenPassword r _ settings (.text s) rfl
    have shown := outline_acceptPassword (r := r) side
    simp only [givenPassword, bind, Except.bind, kdf]
    cases r.kdf with
    | none => exact .ok shown
    | some k =>
      dsimp only
      split_ifs
      · exact .ok shown
      · exact .ok (congrArg (failKdf m k KeyDerivation.forPassword) shown)

include passwords in
theorem showSame_checkOpenPgpKey (m : Method) :
    ShowSame (r.checkOpenPgpKey suite source m p)
      (r.checkOpenPgpKey suite source m { p with password, rawKey }) := by
  unfold checkOpenPgpKey
  dsimp only
  rw [isSet_of_alike passwords]
  split_ifs with set
  · generalize p.password = given at passwords set
    cases passwords with
    | unset left => simp [left] at set
    | texts left right => exact .ok rfl
  · exact .refl _

include passwords in
theorem showSame_checkOpenPgp (m : Method) :
    ShowSame (r.checkOpenPgp suite source m p)
      (r.checkOpenPgp suite source m { p with password, rawKey }) := by
  rw [checkOpenPgp_eq, checkOpenPgp_eq]
  cases r.checkCipher p.cipher with
  | error f => exact .refl _
  | ok next => exact showSame_checkOpenPgpKey passwords m

include passwords keys in
/-- An evaluation shows the same for secrets that look alike. -/
theorem showSame_evaluate :
    ShowSame (evaluate suite settings source p)
      (evaluate suite settings source { p with password, rawKey }) := by
  cases found : methods.choose? p.algorithm with
  | none =>
    rw [evaluate_of_no_method found, evaluate_of_no_method (p := { p with password, rawKey }) found]
    exact .refl _
  | some m =>
    rw [evaluate_of_method found, evaluate_of_method (p := { p with password, rawKey }) found]
    unfold checkFamily
    split_ifs
    · exact showSame_checkOpenPgp passwords m
    · exact showSame_checkKeyed passwords keys m
    · exact showSame_checkPasswordBased passwords m

end

end Resolution

/-! ## Texts of properties -/

theorem Properties.redacted_congr {a b : HostValue} (h : b = .absent ↔ a = .absent) :
    redacted b = redacted a := by
  by_cases none : a = .absent
  · rw [none, h.2 none]
  · have shown {value : HostValue} (there : value ≠ .absent) :
        redacted value = Text.quoted "<redacted>" := by
      cases value <;> first
        | rfl
        | exact absurd rfl there
    rw [shown none, shown (mt h.1 none)]

/-- The text of properties tells of secrets only whether they are there. -/
theorem Properties.text_congr {p : Properties} {password rawKey passphrase : HostValue}
    (h : password = .absent ↔ p.password = .absent) (h' : rawKey = .absent ↔ p.rawKey = .absent)
    (h'' : passphrase = .absent ↔ p.privateKeyringPassphrase = .absent) :
    { p with password, rawKey, privateKeyringPassphrase := passphrase }.text = p.text := by
  have fields (f : Field) :
      fieldText { p with password, rawKey, privateKeyringPassphrase := passphrase } f =
        p.fieldText f := by
    cases f with
    | password => exact redacted_congr h
    | rawKey => exact redacted_congr h'
    | privateKeyringPassphrase => exact redacted_congr h''
    | _ => rfl
  unfold text
  simp only [fields]

/-! ## Validation and resolution -/

namespace Validation

open Resolution

variable {suite : Suite} {settings : Settings} {source : KeyringSource} {p q : Properties}

theorem fst_validate_congr
    (h : ShowSame (evaluate suite settings source p) (evaluate suite settings source q)) :
    (validate suite settings source q).map Prod.fst =
      (validate suite settings source p).map Prod.fst := by
  unfold validate
  obtain ⟨f, first, second⟩ | ⟨r, vault, first, second⟩ := h.cases
  · rw [first, second]
  · rw [first, second]
    rfl

theorem fst_resolve_congr
    (h : ShowSame (evaluate suite settings source p) (evaluate suite settings source q)) :
    (resolve suite settings source q).1 = (resolve suite settings source p).1 := by
  unfold resolve
  obtain ⟨f, first, second⟩ | ⟨r, vault, first, second⟩ := h.cases
  · rw [first, second]
  · rw [first, second]
    dsimp only
    split_ifs <;> rfl

/-- Passwords and raw keys that look alike have the same findings and the same plan or failure, and
secrets that are there have the same text. -/
theorem secrets_unrevealed (suite : Suite) (settings : Settings) (source : KeyringSource)
    (p : Properties) :
    (∀ password rawKey, p.password.AlikeAsPasswords settings.minPasswordLength password →
      p.rawKey.AlikeAsRawKeys rawKey →
        (validate suite settings source { p with password, rawKey }).map Prod.fst =
            (validate suite settings source p).map Prod.fst ∧
          (resolve suite settings source { p with password, rawKey }).1 =
            (resolve suite settings source p).1) ∧
      ∀ password rawKey passphrase, (password = .absent ↔ p.password = .absent) →
        (rawKey = .absent ↔ p.rawKey = .absent) →
        (passphrase = .absent ↔ p.privateKeyringPassphrase = .absent) →
          { p with password, rawKey, privateKeyringPassphrase := passphrase }.text = p.text := by
  refine ⟨fun password rawKey passwords keys => ?_, fun _ _ _ => Properties.text_congr⟩
  have same : ShowSame (evaluate suite settings source p)
      (evaluate suite settings source { p with password, rawKey }) := showSame_evaluate passwords keys
  exact ⟨fst_validate_congr same, fst_resolve_congr same⟩

/-- Two short passwords beside two texts that are no raw keys. -/
theorem secrets_unrevealed_short :
    let p : Properties :=
      { kdf := .member .argon2, password := .text "short", rawKey := .text "none" }
    let q : Properties := { p with password := .text "brief", rawKey := .text "nothing" }
    p.password.AlikeAsPasswords 16 q.password ∧ p.rawKey.AlikeAsRawKeys q.rawKey ∧
      (validate .standard {} (.ofShelf {}) q).map Prod.fst =
        (validate .standard {} (.ofShelf {}) p).map Prod.fst ∧
      (resolve .standard {} (.ofShelf {}) q).1 = (resolve .standard {} (.ofShelf {}) p).1 ∧
      q.text = p.text := by
  intro p q
  have passwords : p.password.AlikeAsPasswords 16 q.password :=
    .texts (by decide) (by decide) (by simp only [Text.utf8_eq]; decide)
  have undigit {s : String} (h : 'n' ∈ Text.strip s.toList) (n : Nat) : ¬ Text.Denotes s n :=
    fun denotes => absurd (denotes.1 'n' h) (by unfold Text.IsHexDigit; decide)
  have keys : p.rawKey.AlikeAsRawKeys q.rawKey :=
    .malformed (undigit (by decide)) (undigit (by decide))
  obtain ⟨checked, shown⟩ := secrets_unrevealed .standard {} (.ofShelf {}) p
  obtain ⟨validated, resolved⟩ := checked q.password q.rawKey passwords keys
  exact ⟨passwords, keys, validated, resolved,
    shown q.password q.rawKey p.privateKeyringPassphrase (by simp [p, q]) (by simp [p, q]) .rfl⟩

/-- White space denotes as many octets as an empty text, but unlike that it counts as a raw key. -/
theorem validate_blank_rawKey :
    let p : Properties := { rawKey := .text "" }
    let q : Properties := { p with rawKey := .text " " }
    Text.Denotes "" 0 ∧ Text.Denotes " " 0 ∧
      (validate .standard {} (.ofShelf {}) p).map Prod.fst = .ok
        [{ subject := "raw-key-hex"
           explanation :=
            "Raw Key (hexadecimal) is required when using algorithm AES/GCM/NoPadding and KDF None. See Admin Guide." }] ∧
      (validate .standard {} (.ofShelf {}) q).map Prod.fst = .ok
        [{ subject := "raw-key-hex", explanation := "Key must be 128, 192, 256 bits, was 0 bits" }] ∧
      (validate .standard {} (.ofShelf {}) q).map Prod.fst ≠
        (validate .standard {} (.ofShelf {}) p).map Prod.fst := by
  have blank : Text.strip " ".toList = [] := by decide
  refine ⟨Text.denotes_empty, ?_, by decide, by decide, by decide⟩
  unfold Text.Denotes
  rw [blank]
  exact ⟨nofun, rfl⟩

end Validation

end Cryptogram
