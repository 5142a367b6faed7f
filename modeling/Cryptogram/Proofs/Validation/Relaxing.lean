import Cryptogram.Proofs.Validation.Passing

/-!
# Relaxed policies

Two validations of the same properties, one under a policy that permits at least as much.  They are
run side by side: what a check finds behind the choices depends on the direction, the key derivation
and the allowance alone, so the checks that look at no policy keep two resolutions beside each other
(`Beside`), and three steps are left in which the policies count (`Eases`).  A relaxed policy finds
fault with no other subjects, and an allowance takes away the finding about a short password and
nothing else (`Validation.validate_relaxed`).
-/

namespace Cryptogram

/-! ## Policies -/

/-- Settings that ask for no longer passwords, and with a limit on key lengths that is not below
another one, or without a limit. -/
structure Settings.Relaxes (strict lax : Settings) : Prop where
  password : lax.minPasswordLength ≤ strict.minPasswordLength
  keyBits : ∀ limit ∈ lax.maxKeyBits, ∃ lower ∈ strict.maxKeyBits, lower ≤ limit

theorem Settings.Relaxes.permits {strict lax : Settings} (h : strict.Relaxes lax) {bits : Nat}
    (permits : strict.Permits bits) : lax.Permits bits := by
  intro limit found
  obtain ⟨lower, found', le⟩ := h.keyBits limit found
  exact (permits lower found').trans le

/-- The same value, or another one that says so if weak passwords are allowed and does not have to if
they are not. -/
inductive HostValue.Relaxes : HostValue → HostValue → Prop
  | same (value : HostValue) : Relaxes value value
  | granted {value value' : HostValue} {weak weak' : Bool} (allows : value.Allows weak)
    (allows' : value'.Allows weak') (kept : weak = true → weak' = true) : Relaxes value value'

/-- The finding about a password of fewer octets than are asked for. -/
def Finding.shortPassword (least : Int) : Finding :=
  ⟨Field.password.hostName,
    s!"Password length less than {least} characters is potentially unsafe. See Admin Guide.", false,
    none⟩

/-! ## Two runs -/

/-- Two runs that fail with the same failure, or come to an end with results that are related. -/
inductive EndsAlike {α β : Type} (R : α → β → Prop) : Except Failure α → Except Failure β → Prop
  | failed (f : Failure) : EndsAlike R (.error f) (.error f)
  | ended {a : α} {b : β} (h : R a b) : EndsAlike R (.ok a) (.ok b)

namespace EndsAlike

variable {α β γ δ : Type} {R : α → β → Prop} {S : γ → δ → Prop} {x : Except Failure α}
  {y : Except Failure β}

theorem bind {next : α → Except Failure γ} {next' : β → Except Failure δ} (h : EndsAlike R x y)
    (behind : ∀ a b, R a b → EndsAlike S (next a) (next' b)) :
    EndsAlike S (x >>= next) (y >>= next') := by
  cases h with
  | failed f => exact .failed f
  | ended h => exact behind _ _ h

/-- Two runs that begin with the same. -/
theorem refl (x : Except Failure α) : EndsAlike Eq x x := by
  cases x with
  | error f => exact .failed f
  | ok a => exact .ended rfl

theorem bind_same {next : α → Except Failure γ} {next' : α → Except Failure δ}
    (behind : ∀ a, EndsAlike S (next a) (next' a)) : EndsAlike S (x >>= next) (x >>= next') := by
  refine (refl x).bind fun a b same => ?_
  rw [← same]
  exact behind a

end EndsAlike

namespace Resolution

/-- Relations on findings that stay if the same is found on both sides. -/
def Stays (R : List Finding → List Finding → Prop) : Prop :=
  ∀ found found' finding, R found found' → R (found ++ [finding]) (found' ++ [finding])

/-- Two resolutions with related findings that the same will be asked of, the second with an
allowance if the first has one. -/
structure Beside (R : List Finding → List Finding → Prop) (r r' : Resolution) : Prop where
  findings : R r.findings r'.findings
  mode : r'.mode = r.mode
  kdf : r'.kdf = r.kdf
  allowWeak : r.allowWeak = true → r'.allowWeak = true

variable {suite : Suite} {source : KeyringSource} {strict lax : Settings} {m : Method}
  {p : Properties} {r r' : Resolution} {value : HostValue}
  {R R' : List Finding → List Finding → Prop}

theorem Beside.mono (h : Beside R r r') (implies : ∀ found found', R found found' → R' found found') :
    Beside R' r r' :=
  ⟨implies _ _ h.findings, h.mode, h.kdf, h.allowWeak⟩

/-- Where weak passwords are not allowed in the end, they were not allowed before. -/
theorem Beside.denied (h : Beside R r r') (denied : (!r'.allowWeak) = true) :
    (!r.allowWeak) = true := by
  rw [Bool.not_eq_true'] at denied ⊢
  exact Bool.eq_false_iff.2 fun allowed => by simp [h.allowWeak allowed] at denied

theorem Beside.keep (h : Beside R r r') (secret : Secret) :
    Beside R (r.keep secret) (r'.keep secret) :=
  ⟨h.findings, h.mode, h.kdf, h.allowWeak⟩

theorem Beside.withPassword (h : Beside R r r') (s : String) :
    Beside R (r.withPassword s) (r'.withPassword s) :=
  ⟨h.findings, h.mode, h.kdf, h.allowWeak⟩

theorem Beside.fail (h : Beside R r r') (stays : Stays R) (subject : Field) (explanation : String)
    (input : HostValue) :
    Beside R (r.fail subject explanation input) (r'.fail subject explanation input) :=
  ⟨stays _ _ _ h.findings, h.mode, h.kdf, h.allowWeak⟩

theorem Beside.failKdf (h : Beside R r r') (stays : Stays R) (m : Method) (k : KeyDerivation)
    (expected : List KeyDerivation) :
    Beside R (r.failKdf m k expected) (r'.failKdf m k expected) := by
  unfold Resolution.failKdf
  exact h.fail stays _ _ _

theorem Beside.failUnless (h : Beside R r r') (stays : Stays R) (holds : Prop) [Decidable holds]
    (subject : Field) (explanation : String) (input : HostValue) :
    Beside R (if holds then r else r.fail subject explanation input)
      (if holds then r' else r'.fail subject explanation input) := by
  split_ifs
  · exact h
  · exact h.fail stays _ _ _

/-! ## Checks without a policy -/

theorem endsAlike_checkCipher (h : Beside R r r') (stays : Stays R) (value : HostValue) :
    EndsAlike (Beside R) (r.checkCipher value) (r'.checkCipher value) := by
  unfold checkCipher
  split
  · exact .ended h
  · exact .ended h
  refine .bind_same fun number => ?_
  cases number with
  | none => exact .ended (h.fail stays _ _ _)
  | some n =>
    dsimp only
    cases offered? n with
    | none => exact .ended (h.fail stays _ _ _)
    | some a =>
      have chosen : Beside R { r with cipher := a } { r' with cipher := a } :=
        ⟨h.findings, h.mode, h.kdf, h.allowWeak⟩
      exact .ended (chosen.failUnless stays _ _ _ _)

theorem endsAlike_failKeyring (h : Beside R r r') (stays : Stays R) (subject : Field)
    (location : HostValue) (f : Failure) :
    EndsAlike (Beside R) (r.failKeyring subject location f) (r'.failKeyring subject location f) := by
  unfold failKeyring
  cases f.kind with
  | own c =>
    dsimp only
    split_ifs
    · exact .ended (h.fail stays _ _ _)
    · exact .failed f
  | outside k => exact .failed f

theorem endsAlike_checkRecipient (h : Beside R r r') (stays : Stays R) (suite : Suite)
    (source : KeyringSource) (m : Method) (p : Properties) :
    EndsAlike (Beside R) (r.checkRecipient suite source m p) (r'.checkRecipient suite source m p) := by
  unfold checkRecipient
  split_ifs
  · exact .ended (h.fail stays _ _ _)
  cases recipient suite source p.publicKeyring p.publicKeyUserId with
  | ok key => exact .ended ⟨h.findings, h.mode, h.kdf, h.allowWeak⟩
  | error f => exact endsAlike_failKeyring h stays _ _ f

theorem endsAlike_checkPrivateKeyring (h : Beside R r r') (stays : Stays R) (suite : Suite)
    (source : KeyringSource) (m : Method) (p : Properties) :
    EndsAlike (Beside R) (r.checkPrivateKeyring suite source m p)
      (r'.checkPrivateKeyring suite source m p) := by
  unfold checkPrivateKeyring
  split_ifs
  · exact .ended (h.fail stays _ _ _)
  cases p.privateKeyringPassphrase with
  | text passphrase =>
    dsimp only
    generalize (do
      let data ← source p.privateKeyring
      Keyring.readPrivate suite p.privateKeyring.display (Text.utf8 passphrase) data) = opened
    cases opened with
    | ok ring => exact .ended ⟨h.findings, h.mode, h.kdf, h.allowWeak⟩
    | error f =>
      refine endsAlike_failKeyring ?_ stays _ _ f
      exact ⟨h.findings, h.mode, h.kdf, h.allowWeak⟩
  | _ => exact .failed .wrongType

theorem endsAlike_checkOpenPgp (h : Beside R r r') (stays : Stays R) (suite : Suite)
    (source : KeyringSource) (m : Method) (p : Properties) :
    EndsAlike (Beside R) (r.checkOpenPgp suite source m p) (r'.checkOpenPgp suite source m p) := by
  rw [checkOpenPgp_eq, checkOpenPgp_eq]
  refine (endsAlike_checkCipher h stays p.cipher).bind fun next next' h => ?_
  unfold checkOpenPgpKey
  rw [h.mode]
  split_ifs
  · cases p.password with
    | text s => exact .ended (h.withPassword s)
    | _ => exact .failed .wrongType
  · cases next.mode with
    | none => exact .ended h
    | some d =>
      cases d with
      | encrypt => exact endsAlike_checkRecipient h stays suite source m p
      | decrypt => exact endsAlike_checkPrivateKeyring h stays suite source m p

/-! ## Checks with a policy -/

/-- The steps in which two policies count, from related findings to related findings: the rules on
the method, and one more about a password or a raw key. -/
structure Eases (strict lax : Settings) (R R' : List Finding → List Finding → Prop) : Prop where
  refl : ∀ found, R' found found
  stays : Stays R'
  implies : ∀ found found', R found found' → R' found found'
  policy : ∀ {r r' : Resolution} (m : Method), Beside Eq r r' →
    Beside R (r.checkPolicy strict m) (r'.checkPolicy lax m)
  password : ∀ {r r' : Resolution} (s : String), Beside R r r' →
    Beside R' (r.acceptPassword strict s) (r'.acceptPassword lax s)
  rawKey : ∀ {r r' : Resolution} (key : Secret), Beside R r r' →
    Beside R' (r.acceptRawKey strict key) (r'.acceptRawKey lax key)

namespace Eases

variable (eases : Eases strict lax R R')

include eases

theorem weaken (h : Beside R r r') : Beside R' r r' :=
  h.mono eases.implies

theorem fail (h : Beside R r r') (subject : Field) (explanation : String) (input : HostValue) :
    Beside R' (r.fail subject explanation input) (r'.fail subject explanation input) :=
  (eases.weaken h).fail eases.stays subject explanation input

theorem givenPassword (h : Beside R r r') (value : HostValue) :
    EndsAlike (Beside R') (r.givenPassword strict value) (r'.givenPassword lax value) := by
  cases value with
  | text s => exact .ended (eases.password s h)
  | _ => exact .failed .missingOperation

theorem checkRawKey (h : Beside R r r') (m : Method) (k : KeyDerivation) (digits : HostValue) :
    EndsAlike (Beside R') (r.checkRawKey strict m k digits) (r'.checkRawKey lax m k digits) := by
  unfold Resolution.checkRawKey
  dsimp only
  split_ifs
  · exact .ended (eases.fail h _ _ _)
  cases digits with
  | text s =>
    dsimp only
    cases Secret.ofHex s with
    | ok key => exact .ended (eases.rawKey key h)
    | error fault => exact .ended (eases.fail h _ _ _)
  | _ => exact .failed .missingOperation

theorem checkKeyed (h : Beside R r r') (m : Method) (p : Properties) :
    EndsAlike (Beside R') (r.checkKeyed strict m p) (r'.checkKeyed lax m p) := by
  unfold Resolution.checkKeyed
  rw [h.kdf]
  cases r.kdf with
  | none => exact .ended (eases.weaken h)
  | some k =>
    dsimp only
    split_ifs
    · exact .ended ((eases.weaken h).failKdf eases.stays _ _ _)
    · exact eases.checkRawKey h m k p.rawKey
    · exact .ended (eases.fail h _ _ _)
    · exact eases.givenPassword h p.password

theorem checkPasswordBased (h : Beside R r r') (m : Method) (p : Properties) :
    EndsAlike (Beside R') (r.checkPasswordBased strict m p) (r'.checkPasswordBased lax m p) := by
  unfold Resolution.checkPasswordBased
  dsimp only
  split_ifs
  · exact .ended (eases.fail h _ _ _)
  refine (eases.givenPassword h p.password).bind fun next next' h => ?_
  rw [h.kdf]
  cases next.kdf with
  | none => exact .ended h
  | some k =>
    dsimp only
    split_ifs
    · exact .ended h
    · exact .ended (h.failKdf eases.stays _ _ _)

theorem checkFamily (h : Beside R r r') (suite : Suite) (source : KeyringSource) (m : Method)
    (p : Properties) :
    EndsAlike (Beside R') (r.checkFamily suite strict source m p)
      (r'.checkFamily suite lax source m p) := by
  unfold Resolution.checkFamily
  split_ifs
  · exact endsAlike_checkOpenPgp (eases.weaken h) eases.stays suite source m p
  · exact eases.checkKeyed h m p
  · exact eases.checkPasswordBased h m p

end Eases

/-! ## Choices -/

theorem beside_checkAllowance {value' : HostValue} (h : value.Relaxes value') (r : Resolution) :
    Beside Eq (r.checkAllowance value) (r.checkAllowance value') := by
  cases h with
  | same => exact ⟨rfl, rfl, rfl, id⟩
  | granted allows allows' kept =>
    unfold checkAllowance
    rw [allowance?_eq_some_iff.2 allows, allowance?_eq_some_iff.2 allows']
    exact ⟨rfl, rfl, rfl, kept⟩

theorem beside_ofChoices (h : p.allowWeak.Relaxes value) :
    Beside Eq (ofChoices p) (ofChoices { p with allowWeak := value }) :=
  beside_checkAllowance h _

/-- Behind the choices, the allowance of the properties is not looked at. -/
theorem checkFamily_withAllowance (settings : Settings) (r : Resolution) :
    r.checkFamily suite settings source m { p with allowWeak := value } =
      r.checkFamily suite settings source m p :=
  rfl

theorem Eases.evaluate (eases : Eases strict lax R R') (h : p.allowWeak.Relaxes value)
    (suite : Suite) (source : KeyringSource) :
    EndsAlike (Beside R') (evaluate suite strict source p)
      (evaluate suite lax source { p with allowWeak := value }) := by
  have start := beside_ofChoices h
  cases found : methods.choose? p.algorithm with
  | none =>
    rw [evaluate_of_no_method found, evaluate_of_no_method (by exact found)]
    exact .ended (start.mono fun _ _ same => same ▸ eases.refl _)
  | some m =>
    rw [evaluate_of_method found, evaluate_of_method (by exact found), checkFamily_withAllowance]
    exact eases.checkFamily (eases.policy m start) suite source m p

/-! ## Findings about no other subjects -/

/-- Findings about some of the subjects of others, in the same order. -/
def FewerSubjects (found found' : List Finding) : Prop :=
  (found'.map Finding.subject).Sublist (found.map Finding.subject)

theorem FewerSubjects.append_one {found found' : List Finding} (h : FewerSubjects found found')
    {finding finding' : Finding} (same : finding'.subject = finding.subject) :
    FewerSubjects (found ++ [finding]) (found' ++ [finding']) := by
  unfold FewerSubjects
  rw [List.map_append, List.map_append, List.map_singleton, List.map_singleton, same]
  exact List.Sublist.append h (List.Sublist.refl _)

theorem Beside.fail_both (h : Beside FewerSubjects r r') (subject : Field)
    (explanation explanation' : String) (input : HostValue) :
    Beside FewerSubjects (r.fail subject explanation input) (r'.fail subject explanation' input) :=
  ⟨h.findings.append_one rfl, h.mode, h.kdf, h.allowWeak⟩

theorem Beside.fail_left (h : Beside FewerSubjects r r') (subject : Field) (explanation : String)
    (input : HostValue) : Beside FewerSubjects (r.fail subject explanation input) r' := by
  refine ⟨?_, h.mode, h.kdf, h.allowWeak⟩
  unfold FewerSubjects Resolution.fail
  rw [List.map_append]
  exact h.findings.trans (List.sublist_append_left _ _)

theorem Beside.checkPolicy_relaxed (h : Beside FewerSubjects r r') (relaxes : strict.Relaxes lax)
    (m : Method) : Beside FewerSubjects (r.checkPolicy strict m) (r'.checkPolicy lax m) := by
  unfold Resolution.checkPolicy
  refine Beside.failUnless ?_ (fun _ _ _ h => h.append_one rfl) _ _ _ _
  cases found : lax.maxKeyBits with
  | none =>
    cases strict.maxKeyBits with
    | none => exact h
    | some limit =>
      dsimp only
      split_ifs
      · exact h.fail_left _ _ _
      · exact h
  | some limit =>
    obtain ⟨lower, found', le⟩ := relaxes.keyBits limit found
    rw [found']
    dsimp only
    split_ifs with tooLong tooLong' tooLong'
    · exact h.fail_both _ _ _ _
    · exact h.fail_left _ _ _
    · exact absurd ⟨tooLong'.1, by omega⟩ tooLong
    · exact h

theorem Beside.acceptPassword_relaxed (h : Beside FewerSubjects r r') (relaxes : strict.Relaxes lax)
    (s : String) :
    Beside FewerSubjects (r.acceptPassword strict s) (r'.acceptPassword lax s) := by
  have least := relaxes.password
  unfold Resolution.acceptPassword
  refine Beside.withPassword ?_ s
  split_ifs with short short' short'
  · exact h.fail_both _ _ _ _
  · exact h.fail_left _ _ _
  · -- What is too short for fewer octets and no allowance is too short for more of them.
    exact absurd ⟨by omega, h.denied short'.2⟩ short
  · exact h

theorem Beside.acceptRawKey_relaxed (h : Beside FewerSubjects r r') (relaxes : strict.Relaxes lax)
    (key : Secret) :
    Beside FewerSubjects (r.acceptRawKey strict key) (r'.acceptRawKey lax key) := by
  have kept := h.keep key
  unfold Resolution.acceptRawKey
  dsimp only
  cases fault : rawKeyFault? strict key.bits with
  | none =>
    obtain ⟨known, permits⟩ := rawKeyFault?_eq_none_iff.1 fault
    rw [rawKeyFault?_eq_none_iff.2 ⟨known, relaxes.permits permits⟩]
    exact ⟨h.findings, h.mode, h.kdf, h.allowWeak⟩
  | some explanation =>
    cases rawKeyFault? lax key.bits with
    | none =>
      have left := kept.fail_left .rawKey explanation .absent
      exact ⟨left.findings, h.mode, h.kdf, h.allowWeak⟩
    | some explanation' =>
      have both := kept.fail_both .rawKey explanation explanation' .absent
      exact ⟨both.findings, h.mode, h.kdf, h.allowWeak⟩

theorem eases_fewerSubjects (relaxes : strict.Relaxes lax) :
    Eases strict lax FewerSubjects FewerSubjects where
  refl _ := List.Sublist.refl _
  stays _ _ _ h := h.append_one rfl
  implies _ _ h := h
  policy m h :=
    (h.mono fun _ _ same => same ▸ List.Sublist.refl _).checkPolicy_relaxed relaxes m
  password s h := h.acceptPassword_relaxed relaxes s
  rawKey key h := h.acceptRawKey_relaxed relaxes key

/-! ## One finding less -/

/-- The same findings, or the same but for one occurrence of a finding. -/
def AllBut (finding : Finding) (found found' : List Finding) : Prop :=
  found' = found ∨ ∃ before behind, found = before ++ finding :: behind ∧ found' = before ++ behind

theorem stays_eq : Stays Eq := fun _ _ _ same => same ▸ rfl

theorem stays_allBut (finding : Finding) : Stays (AllBut finding) := by
  rintro found found' other (rfl | ⟨before, behind, rfl, rfl⟩)
  · exact .inl rfl
  · refine .inr ⟨before, behind ++ [other], ?_, List.append_assoc _ _ _⟩
    rw [List.append_assoc, List.cons_append]

theorem Beside.allBut (h : Beside Eq r r') (finding : Finding) : Beside (AllBut finding) r r' :=
  h.mono fun _ _ same => .inl same.symm

theorem Beside.checkPolicy (h : Beside R r r') (stays : Stays R) (settings : Settings) (m : Method) :
    Beside R (r.checkPolicy settings m) (r'.checkPolicy settings m) := by
  unfold Resolution.checkPolicy
  refine Beside.failUnless ?_ stays _ _ _ _
  cases settings.maxKeyBits with
  | none => exact h
  | some limit =>
    dsimp only
    split_ifs
    · exact h.fail stays _ _ _
    · exact h

theorem Beside.acceptPassword (h : Beside Eq r r') (settings : Settings) (s : String) :
    Beside (AllBut (.shortPassword settings.minPasswordLength)) (r.acceptPassword settings s)
      (r'.acceptPassword settings s) := by
  unfold Resolution.acceptPassword
  refine Beside.withPassword ?_ s
  split_ifs with short short' short'
  · exact (h.fail stays_eq _ _ _).allBut _
  · -- Only here do the runs part, and the checks behind add the same to both.
    refine ⟨.inr ⟨r.findings, [], rfl, ?_⟩, h.mode, h.kdf, h.allowWeak⟩
    rw [List.append_nil, h.findings]
  · exact absurd ⟨short'.1, h.denied short'.2⟩ short
  · exact h.allBut _

theorem Beside.acceptRawKey (h : Beside R r r') (stays : Stays R) (settings : Settings)
    (key : Secret) : Beside R (r.acceptRawKey settings key) (r'.acceptRawKey settings key) := by
  have kept := h.keep key
  unfold Resolution.acceptRawKey
  dsimp only
  cases rawKeyFault? settings key.bits with
  | none => exact ⟨h.findings, h.mode, h.kdf, h.allowWeak⟩
  | some explanation =>
    have both := kept.fail stays .rawKey explanation .absent
    exact ⟨both.findings, h.mode, h.kdf, h.allowWeak⟩

theorem eases_allBut (settings : Settings) :
    Eases settings settings Eq (AllBut (.shortPassword settings.minPasswordLength)) where
  refl _ := .inl rfl
  stays := stays_allBut _
  implies _ _ same := .inl same.symm
  policy m h := h.checkPolicy stays_eq settings m
  password s h := h.acceptPassword settings s
  rawKey key h := (h.acceptRawKey stays_eq settings key).allBut _

end Resolution

namespace Validation

open Resolution

/-- Under settings and an allowance that are not stricter there is the same failure, or findings about
some of the same subjects, in the same order.  Under another allowance alone all findings stay, but
perhaps for the one about a short password. -/
theorem validate_relaxed {p : Properties} {value : HostValue} (allowance : p.allowWeak.Relaxes value)
    (suite : Suite) (source : KeyringSource) :
    (∀ strict lax : Settings, strict.Relaxes lax →
      EndsAlike (fun v v' => FewerSubjects v.1 v'.1) (validate suite strict source p)
        (validate suite lax source { p with allowWeak := value })) ∧
      ∀ settings : Settings,
        EndsAlike (fun v v' => AllBut (.shortPassword settings.minPasswordLength) v.1 v'.1)
          (validate suite settings source p)
          (validate suite settings source { p with allowWeak := value }) := by
  constructor
  · intro strict lax relaxes
    refine ((eases_fewerSubjects relaxes).evaluate allowance suite source).bind fun r r' h => ?_
    exact .ended h.findings
  · intro settings
    refine ((eases_allBut settings).evaluate allowance suite source).bind fun r r' h => ?_
    exact .ended h.findings

/-- A method that there is no cipher for, with a key that is too long and a password that is too
short. -/
theorem validate_relaxed_shortPassword :
    let p : Properties :=
      { algorithm := .member .shaTwofish, kdf := .member .legacy, password := .text "short"
        allowWeak := .text "not-allowed" }
    let q : Properties := { p with allowWeak := .text "allowed" }
    let strict : Settings := { maxKeyBits := some 128 }
    let lax : Settings := { maxKeyBits := some 256 }
    let subjects (settings : Settings) (p : Properties) :=
      (validate .standard settings (.ofShelf {}) p).map (·.1.map Finding.subject)
    p.allowWeak.Relaxes q.allowWeak ∧ strict.Relaxes lax ∧
      EndsAlike (fun v v' => FewerSubjects v.1 v'.1) (validate .standard strict (.ofShelf {}) p)
        (validate .standard lax (.ofShelf {}) q) ∧
      subjects strict p = .ok ["Encryption Algorithm", "Encryption Algorithm", "Password"] ∧
      subjects lax q = .ok ["Encryption Algorithm"] ∧
      EndsAlike (fun v v' => AllBut (.shortPassword 16) v.1 v'.1)
        (validate .standard strict (.ofShelf {}) p) (validate .standard strict (.ofShelf {}) q) ∧
      subjects strict q = .ok ["Encryption Algorithm", "Encryption Algorithm"] := by
  intro p q strict lax subjects
  have allowance : p.allowWeak.Relaxes q.allowWeak := .granted .notAllowed .allowed nofun
  have relaxes : strict.Relaxes lax := by
    refine ⟨le_rfl, ?_⟩
    rintro limit ⟨⟩
    exact ⟨128, rfl, by decide⟩
  obtain ⟨fewer, allBut⟩ := validate_relaxed allowance .standard (.ofShelf {})
  exact ⟨allowance, relaxes, fewer strict lax relaxes, by decide +kernel, by decide +kernel,
    allBut strict, by decide +kernel⟩

end Validation

end Cryptogram
