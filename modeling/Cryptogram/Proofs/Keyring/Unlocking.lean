import Cryptogram.Keyring.Private
import Cryptogram.Proofs.Keyring.Recipients
import Cryptogram.Proofs.OpenPgp.StringToKey

/-!
# Keyrings that break off while they are unlocked

A passphrase that opens no key of a keyring is refused with a failure about keyrings.  Any other
failure comes from a key at which unlocking breaks off (`failsWith_readPrivate`): while its numbers
are revealed, or because those are not the numbers of a private RSA key.  Keys are unlocked in order,
so that a key counts only if those in front of it were passed.
-/

namespace Cryptogram

theorem Symmetric.supported_of_primitive {a : Symmetric} (h : a.primitive?.isSome = true) :
    a.supported = true := by
  cases a <;> first
    | rfl
    | cases h

/-- With a key of the right size, only the initial vector matters. -/
theorem Suite.failsWith_feedback (suite : Suite) {a : Symmetric} (h : a.supported = true)
    {key : Bytes} (hk : key.length = a.keySize) (iv : Bytes) :
    FailsWith Failure.Foreign (suite.feedback a key iv) ↔ iv.length ≠ a.blockSize := by
  obtain ⟨f, size, found⟩ := suite.exists_feedback h hk
  by_cases width : iv.length = a.blockSize
  · rw [found iv width]
    exact iff_of_false (not_failsWith_ok _) (not_not.2 width)
  · have zero := found _ (Bytes.length_zeros _)
    have refused : suite.feedback a key iv = .error .feedbackIvSize := by
      unfold feedback at zero ⊢
      obtain ⟨g, symmetric, checked⟩ := exists_of_bind_eq_ok zero
      split_ifs at checked
      cases checked
      rw [symmetric]
      simp only [bind, Except.bind]
      rw [size, if_neg width]
    rw [refused]
    exact iff_of_true (failsWith_error.2 rfl) width

theorem Rsa.PrivateKey.one_lt_of_sound {k : PrivateKey} {p q : Nat} (h : k.sound p q = true) :
    1 < p ∧ 1 < q := by
  simp only [sound, Bool.and_eq_true, decide_eq_true_eq] at h
  tauto

namespace Keyring

variable {suite : Suite} {location : String} {passphrase : Bytes}

/-! ## Protected numbers -/

namespace Protection

/-- A protection that cannot be tried: no key can be derived from the passphrase, or the initial
vector was cut. -/
inductive Untriable (passphrase : Bytes) (p : Protection) : Prop
  | hash (unknown : HashName.ofId? p.hash = none)
  | type (unknown : (p.type : Int) ∉ StringToKey.derivable)
  | nothing (empty : passphrase = []) (unsalted : p.type = 0 ∨ p.salt = [])
  | iv (served : p.cipher.primitive?.isSome = true) (cut : p.iv.length ≠ p.cipher.blockSize)

variable {p : Protection}

theorem seed_eq_nil_iff {hash : HashName} :
    (⟨p.type, hash, p.salt, p.count⟩ : StringToKey).seed passphrase = [] ↔
      passphrase = [] ∧ (p.type = 0 ∨ p.salt = []) := by
  unfold StringToKey.seed StringToKey.simple
  dsimp only
  split_ifs with alone
  · have same : p.type = 0 := by exact_mod_cast alone
    simp [same]
  · have other : p.type ≠ 0 := by exact_mod_cast alone
    simp [other, and_comm]

/-- With a key at hand, only the initial vector matters, and only to a cipher that is served. -/
theorem untriable_iff {hash : HashName} (known : HashName.ofId? p.hash = some hash)
    (type : (p.type : Int) ∈ StringToKey.derivable)
    (seed : (⟨p.type, hash, p.salt, p.count⟩ : StringToKey).seed passphrase ≠ []) :
    p.Untriable passphrase ↔
      p.cipher.primitive?.isSome = true ∧ p.iv.length ≠ p.cipher.blockSize := by
  constructor
  · rintro (unknown | unknown | ⟨empty, unsalted⟩ | ⟨served, cut⟩)
    · rw [known] at unknown
      cases unknown
    · exact absurd type unknown
    · exact absurd (seed_eq_nil_iff.2 ⟨empty, unsalted⟩) seed
    · exact ⟨served, cut⟩
  · rintro ⟨served, cut⟩
    exact .iv served cut

/-- A protection opens or not, or is refused as one of a keyring, unless it cannot be tried. -/
theorem failsWith_unlock : FailsWith Failure.Foreign (p.unlock suite location passphrase) ↔
    p.cipher.keySize ≠ 0 ∧ p.Untriable passphrase := by
  unfold unlock
  by_cases keyless : p.cipher.keySize = 0
  · rw [if_pos keyless]
    exact iff_of_false (not_failsWith_foreign (.error rfl)) fun both => both.1 keyless
  rw [if_neg keyless, and_iff_right keyless]
  cases known : HashName.ofId? p.hash with
  | none => exact iff_of_true (failsWith_error.2 rfl) (.hash known)
  | some hash =>
    dsimp only
    have width : ¬ (StringToKey.maxKeySize : Int) < p.cipher.keySize :=
      not_lt.2 (Int.ofNat_le.2 Symmetric.keySize_le)
    by_cases type : (p.type : Int) ∈ StringToKey.derivable
    swap
    · rw [StringToKey.derive, if_neg width, if_pos type]
      exact iff_of_true (failsWith_error.2 rfl) (.type type)
    by_cases seed : (⟨p.type, hash, p.salt, p.count⟩ : StringToKey).seed passphrase = []
    · rw [StringToKey.derive, if_neg width, if_neg (not_not.2 type), if_pos seed]
      obtain ⟨empty, unsalted⟩ := seed_eq_nil_iff.1 seed
      exact iff_of_true (failsWith_error.2 rfl) (.nothing empty unsalted)
    obtain ⟨key, derived, size⟩ :=
      StringToKey.exists_derive suite type seed (@Symmetric.keySize_le p.cipher)
    rw [untriable_iff known type seed, derived]
    simp only [bind, Except.bind]
    cases served : p.cipher.primitive? with
    | none => exact iff_of_false (not_failsWith_ok _) (by simp)
    | some primitive =>
      have supported : p.cipher.supported = true :=
        Symmetric.supported_of_primitive (Option.isSome_of_eq_some served)
      have tried := suite.failsWith_feedback supported size p.iv
      simp only [Option.isNone_some, Option.isSome_some, true_and, Bool.false_eq_true, if_false]
      rw [← tried]
      cases suite.feedback p.cipher key p.iv with
      | error f => exact failsWith_error.trans failsWith_error.symm
      | ok f => exact iff_of_false (not_failsWith_ok _) (not_failsWith_ok _)

end Protection

/-- A packet whose numbers a passphrase is asked for although it cannot be tried on them: they are not
there, not protected, or protected in a way that cannot be tried. -/
inductive KeyPacket.Unrevealable (passphrase : Bytes) (k : KeyPacket) : Prop
  | missing (isPublic : k.secret = none)
  | plain {numbers : List Nat} (unprotected : k.secret = some (.plain numbers))
  | guarded {protection : Protection} (locked : k.secret = some (.guarded protection))
    (keyed : protection.cipher.keySize ≠ 0) (untriable : protection.Untriable passphrase)

theorem failsWith_reveal {k : KeyPacket} :
    FailsWith Failure.Foreign (reveal suite location passphrase k) ↔ k.Unrevealable passphrase := by
  unfold reveal
  cases secret : k.secret with
  | none => exact iff_of_true (failsWith_error.2 rfl) (.missing secret)
  | some part =>
    cases part with
    | plain numbers => exact iff_of_true (failsWith_error.2 rfl) (.plain secret)
    | unread =>
      refine iff_of_false (not_failsWith_foreign (.error rfl)) ?_
      rintro (other | other | ⟨other, -, -⟩) <;>
      · rw [secret] at other
        cases other
    | guarded protection =>
      dsimp only
      refine (failsWith_bind_left fun opened => not_failsWith_ok _).trans
        (Protection.failsWith_unlock.trans ⟨fun both => .guarded secret both.1 both.2, ?_⟩)
      rintro (other | other | ⟨same, keyed, untriable⟩)
      · rw [secret] at other
        cases other
      · rw [secret] at other
        cases other
      · rw [secret] at same
        cases same
        exact ⟨keyed, untriable⟩

/-- Packets are revealed in order, up to one that the passphrase does not open. -/
theorem failsWith_revealAll {ks : List KeyPacket} :
    FailsWith Failure.Foreign (revealAll suite location passphrase ks) ↔
      Halts (fun k => ∃ numbers, reveal suite location passphrase k = .ok (some numbers))
        (KeyPacket.Unrevealable passphrase) ks := by
  induction ks with
  | nil => exact iff_of_false (not_failsWith_ok _) (by rintro ⟨⟩)
  | cons k rest ih =>
    rw [revealAll, failsWith_bind, failsWith_reveal, halts_cons]
    refine or_congr_right ⟨?_, ?_⟩
    · rintro ⟨revealed, ended, failed⟩
      cases revealed with
      | none => exact absurd failed (not_failsWith_ok _)
      | some numbers =>
        rcases failsWith_bind.1 failed with failed | ⟨more, -, failed⟩
        · exact ⟨⟨numbers, ended⟩, ih.1 failed⟩
        · exact absurd failed (not_failsWith_ok _)
    · rintro ⟨⟨numbers, ended⟩, halts⟩
      exact ⟨some numbers, ended, failsWith_bind.2 (.inl (ih.2 halts))⟩

/-! ## Private RSA keys -/

/-- Secret numbers that make a private RSA key of a packet. -/
def KeyPacket.FitsRsa (k : KeyPacket) (secret : List Nat) : Prop :=
  ∃ modulus exponent d p q rest, k.numbers = [modulus, exponent] ∧ secret = d :: p :: q :: rest ∧
    (⟨⟨modulus, exponent⟩, d⟩ : Rsa.PrivateKey).sound p q = true

theorem failsIn_rsaPrivateKey (k : KeyPacket) (secret : List Nat) :
    FailsIn Failure.Foreign (rsaPrivateKey k secret) := by
  unfold rsaPrivateKey Rsa.PrivateKey.make
  split
  · dsimp only
    split_ifs
    · exact .error rfl
    · exact .ok _
    · exact .error rfl
  · exact .error rfl

theorem failsWith_rsaPrivateKey {k : KeyPacket} {secret : List Nat} :
    FailsWith Failure.Foreign (rsaPrivateKey k secret) ↔ ¬ k.FitsRsa secret := by
  unfold rsaPrivateKey
  split
  · rename_i modulus exponent d p q rest numbers
    have fits : k.FitsRsa (d :: p :: q :: rest) ↔
        (⟨⟨modulus, exponent⟩, d⟩ : Rsa.PrivateKey).sound p q = true := by
      simp [KeyPacket.FitsRsa, numbers]
    rw [fits]
    split_ifs with degenerate
    · refine iff_of_true (failsWith_error.2 rfl) fun sound => ?_
      have := Rsa.PrivateKey.one_lt_of_sound sound
      omega
    · rw [Rsa.PrivateKey.make]
      split_ifs with sound
      · exact iff_of_false (not_failsWith_ok _) (not_not.2 sound)
      · exact iff_of_true (failsWith_error.2 rfl) sound
  · rename_i other
    refine iff_of_true (failsWith_error.2 rfl) ?_
    rintro ⟨modulus, exponent, d, p, q, rest, numbers, same, -⟩
    exact other modulus exponent d p q rest numbers same

/-- A packet of an opened key that holds a private RSA key, by the numbers that were revealed or, in a
key that is not protected, by its own. -/
def KeyPacket.HoldsPrivateRsa (k : KeyPacket) (revealed : Option (List Nat)) : Prop :=
  ∃ secret, (revealed = some secret ∨ revealed = none ∧ k.secret = some (.plain secret)) ∧
    k.FitsRsa secret

/-- Without numbers of its own, a packet counts as one of zeros. -/
theorem not_fitsRsa_zeros (k : KeyPacket) : ¬ k.FitsRsa [0, 0, 0, 0] := by
  rintro ⟨modulus, exponent, d, p, q, rest, -, same, sound⟩
  cases same
  have := Rsa.PrivateKey.one_lt_of_sound sound
  omega

theorem failsIn_secretNumbers (k : KeyPacket) (revealed : Option (List Nat)) :
    FailsIn Failure.Foreign (k.secretNumbers revealed) := by
  unfold KeyPacket.secretNumbers
  split
  · exact .ok _
  · exact .error rfl
  · exact .ok _
  · exact .ok _

theorem failsWith_privateKey {k : KeyPacket} {revealed : Option (List Nat)} :
    FailsWith Failure.Foreign (k.secretNumbers revealed >>= rsaPrivateKey k) ↔
      ¬ k.HoldsPrivateRsa revealed := by
  unfold KeyPacket.HoldsPrivateRsa
  obtain ⟨created, algorithm, publicPart, numbers, secret⟩ := k
  cases revealed with
  | some secret' => exact failsWith_rsaPrivateKey.trans (not_congr (by simp))
  | none =>
    cases secret with
    | none => exact iff_of_true (failsWith_error.2 rfl) (by simp)
    | some part =>
      cases part with
      | plain secret' => exact failsWith_rsaPrivateKey.trans (not_congr (by simp))
      | _ => exact iff_of_true (failsWith_rsaPrivateKey.2 (not_fitsRsa_zeros _)) (by simp)

theorem failsIn_decryptionKey (suite : Suite) (e : KeyPacket × Option (List Nat)) :
    FailsIn Failure.Foreign (do
      let secret ← e.1.secretNumbers e.2
      return (⟨e.1.keyId suite, ← rsaPrivateKey e.1 secret⟩ : DecryptionKey)) :=
  (failsIn_secretNumbers _ _).bind fun _ _ => (failsIn_rsaPrivateKey _ _).bind fun _ _ => .ok _

theorem failsWith_decryptionKeys {packets : List (KeyPacket × Option (List Nat))} :
    FailsWith Failure.Foreign (decryptionKeys suite packets) ↔
      ∃ e ∈ packets, e.1.encrypts = true ∧ ¬ e.1.HoldsPrivateRsa e.2 := by
  unfold decryptionKeys
  rw [failsWith_mapM, halts_iff_exists]
  · simp only [List.mem_filter, and_assoc]
    refine exists_congr fun e => and_congr_right fun _ => and_congr_right fun _ => ?_
    rw [← failsWith_privateKey, failsWith_bind, failsWith_bind]
    refine or_congr_right (exists_congr fun secret => and_congr_right fun _ => ?_)
    exact failsWith_bind_left fun key => not_failsWith_ok _
  · exact fun e _ other => (failsIn_decryptionKey suite e).exists_ok other

/-! ## Keys -/

/-- The packets of a key with the numbers that a passphrase reveals; a key that is not protected is
taken as it is. -/
def RingKey.revealed (suite : Suite) (location : String) (passphrase : Bytes) (k : RingKey) :
    Except Failure (Option (List (KeyPacket × Option (List Nat)))) :=
  match k.primary.secret with
  | some (.guarded _) => revealAll suite location passphrase k.packets
  | _ => .ok (some (k.packets.map fun packet => (packet, none)))

/-- A key at which unlocking breaks off: with a protected primary key, while its packets are revealed
in order, or else at a packet for messages that does not hold a private RSA key. -/
inductive RingKey.Breaks (suite : Suite) (location : String) (passphrase : Bytes) (k : RingKey) : Prop
  | revealing {protection : Protection} (locked : k.primary.secret = some (.guarded protection))
    (halts : Halts (fun packet => ∃ numbers, reveal suite location passphrase packet = .ok (some numbers))
      (KeyPacket.Unrevealable passphrase) k.packets)
  | numbers {packets : List (KeyPacket × Option (List Nat))}
    (opened : k.revealed suite location passphrase = .ok (some packets))
    (wrong : ∃ e ∈ packets, e.1.encrypts = true ∧ ¬ e.1.HoldsPrivateRsa e.2)

theorem RingKey.failsWith_revealed {k : RingKey} :
    FailsWith Failure.Foreign (k.revealed suite location passphrase) ↔
      (∃ protection, k.primary.secret = some (.guarded protection)) ∧
        Halts (fun packet => ∃ numbers, reveal suite location passphrase packet = .ok (some numbers))
          (KeyPacket.Unrevealable passphrase) k.packets := by
  unfold revealed
  split
  · rename_i protection locked
    rw [failsWith_revealAll]
    exact (and_iff_right ⟨protection, locked⟩).symm
  · rename_i other
    refine iff_of_false (not_failsWith_ok _) ?_
    rintro ⟨⟨protection, locked⟩, -⟩
    exact other protection locked

/-- Unlocking asks what is revealed, and then for the private RSA keys. -/
theorem RingKey.unlock_eq (k : RingKey) :
    k.unlock suite location passphrase =
      k.revealed suite location passphrase >>= fun opened =>
        opened.elim (.ok none) fun packets => do return some (← decryptionKeys suite packets) := by
  unfold unlock revealed
  cases k.primary.secret with
  | none => rfl
  | some part =>
    cases part with
    | plain numbers => rfl
    | unread => rfl
    | guarded protection => exact bind_congr fun opened => by cases opened <;> rfl

theorem RingKey.failsWith_unlock {k : RingKey} :
    FailsWith Failure.Foreign (k.unlock suite location passphrase) ↔
      k.Breaks suite location passphrase := by
  rw [unlock_eq, failsWith_bind, failsWith_revealed]
  constructor
  · rintro (⟨⟨protection, locked⟩, halts⟩ | ⟨opened, ended, failed⟩)
    · exact .revealing locked halts
    · cases opened with
      | none => exact absurd failed (not_failsWith_ok _)
      | some packets =>
        rcases failsWith_bind.1 failed with failed | ⟨keys, -, failed⟩
        · exact .numbers ended (failsWith_decryptionKeys.1 failed)
        · exact absurd failed (not_failsWith_ok _)
  · rintro (⟨locked, halts⟩ | ⟨opened, wrong⟩)
    · exact .inl ⟨⟨_, locked⟩, halts⟩
    · exact .inr ⟨_, opened, failsWith_bind.2 (.inl (failsWith_decryptionKeys.2 wrong))⟩

/-! ## Keyrings -/

/-- A keyring with a secret key at which unlocking breaks off, behind others that a passphrase opens or
not. -/
def Ring.Breaks (suite : Suite) (location : String) (passphrase data : Bytes) : Prop :=
  ∃ keys, Ring.read suite location data = .ok keys ∧
    Halts (fun k => ∃ opened, k.unlock suite location passphrase = .ok opened)
      (RingKey.Breaks suite location passphrase) (keys.filter fun k => !k.isPublic)

theorem failsWith_unlockAll {keys : List RingKey} :
    FailsWith Failure.Foreign (unlockAll suite location passphrase keys) ↔
      Halts (fun k => ∃ opened, k.unlock suite location passphrase = .ok opened)
        (RingKey.Breaks suite location passphrase) (keys.filter fun k => !k.isPublic) := by
  unfold unlockAll
  dsimp only
  split_ifs with absent
  · rw [absent]
    exact iff_of_false (not_failsWith_foreign (.error rfl)) (by rintro ⟨⟩)
  rw [failsWith_bind_left, failsWith_mapM]
  · simp only [RingKey.failsWith_unlock]
  · refine fun opened => not_failsWith_foreign ?_
    split_ifs
    · exact .error rfl
    · exact .ok _

theorem failsWith_readPrivate {data : Bytes} :
    FailsWith Failure.Foreign (readPrivate suite location passphrase data) ↔
      Ring.Breaks suite location passphrase data := by
  unfold readPrivate Ring.Breaks
  rw [failsWith_bind_right (not_failsWith_foreign (Ring.failsIn_read suite location data))]
  exact exists_congr fun keys => and_congr_right fun _ => failsWith_unlockAll

end Keyring

end Cryptogram
