import Cryptogram.Keyring.Loader
import Cryptogram.Proofs.Keyring.Unlocking

/-!
# Private keyrings that a passphrase opens

A passphrase opens a key or not (`RingKey.Opens`), and a private keyring is collected from the keys
that it opens, wherever they stand among others (`Collects`).  A loader gives exactly what is collected
(`Loader.privateKeyring_collected`).
-/

namespace Cryptogram.Keyring

variable {suite : Suite} {location : String} {passphrase : Bytes}

/-! ## Private RSA keys -/

/-- The private RSA key of a packet, by the numbers that were revealed or, in a key that is not
protected, by its own. -/
def KeyPacket.HasPrivateRsa (k : KeyPacket) (revealed : Option (List Nat)) (key : Rsa.PrivateKey) :
    Prop :=
  ∃ modulus exponent d p q rest, k.numbers = [modulus, exponent] ∧
    (revealed = some (d :: p :: q :: rest) ∨
      revealed = none ∧ k.secret = some (.plain (d :: p :: q :: rest))) ∧
    key = ⟨⟨modulus, exponent⟩, d⟩ ∧ key.sound p q = true

theorem rsaPrivateKey_eq_ok_iff {k : KeyPacket} {secret : List Nat} {key : Rsa.PrivateKey} :
    rsaPrivateKey k secret = .ok key ↔ ∃ modulus exponent d p q rest, k.numbers = [modulus, exponent] ∧
      secret = d :: p :: q :: rest ∧ key = ⟨⟨modulus, exponent⟩, d⟩ ∧ key.sound p q = true := by
  unfold rsaPrivateKey
  split
  · rename_i modulus exponent d p q rest numbers
    simp only [numbers, List.cons.injEq, and_true]
    constructor
    · intro h
      split_ifs at h
      unfold Rsa.PrivateKey.make at h
      dsimp only at h
      split_ifs at h with sound
      cases h
      exact ⟨modulus, exponent, d, p, q, rest, ⟨rfl, rfl⟩, ⟨rfl, rfl, rfl, rfl⟩, rfl, sound⟩
    · rintro ⟨_, _, _, _, _, _, ⟨rfl, rfl⟩, ⟨rfl, rfl, rfl, rfl⟩, rfl, sound⟩
      have := Rsa.PrivateKey.one_lt_of_sound sound
      rw [if_neg (by omega), Rsa.PrivateKey.make, if_pos sound]
  · rename_i other
    refine iff_of_false (by simp) ?_
    rintro ⟨modulus, exponent, d, p, q, rest, numbers, same, -⟩
    exact other modulus exponent d p q rest numbers same

theorem KeyPacket.holdsPrivateRsa_iff {k : KeyPacket} {revealed : Option (List Nat)} :
    k.HoldsPrivateRsa revealed ↔ ∃ key, k.HasPrivateRsa revealed key := by
  unfold HoldsPrivateRsa HasPrivateRsa FitsRsa
  constructor
  · rintro ⟨_, own, modulus, exponent, d, p, q, rest, numbers, rfl, sound⟩
    exact ⟨_, modulus, exponent, d, p, q, rest, numbers, own, rfl, sound⟩
  · rintro ⟨_, modulus, exponent, d, p, q, rest, numbers, own, rfl, sound⟩
    exact ⟨_, own, modulus, exponent, d, p, q, rest, numbers, rfl, sound⟩

theorem privateKey_eq_ok_iff {k : KeyPacket} {revealed : Option (List Nat)} {key : Rsa.PrivateKey} :
    (k.secretNumbers revealed >>= rsaPrivateKey k) = .ok key ↔ k.HasPrivateRsa revealed key := by
  unfold KeyPacket.HasPrivateRsa
  obtain ⟨created, algorithm, publicPart, numbers, secret⟩ := k
  cases revealed with
  | some secret' => exact rsaPrivateKey_eq_ok_iff.trans (by simp)
  | none =>
    cases secret with
    | none => exact iff_of_false nofun (by simp)
    | some part =>
      cases part with
      | plain secret' => exact rsaPrivateKey_eq_ok_iff.trans (by simp)
      | _ =>
        refine iff_of_false (fun h => ?_) (by simp)
        obtain ⟨modulus, exponent, d, p, q, rest, -, same, -, sound⟩ := rsaPrivateKey_eq_ok_iff.1 h
        cases same
        have := Rsa.PrivateKey.one_lt_of_sound sound
        omega

/-- The key by which messages to a packet are decrypted. -/
def IsDecryptionKey (suite : Suite) (e : KeyPacket × Option (List Nat)) (key : DecryptionKey) : Prop :=
  key.keyId = e.1.keyId suite ∧ e.1.HasPrivateRsa e.2 key.key

theorem decryptionKeys_eq_ok_iff {packets : List (KeyPacket × Option (List Nat))}
    {keys : List DecryptionKey} :
    decryptionKeys suite packets = .ok keys ↔
      List.Forall₂ (IsDecryptionKey suite) (packets.filter fun e => e.1.encrypts) keys := by
  have same : ∀ (e : KeyPacket × Option (List Nat)) (key : DecryptionKey),
      (do
        let secret ← e.1.secretNumbers e.2
        return (⟨e.1.keyId suite, ← rsaPrivateKey e.1 secret⟩ : DecryptionKey)) = .ok key ↔
        IsDecryptionKey suite e key := by
    intro e key
    unfold IsDecryptionKey
    rw [← privateKey_eq_ok_iff]
    constructor
    · intro h
      obtain ⟨secret, asked, h⟩ := exists_of_bind_eq_ok h
      obtain ⟨rsa, made, h⟩ := exists_of_bind_eq_ok h
      cases h
      exact ⟨rfl, by rw [asked]; exact made⟩
    · rintro ⟨keyId, h⟩
      obtain ⟨secret, asked, made⟩ := exists_of_bind_eq_ok h
      rw [asked]
      show (do return (⟨e.1.keyId suite, ← rsaPrivateKey e.1 secret⟩ : DecryptionKey)) = _
      rw [made, ← keyId]
      rfl
  unfold decryptionKeys
  rw [mapM_eq_ok_iff]
  simp only [same]

/-! ## Opened keys -/

namespace RingKey

/-- A passphrase opens a key, and reveals this of its packets: the secret numbers of every packet or,
where the primary key is not protected, nothing. -/
inductive Opens (suite : Suite) (location : String) (passphrase : Bytes) (k : RingKey) :
    List (KeyPacket × Option (List Nat)) → Prop
  | free (unprotected : ∀ protection, k.primary.secret ≠ some (.guarded protection)) :
      Opens suite location passphrase k (k.packets.map fun packet => (packet, none))
  | locked {protection : Protection} {packets : List (KeyPacket × Option (List Nat))}
      (guarded : k.primary.secret = some (.guarded protection))
      (revealed : List.Forall₂ (fun packet e => e.1 = packet ∧ ∃ numbers, e.2 = some numbers ∧
        reveal suite location passphrase packet = .ok (some numbers)) k.packets packets) :
      Opens suite location passphrase k packets

theorem revealAll_eq_some_iff {ks : List KeyPacket} {packets : List (KeyPacket × Option (List Nat))} :
    revealAll suite location passphrase ks = .ok (some packets) ↔
      List.Forall₂ (fun packet e => e.1 = packet ∧ ∃ numbers, e.2 = some numbers ∧
        reveal suite location passphrase packet = .ok (some numbers)) ks packets := by
  induction ks generalizing packets with
  | nil =>
    rw [List.forall₂_nil_left_iff]
    constructor
    · intro h
      cases h
      rfl
    · rintro rfl
      rfl
  | cons k rest ih =>
    rw [revealAll, List.forall₂_cons_left_iff]
    constructor
    · intro h
      obtain ⟨numbers?, first, h⟩ := exists_of_bind_eq_ok h
      cases numbers? with
      | none => cases h
      | some numbers =>
        obtain ⟨more?, others, h⟩ := exists_of_bind_eq_ok h
        cases more? with
        | none => cases h
        | some more =>
          cases h
          exact ⟨_, more, ⟨rfl, numbers, rfl, first⟩, ih.1 others, rfl⟩
    · rintro ⟨⟨_, _⟩, more, ⟨rfl, numbers, rfl, first⟩, others, rfl⟩
      simp only [first, ih.2 others, bind, Except.bind, pure, Except.pure, Option.map_some]

theorem opens_iff {k : RingKey} {packets : List (KeyPacket × Option (List Nat))} :
    k.Opens suite location passphrase packets ↔
      k.revealed suite location passphrase = .ok (some packets) := by
  unfold revealed
  split
  · rename_i protection guarded
    rw [revealAll_eq_some_iff]
    constructor
    · rintro (unprotected | ⟨-, all⟩)
      · exact absurd guarded (unprotected protection)
      · exact all
    · exact .locked guarded
  · rename_i unprotected
    constructor
    · rintro (- | ⟨guarded, -⟩)
      · rfl
      · exact absurd guarded (unprotected _)
    · intro h
      cases h
      exact .free unprotected

/-- A secret key that the passphrase opens. -/
def IsOpened (suite : Suite) (location : String) (passphrase : Bytes) (k : RingKey) : Prop :=
  k.isPublic = false ∧ ∃ packets, k.Opens suite location passphrase packets

/-- A key that the passphrase opens or not, without another failure, and whose packets for messages
then hold private RSA keys. -/
structure Unlockable (suite : Suite) (location : String) (passphrase : Bytes) (k : RingKey) : Prop where
  tried : ∃ opened, k.revealed suite location passphrase = .ok opened
  consistent : ∀ packets, k.Opens suite location passphrase packets →
    ∀ e ∈ packets, e.1.encrypts = true → ∃ key, e.1.HasPrivateRsa e.2 key

theorem unlock_eq_some_iff {k : RingKey} {keys : List DecryptionKey} :
    k.unlock suite location passphrase = .ok (some keys) ↔
      ∃ packets, k.Opens suite location passphrase packets ∧
        List.Forall₂ (IsDecryptionKey suite) (packets.filter fun e => e.1.encrypts) keys := by
  simp only [opens_iff, ← decryptionKeys_eq_ok_iff]
  rw [unlock_eq]
  constructor
  · intro h
    obtain ⟨opened, revealed, h⟩ := exists_of_bind_eq_ok h
    cases opened with
    | none => cases h
    | some packets =>
      obtain ⟨held, asked, h⟩ := exists_of_bind_eq_ok h
      cases h
      exact ⟨packets, revealed, asked⟩
  · rintro ⟨packets, revealed, asked⟩
    rw [revealed]
    show (do return some (← decryptionKeys suite packets)) = _
    rw [asked]
    rfl

theorem not_opens_of_unlock {k : RingKey} (h : k.unlock suite location passphrase = .ok none)
    (packets : List (KeyPacket × Option (List Nat))) : ¬ k.Opens suite location passphrase packets := by
  rw [opens_iff]
  intro revealed
  rw [unlock_eq, revealed] at h
  have held : (decryptionKeys suite packets >>= fun keys => .ok (some keys)) = .ok none := h
  obtain ⟨keys, -, given⟩ := exists_of_bind_eq_ok held
  cases given

theorem Unlockable.exists_unlock {k : RingKey} (h : k.Unlockable suite location passphrase) :
    ∃ opened, k.unlock suite location passphrase = .ok opened := by
  obtain ⟨opened, revealed⟩ := h.tried
  cases opened with
  | none => exact ⟨none, by rw [unlock_eq, revealed]; rfl⟩
  | some packets =>
    have opens := opens_iff.2 revealed
    have quiet : ¬ FailsWith Failure.Foreign (decryptionKeys suite packets) := by
      rw [failsWith_decryptionKeys]
      rintro ⟨e, listed, encrypts, wrong⟩
      exact wrong (KeyPacket.holdsPrivateRsa_iff.2 (h.consistent packets opens e listed encrypts))
    obtain ⟨keys, asked⟩ :=
      (FailsIn.mapM fun e _ => failsIn_decryptionKey suite e).exists_ok quiet
    exact ⟨some keys, unlock_eq_some_iff.2 ⟨packets, opens, decryptionKeys_eq_ok_iff.1 asked⟩⟩

/-- A passphrase reveals one thing of a key. -/
theorem Opens.unique {k : RingKey} {packets packets' : List (KeyPacket × Option (List Nat))}
    (h : k.Opens suite location passphrase packets) (h' : k.Opens suite location passphrase packets') :
    packets = packets' := by
  rw [opens_iff] at h h'
  rw [h] at h'
  exact Option.some.inj (Except.ok.inj h')

end RingKey

/-! ## Collected keys -/

/-- The private RSA keys of the secret keys that a passphrase opens, in the order of the ring: of each
key the primary key comes first and then its subkeys.  All other keys are passed over. -/
inductive Collects (suite : Suite) (location : String) (passphrase : Bytes) :
    List RingKey → List DecryptionKey → Prop
  | nil : Collects suite location passphrase [] []
  | skip {k : RingKey} {ks : List RingKey} {found : List DecryptionKey}
      (closed : ¬ k.IsOpened suite location passphrase)
      (rest : Collects suite location passphrase ks found) :
      Collects suite location passphrase (k :: ks) found
  | take {k : RingKey} {ks : List RingKey} {packets : List (KeyPacket × Option (List Nat))}
      {own found : List DecryptionKey} (isSecret : k.isPublic = false)
      (opens : k.Opens suite location passphrase packets)
      (held : List.Forall₂ (IsDecryptionKey suite) (packets.filter fun e => e.1.encrypts) own)
      (rest : Collects suite location passphrase ks found) :
      Collects suite location passphrase (k :: ks) (own ++ found)

namespace Collects

theorem unique {ks : List RingKey} {found found' : List DecryptionKey}
    (h : Collects suite location passphrase ks found)
    (h' : Collects suite location passphrase ks found') : found = found' := by
  induction h generalizing found' with
  | nil =>
    cases h'
    rfl
  | skip closed _ ih =>
    cases h' with
    | skip _ rest' => exact ih rest'
    | take isSecret opens _ _ => exact absurd ⟨isSecret, _, opens⟩ closed
  | take isSecret opens held _ ih =>
    cases h' with
    | skip closed _ => exact absurd ⟨isSecret, _, opens⟩ closed
    | take _ opens' held' rest' =>
      rw [opens.unique opens', ← decryptionKeys_eq_ok_iff] at held
      rw [← decryptionKeys_eq_ok_iff, held] at held'
      rw [Except.ok.inj held', ih rest']

/-- A key that is not opened can be taken out. -/
theorem of_closed {before after : List RingKey} {k : RingKey} {found : List DecryptionKey}
    (closed : ¬ k.IsOpened suite location passphrase)
    (h : Collects suite location passphrase (before ++ k :: after) found) :
    Collects suite location passphrase (before ++ after) found := by
  induction before generalizing found with
  | nil =>
    cases h with
    | skip _ rest => exact rest
    | take isSecret opens _ _ => exact absurd ⟨isSecret, _, opens⟩ closed
  | cons first before ih =>
    cases h with
    | skip passed rest => exact .skip passed (ih rest)
    | take isSecret opens held rest => exact .take isSecret opens held (ih rest)

/-- What is collected is what unlocking the secret keys one after the other gives. -/
theorem of_unlock {ks : List RingKey} {opened : List (Option (List DecryptionKey))}
    (h : List.Forall₂ (fun k o => k.unlock suite location passphrase = .ok o)
      (ks.filter fun k => !k.isPublic) opened) :
    Collects suite location passphrase ks (opened.filterMap id).flatten ∧
      (opened.filterMap id = [] ↔ ∀ k ∈ ks, ¬ k.IsOpened suite location passphrase) := by
  induction ks generalizing opened with
  | nil =>
    rw [List.filter_nil, List.forall₂_nil_left_iff] at h
    rw [h]
    exact ⟨.nil, iff_of_true rfl (List.forall_mem_nil _)⟩
  | cons k ks ih =>
    rw [List.forall_mem_cons]
    cases isPublic : k.isPublic with
    | true =>
      rw [List.filter_cons_of_neg (by simp [isPublic])] at h
      have closed : ¬ k.IsOpened suite location passphrase := fun both => by simp [both.1] at isPublic
      obtain ⟨collects, none⟩ := ih h
      exact ⟨.skip closed collects, by rw [none, and_iff_right closed]⟩
    | false =>
      rw [List.filter_cons_of_pos (by simp [isPublic]), List.forall₂_cons_left_iff] at h
      obtain ⟨o, os, unlocked, others, rfl⟩ := h
      obtain ⟨collects, none⟩ := ih others
      cases o with
      | none =>
        have closed : ¬ k.IsOpened suite location passphrase := fun both =>
          both.2.elim fun packets => RingKey.not_opens_of_unlock unlocked packets
        rw [List.filterMap_cons_none rfl]
        exact ⟨.skip closed collects, by rw [none, and_iff_right closed]⟩
      | some own =>
        obtain ⟨packets, opens, held⟩ := RingKey.unlock_eq_some_iff.1 unlocked
        rw [List.filterMap_cons_some (f := id) (b := own) rfl, List.flatten_cons]
        refine ⟨.take isPublic opens held collects, iff_of_false (List.cons_ne_nil _ _) ?_⟩
        exact fun all => all.1 ⟨isPublic, packets, opens⟩

end Collects

/-- Unlocking the keys of a ring ends in one of three ways. -/
theorem unlockAll_cases {keys : List RingKey}
    (unlockable : ∀ k ∈ keys, k.isPublic = false → k.Unlockable suite location passphrase) :
    (∀ k ∈ keys, k.isPublic = true) ∧
        unlockAll suite location passphrase keys = .error (.noSecretKeys location) ∨
      ((∃ k ∈ keys, k.isPublic = false) ∧ (∀ k ∈ keys, ¬ k.IsOpened suite location passphrase) ∧
        unlockAll suite location passphrase keys = .error (.wrongPassphrase location)) ∨
      (∃ k ∈ keys, k.IsOpened suite location passphrase) ∧
        ∃ ring, unlockAll suite location passphrase keys = .ok ring ∧
          Collects suite location passphrase keys ring.keys := by
  unfold unlockAll
  dsimp only
  by_cases absent : keys.filter (fun k => !k.isPublic) = []
  · refine .inl ⟨fun k listed => ?_, if_pos absent⟩
    simpa using List.filter_eq_nil_iff.1 absent k listed
  rw [if_neg absent]
  obtain ⟨k, hk⟩ := List.exists_mem_of_ne_nil _ absent
  obtain ⟨listed, isSecret⟩ := List.mem_filter.1 hk
  -- every secret key can be tried, so that the loop reaches the end of the ring
  have each : FailsIn (fun _ => False)
      ((keys.filter fun k => !k.isPublic).mapM (RingKey.unlock suite location passphrase)) := by
    refine .mapM fun k hk => ?_
    obtain ⟨listed, isSecret⟩ := List.mem_filter.1 hk
    obtain ⟨opened, ended⟩ := (unlockable k listed (by simpa using isSecret)).exists_unlock
    rw [ended]
    exact .ok opened
  obtain ⟨opened, ended⟩ := each.exists_ok (by simp [FailsWith])
  obtain ⟨collects, none⟩ := Collects.of_unlock (mapM_eq_ok_iff.1 ended)
  rw [ended]
  simp only [bind, Except.bind]
  split_ifs with nothing
  · exact .inr (.inl ⟨⟨k, listed, by simpa using isSecret⟩, none.1 nothing, rfl⟩)
  · refine .inr (.inr ⟨?_, _, rfl, collects⟩)
    by_contra unopened
    exact nothing (none.2 fun k listed isOpened => unopened ⟨k, listed, isOpened⟩)

theorem unlockAll_eq_ok_iff {keys : List RingKey}
    (unlockable : ∀ k ∈ keys, k.isPublic = false → k.Unlockable suite location passphrase)
    {ring : PrivateKeyring} :
    unlockAll suite location passphrase keys = .ok ring ↔
      (∃ k ∈ keys, k.IsOpened suite location passphrase) ∧
        Collects suite location passphrase keys ring.keys := by
  rcases unlockAll_cases unlockable with
    ⟨absent, ended⟩ | ⟨-, closed, ended⟩ | ⟨opened, found, ended, collects⟩
  · refine iff_of_false (by simp [ended]) ?_
    rintro ⟨⟨k, listed, isSecret, -⟩, -⟩
    simp [absent k listed] at isSecret
  · refine iff_of_false (by simp [ended]) ?_
    rintro ⟨⟨k, listed, isOpened⟩, -⟩
    exact closed k listed isOpened
  · rw [ended, and_iff_right opened, Except.ok.injEq]
    constructor
    · rintro rfl
      exact collects
    · intro same
      obtain ⟨keys⟩ := ring
      obtain ⟨keys'⟩ := found
      exact congrArg PrivateKeyring.mk (collects.unique same)

/-- One key that is opened is enough, whatever the others are. -/
theorem exists_unlockAll {keys : List RingKey}
    (unlockable : ∀ k ∈ keys, k.isPublic = false → k.Unlockable suite location passphrase)
    (opened : ∃ k ∈ keys, k.IsOpened suite location passphrase) :
    ∃ ring, unlockAll suite location passphrase keys = .ok ring := by
  obtain ⟨k, listed, isOpened⟩ := opened
  rcases unlockAll_cases unlockable with ⟨absent, -⟩ | ⟨-, closed, -⟩ | ⟨-, ring, ended, -⟩
  · have isSecret := isOpened.1
    rw [absent k listed] at isSecret
    cases isSecret
  · exact absurd isOpened (closed k listed)
  · exact ⟨ring, ended⟩

/-- A keyring is not of the right format if there is nothing in it to open. -/
theorem unlockAll_format_iff {keys : List RingKey}
    (unlockable : ∀ k ∈ keys, k.isPublic = false → k.Unlockable suite location passphrase) :
    FailsWith (fun f => f.kind = .own .keyringFormat) (unlockAll suite location passphrase keys) ↔
      ∀ k ∈ keys, k.isPublic = true := by
  rcases unlockAll_cases unlockable with
    ⟨absent, ended⟩ | ⟨⟨k, listed, isSecret⟩, -, ended⟩ | ⟨⟨k, listed, isSecret, -⟩, ring, ended, -⟩
  · rw [ended]
    exact iff_of_true (failsWith_error.2 rfl) absent
  · rw [ended, failsWith_error]
    exact iff_of_false nofun fun absent => by simp [absent k listed] at isSecret
  · rw [ended]
    exact iff_of_false (not_failsWith_ok _) fun absent => by simp [absent k listed] at isSecret

/-- A passphrase is wrong if there are secret keys and it opens none of them. -/
theorem unlockAll_passphrase_iff {keys : List RingKey}
    (unlockable : ∀ k ∈ keys, k.isPublic = false → k.Unlockable suite location passphrase) :
    FailsWith (fun f => f.kind = .own .keyringPassphrase) (unlockAll suite location passphrase keys) ↔
      (∃ k ∈ keys, k.isPublic = false) ∧ ∀ k ∈ keys, ¬ k.IsOpened suite location passphrase := by
  rcases unlockAll_cases unlockable with
    ⟨absent, ended⟩ | ⟨present, closed, ended⟩ | ⟨⟨k, listed, isOpened⟩, ring, ended, -⟩
  · rw [ended, failsWith_error]
    refine iff_of_false nofun ?_
    rintro ⟨⟨k, listed, isSecret⟩, -⟩
    simp [absent k listed] at isSecret
  · rw [ended]
    exact iff_of_true (failsWith_error.2 rfl) ⟨present, closed⟩
  · rw [ended]
    exact iff_of_false (not_failsWith_ok _) fun both => both.2 k listed isOpened

/-- A key that is not opened does not count beside one that is. -/
theorem unlockAll_of_closed {before after : List RingKey} {k : RingKey}
    (unlockable : ∀ k' ∈ before ++ k :: after, k'.isPublic = false →
      k'.Unlockable suite location passphrase)
    (closed : ¬ k.IsOpened suite location passphrase)
    (opened : ∃ other ∈ before ++ after, other.IsOpened suite location passphrase) :
    unlockAll suite location passphrase (before ++ after) =
      unlockAll suite location passphrase (before ++ k :: after) := by
  have fewer : ∀ other ∈ before ++ after, other ∈ before ++ k :: after := by
    intro other listed
    rw [List.mem_append, List.mem_cons]
    exact (List.mem_append.1 listed).imp_right .inr
  rcases unlockAll_cases unlockable with ⟨absent, -⟩ | ⟨-, none, -⟩ | ⟨-, ring, ended, collects⟩
  · obtain ⟨other, listed, isSecret, -⟩ := opened
    simp [absent other (fewer other listed)] at isSecret
  · obtain ⟨other, listed, isOpened⟩ := opened
    exact absurd isOpened (none other (fewer other listed))
  · rw [ended, unlockAll_eq_ok_iff fun other listed => unlockable other (fewer other listed)]
    exact ⟨opened, collects.of_closed closed⟩

theorem PrivateKeyring.find_eq (ring : PrivateKeyring) (keyId : Bytes) :
    ring.find keyId = ring.keys.filter fun key => keyId = Bytes.zeros 8 ∨ key.keyId = keyId := by
  unfold PrivateKeyring.find PrivateKeyring.anyKeyId
  split_ifs with any
  · simp [any]
  · simp [any]

/-! ## Loaders -/

/-- Of a keyring whose secret keys can be tried, a loader gives the private RSA keys that are collected
from those that the passphrase opens, in their order, whether any of them is an RSA key or not.  Keys
that it does not open make no difference where it opens another one.  Without a secret key the keyring
is not of the right format, and with secret keys none of which is opened the passphrase is wrong; there
is no other failure.  A key id finds the keys that have it, and eight zeros find all. -/
theorem Loader.privateKeyring_collected {l : Loader} {data : Bytes} {keys : List RingKey}
    (read : l.shelf.read location = .ok data) (parsed : Ring.read suite location data = .ok keys)
    (unlockable : ∀ k ∈ keys, k.isPublic = false → k.Unlockable suite location passphrase) :
    ((∃ k ∈ keys, k.IsOpened suite location passphrase) →
        ∃ ring, l.privateKeyring suite location passphrase = .ok ring) ∧
      (∀ ring, l.privateKeyring suite location passphrase = .ok ring ↔
        (∃ k ∈ keys, k.IsOpened suite location passphrase) ∧
          Collects suite location passphrase keys ring.keys) ∧
      (FailsWith (fun f => f.kind = .own .keyringFormat)
          (l.privateKeyring suite location passphrase) ↔ ∀ k ∈ keys, k.isPublic = true) ∧
      (FailsWith (fun f => f.kind = .own .keyringPassphrase)
          (l.privateKeyring suite location passphrase) ↔
        (∃ k ∈ keys, k.isPublic = false) ∧ ∀ k ∈ keys, ¬ k.IsOpened suite location passphrase) ∧
      (∀ before k after, keys = before ++ k :: after → ¬ k.IsOpened suite location passphrase →
        (∃ other ∈ before ++ after, other.IsOpened suite location passphrase) →
        unlockAll suite location passphrase (before ++ after) =
          l.privateKeyring suite location passphrase) ∧
      ∀ (ring : PrivateKeyring) (keyId : Bytes),
        ring.find keyId = ring.keys.filter fun key => keyId = Bytes.zeros 8 ∨ key.keyId = keyId := by
  have asked : l.privateKeyring suite location passphrase = unlockAll suite location passphrase keys := by
    unfold privateKeyring readPrivate
    rw [read]
    show (Ring.read suite location data >>= _) = _
    rw [parsed]
    rfl
  rw [asked]
  refine ⟨exists_unlockAll unlockable, fun ring => unlockAll_eq_ok_iff unlockable,
    unlockAll_format_iff unlockable, unlockAll_passphrase_iff unlockable, ?_, PrivateKeyring.find_eq⟩
  rintro before k after rfl closed opened
  exact unlockAll_of_closed unlockable closed opened

/-- A key under another passphrase stands in front of one that is not protected. -/
theorem Loader.privateKeyring_collected_behind_closed :
    let half : Bytes := [0x01, 0x00, 0x06, 0x21, 0x00, 0x02, 0x03]
    let locked : Bytes :=
      [0xc5, 0x1a, 0x04, 0x00, 0x00, 0x00, 0x01] ++ half ++ [0xff, 0x03, 0x00, 0x02] ++
        Bytes.zeros 8 ++ [0x00, 0x00]
    let free : Bytes :=
      [0xc5, 0x1b, 0x04, 0x00, 0x00, 0x00, 0x02] ++ half ++
        [0x00, 0x00, 0x03, 0x07, 0x00, 0x02, 0x03, 0x00, 0x04, 0x0b, 0x00, 0x03, 0x04, 0x00, 0x2a]
    let l : Loader := ⟨⟨[("r", locked ++ free)]⟩, ⟨1, []⟩⟩
    let protection : Protection := ⟨false, .cast5, 0, 2, [], 0, Bytes.zeros 8, [0x00, 0x00]⟩
    let packet (date : Nat) (secret : SecretPart) : KeyPacket :=
      ⟨date, 1, half.drop 1, [33, 3], some secret⟩
    let closed : RingKey := ⟨packet 1 (.guarded protection), [], []⟩
    let opened : RingKey := ⟨packet 2 (.plain [7, 3, 11, 4]), [], []⟩
    let key : DecryptionKey := ⟨opened.primary.keyId .standard, ⟨⟨33, 3⟩, 7⟩⟩
    l.shelf.read "r" = .ok (locked ++ free) ∧
      Ring.read .standard "r" (locked ++ free) = .ok [closed, opened] ∧
      l.privateKeyring .standard "r" [0x70] = .ok ⟨[key]⟩ := by
  intro half locked free l protection packet closed opened key
  have read : l.shelf.read "r" = .ok (locked ++ free) := by decide
  have parsed : Ring.read .standard "r" (locked ++ free) = .ok [closed, opened] := by decide +kernel
  have refused : closed.revealed .standard "r" [0x70] = .ok none := by decide +kernel
  have opens : opened.Opens .standard "r" [0x70] [(opened.primary, none)] := .free nofun
  have held : opened.primary.HasPrivateRsa none key.key :=
    ⟨33, 3, 7, 3, 11, [4], rfl, .inr ⟨rfl, rfl⟩, rfl, by decide⟩
  have not_opens : ¬ closed.IsOpened .standard "r" [0x70] := by
    rintro ⟨-, packets, opens⟩
    rw [RingKey.opens_iff, refused] at opens
    cases opens
  have unlockable : ∀ k ∈ [closed, opened], k.isPublic = false → k.Unlockable .standard "r" [0x70] := by
    intro k listed _
    rcases List.mem_pair.1 listed with rfl | rfl
    · exact ⟨⟨none, refused⟩, fun packets opens => absurd ⟨rfl, packets, opens⟩ not_opens⟩
    · refine ⟨⟨_, RingKey.opens_iff.1 opens⟩, fun packets opens' e listed _ => ⟨key.key, ?_⟩⟩
      rw [opens'.unique opens, List.mem_singleton] at listed
      rw [listed]
      exact held
  obtain ⟨-, collected, -⟩ := Loader.privateKeyring_collected (l := l) read parsed unlockable
  refine ⟨read, parsed, (collected _).2 ⟨⟨opened, by simp, rfl, _, opens⟩, .skip not_opens ?_⟩⟩
  exact .take rfl opens (.cons ⟨rfl, held⟩ .nil) .nil

end Cryptogram.Keyring
