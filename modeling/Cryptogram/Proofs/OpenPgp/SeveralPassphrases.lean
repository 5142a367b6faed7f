import Cryptogram.Proofs.OpenPgp.Message

/-!
# Messages for several passphrases

A password is tried on every session key packet, and the session keys are tried in turn.  Wrong
session keys are set aside when the repeated octets in front of the data tell them, but other
failures end the search: a cipher that is not usable, data that is too short for the block of a wrong
cipher, or a hash that differs after the repeated octets agreed by chance.  So a message that opens
with one of its packets alone opens with all of them exactly if the others are harmless
(`decrypt_beside_harmless`).
-/

namespace Cryptogram

/-! ## Searches -/

namespace Message

section Search

variable {α β : Type} {f : α → Except Failure β} {xs : List α}

/-- Whether an attempt succeeds or fails in a class that is set aside. -/
def Tolerated (aside : ErrorClass) (attempt : Except Failure β) : Prop :=
  (∃ b, attempt = .ok b) ∨ ∃ e, attempt = .error e ∧ e.kind.isA aside = true

theorem tolerated_or (aside : ErrorClass) (attempt : Except Failure β) :
    Tolerated aside attempt ∨ ∃ e, attempt = .error e ∧ e.kind.isA aside = false := by
  cases attempt with
  | ok b => exact .inl (.inl ⟨b, rfl⟩)
  | error e =>
    cases h : e.kind.isA aside with
    | true => exact .inl (.inr ⟨e, rfl, h⟩)
    | false => exact .inr ⟨e, rfl, h⟩

theorem mem_of_attempt_ne {x y : α} {ys : List α} (hx : x ∈ y :: ys) (h : f y ≠ f x) : x ∈ ys :=
  (List.mem_cons.1 hx).resolve_left fun same => h (same ▸ rfl)

/-- The results are gathered if every attempt is tolerated. -/
theorem gather_of_tolerated {aside : ErrorClass} (h : ∀ x ∈ xs, Tolerated aside (f x))
    (last : Option Failure) :
    ∃ last', gather aside f last xs = .ok (xs.filterMap fun x => (f x).toOption, last') := by
  induction xs generalizing last with
  | nil => exact ⟨last, rfl⟩
  | cons x xs ih =>
    obtain ⟨first, others⟩ := List.forall_mem_cons.1 h
    rcases first with ⟨b, ok⟩ | ⟨e, failed, set⟩
    · obtain ⟨last', rest⟩ := ih others last
      refine ⟨last', ?_⟩
      rw [gather, ok]
      dsimp only
      rw [rest, List.filterMap_cons, ok]
      rfl
    · obtain ⟨last', rest⟩ := ih others (some e)
      refine ⟨last', ?_⟩
      rw [gather, failed]
      dsimp only
      rw [if_pos set, rest, List.filterMap_cons, failed]
      rfl

/-- One attempt that is not tolerated ends everything, wherever it stands. -/
theorem gather_of_not_tolerated {aside : ErrorClass} {x : α} (hx : x ∈ xs) {e : Failure}
    (failed : f x = .error e) (notSet : e.kind.isA aside = false) (last : Option Failure) :
    ∃ e', gather aside f last xs = .error e' := by
  induction xs generalizing last with
  | nil => cases hx
  | cons y ys ih =>
    cases attempt : f y with
    | ok b =>
      have other : f y ≠ f x := by simp [attempt, failed]
      obtain ⟨e', rest⟩ := ih (mem_of_attempt_ne hx other) last
      refine ⟨e', ?_⟩
      rw [gather, attempt]
      dsimp only
      rw [rest]
      rfl
    | error e'' =>
      rw [gather, attempt]
      dsimp only
      split_ifs with set
      · have other : f y ≠ f x := by
          rw [attempt, failed, ne_eq, Except.error.injEq]
          rintro rfl
          rw [notSet] at set
          cases set
        exact ih (mem_of_attempt_ne hx other) (some e'')
      · exact ⟨e'', rfl⟩

/-- If every attempt is tolerated and one succeeds, the first that succeeds is the answer. -/
theorem firstOpened_of_tolerated (h : ∀ x ∈ xs, Tolerated .decryption (f x)) {x : α} (hx : x ∈ xs)
    {b : β} (ok : f x = .ok b) (last : Failure) :
    ∃ y ∈ xs, ∃ c, f y = .ok c ∧ firstOpened f last xs = .ok c := by
  induction xs generalizing last with
  | nil => cases hx
  | cons y ys ih =>
    obtain ⟨first, others⟩ := List.forall_mem_cons.1 h
    rcases first with ⟨c, found⟩ | ⟨e, failed, set⟩
    · refine ⟨y, List.mem_cons_self, c, found, ?_⟩
      rw [firstOpened, found]
    · have other : f y ≠ f x := by simp [failed, ok]
      obtain ⟨z, hz, c, found, rest⟩ := ih others (mem_of_attempt_ne hx other) e
      refine ⟨z, List.mem_cons_of_mem _ hz, c, found, ?_⟩
      rw [firstOpened, failed]
      dsimp only
      rw [if_pos set, rest]

end Search

end Message

/-! ## Session keys -/

/-- A key can be derived for every packet that is read. -/
theorem Skesk.type_mem_of_ofBody {body : Bytes} {p : Skesk} (h : ofBody body = .ok p) :
    p.s2k.type ∈ StringToKey.derivable := by
  obtain ⟨a, w, encrypted, rfl, -⟩ := exists_octets_of_ofBody h
  exact w.type_mem

theorem StringToKey.derive_cases (suite : Suite) (s : StringToKey) (passphrase : Bytes)
    (keySize : Int) :
    (∃ key, s.derive suite passphrase keySize = .ok key) ∨
      ∃ e, s.derive suite passphrase keySize = .error e ∧ e.kind.isA .sessionKey = false := by
  rw [derive]
  split_ifs
  all_goals first
    | exact .inl ⟨_, rfl⟩
    | exact .inr ⟨_, rfl, rfl⟩

theorem StringToKey.derive_of_seed_eq_nil (suite : Suite) {s : StringToKey} {passphrase : Bytes}
    (h : s.seed passphrase = []) (keySize : Int) :
    ∃ e, s.derive suite passphrase keySize = .error e ∧ e.kind.isA .sessionKey = false := by
  rw [derive]
  split_ifs
  · exact ⟨_, rfl, rfl⟩
  · exact ⟨_, rfl, rfl⟩
  · exact ⟨_, rfl, rfl⟩

theorem Symmetric.primitiveFor_of_unusable {a : Symmetric} (h : a.supported = false) (key : Bytes) :
    a.primitiveFor key = .error (.noSymmetric a) := by
  cases a <;> first
    | rfl
    | exact absurd h (by decide)

theorem Suite.feedback_of_unusable (suite : Suite) {a : Symmetric} (h : a.supported = false)
    (key iv : Bytes) : suite.feedback a key iv = .error (.noSymmetric a) := by
  rw [feedback, symmetric, Symmetric.primitiveFor_of_unusable h]
  rfl

/-- A missing cipher is no failure of decryption, nor is a key or an initial vector of a wrong size. -/
theorem Suite.feedback_cases (suite : Suite) (a : Symmetric) (key iv : Bytes) :
    (∃ f, suite.feedback a key iv = .ok f) ∨
      ∃ e, suite.feedback a key iv = .error e ∧ e.kind.isA .decryption = false := by
  rw [feedback, symmetric, Symmetric.primitiveFor]
  cases a.primitive? with
  | none => exact .inr ⟨_, rfl, rfl⟩
  | some p =>
    dsimp only
    split_ifs
    · simp only [Except.map, bind, Except.bind]
      split_ifs
      · exact .inl ⟨_, rfl⟩
      · exact .inr ⟨_, rfl, rfl⟩
    · exact .inr ⟨_, rfl, rfl⟩

namespace Message

variable {suite : Suite} {password : Bytes} {p : Skesk}

/-- A wrong password is tolerated where there is something to hash and a cipher to decrypt the session
key with. -/
theorem openSkesk_tolerated (type : p.s2k.type ∈ StringToKey.derivable)
    (hashed : p.s2k.seed password ≠ []) (usable : p.encrypted ≠ [] → p.algorithm.supported = true) :
    Tolerated .sessionKey (openSkesk suite password p) := by
  have narrow : p.algorithm.keySize ≤ StringToKey.maxKeySize := Symmetric.keySize_le
  obtain ⟨key, derived, width⟩ := StringToKey.exists_derive suite type hashed narrow
  rw [openSkesk, derived]
  simp only [bind, Except.bind]
  split_ifs with bare
  · exact .inl ⟨_, rfl⟩
  obtain ⟨f, -, found⟩ := suite.exists_feedback (usable bare) width
  rw [found _ (Bytes.length_zeros _)]
  dsimp only
  cases Feedback.decrypt f (Bytes.zeros p.algorithm.blockSize) p.encrypted with
  | nil => exact .inr ⟨_, rfl, rfl⟩
  | cons id key =>
    dsimp only
    cases Symmetric.ofId? id.toNat with
    | none => exact .inr ⟨_, rfl, rfl⟩
    | some a =>
      dsimp only
      split_ifs
      · exact .inr ⟨_, rfl, rfl⟩
      · exact .inl ⟨_, rfl⟩

/-- Without anything to hash, or without a cipher to decrypt the session key with, the failure ends
the search. -/
theorem openSkesk_not_tolerated (suite : Suite) (h : p.s2k.seed password = [] ∨
    p.encrypted ≠ [] ∧ p.algorithm.supported = false) :
    ∃ e, openSkesk suite password p = .error e ∧ e.kind.isA .sessionKey = false := by
  rw [openSkesk]
  rcases h with empty | ⟨wrapped, unusable⟩
  · obtain ⟨e, failed, kind⟩ :=
      StringToKey.derive_of_seed_eq_nil suite empty p.algorithm.keySize
    rw [failed]
    exact ⟨e, rfl, kind⟩
  · rcases p.s2k.derive_cases suite password p.algorithm.keySize with
      ⟨key, derived⟩ | ⟨e, failed, kind⟩
    · rw [derived]
      simp only [bind, Except.bind, if_neg wrapped]
      rw [suite.feedback_of_unusable unusable]
      exact ⟨_, rfl, rfl⟩
    · rw [failed]
      exact ⟨e, rfl, kind⟩

end Message

/-! ## Data -/

/-- Only differing repeated octets are a failure of decryption. -/
theorem Sealed.eq_feedbackCheck {suite : Suite} {k : SessionKey} {body : Bytes} {e : Failure}
    (h : decrypt suite k body = .error e) (kind : e.kind.isA .decryption = true) :
    e = .feedbackCheck := by
  have same {e' : Failure} (h' : decrypt suite k body = .error e') : e' = e :=
    Except.error.inj (h'.symm.trans h)
  rcases decrypt_cases suite k body with ⟨e', failed, format⟩ | ⟨e', missing, failed⟩ | failed |
    ⟨e', failed, integrity⟩ | ⟨_, _, _, _, _, _, _, _, _, opened⟩
  · rw [← same failed, format] at kind
    cases kind
  · rcases suite.feedback_cases k.algorithm k.key (zeroBlock k) with ⟨f, found⟩ | ⟨e'', found, other⟩
    · rw [missing] at found
      cases found
    · rw [missing, Except.error.injEq] at found
      rw [← same failed, found, other] at kind
      cases kind
  · exact (same failed).symm
  · rw [← same failed, integrity] at kind
    cases kind
  · rw [opened] at h
    cases h

namespace Message

variable {suite : Suite} {password body : Bytes}

theorem openData_seipd (suite : Suite) (body : Bytes) :
    openData suite ⟨Tag.seipd, body⟩ = fun k => Sealed.decrypt suite k body := by
  funext k
  rw [openData, if_pos rfl]

/-- A message of session keys under passphrases and integrity-protected data. -/
def Holds (message : Bytes) (skesks : List Skesk) (body : Bytes) : Prop :=
  ∃ fronts : List Packet, packets message = .ok (fronts ++ [⟨Tag.seipd, body⟩]) ∧
    List.Forall₂ (fun p skesk => p.tag = Tag.skesk ∧ Skesk.ofBody p.body = .ok skesk) fronts skesks

theorem Holds.envelope {message : Bytes} {skesks : List Skesk} (h : Holds message skesks body) :
    Envelope.read message = .ok ⟨skesks, [], ⟨Tag.seipd, body⟩⟩ := by
  obtain ⟨fronts, read, parsed⟩ := h
  rw [Envelope.read, read]
  clear read
  show Envelope.ofPackets (fronts ++ [⟨Tag.seipd, body⟩]) = _
  induction parsed with
  | nil => rfl
  | cons first _ ih =>
    rw [List.cons_append, Envelope.ofPackets, if_pos first.1, first.2, ih]
    rfl

theorem Holds.type_mem {message : Bytes} {skesks : List Skesk} (h : Holds message skesks body) :
    ∀ p ∈ skesks, p.s2k.type ∈ StringToKey.derivable := by
  obtain ⟨fronts, -, parsed⟩ := h
  induction parsed with
  | nil => exact fun _ hp => absurd hp List.not_mem_nil
  | cons first _ ih => exact List.forall_mem_cons.2 ⟨Skesk.type_mem_of_ofBody first.2, ih⟩

/-- Whether a session key packet leaves a search undisturbed: there is something to hash, an encrypted
session key has a usable cipher, and a session key that comes out either is told to be wrong by the
repeated octets of the data or opens the message itself. -/
structure Harmless (suite : Suite) (password body : Bytes) (p : Skesk) : Prop where
  hashed : p.s2k.seed password ≠ []
  usable : p.encrypted ≠ [] → p.algorithm.supported = true
  passed : ∀ k, openSkesk suite password p = .ok k →
    Sealed.decrypt suite k body = .error .feedbackCheck ∨
      ∃ inner content, Sealed.decrypt suite k body = .ok inner ∧ literal inner = .ok content

/-! ## The search for a session key that fits -/

variable {skesks : List Skesk} {message : Bytes}

/-- The session keys that a password gives. -/
def keysUnder (suite : Suite) (password : Bytes) (skesks : List Skesk) : List SessionKey :=
  skesks.filterMap fun p => (openSkesk suite password p).toOption

theorem mem_keysUnder {k : SessionKey} :
    k ∈ keysUnder suite password skesks ↔ ∃ p ∈ skesks, openSkesk suite password p = .ok k := by
  rw [keysUnder, List.mem_filterMap]
  refine exists_congr fun p => and_congr_right fun _ => ?_
  cases openSkesk suite password p with
  | ok k' => simp [Except.toOption]
  | error e => simp [Except.toOption]

theorem keysUnder_cons {p : Skesk} {k : SessionKey} (h : openSkesk suite password p = .ok k) :
    keysUnder suite password (p :: skesks) = k :: keysUnder suite password skesks := by
  rw [keysUnder, List.filterMap_cons, h]
  rfl

theorem sessionKeys_of_tolerated
    (h : ∀ p ∈ skesks, Tolerated .sessionKey (openSkesk suite password p)) {q : Skesk}
    (hq : q ∈ skesks) {k : SessionKey} (opened : openSkesk suite password q = .ok k) (data : Packet) :
    sessionKeys suite (some (.password password)) ⟨skesks, [], data⟩ =
      .ok (keysUnder suite password skesks) := by
  obtain ⟨last, gathered⟩ := gather_of_tolerated h none
  have found : k ∈ keysUnder suite password skesks := mem_keysUnder.2 ⟨q, hq, opened⟩
  rw [sessionKeys]
  dsimp only
  rw [gathered, ← keysUnder]
  cases keys : keysUnder suite password skesks with
  | nil =>
    rw [keys] at found
    cases found
  | cons _ _ => rfl

theorem sessionKeys_of_not_tolerated {p : Skesk} (hp : p ∈ skesks) {e : Failure}
    (failed : openSkesk suite password p = .error e) (kind : e.kind.isA .sessionKey = false)
    (data : Packet) :
    ∃ e', sessionKeys suite (some (.password password)) ⟨skesks, [], data⟩ = .error e' := by
  obtain ⟨e', ended⟩ := gather_of_not_tolerated hp failed kind none
  refine ⟨e', ?_⟩
  rw [sessionKeys]
  dsimp only
  rw [ended]
  rfl

/-- Decryption under a password collects the session keys, opens the data with the first that fits and
takes the literal data out. -/
theorem Holds.decrypt_eq (h : Holds message skesks body) (suite : Suite) (password : Bytes) :
    decrypt suite (some (.password password)) message = (do
      let keys ← sessionKeys suite (some (.password password)) ⟨skesks, [], ⟨Tag.seipd, body⟩⟩
      literal (← firstOpened (fun k => Sealed.decrypt suite k body) .noSessionKeyFits keys)) := by
  rw [decrypt, h.envelope, ← openData_seipd]
  rfl

/-- A message with one session key packet opens with the session key in it. -/
theorem Holds.exists_key {q : Skesk} (h : Holds message [q] body) {content : Literal}
    (opens : decrypt suite (some (.password password)) message = .ok content) :
    ∃ k inner, openSkesk suite password q = .ok k ∧ Sealed.decrypt suite k body = .ok inner ∧
      literal inner = .ok content := by
  rw [h.decrypt_eq] at opens
  cases opened : openSkesk suite password q with
  | error e =>
    have missing : ∃ e', sessionKeys suite (some (.password password)) ⟨[q], [], ⟨Tag.seipd, body⟩⟩ =
        .error e' := by
      rw [sessionKeys, gather, opened]
      dsimp only
      split_ifs
      · exact ⟨e, rfl⟩
      · exact ⟨e, rfl⟩
    obtain ⟨e', missing⟩ := missing
    rw [missing] at opens
    cases opens
  | ok k =>
    have tolerated : ∀ p ∈ [q], Tolerated .sessionKey (openSkesk suite password p) :=
      List.forall_mem_singleton.2 (.inl ⟨k, opened⟩)
    rw [sessionKeys_of_tolerated tolerated List.mem_cons_self opened, keysUnder_cons opened] at opens
    simp only [bind, Except.bind, firstOpened] at opens
    cases decrypted : Sealed.decrypt suite k body with
    | ok inner =>
      rw [decrypted] at opens
      exact ⟨k, inner, rfl, decrypted, opens⟩
    | error e =>
      rw [decrypted] at opens
      dsimp only at opens
      split_ifs at opens
      cases opens

/-- The packet of a message that opens is harmless. -/
theorem Holds.harmless {q : Skesk} (h : Holds message [q] body) {content : Literal}
    (opens : decrypt suite (some (.password password)) message = .ok content) :
    Harmless suite password body q := by
  obtain ⟨k, inner, opened, decrypted, held⟩ := h.exists_key opens
  have tolerated (hq : q.s2k.seed password = [] ∨ q.encrypted ≠ [] ∧ q.algorithm.supported = false) :
      False := by
    obtain ⟨e, failed, -⟩ := openSkesk_not_tolerated suite hq
    rw [opened] at failed
    cases failed
  refine ⟨fun empty => tolerated (.inl empty), fun wrapped => ?_, fun k' opened' => ?_⟩
  · by_contra unusable
    exact tolerated (.inr ⟨wrapped, Bool.eq_false_iff.2 unusable⟩)
  · obtain rfl : k = k' := Except.ok.inj (opened.symm.trans opened')
    exact .inr ⟨inner, content, decrypted, held⟩

/-- Among harmless packets one session key that fits is enough. -/
theorem Holds.exists_decrypt (h : Holds message skesks body)
    (harmless : ∀ p ∈ skesks, Harmless suite password body p) {q : Skesk} (hq : q ∈ skesks)
    {k : SessionKey} (opened : openSkesk suite password q = .ok k) {inner : Bytes}
    (decrypted : Sealed.decrypt suite k body = .ok inner) :
    ∃ content, decrypt suite (some (.password password)) message = .ok content := by
  have tolerated : ∀ p ∈ skesks, Tolerated .sessionKey (openSkesk suite password p) := fun p hp =>
    openSkesk_tolerated (h.type_mem p hp) (harmless p hp).hashed (harmless p hp).usable
  have passed : ∀ k' ∈ keysUnder suite password skesks,
      Tolerated .decryption (Sealed.decrypt suite k' body) := by
    intro k' hk'
    obtain ⟨p, hp, opened'⟩ := mem_keysUnder.1 hk'
    rcases (harmless p hp).passed k' opened' with failed | ⟨inner', -, decrypted', -⟩
    · exact .inr ⟨_, failed, rfl⟩
    · exact .inl ⟨inner', decrypted'⟩
  obtain ⟨k', hk', inner', decrypted', first⟩ := firstOpened_of_tolerated passed
    (mem_keysUnder.2 ⟨q, hq, opened⟩) decrypted .noSessionKeyFits
  obtain ⟨p, hp, opened'⟩ := mem_keysUnder.1 hk'
  rcases (harmless p hp).passed k' opened' with failed | ⟨inner'', content, decrypted'', held⟩
  · rw [failed] at decrypted'
    cases decrypted'
  · obtain rfl : inner' = inner'' := Except.ok.inj (decrypted'.symm.trans decrypted'')
    refine ⟨content, ?_⟩
    rw [h.decrypt_eq, sessionKeys_of_tolerated tolerated hq opened]
    simp only [bind, Except.bind, first]
    exact held

/-- A packet that is not harmless ends the search when it is tried first. -/
theorem Holds.exists_error {p : Skesk} {others : List Skesk} (h : Holds message (p :: others) body)
    (harm : ¬ Harmless suite password body p) :
    ∃ e, decrypt suite (some (.password password)) message = .error e := by
  have ended (missing : ∃ e, sessionKeys suite (some (.password password))
      ⟨p :: others, [], ⟨Tag.seipd, body⟩⟩ = .error e) :
      ∃ e, decrypt suite (some (.password password)) message = .error e := by
    obtain ⟨e, missing⟩ := missing
    exact ⟨e, by rw [h.decrypt_eq, missing]; rfl⟩
  by_cases untolerated : ∃ p' ∈ p :: others, ∃ e, openSkesk suite password p' = .error e ∧
      e.kind.isA .sessionKey = false
  · obtain ⟨p', hp', e, failed, kind⟩ := untolerated
    exact ended (sessionKeys_of_not_tolerated hp' failed kind _)
  have tolerated : ∀ p' ∈ p :: others, Tolerated .sessionKey (openSkesk suite password p') :=
    fun p' hp' => (tolerated_or _ _).resolve_right fun failed => untolerated ⟨p', hp', failed⟩
  have first (hp : p.s2k.seed password = [] ∨ p.encrypted ≠ [] ∧ p.algorithm.supported = false) :
      False := untolerated ⟨p, List.mem_cons_self, openSkesk_not_tolerated suite hp⟩
  -- What is left is a session key that neither is told to be wrong nor opens the message.
  have wrong : ∃ k, openSkesk suite password p = .ok k ∧
      Sealed.decrypt suite k body ≠ .error .feedbackCheck ∧
      ∀ inner content, Sealed.decrypt suite k body = .ok inner → literal inner ≠ .ok content := by
    by_contra none
    refine harm ⟨fun empty => first (.inl empty), fun wrapped => ?_, fun k opened => ?_⟩
    · by_contra unusable
      exact first (.inr ⟨wrapped, Bool.eq_false_iff.2 unusable⟩)
    · by_contra other
      rw [not_or] at other
      exact none ⟨k, opened, other.1, fun inner content decrypted held =>
        other.2 ⟨inner, content, decrypted, held⟩⟩
  obtain ⟨k, opened, notTold, notHeld⟩ := wrong
  rw [h.decrypt_eq, sessionKeys_of_tolerated tolerated List.mem_cons_self opened,
    keysUnder_cons opened]
  simp only [bind, Except.bind, firstOpened]
  cases decrypted : Sealed.decrypt suite k body with
  | ok inner =>
    dsimp only
    cases held : literal inner with
    | ok content => exact absurd held (notHeld inner content decrypted)
    | error e => exact ⟨e, rfl⟩
  | error e =>
    dsimp only
    split_ifs with kind
    · exact absurd (decrypted.trans (by rw [Sealed.eq_feedbackCheck decrypted kind])) notTold
    · exact ⟨e, rfl⟩

/-- A message that opens with one of its session key packets alone opens with all of them, in any
order, if the others are harmless; and a packet that is not harmless keeps every message from opening
in which it comes first. -/
theorem decrypt_beside_harmless (suite : Suite) {alone : Bytes} {q : Skesk}
    (ha : Holds alone [q] body) {content : Literal}
    (opens : decrypt suite (some (.password password)) alone = .ok content) :
    (∀ message skesks, Holds message skesks body → q ∈ skesks →
      (∀ p ∈ skesks, p ≠ q → Harmless suite password body p) →
        ∃ content', decrypt suite (some (.password password)) message = .ok content') ∧
    ∀ message p others, Holds message (p :: others) body → ¬ Harmless suite password body p →
      ∃ e, decrypt suite (some (.password password)) message = .error e := by
  refine ⟨fun message skesks hm hq others => ?_, fun message p others hm harm =>
    hm.exists_error harm⟩
  obtain ⟨k, inner, opened, decrypted, -⟩ := ha.exists_key opens
  have harmless : ∀ p ∈ skesks, Harmless suite password body p := by
    intro p hp
    by_cases same : p = q
    · exact same ▸ ha.harmless opens
    · exact others p hp same
  exact hm.exists_decrypt harmless hq opened decrypted

/-! ## A password that is tried twice -/

/-- Octets under IDEA and the key that SHA-256 gives for a password without salt. -/
def ideaBody : Bytes :=
  [0x01, 0x55, 0x66, 0xf3, 0x8d, 0x2c, 0xad, 0x91, 0xe0, 0x75, 0x47, 0x2a, 0xb1, 0x06, 0xb3, 0x1c,
    0x51, 0xaf, 0x34, 0x81, 0xe1, 0xbc, 0xc7, 0x41, 0xc9, 0x32, 0xed, 0xd3, 0x8d, 0x41, 0x4a, 0x8e,
    0x95, 0xab, 0x96, 0x70, 0x9c, 0x43, 0xe1, 0x0b, 0x30, 0x23, 0xad]

/-- The packet of a session key that a hash gives for a password without salt. -/
def bare (a : Symmetric) (hash : HashName) : Skesk :=
  ⟨Skesk.version4, a, ⟨StringToKey.simple, hash, [], 0⟩, []⟩

/-- The octets behind one such packet or several. -/
def messageBehind (fronts : Bytes) : Bytes :=
  fronts ++ [0xc3, 0x04, 0x04, 0x01, 0x00, 0x08, 0xd2, 0x2b] ++ ideaBody

theorem holds_messageBehind_nil : Holds (messageBehind []) [bare .idea .sha256] ideaBody :=
  ⟨[⟨Tag.skesk, [4, 1, 0, 8]⟩], by decide,
    .cons ⟨rfl, by decide⟩ .nil⟩

theorem decrypt_messageBehind_nil : decrypt .standard (some (.password [112, 119]))
    (messageBehind []) = .ok ⟨'b', "", 0, [104, 105]⟩ := by
  decide +kernel

/-- Beside a packet with another hash, the message still opens. -/
theorem decrypt_beside_harmless_idea :
    Holds (messageBehind []) [bare .idea .sha256] ideaBody ∧
      decrypt .standard (some (.password [112, 119])) (messageBehind []) =
        .ok ⟨'b', "", 0, [104, 105]⟩ ∧
      Holds (messageBehind [0xc3, 0x04, 0x04, 0x01, 0x00, 0x02])
        [bare .idea .sha1, bare .idea .sha256] ideaBody ∧
      Harmless .standard [112, 119] ideaBody (bare .idea .sha1) ∧
      ∃ content, decrypt .standard (some (.password [112, 119]))
        (messageBehind [0xc3, 0x04, 0x04, 0x01, 0x00, 0x02]) = .ok content := by
  have both : Holds (messageBehind [0xc3, 0x04, 0x04, 0x01, 0x00, 0x02])
      [bare .idea .sha1, bare .idea .sha256] ideaBody :=
    ⟨[⟨Tag.skesk, [4, 1, 0, 2]⟩, ⟨Tag.skesk, [4, 1, 0, 8]⟩], by decide,
      .cons ⟨rfl, by decide⟩ (.cons ⟨rfl, by decide⟩ .nil)⟩
  have harmless : Harmless .standard [112, 119] ideaBody (bare .idea .sha1) := by
    refine ⟨by decide, fun wrapped => absurd rfl wrapped, fun k opened => .inl ?_⟩
    have key : openSkesk .standard [112, 119] (bare .idea .sha1) = .ok ⟨.idea,
        [26, 145, 214, 47, 124, 166, 115, 153, 98, 90, 67, 104, 166, 171, 93, 74]⟩ := by
      decide +kernel
    obtain rfl := Except.ok.inj (key.symm.trans opened)
    decide +kernel
  refine ⟨holds_messageBehind_nil, decrypt_messageBehind_nil, both, harmless, ?_⟩
  refine (decrypt_beside_harmless .standard holds_messageBehind_nil decrypt_messageBehind_nil).1
    _ _ both (List.mem_cons_of_mem _ List.mem_cons_self) fun p hp other => ?_
  obtain rfl : p = bare .idea .sha1 := (List.mem_cons.1 hp).resolve_right fun same =>
    other (List.mem_singleton.1 same)
  exact harmless

/-- Beside a packet of a cipher that is not usable, the message does not open any more. -/
theorem decrypt_beside_twofish :
    Holds (messageBehind []) [bare .idea .sha256] ideaBody ∧
      decrypt .standard (some (.password [112, 119])) (messageBehind []) =
        .ok ⟨'b', "", 0, [104, 105]⟩ ∧
      Holds (messageBehind [0xc3, 0x04, 0x04, 0x0a, 0x00, 0x08])
        [bare .twofish .sha256, bare .idea .sha256] ideaBody ∧
      decrypt .standard (some (.password [112, 119]))
        (messageBehind [0xc3, 0x04, 0x04, 0x0a, 0x00, 0x08]) = .error (.noSymmetric .twofish) := by
  refine ⟨holds_messageBehind_nil, decrypt_messageBehind_nil,
    ⟨[⟨Tag.skesk, [4, 10, 0, 8]⟩, ⟨Tag.skesk, [4, 1, 0, 8]⟩], by decide,
      .cons ⟨rfl, by decide⟩ (.cons ⟨rfl, by decide⟩ .nil)⟩, ?_⟩
  decide

end Message

end Cryptogram
