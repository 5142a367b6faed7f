import Cryptogram.Keyring.Loader
import Cryptogram.Proofs.Failure

/-!
# The choice of a recipient

Whoever asks for a recipient means at most one entry of the keyring (`Meant`), and is given its key or
told that there is none (`Loader.publicKey_unambiguous`).  In what order the entries stand makes no
difference, and neither do entries that only mention a text by which another one is named.
-/

namespace Cryptogram.Keyring

/-! ## Lone elements -/

/-- One element of a list has a property, and no other element of the list has it. -/
def Alone {α : Type} (property : α → Prop) (xs : List α) (x : α) : Prop :=
  ∃ before after, xs = before ++ x :: after ∧ property x ∧ ∀ y ∈ before ++ after, ¬ property y

theorem filter_eq_singleton_iff {α : Type} {property : α → Prop} {test : α → Bool}
    (tells : ∀ x, test x = true ↔ property x) {xs : List α} {x : α} :
    xs.filter test = [x] ↔ Alone property xs x := by
  rw [List.filter_eq_cons_iff]
  refine exists_congr fun before => exists_congr fun after => and_congr_right fun _ => ?_
  simp only [List.filter_eq_nil_iff, List.forall_mem_append, tells]
  tauto

theorem Alone.exists_mem {α : Type} {property : α → Prop} {xs : List α} {x : α}
    (h : Alone property xs x) : ∃ y ∈ xs, property y := by
  obtain ⟨before, after, rfl, has, -⟩ := h
  exact ⟨x, List.mem_append_right _ List.mem_cons_self, has⟩

namespace PublicEntry

variable {suite : Suite} {location userId : String} {entries entries' : List PublicEntry}

/-! ## Texts of entries -/

theorem occursIn_iff {part text : List Char} : occursIn part text = true ↔ part <:+: text := by
  induction text with
  | nil => rw [occursIn, List.isEmpty_iff, List.infix_nil]
  | cons c rest ih =>
    rw [occursIn, Bool.or_eq_true, List.isPrefixOf_iff_prefix, ih, List.infix_cons_iff]

/-- A text is one of the handles of an entry. -/
def Named (text : List Char) (e : PublicEntry) : Prop := text ∈ e.handles

instance (text : List Char) (e : PublicEntry) : Decidable (Named text e) :=
  inferInstanceAs (Decidable (text ∈ e.handles))

/-- A text stands in one of the handles of an entry. -/
def Mentioned (text : List Char) (e : PublicEntry) : Prop := ∃ handle ∈ e.handles, text <:+: handle

instance (text : List Char) (e : PublicEntry) : Decidable (Mentioned text e) :=
  inferInstanceAs (Decidable (∃ handle ∈ e.handles, text <:+: handle))

theorem isNamed_iff {text : List Char} (e : PublicEntry) : isNamed text e = true ↔ Named text e :=
  List.contains_iff_mem

theorem mentions_iff {text : List Char} (e : PublicEntry) :
    mentions text e = true ↔ Mentioned text e := by
  unfold mentions Mentioned
  simp only [List.any_eq_true, occursIn_iff]

theorem mapM_split? {userIds : List (List Char)} {parts : List UserId}
    (h : userIds.mapM UserId.split? = some parts) {u : UserId} :
    u ∈ parts ↔ ∃ text ∈ userIds, UserId.split? text = some u := by
  induction userIds generalizing parts with
  | nil =>
    cases h
    simp
  | cons text rest ih =>
    rw [List.mapM_cons] at h
    simp only [bind, Option.bind_eq_some_iff] at h
    obtain ⟨first, split, others, divided, h⟩ := h
    cases h
    rw [List.mem_cons, ih divided, List.exists_mem_cons_iff, split, Option.some.injEq, eq_comm]

/-- The handles of a key are its user ids with their parts in order, and the names and the addresses in
them that are not empty. -/
theorem named_of_ofKey {k : RingKey} {e : PublicEntry} (h : ofKey suite k = .ok e)
    {text : List Char} :
    Named text e ↔ ∃ id ∈ k.userIds, ∃ u, UserId.split? id = some u ∧
      (text = u.full ∨ text ≠ [] ∧ (text = u.name ∨ text = u.address)) := by
  have handles : handlesOf k.userIds = .ok e.handles := by
    unfold ofKey at h
    split_ifs at h
    obtain ⟨handles, told, h⟩ := exists_of_bind_eq_ok h
    dsimp only at h
    split at h
    · cases h
      exact told
    · obtain ⟨key, -, h⟩ := exists_of_bind_eq_ok h
      cases h
      exact told
  unfold handlesOf at handles
  cases divided : k.userIds.mapM UserId.split? with
  | none =>
    rw [divided] at handles
    cases handles
  | some parts =>
    rw [divided] at handles
    dsimp only at handles
    unfold Named
    rw [← Except.ok.inj handles]
    simp only [List.mem_flatMap, mapM_split? divided, UserId.handles, List.mem_cons, List.mem_filter,
      List.not_mem_nil, or_false, bne_iff_ne, ne_eq]
    constructor
    · rintro ⟨u, ⟨id, listed, split⟩, is⟩
      exact ⟨id, listed, u, split, by tauto⟩
    · rintro ⟨id, listed, u, split, is⟩
      exact ⟨u, ⟨id, listed, split⟩, by tauto⟩

/-! ## The entry that is meant -/

/-- The entry that a text stands for: the only one that it names or, where it names none, the only one
that it is mentioned in. -/
def Meant (text : List Char) (entries : List PublicEntry) (e : PublicEntry) : Prop :=
  Alone (Named text) entries e ∨
    (∀ other ∈ entries, ¬ Named text other) ∧ Alone (Mentioned text) entries e

theorem candidates_of_named {text : List Char} (h : ∃ e ∈ entries, Named text e) :
    candidates entries text = entries.filter (isNamed text) := by
  obtain ⟨e, listed, named⟩ := h
  unfold candidates
  dsimp only
  rw [if_neg (List.ne_nil_of_mem (List.mem_filter.2 ⟨listed, (isNamed_iff e).2 named⟩))]

theorem candidates_of_unnamed {text : List Char} (h : ∀ e ∈ entries, ¬ Named text e) :
    candidates entries text = entries.filter (mentions text) := by
  unfold candidates
  dsimp only
  rw [if_pos (List.filter_eq_nil_iff.2 fun e listed is => h e listed ((isNamed_iff e).1 is))]

theorem candidates_eq_singleton_iff {text : List Char} {e : PublicEntry} :
    candidates entries text = [e] ↔ Meant text entries e := by
  unfold Meant
  by_cases named : ∃ e ∈ entries, Named text e
  · rw [candidates_of_named named, filter_eq_singleton_iff isNamed_iff, or_iff_left]
    obtain ⟨e, listed, is⟩ := named
    exact fun both => both.1 e listed is
  · have unnamed : ∀ e ∈ entries, ¬ Named text e := fun e listed is => named ⟨e, listed, is⟩
    rw [candidates_of_unnamed unnamed, filter_eq_singleton_iff mentions_iff, or_iff_right,
      and_iff_right unnamed]
    exact fun alone => named alone.exists_mem

/-- The order of the entries is only that of the candidates. -/
theorem candidates_perm (h : entries.Perm entries') (text : List Char) :
    (candidates entries text).Perm (candidates entries' text) := by
  by_cases named : ∃ e ∈ entries, Named text e
  · have named' : ∃ e ∈ entries', Named text e := by simpa only [h.mem_iff] using named
    rw [candidates_of_named named, candidates_of_named named']
    exact h.filter _
  · have unnamed : ∀ e ∈ entries, ¬ Named text e := fun e listed is => named ⟨e, listed, is⟩
    have unnamed' : ∀ e ∈ entries', ¬ Named text e := by simpa only [h.mem_iff] using unnamed
    rw [candidates_of_unnamed unnamed, candidates_of_unnamed unnamed']
    exact h.filter _

/-! ## The key of the entry -/

/-- The key of an entry for messages to whoever was asked for, if it holds one. -/
def keyFor? (userId : String) (e : PublicEntry) : Option EncryptionKey :=
  e.encryption.map fun (keyId, key) => ⟨userId, keyId, e.fingerprint, key⟩

theorem select_eq_ok_iff {key : EncryptionKey} :
    select location userId entries = .ok key ↔
      ∃ e, Meant userId.toList entries e ∧ e.keyFor? userId = some key := by
  simp only [← candidates_eq_singleton_iff]
  unfold select keyFor?
  split
  · rename_i none
    simp [none]
  · rename_i e only
    simp only [only, List.cons.injEq, and_true, exists_eq_left', Option.map_eq_some_iff]
    cases e.encryption <;> simp
  · rename_i several empty single
    refine iff_of_false nofun ?_
    rintro ⟨e, only, -⟩
    exact single e only

theorem select_notFound :
    FailsIn (fun f => f.kind = .own .publicKeyNotFound) (select location userId entries) := by
  unfold select
  split
  · exact .error rfl
  · split
    · exact .ok _
    · exact .error rfl
  · exact .error rfl

theorem select_congr (h : (candidates entries userId.toList).Perm (candidates entries' userId.toList)) :
    select location userId entries = select location userId entries' := by
  unfold select
  rcases found : candidates entries userId.toList with _ | ⟨e, _ | ⟨e', more⟩⟩
  · rw [found] at h
    rw [h.nil_eq.symm]
  · rw [found] at h
    rw [List.singleton_perm.1 h]
  · rw [found] at h
    have same := h.length_eq
    rcases found' : candidates entries' userId.toList with _ | ⟨d, _ | ⟨d', more'⟩⟩ <;>
      simp only [found', List.length_cons, List.length_nil] at same
    · omega
    · omega
    · dsimp only
      rw [List.length_cons, List.length_cons, same]
      rfl

/-- Entries that a text does not name make no difference to one that it names. -/
theorem select_append_unnamed (named : ∃ e ∈ entries, Named userId.toList e)
    (unnamed : ∀ e ∈ entries', ¬ Named userId.toList e) :
    select location userId (entries ++ entries') = select location userId entries := by
  refine select_congr ?_
  have either : ∃ e ∈ entries ++ entries', Named userId.toList e :=
    named.imp fun e both => ⟨List.mem_append_left _ both.1, both.2⟩
  have none : entries'.filter (isNamed userId.toList) = [] :=
    List.filter_eq_nil_iff.2 fun e listed is => unnamed e listed ((isNamed_iff e).1 is)
  rw [candidates_of_named either, candidates_of_named named, List.filter_append, none,
    List.append_nil]

end PublicEntry

/-! ## Loaders -/

open PublicEntry

theorem Loader.publicKey_eq_select {suite : Suite} {l : Loader} {location userId : String}
    {data : Bytes} {entries : List PublicEntry} (read : l.shelf.read location = .ok data)
    (told : (l.entries suite location data).1 = .ok entries) :
    (l.publicKey suite location userId).1 = select location userId entries := by
  unfold publicKey
  rw [read]
  dsimp only
  rw [told]
  rfl

/-- Of the recipients in a keyring, a loader gives the key of the one that is meant, which has to hold
one, and says otherwise that there is no such key.  The same recipients in another order, and further
ones that are not named by the text that names one of them, give the same key or the same failure.
What names a recipient is a whole user id, or the name or the address in it. -/
theorem Loader.publicKey_unambiguous {suite : Suite} {l : Loader} {location userId : String}
    {data : Bytes} {entries : List PublicEntry} (read : l.shelf.read location = .ok data)
    (told : (l.entries suite location data).1 = .ok entries) :
    (∀ key, (l.publicKey suite location userId).1 = .ok key ↔
        ∃ e, Meant userId.toList entries e ∧ e.keyFor? userId = some key) ∧
      FailsIn (fun f => f.kind = .own .publicKeyNotFound) (l.publicKey suite location userId).1 ∧
      (∀ (l' : Loader) (data' : Bytes) (entries' : List PublicEntry),
        l'.shelf.read location = .ok data' → (l'.entries suite location data').1 = .ok entries' →
        (entries'.Perm entries ∨ ∃ more, entries'.Perm (entries ++ more) ∧
          (∃ e ∈ entries, Named userId.toList e) ∧ ∀ e ∈ more, ¬ Named userId.toList e) →
        (l'.publicKey suite location userId).1 = (l.publicKey suite location userId).1) ∧
      ∀ (k : RingKey) (e : PublicEntry), PublicEntry.ofKey suite k = .ok e →
        ∀ text, Named text e ↔ ∃ id ∈ k.userIds, ∃ u, UserId.split? id = some u ∧
          (text = u.full ∨ text ≠ [] ∧ (text = u.name ∨ text = u.address)) := by
  rw [publicKey_eq_select read told]
  refine ⟨fun key => select_eq_ok_iff, select_notFound, ?_, fun k e h text => named_of_ofKey h⟩
  intro l' data' entries' read' told' alike
  rw [publicKey_eq_select read' told']
  rcases alike with reordered | ⟨more, reordered, named, unnamed⟩
  · exact select_congr (candidates_perm reordered _)
  · exact (select_congr (candidates_perm reordered _)).trans (select_append_unnamed named unnamed)

/-- Two keys, whose owners are "A" and "BA": "A" names the first, and "B" is mentioned in the second. -/
theorem Loader.publicKey_unambiguous_two :
    let packets (date : UInt8) (name : Bytes) : Bytes :=
      [0xc6, 0x0c, 0x04, 0x00, 0x00, 0x00, date, 0x01, 0x00, 0x06, 0x21, 0x00, 0x02, 0x03, 0xcd,
        name.length.toUInt8] ++ name
    let data := packets 1 [0x41] ++ packets 2 [0x42, 0x41]
    let l : Loader := ⟨⟨[("r", data)]⟩, ⟨1, []⟩⟩
    let entry (name : List Char) (fingerprint : Nat) : PublicEntry :=
      let octets := Bytes.ofNat 20 fingerprint
      ⟨[name, name], octets, some (octets.drop 12, ⟨33, 3⟩)⟩
    let a := entry ['A'] 0xc63db786670d1cb849a8bb826da9cf5f28763e73
    let ba := entry ['B', 'A'] 0xcb55e2aa850a2746bac4fda2cc091c24f3bae68f
    l.shelf.read "r" = .ok data ∧ (l.entries .standard "r" data).1 = .ok [a, ba] ∧
      (l.publicKey .standard "r" "A").1 =
        .ok ⟨"A", Bytes.ofNat 8 0x6da9cf5f28763e73, a.fingerprint, ⟨33, 3⟩⟩ ∧
      (l.publicKey .standard "r" "B").1 =
        .ok ⟨"B", Bytes.ofNat 8 0xcc091c24f3bae68f, ba.fingerprint, ⟨33, 3⟩⟩ := by
  intro packets data l entry a ba
  have read : l.shelf.read "r" = .ok data := by decide
  have told : (l.entries .standard "r" data).1 = .ok [a, ba] := by decide +kernel
  have named : Meant "A".toList [a, ba] a := .inl ⟨[], [ba], by decide⟩
  have mentioned : Meant "B".toList [a, ba] ba := .inr ⟨by decide, [a], [], by decide⟩
  obtain ⟨chosen, -⟩ := @Loader.publicKey_unambiguous .standard l "r" "A" data [a, ba] read told
  obtain ⟨chosen', -⟩ := @Loader.publicKey_unambiguous .standard l "r" "B" data [a, ba] read told
  exact ⟨read, told, (chosen _).2 ⟨a, named, by decide⟩,
    (chosen' _).2 ⟨ba, mentioned, by decide⟩⟩

end Cryptogram.Keyring
