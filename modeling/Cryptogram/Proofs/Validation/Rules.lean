import Mathlib.Data.List.Pairwise
import Cryptogram.Proofs.OpenPgp.Sealed
import Cryptogram.Proofs.Resolution
import Cryptogram.Proofs.Text.Hex

/-!
# The rules on properties

What is asked of properties, said without reference to how it is checked (`Properties.Obeys`).  A
method or an algorithm can be built exactly if it is listed as supported (`Method.buildable_iff`), and
a choice stands for a member exactly if it is that member or one of its texts
(`Catalog.choose?_eq_some_iff`).
-/

namespace Cryptogram

/-! ## Rules -/

/-- The choice of a member: itself, its name, or the text that hosts know it by. -/
def Choice.Names {α : Type} (name host : α → String) (choice : Choice α) (a : α) : Prop :=
  choice = .member a ∨ choice = .given (.text (name a)) ∨ choice = .given (.text (host a))

/-- The choice of a direction, whose name may stand behind that of its catalog. -/
def Choice.NamesDirection (choice : Choice Direction) (d : Direction) : Prop :=
  choice.Names Direction.name Direction.hostName d ∨ choice = .given (.text ("Mode." ++ d.name))

/-- A value that says whether weak passwords are allowed. -/
inductive HostValue.Allows : HostValue → Bool → Prop
  | flag (b : Bool) : Allows (.flag b) b
  | allowed : Allows (.text "allowed") true
  | notAllowed : Allows (.text "not-allowed") false

/-- Whether the cipher of a method is built under a key and an initial vector of zeros; OpenPGP has
no cipher of its own. -/
def Method.Buildable (suite : Suite) (m : Method) : Prop :=
  m.isOpenPgp = true ∨
    ∃ c, suite.methodCipher m (Bytes.zeros m.keySize)
      (Bytes.zeros (if m.blockSize = 0 then 16 else m.blockSize)) = .ok c

/-- Whether the cipher of an algorithm is built under a key and an initial vector of zeros. -/
def Symmetric.Buildable (suite : Suite) (a : Symmetric) : Prop :=
  a.keySize ≠ 0 ∧ a.blockSize ≠ 0 ∧
    ∃ f, suite.feedback a (Bytes.zeros a.keySize) (Bytes.zeros a.blockSize) = .ok f

/-- The choice of the cipher of messages: none, or the number of an offered one that is built. -/
def HostValue.ChoosesCipher (suite : Suite) (value : HostValue) : Prop :=
  value = .absent ∨ value = .text "" ∨
    ∃ a ∈ Symmetric.offered, value.integer? = .ok (some a.id) ∧ a.Buildable suite

namespace Settings

/-- A key length within the limit, if there is a limit. -/
def Permits (settings : Settings) (bits : Nat) : Prop :=
  ∀ limit ∈ settings.maxKeyBits, (bits : Int) ≤ limit

/-- A password that is long enough, unless weak ones are allowed. -/
def AcceptsPassword (settings : Settings) (weak : Bool) (value : HostValue) : Prop :=
  ∃ s, value = .text s ∧ s ≠ "" ∧
    (weak = true ∨ settings.minPasswordLength ≤ (Text.utf8 s).length)

/-- A raw key in digits with white space around them, of a permitted length. -/
def AcceptsRawKey (settings : Settings) (value : HostValue) : Prop :=
  ∃ s, value = .text s ∧ (∀ c ∈ Text.strip s.toList, Text.IsHexDigit c) ∧
    4 * (Text.strip s.toList).length ∈ Method.rawKeyBits ∧
    settings.Permits (4 * (Text.strip s.toList).length)

end Settings

/-- The keys that open messages, from the keyring at a location. -/
def KeyringSource.privateKeys (suite : Suite) (source : KeyringSource) (location : HostValue)
    (passphrase : String) : Except Failure PrivateKeyring := do
  Keyring.readPrivate suite location.display (Text.utf8 passphrase) (← source location)

/-- Keyrings that are loaded or refused with a failure that is about keyrings. -/
structure KeyringSource.Reports (suite : Suite) (source : KeyringSource) : Prop where
  recipient : ∀ {location userId : String} {f : Failure},
    Resolution.recipient suite source (.text location) (.text userId) = .error f →
      f.kind.isA .keyring = true
  privateKeys : ∀ {location passphrase : String} {f : Failure},
    source.privateKeys suite (.text location) passphrase = .error f → f.kind.isA .keyring = true

/-- A text or nothing. -/
def HostValue.IsOptionalText (value : HostValue) : Prop := value = .absent ∨ ∃ s, value = .text s

namespace Properties

variable (suite : Suite) (settings : Settings) (source : KeyringSource) (p : Properties)

/-- Properties whose values are texts or nothing; the cipher may be a number. -/
structure Typed : Prop where
  password : p.password.IsOptionalText
  rawKey : p.rawKey.IsOptionalText
  publicKeyring : p.publicKeyring.IsOptionalText
  publicKeyUserId : p.publicKeyUserId.IsOptionalText
  privateKeyring : p.privateKeyring.IsOptionalText
  privateKeyringPassphrase : p.privateKeyringPassphrase.IsOptionalText
  cipher : p.cipher.IsOptionalText ∨ ∃ n, p.cipher = .integer n

/-- The keyring and the user id of a recipient whose key is found. -/
def LoadsRecipient : Prop :=
  p.publicKeyring.isSet = true ∧ p.publicKeyUserId.isSet = true ∧
    ∃ key, Resolution.recipient suite source p.publicKeyring p.publicKeyUserId = .ok key

/-- A keyring that is opened by its passphrase. -/
def LoadsPrivateKeys : Prop :=
  p.privateKeyring.isSet = true ∧ ∃ passphrase keys,
    p.privateKeyringPassphrase = .text passphrase ∧ passphrase ≠ "" ∧
      source.privateKeys suite p.privateKeyring passphrase = .ok keys

/-- What a method takes its key from. -/
inductive Supplies (weak : Bool) (d : Direction) (m : Method) (k : KeyDerivation) : Prop
  | passwordBased (kind : m.passwordBased = true) (serves : k ∈ KeyDerivation.forPassword)
    (password : settings.AcceptsPassword weak p.password)
  | rawKey (kind : m.keyed = true) (raw : k = .rawKey) (key : settings.AcceptsRawKey p.rawKey)
  | strong (kind : m.keyed = true) (strong : k.strong = true)
    (password : settings.AcceptsPassword weak p.password)
  | openPgpPassword (kind : m.isOpenPgp = true) (cipher : p.cipher.ChoosesCipher suite)
    (password : p.password.isSet = true)
  | recipient (kind : m.isOpenPgp = true) (cipher : p.cipher.ChoosesCipher suite)
    (encrypts : d = .encrypt) (loads : p.LoadsRecipient suite source)
  | privateKeyring (kind : m.isOpenPgp = true) (cipher : p.cipher.ChoosesCipher suite)
    (decrypts : d = .decrypt) (loads : p.LoadsPrivateKeys suite source)

/-- All rules. -/
def Obeys : Prop :=
  ∃ d m k weak, p.mode.NamesDirection d ∧ p.algorithm.Names Method.name Method.algorithm m ∧
    p.kdf.Names KeyDerivation.name KeyDerivation.displayName k ∧ p.allowWeak.Allows weak ∧
    m.Buildable suite ∧ (m.traits.unlimited = true → settings.Permits m.keyBits) ∧
    p.Supplies suite settings source weak d m k

end Properties

theorem HostValue.exists_text_of_isSet {value : HostValue} (typed : value.IsOptionalText)
    (set : value.isSet = true) : ∃ s, value = .text s ∧ s ≠ "" := by
  rcases typed with rfl | ⟨s, rfl⟩
  · cases set
  · exact ⟨s, rfl, of_decide_eq_true set⟩

theorem HostValue.isSet_text {s : String} (h : s ≠ "") : (HostValue.text s).isSet = true :=
  decide_eq_true h

/-! ## Ciphers that are built -/

theorem Method.buildable_iff {suite : Suite} {m : Method} :
    m.Buildable suite ↔ m.supported = true := by
  unfold Buildable
  cases m <;> first
    | exact iff_of_true (.inr ⟨_, rfl⟩) rfl
    | exact iff_of_true (.inl rfl) rfl
    | exact iff_of_false (by rintro (h | ⟨c, h⟩) <;> cases h) (by decide)

theorem Symmetric.buildable_iff {suite : Suite} {a : Symmetric} :
    a.Buildable suite ↔ a.supported = true := by
  constructor
  · rintro ⟨key, -, f, h⟩
    cases a <;> first
      | rfl
      | exact absurd rfl key
      | cases h
  · intro h
    obtain ⟨f, -, found⟩ := suite.exists_feedback h (Bytes.length_zeros a.keySize)
    have sizes : a.keySize ≠ 0 ∧ a.blockSize ≠ 0 := by
      cases a <;> first
        | decide
        | exact absurd h (by decide)
    exact ⟨sizes.1, sizes.2, f, found _ (Bytes.length_zeros _)⟩

namespace Resolution

/-! ## Choices -/

section Choices

variable {α : Type} {c : Catalog α}

/-- The texts that stand for a member. -/
def Catalog.texts (c : Catalog α) (a : α) : List String := c.name a :: c.aliases a

/-- Every member is listed, and no text stands for two. -/
structure Catalog.Plain (c : Catalog α) : Prop where
  complete : ∀ a, a ∈ c.members
  apart : c.members.Pairwise fun a b => ∀ text ∈ c.texts a, text ∉ c.texts b

theorem Catalog.Plain.eq_of_mem_texts (plain : c.Plain) {text : String} {a b : α}
    (ha : text ∈ c.texts a) (hb : text ∈ c.texts b) : a = b := by
  by_contra ne
  have : Std.Symm fun a b : α => ∀ text ∈ c.texts a, text ∉ c.texts b :=
    ⟨fun a b apart text hb ha => apart text ha hb⟩
  exact plain.apart.forall (plain.complete a) (plain.complete b) ne text ha hb

theorem Catalog.mem_texts_of_find? {text : String} {a : α} (h : c.find? text = some a) :
    text ∈ c.texts a := by
  unfold find? at h
  rcases Option.or_eq_some_iff.1 h with named | ⟨-, other⟩
  · have same := List.find?_some named
    exact List.mem_cons.2 (.inl (of_decide_eq_true same).symm)
  · have other := List.find?_some other
    exact List.mem_cons_of_mem _ (List.contains_iff_mem.1 other)

theorem Catalog.find?_isSome_of_mem {text : String} {a : α} (listed : a ∈ c.members)
    (h : text ∈ c.texts a) : (c.find? text).isSome = true := by
  unfold find?
  rw [Option.isSome_or, Bool.or_eq_true, List.find?_isSome, List.find?_isSome]
  rcases List.mem_cons.1 h with rfl | other
  · exact .inl ⟨a, listed, decide_eq_true rfl⟩
  · exact .inr ⟨a, listed, List.contains_iff_mem.2 other⟩

/-- A choice stands for a member exactly if it is that member or one of its texts. -/
theorem Catalog.choose?_eq_some_iff (plain : c.Plain) {choice : Choice α} {a : α} :
    c.choose? choice = some a ↔
      choice = .member a ∨ ∃ text ∈ c.texts a, choice = .given (.text text) := by
  constructor
  · intro h
    unfold choose? at h
    split at h
    · cases h
      exact .inl rfl
    · exact .inr ⟨_, mem_texts_of_find? h, rfl⟩
    · cases h
  · rintro (rfl | ⟨text, hs, rfl⟩)
    · rfl
    · obtain ⟨b, found⟩ := Option.isSome_iff_exists.1 (find?_isSome_of_mem (plain.complete a) hs)
      rw [plain.eq_of_mem_texts hs (mem_texts_of_find? found)]
      exact found

end Choices

theorem plain_directions : directions.Plain where
  complete d := by cases d <;> decide
  apart := by decide

set_option maxRecDepth 1000 in
theorem plain_methods : methods.Plain where
  complete m := by cases m <;> decide
  apart := by decide

theorem plain_kdfs : kdfs.Plain where
  complete k := by cases k <;> decide
  apart := by decide

theorem choose?_directions {choice : Choice Direction} {d : Direction} :
    directions.choose? choice = some d ↔ choice.NamesDirection d := by
  rw [Catalog.choose?_eq_some_iff plain_directions]
  simp only [Catalog.texts, directions, Choice.NamesDirection, Choice.Names, List.mem_cons,
    List.not_mem_nil, or_false, exists_eq_or_imp, exists_eq_left]
  tauto

theorem choose?_methods {choice : Choice Method} {m : Method} :
    methods.choose? choice = some m ↔ choice.Names Method.name Method.algorithm m := by
  rw [Catalog.choose?_eq_some_iff plain_methods]
  simp only [Catalog.texts, methods, Choice.Names, List.mem_cons, List.not_mem_nil, or_false,
    exists_eq_or_imp, exists_eq_left]

theorem choose?_kdfs {choice : Choice KeyDerivation} {k : KeyDerivation} :
    kdfs.choose? choice = some k ↔ choice.Names KeyDerivation.name KeyDerivation.displayName k := by
  rw [Catalog.choose?_eq_some_iff plain_kdfs]
  simp only [Catalog.texts, kdfs, Choice.Names, List.mem_cons, List.not_mem_nil, or_false,
    exists_eq_or_imp, exists_eq_left]

theorem allowance?_eq_some_iff {value : HostValue} {weak : Bool} :
    allowance? value = some weak ↔ value.Allows weak := by
  constructor
  · intro h
    unfold allowance? at h
    split at h
    · cases h
      exact .flag _
    · split_ifs at h with yes no
      · cases h
        rw [yes]
        exact .allowed
      · cases h
        rw [no]
        exact .notAllowed
    · cases h
  · intro h
    cases h <;> rfl

end Resolution

end Cryptogram
