import Mathlib.Data.List.Induction
import Cryptogram.Properties

/-!
# Properties from mappings

Each field of the properties that a mapping gives has the last value under one of the names of the
field, where an empty text is no value (`ofMapping_eq_ok_iff`).  The first key that names no field is
an error (`ofMapping_eq_error_iff`).
-/

namespace Cryptogram

namespace Field

/-- The keys that stand for a field: its own name, and its name for hosts. -/
def Named (f : Field) (key : String) : Prop := key = f.name ∨ key = f.hostName

instance (f : Field) : DecidablePred f.Named := fun _ => inferInstanceAs (Decidable (_ ∨ _))

/-- A key stands for one field at most. -/
theorem ofKey?_eq_some_iff {key : String} {f : Field} : ofKey? key = some f ↔ f.Named key := by
  constructor
  · intro found
    have named := List.find?_some found
    rw [Bool.or_eq_true, decide_eq_true_iff, decide_eq_true_iff] at named
    exact named.imp Eq.symm Eq.symm
  · rintro (rfl | rfl) <;> cases f <;> decide

theorem ofKey?_eq_none_iff {key : String} : ofKey? key = none ↔ ∀ f : Field, ¬ f.Named key := by
  simp only [← ofKey?_eq_some_iff, Option.eq_none_iff_forall_ne_some]

theorem Named.unique {f g : Field} {key : String} (hf : f.Named key) (hg : g.Named key) : f = g :=
  Option.some.inj ((ofKey?_eq_some_iff.2 hf).symm.trans (ofKey?_eq_some_iff.2 hg))

end Field

theorem HostValue.isEmptyText_iff {v : HostValue} : v.isEmptyText = true ↔ v = .text "" := by
  cases v <;> simp [isEmptyText]

namespace Properties

variable {p : Properties} {entries before after : List (String × HostValue)}
  {entry : String × HostValue} {key : String} {v : HostValue} {f : Field}

/-! ## Values by fields -/

/-- The properties with these values for the fields, and the default for a field without one. -/
def ofValues (value? : Field → Option HostValue) : Properties :=
  let unset : Properties := {}
  { mode := ((value? .mode).map .given).getD unset.mode
    algorithm := ((value? .algorithm).map .given).getD unset.algorithm
    kdf := ((value? .kdf).map .given).getD unset.kdf
    password := (value? .password).getD unset.password
    rawKey := (value? .rawKey).getD unset.rawKey
    publicKeyring := (value? .publicKeyring).getD unset.publicKeyring
    publicKeyUserId := (value? .publicKeyUserId).getD unset.publicKeyUserId
    privateKeyring := (value? .privateKeyring).getD unset.privateKeyring
    privateKeyringPassphrase := (value? .privateKeyringPassphrase).getD unset.privateKeyringPassphrase
    cipher := (value? .cipher).getD unset.cipher
    allowWeak := (value? .allowWeak).getD unset.allowWeak }

theorem set_ofValues (value? : Field → Option HostValue) (f : Field) (v : HostValue) :
    (ofValues value?).set f v = ofValues (Function.update value? f (some v)) := by
  cases f <;> rfl

/-- Whether an entry of a mapping gives a value to a field. -/
def gives (f : Field) (entry : String × HostValue) : Bool :=
  f.Named entry.1 && !entry.2.isEmptyText

/-- The value that a mapping gives to a field last. -/
def lastValue? (entries : List (String × HostValue)) (f : Field) : Option HostValue :=
  ((entries.filter (gives f)).getLast?).map Prod.snd

theorem lastValue?_concat (entries : List (String × HostValue)) (entry : String × HostValue)
    (f : Field) :
    lastValue? (entries ++ [entry]) f =
      if gives f entry then some entry.2 else lastValue? entries f := by
  unfold lastValue?
  rw [List.filter_append]
  split_ifs with given
  · rw [List.filter_cons_of_pos given, List.filter_nil, List.getLast?_concat, Option.map_some]
  · rw [List.filter_cons_of_neg given, List.filter_nil, List.append_nil]

theorem lastValue?_concat_empty (h : v.isEmptyText = true) :
    lastValue? (entries ++ [(key, v)]) = lastValue? entries := by
  funext f
  rw [lastValue?_concat, if_neg (by simp [gives, h])]

theorem lastValue?_concat_value (named : f.Named key) (h : ¬ v.isEmptyText = true) :
    lastValue? (entries ++ [(key, v)]) = Function.update (lastValue? entries) f (some v) := by
  funext g
  rw [lastValue?_concat]
  by_cases same : g = f
  · subst same
    rw [if_pos (by simp [gives, named, h]), Function.update_self]
  · have other : ¬ g.Named key := fun hg => same (hg.unique named)
    rw [if_neg (by simp [gives, other]), Function.update_of_ne same]

/-- Behind the last value, all that stands under the names of the field is empty texts. -/
theorem lastValue?_eq_some_iff : lastValue? entries f = some v ↔
    ∃ before key after, entries = before ++ (key, v) :: after ∧ f.Named key ∧ v ≠ .text "" ∧
      ∀ entry ∈ after, f.Named entry.1 → entry.2 = .text "" := by
  have given (entry : String × HostValue) :
      gives f entry = true ↔ f.Named entry.1 ∧ entry.2 ≠ .text "" := by
    rw [gives, Bool.and_eq_true, decide_eq_true_iff, Bool.not_eq_true', Ne,
      ← HostValue.isEmptyText_iff, Bool.not_eq_true]
  simp only [lastValue?, Option.map_eq_some_iff, List.getLast?_eq_some_iff,
    List.filter_eq_append_iff, List.filter_eq_cons_iff, List.filter_eq_nil_iff, given, not_and, ne_eq,
    not_not]
  constructor
  · rintro ⟨⟨key, v⟩, ⟨_, before, _, rfl, -, between, after, rfl, -, ⟨named, filled⟩, empty⟩, rfl⟩
    exact ⟨before ++ between, key, after, (List.append_assoc _ _ _).symm, named, filled, empty⟩
  · rintro ⟨before, key, after, rfl, named, filled, empty⟩
    exact ⟨(key, v), ⟨_, before, _, rfl, rfl, [], after, rfl, nofun, ⟨named, filled⟩, empty⟩, rfl⟩

/-! ## Entries one after the other -/

theorem setKey_of_named (named : f.Named key) :
    setKey p (key, v) = .ok (if v.isEmptyText then p else p.set f v) := by
  rw [setKey, Field.ofKey?_eq_some_iff.2 named]

theorem setKey_of_unnamed (unnamed : ∀ f : Field, ¬ f.Named key) :
    setKey p (key, v) = .error (.unknownProperty key) := by
  rw [setKey, Field.ofKey?_eq_none_iff.2 unnamed]

theorem setKey_ofValues (named : f.Named key) :
    setKey (ofValues (lastValue? entries)) (key, v) =
      .ok (ofValues (lastValue? (entries ++ [(key, v)]))) := by
  rw [setKey_of_named named]
  split_ifs with empty
  · rw [lastValue?_concat_empty empty]
  · rw [lastValue?_concat_value named empty, set_ofValues]

theorem ofMapping_append (before after : List (String × HostValue)) :
    ofMapping (before ++ after) = ofMapping before >>= fun p => after.foldlM setKey p :=
  List.foldlM_append

theorem ofMapping_of_named (h : ∀ entry ∈ entries, ∃ f : Field, f.Named entry.1) :
    ofMapping entries = .ok (ofValues (lastValue? entries)) := by
  induction entries using List.reverseRecOn with
  | nil => rfl
  | append_singleton entries entry ih =>
    obtain ⟨f, named⟩ := h entry (by simp)
    have front := ih fun entry he => h entry (List.mem_append_left _ he)
    rw [ofMapping_append, front]
    simp only [bind, Except.bind, List.foldlM_cons, List.foldlM_nil, pure, Except.pure]
    rw [setKey_ofValues named]

theorem ofMapping_of_unnamed (h : ∀ entry ∈ before, ∃ f : Field, f.Named entry.1)
    (unnamed : ∀ f : Field, ¬ f.Named key) :
    ofMapping (before ++ (key, v) :: after) = .error (.unknownProperty key) := by
  rw [ofMapping_append, ofMapping_of_named h]
  simp only [bind, Except.bind, List.foldlM_cons]
  rw [setKey_of_unnamed unnamed]

/-- The first key that names no field, if there is one. -/
theorem named_or_exists_first (entries : List (String × HostValue)) :
    (∀ entry ∈ entries, ∃ f : Field, f.Named entry.1) ∨
      ∃ before key v after, entries = before ++ (key, v) :: after ∧
        (∀ entry ∈ before, ∃ f : Field, f.Named entry.1) ∧ ∀ f : Field, ¬ f.Named key := by
  induction entries with
  | nil => exact .inl nofun
  | cons entry entries ih =>
    by_cases named : ∃ f : Field, f.Named entry.1
    · rcases ih with all | ⟨before, key, v, after, rfl, front, unnamed⟩
      · exact .inl (List.forall_mem_cons.2 ⟨named, all⟩)
      · exact .inr ⟨entry :: before, key, v, after, rfl, List.forall_mem_cons.2 ⟨named, front⟩, unnamed⟩
    · exact .inr ⟨[], entry.1, entry.2, entries, rfl, nofun, not_exists.1 named⟩

theorem ofMapping_eq_ok_iff : ofMapping entries = .ok p ↔
    (∀ entry ∈ entries, ∃ f : Field, f.Named entry.1) ∧ p = ofValues (lastValue? entries) := by
  constructor
  · intro made
    rcases named_or_exists_first entries with named | ⟨before, key, v, after, rfl, front, unnamed⟩
    · rw [ofMapping_of_named named] at made
      exact ⟨named, (Except.ok.inj made).symm⟩
    · rw [ofMapping_of_unnamed front unnamed] at made
      cases made
  · rintro ⟨named, rfl⟩
    exact ofMapping_of_named named

theorem ofMapping_eq_error_iff {e : Failure} : ofMapping entries = .error e ↔
    ∃ before key v after, entries = before ++ (key, v) :: after ∧
      (∀ entry ∈ before, ∃ f : Field, f.Named entry.1) ∧ (∀ f : Field, ¬ f.Named key) ∧
        e = .unknownProperty key := by
  constructor
  · intro failed
    rcases named_or_exists_first entries with named | ⟨before, key, v, after, rfl, front, unnamed⟩
    · rw [ofMapping_of_named named] at failed
      cases failed
    · rw [ofMapping_of_unnamed front unnamed] at failed
      exact ⟨before, key, v, after, rfl, front, unnamed, (Except.error.inj failed).symm⟩
  · rintro ⟨before, key, v, after, rfl, front, unnamed, rfl⟩
    exact ofMapping_of_unnamed front unnamed

theorem exists_ofMapping_error_iff :
    (∃ e, ofMapping entries = .error e) ↔ ∃ entry ∈ entries, ∀ f : Field, ¬ f.Named entry.1 := by
  rcases named_or_exists_first entries with named | ⟨before, key, v, after, rfl, front, unnamed⟩
  · rw [ofMapping_of_named named]
    refine iff_of_false nofun ?_
    rintro ⟨entry, he, unnamed⟩
    obtain ⟨f, hf⟩ := named entry he
    exact unnamed f hf
  · exact iff_of_true ⟨_, ofMapping_of_unnamed front unnamed⟩ ⟨(key, v), by simp, unnamed⟩

/-! ## Either name, and empty texts -/

theorem ofMapping_rename (named : f.Named key) {key' : String} (named' : f.Named key')
    (before after : List (String × HostValue)) (v : HostValue) :
    ofMapping (before ++ (key', v) :: after) = ofMapping (before ++ (key, v) :: after) := by
  simp only [ofMapping_append, List.foldlM_cons, setKey_of_named named, setKey_of_named named']

theorem ofMapping_insert_empty (named : f.Named key) (before after : List (String × HostValue)) :
    ofMapping (before ++ (key, .text "") :: after) = ofMapping (before ++ after) := by
  have empty : (HostValue.text "").isEmptyText = true := rfl
  simp only [ofMapping_append, List.foldlM_cons, setKey_of_named named, empty, if_true]
  rfl

/-- A mapping gives each field the last value under one of its names that is not the empty text, and
leaves the default where there is none; the first key that names no field is an error, empty or not.
So it makes no difference which of the two names stands for a field, nor whether empty texts stand
under names. -/
theorem ofMapping_takes_last (entries : List (String × HostValue)) :
    ((∃ e, ofMapping entries = .error e) ↔ ∃ entry ∈ entries, ∀ f : Field, ¬ f.Named entry.1) ∧
      (∀ e, ofMapping entries = .error e ↔ ∃ before key v after,
        entries = before ++ (key, v) :: after ∧ (∀ entry ∈ before, ∃ f : Field, f.Named entry.1) ∧
          (∀ f : Field, ¬ f.Named key) ∧ e = .unknownProperty key) ∧
      (∀ key, (Failure.unknownProperty key).kind = .outside .unknownKey ∧
        (Failure.unknownProperty key).message? = some s!"Unknown property: {key}") ∧
      (∀ p, ofMapping entries = .ok p ↔
        (∀ entry ∈ entries, ∃ f : Field, f.Named entry.1) ∧ p = ofValues (lastValue? entries)) ∧
      (∀ f v, lastValue? entries f = some v ↔ ∃ before key after,
        entries = before ++ (key, v) :: after ∧ f.Named key ∧ v ≠ .text "" ∧
          ∀ entry ∈ after, f.Named entry.1 → entry.2 = .text "") ∧
      (∀ before key v after (f : Field) key', entries = before ++ (key, v) :: after →
        f.Named key → f.Named key' →
          ofMapping (before ++ (key', v) :: after) = ofMapping entries) ∧
      ∀ before after (f : Field) key, entries = before ++ after → f.Named key →
        ofMapping (before ++ (key, .text "") :: after) = ofMapping entries := by
  refine ⟨exists_ofMapping_error_iff, fun _ => ofMapping_eq_error_iff, fun _ => ⟨rfl, rfl⟩,
    fun _ => ofMapping_eq_ok_iff, fun _ _ => lastValue?_eq_some_iff, ?_, ?_⟩
  · rintro before key v after f key' rfl named named'
    exact ofMapping_rename named named' before after v
  · rintro before after f key rfl named
    exact ofMapping_insert_empty named before after

/-- Two passwords under two names, and a mode that an empty text does not take back. -/
theorem ofMapping_takes_last_decrypt :
    ofMapping [("Mode", .text "Decrypt"), ("mode", .text ""), ("password", .text "a"),
        ("Password", .text "b")] =
      .ok { mode := .given (.text "Decrypt"), password := .text "b" } ∧
    ofMapping [("Mode", .text "Decrypt"), ("mode", .text ""), ("password", .text "a"),
        ("password", .text "b")] =
      .ok { mode := .given (.text "Decrypt"), password := .text "b" } := by
  obtain ⟨-, -, -, made, -, renamed, -⟩ := ofMapping_takes_last
    [("Mode", .text "Decrypt"), ("mode", .text ""), ("password", .text "a"), ("Password", .text "b")]
  have named : ∀ entry ∈ [("Mode", HostValue.text "Decrypt"), ("mode", .text ""),
      ("password", .text "a"), ("Password", .text "b")], ∃ f : Field, f.Named entry.1 := by
    simp only [List.forall_mem_cons, List.not_mem_nil, false_implies, implies_true, and_true]
    exact ⟨⟨.mode, .inr rfl⟩, ⟨.mode, .inl rfl⟩, ⟨.password, .inl rfl⟩, ⟨.password, .inr rfl⟩⟩
  have whole := (made _).2 ⟨named, rfl⟩
  have again := renamed [("Mode", .text "Decrypt"), ("mode", .text ""), ("password", .text "a")]
    "Password" (.text "b") [] .password "password" rfl (.inr rfl) (.inl rfl)
  exact ⟨whole, again.trans whole⟩

end Properties

end Cryptogram
