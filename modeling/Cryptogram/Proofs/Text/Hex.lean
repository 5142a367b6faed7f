import Mathlib.Data.List.Forall2
import Mathlib.Tactic.Ring
import Cryptogram.Proofs.Octets
import Cryptogram.Proofs.Text.Blank
import Cryptogram.Text.Hex

/-!
# Hexadecimal texts

An even number of digits denotes octets, and nothing else does (`exists_ofHex_iff`).  They are the
octets that the digits spell, in whichever case each of them is written (`ofHex_eq_ok_iff`).
-/

namespace Cryptogram.Text

/-- Whether a character is a digit of either case. -/
def IsHexDigit (c : Char) : Prop := (hexValue? c).isSome = true

theorem toNat_lt_of_isHexDigit {c : Char} (h : IsHexDigit c) : c.toNat < 128 := by
  unfold IsHexDigit hexValue? at h
  split_ifs at h with decimal lower upper
  · exact lt_of_le_of_lt decimal.2 (by decide)
  · exact lt_of_le_of_lt lower.2 (by decide)
  · exact lt_of_le_of_lt upper.2 (by decide)
  · cases h

theorem length_hexPairs {digits : List Char} {octets : Bytes} (h : hexPairs? digits = some octets) :
    digits.length = 2 * octets.length ∧ ∀ c ∈ digits, IsHexDigit c := by
  induction digits using hexPairs?.induct generalizing octets with
  | case1 =>
    cases h
    exact ⟨rfl, nofun⟩
  | case2 a b rest ih =>
    rw [hexPairs?] at h
    simp only [bind, Option.bind_eq_some_iff] at h
    obtain ⟨x, hx, y, hy, behind, hrest, h⟩ := h
    cases h
    obtain ⟨length, digit⟩ := ih hrest
    refine ⟨by simp only [List.length_cons, length]; ring, ?_⟩
    simp only [List.mem_cons, forall_eq_or_imp]
    exact ⟨Option.isSome_of_eq_some hx, Option.isSome_of_eq_some hy, digit⟩
  | case3 c =>
    rw [hexPairs?] at h
    cases h

theorem exists_hexPairs {digits : List Char} (digit : ∀ c ∈ digits, IsHexDigit c)
    (even : digits.length % 2 = 0) : ∃ octets, hexPairs? digits = some octets := by
  induction digits using hexPairs?.induct with
  | case1 => exact ⟨[], rfl⟩
  | case2 a b rest ih =>
    simp only [List.mem_cons, forall_eq_or_imp] at digit
    obtain ⟨ha, hb, behind⟩ := digit
    obtain ⟨x, hx⟩ := Option.isSome_iff_exists.1 ha
    obtain ⟨y, hy⟩ := Option.isSome_iff_exists.1 hb
    have shorter : rest.length % 2 = 0 := by
      simp only [List.length_cons] at even
      omega
    obtain ⟨octets, hrest⟩ := ih behind shorter
    exact ⟨_, by rw [hexPairs?, hx, hy, hrest]; rfl⟩
  | case3 c => cases even

theorem ofHex_eq_ok_iff_hexPairs {text : List Char} {octets : Bytes} :
    ofHex text = .ok octets ↔ hexPairs? text = some octets := by
  unfold ofHex
  constructor
  · intro h
    split_ifs at h
    cases found : hexPairs? text with
    | none =>
      rw [found] at h
      cases h
    | some denoted =>
      rw [found] at h
      cases h
      rfl
  · intro found
    obtain ⟨length, digit⟩ := length_hexPairs found
    have ascii : ¬ (text.any fun c => decide (c.toNat ≥ 128)) = true := by
      simp only [List.any_eq_true, decide_eq_true_eq, not_exists, not_and, not_le]
      exact fun c hc => toNat_lt_of_isHexDigit (digit c hc)
    rw [if_neg ascii, if_neg (by omega), found]

/-- So many octets are what twice as many digits denote. -/
theorem exists_ofHex_iff {text : List Char} {count : Nat} :
    (∃ octets, ofHex text = .ok octets ∧ octets.length = count) ↔
      (∀ c ∈ text, IsHexDigit c) ∧ text.length = 2 * count := by
  simp only [ofHex_eq_ok_iff_hexPairs]
  constructor
  · rintro ⟨octets, found, rfl⟩
    exact (length_hexPairs found).symm
  · rintro ⟨digit, length⟩
    obtain ⟨octets, found⟩ := exists_hexPairs digit (by omega)
    exact ⟨octets, found, by have := (length_hexPairs found).1; omega⟩

/-! ## Spelling -/

/-- A digit of either case for a number. -/
def DigitFor (n : Nat) (c : Char) : Prop :=
  n < 16 ∧ (c = Nat.digitChar n ∨ c = (Nat.digitChar n).toUpper)

instance (n : Nat) (c : Char) : Decidable (DigitFor n c) := inferInstanceAs (Decidable (_ ∧ _))

theorem hexValue?_digit : ∀ n : Fin 16, hexValue? (Nat.digitChar n) = some n.val ∧
    hexValue? (Nat.digitChar n).toUpper = some n.val ∧ isBlank (Nat.digitChar n) = false ∧
    isBlank (Nat.digitChar n).toUpper = false := by
  decide

theorem digitFor_fin : ∀ k : Fin 128, ∀ n ∈ hexValue? (Char.ofNat k), DigitFor n (Char.ofNat k) := by
  decide

theorem hexValue?_eq_some_iff {c : Char} {n : Nat} : hexValue? c = some n ↔ DigitFor n c := by
  constructor
  · intro h
    have small : c.toNat < 128 := toNat_lt_of_isHexDigit (Option.isSome_of_eq_some h)
    have ascii := digitFor_fin ⟨c.toNat, small⟩ n
    rw [Char.ofNat_toNat] at ascii
    exact ascii h
  · rintro ⟨small, rfl | rfl⟩
    · exact (hexValue?_digit ⟨n, small⟩).1
    · exact (hexValue?_digit ⟨n, small⟩).2.1

theorem DigitFor.not_blank {c : Char} {n : Nat} (h : DigitFor n c) : isBlank c = false := by
  obtain ⟨small, rfl | rfl⟩ := h
  · exact (hexValue?_digit ⟨n, small⟩).2.2.1
  · exact (hexValue?_digit ⟨n, small⟩).2.2.2

/-- Digits of either case that spell octets, two for each. -/
inductive Spells : List Char → Bytes → Prop
  | nil : Spells [] []
  | cons {high low : Char} {o : UInt8} {digits : List Char} {octets : Bytes}
      (first : DigitFor (o.toNat / 16) high) (second : DigitFor (o.toNat % 16) low)
      (rest : Spells digits octets) : Spells (high :: low :: digits) (o :: octets)

theorem Spells.not_blank {digits : List Char} {octets : Bytes} (h : Spells digits octets) :
    ∀ c ∈ digits, isBlank c = false := by
  induction h with
  | nil => exact nofun
  | cons first second _ ih => exact List.forall_mem_cons.2 ⟨first.not_blank,
      List.forall_mem_cons.2 ⟨second.not_blank, ih⟩⟩

theorem hexPairs?_eq_some_iff {digits : List Char} {octets : Bytes} :
    hexPairs? digits = some octets ↔ Spells digits octets := by
  constructor
  · intro h
    induction digits using hexPairs?.induct generalizing octets with
    | case1 =>
      cases h
      exact .nil
    | case2 a b rest ih =>
      rw [hexPairs?] at h
      simp only [bind, Option.bind_eq_some_iff, hexValue?_eq_some_iff] at h
      obtain ⟨x, first, y, second, behind, hrest, h⟩ := h
      cases h
      have hx := first.1
      have hy := second.1
      have value : ((x * 16 + y).toUInt8).toNat = x * 16 + y :=
        Bytes.toNat_toUInt8_of_lt (by omega)
      refine .cons ?_ ?_ (ih hrest)
      · rwa [value, show (x * 16 + y) / 16 = x by omega]
      · rwa [value, show (x * 16 + y) % 16 = y by omega]
    | case3 c =>
      rw [hexPairs?] at h
      cases h
  · intro h
    induction h with
    | nil => rfl
    | @cons high low o digits octets first second _ ih =>
      rw [hexPairs?, hexValue?_eq_some_iff.2 first, hexValue?_eq_some_iff.2 second, ih]
      have whole : o.toNat / 16 * 16 + o.toNat % 16 = o.toNat := by omega
      simp only [bind, Option.bind, whole, pure]
      rw [Bytes.toUInt8_toNat]

theorem exists_spells_iff {digits : List Char} :
    (∃ octets, Spells digits octets) ↔ digits.length % 2 = 0 ∧ ∀ c ∈ digits, ∃ n, DigitFor n c := by
  have same (c : Char) : (∃ n, DigitFor n c) ↔ IsHexDigit c := by
    simp only [← hexValue?_eq_some_iff, IsHexDigit, Option.isSome_iff_exists]
  simp only [same, ← hexPairs?_eq_some_iff]
  constructor
  · rintro ⟨octets, h⟩
    obtain ⟨length, digit⟩ := length_hexPairs h
    exact ⟨by omega, digit⟩
  · rintro ⟨even, digit⟩
    exact exists_hexPairs digit even

theorem ofHex_eq_ok_iff {text : List Char} {octets : Bytes} :
    ofHex text = .ok octets ↔ Spells text octets :=
  ofHex_eq_ok_iff_hexPairs.trans hexPairs?_eq_some_iff

/-- What is spelled without the white space around a text is spelled somewhere within it. -/
theorem spells_strip_iff {text : List Char} {octets : Bytes} :
    Spells (strip text) octets ↔ ∃ digits, Around isBlank text digits ∧ Spells digits octets := by
  constructor
  · exact fun spells => ⟨strip text, around_stripBy isBlank text, spells⟩
  · rintro ⟨digits, around, spells⟩
    rwa [strip, stripBy_of_around around spells.not_blank]

/-- The digits that are written for octets spell them, in whichever case. -/
theorem spells_hex {octets : Bytes} {cased : List Char}
    (h : List.Forall₂ (fun c d => c = d ∨ c = d.toUpper) cased (hex octets).toList) :
    Spells cased octets := by
  rw [hex, String.toList_ofList] at h
  induction octets generalizing cased with
  | nil =>
    cases h
    exact .nil
  | cons o octets ih =>
    obtain _ | ⟨first, _ | ⟨second, rest⟩⟩ := h
    have := o.toNat_lt
    exact .cons ⟨by omega, first⟩ ⟨by omega, second⟩ (ih rest)

end Cryptogram.Text
