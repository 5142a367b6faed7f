import Mathlib.Tactic.Ring
import Cryptogram.Proofs.Octets
import Cryptogram.Text.Base64

/-!
# Base 64 there and back

The text of a string consists of digits and at most two equals signs behind them
(`exists_form`), and decoding gives the string back (`decode?_encode`).
-/

namespace Cryptogram.Base64

/-! ## Digits -/

theorem digit_fin : ∀ n : Fin 64, value? (digit n) = some n.val ∧ digit n ≠ '=' ∧ (digit n).toNat < 128 := by
  decide

theorem value?_digit {n : Nat} (h : n < 64) : value? (digit n) = some n := (digit_fin ⟨n, h⟩).1

theorem digit_ne_equals {n : Nat} (h : n < 64) : digit n ≠ '=' := (digit_fin ⟨n, h⟩).2.1

theorem toNat_digit_lt {n : Nat} (h : n < 64) : (digit n).toNat < 128 := (digit_fin ⟨n, h⟩).2.2

/-- A character that is a digit. -/
def IsDigit (c : Char) : Prop := ∃ n, n < 64 ∧ c = digit n

/-! ## Groups -/

variable (bits equals : Nat) (done : Bytes) (rest : List Char) {n : Nat}

theorem decodeFrom_first (h : n < 64) :
    decodeFrom 0 bits equals done (digit n :: rest) = decodeFrom 1 n 0 done rest := by
  simp only [decodeFrom, if_neg (digit_ne_equals h), value?_digit h, if_true]

theorem decodeFrom_second (h : n < 64) : decodeFrom 1 bits equals done (digit n :: rest) =
    decodeFrom 2 (n % 16) 0 ((bits * 4 + n / 16).toUInt8 :: done) rest := by
  simp only [decodeFrom, if_neg (digit_ne_equals h), value?_digit h, if_true,
    if_neg Nat.one_ne_zero]

theorem decodeFrom_third (h : n < 64) : decodeFrom 2 bits equals done (digit n :: rest) =
    decodeFrom 3 (n % 4) 0 ((bits * 16 + n / 4).toUInt8 :: done) rest := by
  have zero : ¬ (2 : Nat) = 0 := by decide
  have one : ¬ (2 : Nat) = 1 := by decide
  simp only [decodeFrom, if_neg (digit_ne_equals h), value?_digit h, if_true, if_neg zero, if_neg one]

theorem decodeFrom_fourth (h : n < 64) : decodeFrom 3 bits equals done (digit n :: rest) =
    decodeFrom 0 0 0 ((bits * 64 + n).toUInt8 :: done) rest := by
  have zero : ¬ (3 : Nat) = 0 := by decide
  have one : ¬ (3 : Nat) = 1 := by decide
  have two : ¬ (3 : Nat) = 2 := by decide
  simp only [decodeFrom, if_neg (digit_ne_equals h), value?_digit h, if_neg zero, if_neg one, if_neg two]

theorem eq_octet {n : Nat} {b : UInt8} (h : n = b.toNat) : n.toUInt8 = b := by
  rw [h, Bytes.toUInt8_toNat]

/-- A full group is decoded before what follows it. -/
theorem decodeFrom_group (a b c : UInt8) :
    decodeFrom 0 bits equals done (group [a, b, c] ++ rest) =
      decodeFrom 0 0 0 (c :: b :: a :: done) rest := by
  have ha := a.toNat_lt
  have hb := b.toNat_lt
  have hc := c.toNat_lt
  simp only [group, List.cons_append, List.nil_append]
  set n := a.toNat * 65536 + b.toNat * 256 + c.toNat with hn
  have first : (n / 262144 * 4 + n / 4096 % 64 / 16).toUInt8 = a := eq_octet (by omega)
  have second : (n / 4096 % 64 % 16 * 16 + n / 64 % 64 / 4).toUInt8 = b := eq_octet (by omega)
  have third : (n / 64 % 64 % 4 * 64 + n % 64).toUInt8 = c := eq_octet (by omega)
  rw [decodeFrom_first _ _ _ _ (by omega), decodeFrom_second _ _ _ _ (by omega),
    decodeFrom_third _ _ _ _ (by omega), decodeFrom_fourth _ _ _ _ (by omega), first, second, third]

theorem decodeFrom_two (a b : UInt8) :
    decodeFrom 0 bits equals done (group [a, b]) = some (b :: a :: done).reverse := by
  have ha := a.toNat_lt
  have hb := b.toNat_lt
  simp only [group]
  set n := a.toNat * 65536 + b.toNat * 256 with hn
  have first : (n / 262144 * 4 + n / 4096 % 64 / 16).toUInt8 = a := eq_octet (by omega)
  have second : (n / 4096 % 64 % 16 * 16 + n / 64 % 64 / 4).toUInt8 = b := eq_octet (by omega)
  rw [decodeFrom_first _ _ _ _ (by omega), decodeFrom_second _ _ _ _ (by omega),
    decodeFrom_third _ _ _ _ (by omega), first, second]
  rfl

theorem decodeFrom_one (a : UInt8) :
    decodeFrom 0 bits equals done (group [a]) = some (a :: done).reverse := by
  have ha := a.toNat_lt
  simp only [group]
  set n := a.toNat * 65536 with hn
  have first : (n / 262144 * 4 + n / 4096 % 64 / 16).toUInt8 = a := eq_octet (by omega)
  rw [decodeFrom_first _ _ _ _ (by omega), decodeFrom_second _ _ _ _ (by omega), first]
  rfl

/-! ## Texts -/

theorem encode_nil : encode [] = [] := rfl

theorem encode_append {a : Bytes} (h : 3 ∣ a.length) (b : Bytes) :
    encode (a ++ b) = encode a ++ encode b := by
  have cut : (a ++ b).blocks 3 = a.blocks 3 ++ b.blocks 3 := Bytes.blocks_append h b
  rw [encode, cut, List.flatMap_append]
  rfl

theorem encode_of_length_le {octets : Bytes} (ne : octets ≠ []) (h : octets.length ≤ 3) :
    encode octets = group octets := by
  rw [encode, Bytes.blocks_of_length_le ne h, List.flatMap_singleton]

/-- A string of at most two octets, unless it has none. -/
theorem eq_one_or_two {octets : Bytes} (ne : octets ≠ []) (h : octets.length < 3) :
    (∃ a, octets = [a]) ∨ ∃ a b, octets = [a, b] := by
  match octets with
  | [a] => exact .inl ⟨a, rfl⟩
  | [a, b] => exact .inr ⟨a, b, rfl⟩

theorem eq_three {octets : Bytes} (h : octets.length = 3) : ∃ a b c, octets = [a, b, c] := by
  match octets with
  | [a, b, c] => exact ⟨a, b, c, rfl⟩

theorem decodeFrom_encode (octets : Bytes) :
    decodeFrom 0 0 0 done (encode octets) = some (done.reverse ++ octets) := by
  have three : 0 < 3 := by decide
  induction octets using Bytes.block_induction three generalizing done with
  | nil => simp [encode_nil, decodeFrom]
  | short octets ne hl =>
    rw [encode_of_length_le ne hl.le]
    rcases eq_one_or_two ne hl with ⟨a, rfl⟩ | ⟨a, b, rfl⟩
    · simp [decodeFrom_one]
    · simp [decodeFrom_two]
  | whole block rest hb ih =>
    obtain ⟨a, b, c, rfl⟩ := eq_three hb
    rw [encode_append ⟨1, hb⟩, encode_of_length_le (List.cons_ne_nil _ _) hb.le, decodeFrom_group, ih]
    simp

/-- Decoding gives a string back from its text. -/
theorem decode?_encode (octets : Bytes) : decode? (encode octets) = some octets :=
  decodeFrom_encode [] octets

/-! ## Lengths -/

/-- Every octet comes from a digit of its own. -/
theorem length_of_decodeFrom {count bits equals : Nat} {done octets : Bytes} {text : List Char}
    (h : decodeFrom count bits equals done text = some octets) :
    octets.length ≤ done.length + text.length := by
  induction text generalizing count bits equals done with
  | nil =>
    unfold decodeFrom at h
    split_ifs at h
    cases h
    rw [List.length_reverse]
    exact Nat.le_add_right _ _
  | cons c rest ih =>
    rw [List.length_cons]
    unfold decodeFrom at h
    by_cases sign : c = '='
    · rw [if_pos sign] at h
      split_ifs at h
      · cases h
        rw [List.length_reverse]
        exact Nat.le_add_right _ _
      all_goals exact (ih h).trans (by omega)
    · rw [if_neg sign] at h
      cases value : value? c with
      | none =>
        rw [value] at h
        exact (ih h).trans (by omega)
      | some v =>
        rw [value] at h
        dsimp only at h
        split_ifs at h
        · exact (ih h).trans (by omega)
        all_goals exact (ih h).trans (by rw [List.length_cons]; omega)

theorem length_of_decode? {octets : Bytes} {text : List Char} (h : decode? text = some octets) :
    octets.length ≤ text.length := by
  simpa using length_of_decodeFrom h

/-! ## The form of texts -/

theorem length_group {octets : Bytes} (ne : octets ≠ []) (h : octets.length ≤ 3) :
    (group octets).length = 4 := by
  match octets with
  | [a] => rfl
  | [a, b] => rfl
  | [a, b, c] => rfl

theorem length_encode (octets : Bytes) : (encode octets).length = (octets.length + 2) / 3 * 4 := by
  have three : 0 < 3 := by decide
  induction octets using Bytes.block_induction three with
  | nil => rfl
  | short octets ne hl =>
    have pos := List.length_pos_iff.2 ne
    rw [encode_of_length_le ne hl.le, length_group ne hl.le]
    omega
  | whole block rest hb ih =>
    have ne : block ≠ [] := List.ne_nil_of_length_eq_add_one hb
    rw [encode_append ⟨1, hb⟩, List.length_append, ih, encode_of_length_le ne hb.le,
      length_group ne hb.le, List.length_append, hb]
    omega

/-- The text of a string: digits, and then so many equals signs. -/
structure Form (octets : Bytes) (digits : List Char) (count : Nat) : Prop where
  text : encode octets = digits ++ List.replicate count '='
  digit : ∀ c ∈ digits, IsDigit c
  few : count ≤ 2
  nonempty : octets ≠ [] → digits ≠ []
  /-- Full groups have no equals signs. -/
  full : 3 ∣ octets.length → count = 0

theorem exists_form (octets : Bytes) : ∃ digits count, Form octets digits count := by
  have three : 0 < 3 := by decide
  have found {n : Nat} (h : n < 64) : IsDigit (digit n) := ⟨n, h, rfl⟩
  induction octets using Bytes.block_induction three with
  | nil => exact ⟨[], 0, rfl, nofun, by decide, fun h => absurd rfl h, fun _ => rfl⟩
  | short octets ne hl =>
    have partly : ¬ 3 ∣ octets.length := fun h =>
      absurd (Nat.le_of_dvd (List.length_pos_iff.2 ne) h) (by omega)
    have text := encode_of_length_le ne hl.le
    rcases eq_one_or_two ne hl with ⟨a, rfl⟩ | ⟨a, b, rfl⟩
    · have ha := a.toNat_lt
      refine ⟨[_, _], 2, text, ?_, le_rfl, fun _ => List.cons_ne_nil _ _, fun h => absurd h partly⟩
      simp only [List.mem_cons, List.not_mem_nil, or_false, forall_eq_or_imp, forall_eq]
      exact ⟨found (by omega), found (by omega)⟩
    · have ha := a.toNat_lt
      have hb := b.toNat_lt
      refine ⟨[_, _, _], 1, text, ?_, by decide, fun _ => List.cons_ne_nil _ _,
        fun h => absurd h partly⟩
      simp only [List.mem_cons, List.not_mem_nil, or_false, forall_eq_or_imp, forall_eq]
      exact ⟨found (by omega), found (by omega), found (by omega)⟩
  | whole block rest hb ih =>
    obtain ⟨digits, count, ih⟩ := ih
    obtain ⟨a, b, c, rfl⟩ := eq_three hb
    have ha := a.toNat_lt
    have hb' := b.toNat_lt
    have hc := c.toNat_lt
    have front : ∀ c' ∈ group [a, b, c], IsDigit c' := by
      simp only [group, List.mem_cons, List.not_mem_nil, or_false, forall_eq_or_imp, forall_eq]
      exact ⟨found (by omega), found (by omega), found (by omega), found (by omega)⟩
    refine ⟨group [a, b, c] ++ digits, count, ?_, ?_, ih.few, fun _ => List.cons_ne_nil _ _, fun h => ?_⟩
    · rw [encode_append ⟨1, hb⟩, encode_of_length_le (List.cons_ne_nil _ _) hb.le, ih.text,
        List.append_assoc]
    · intro c' hc'
      exact (List.mem_append.1 hc').elim (front c') (ih.digit c')
    · rw [List.length_append, hb, Nat.dvd_add_right (Nat.dvd_refl 3)] at h
      exact ih.full h

end Cryptogram.Base64
