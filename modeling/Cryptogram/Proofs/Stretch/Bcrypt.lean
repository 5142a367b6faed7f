import Mathlib.Data.List.Basic
import Mathlib.Tactic.Ring
import Cryptogram.Proofs.Octets
import Cryptogram.Stretch.Bcrypt

/-!
# The notation of bcrypt

Salts and hashes are written in groups of four digits for three octets, without padding.  Digits that
were written are read back (`decode?_encode`), and those of sixteen octets end in a digit of which four
bits are spare and zero (`exists_last_digit`).  Any 22 digits denote sixteen octets (`exists_hash`).
-/

namespace Cryptogram.Bcrypt

/-! ## Digits -/

set_option maxRecDepth 1000 in
theorem digit_fin : ∀ n : Fin 64,
    value? (encode.digit n) = some n.val ∧ encode.digit n ∈ alphabet := by
  decide

theorem value?_digit {n : Nat} (h : n < 64) : value? (encode.digit n) = some n := (digit_fin ⟨n, h⟩).1

theorem digit_mem {n : Nat} (h : n < 64) : encode.digit n ∈ alphabet := (digit_fin ⟨n, h⟩).2

theorem exists_value {c : Char} (h : c ∈ alphabet) : ∃ n, value? c = some n := by
  cases found : value? c with
  | some n => exact ⟨n, rfl⟩
  | none =>
    have absent := List.findIdx?_eq_none_iff.1 found c h
    exact absurd rfl (of_decide_eq_false absent)

/-! ## Written and read back -/

theorem length_encode (octets : Bytes) : (encode octets).length = (4 * octets.length + 2) / 3 := by
  fun_induction encode octets with
  | case1 a b c rest n ih =>
    simp only [List.length_cons, ih]
    omega
  | case2 a b n => simp
  | case3 a => simp
  | case4 => rfl

theorem mem_alphabet_of_mem_encode {octets : Bytes} {c : Char} (h : c ∈ encode octets) :
    c ∈ alphabet := by
  fun_induction encode octets with
  | case1 x y z rest n ih =>
    have hx := x.toNat_lt
    have hy := y.toNat_lt
    have hz := z.toNat_lt
    simp only [List.mem_cons] at h
    rcases h with rfl | rfl | rfl | rfl | h
    · exact digit_mem (by omega)
    · exact digit_mem (by omega)
    · exact digit_mem (by omega)
    · exact digit_mem (by omega)
    · exact ih h
  | case2 x y n =>
    have hx := x.toNat_lt
    have hy := y.toNat_lt
    simp only [List.mem_cons, List.not_mem_nil, or_false] at h
    rcases h with rfl | rfl | rfl <;> exact digit_mem (by omega)
  | case3 x =>
    have hx := x.toNat_lt
    simp only [List.mem_cons, List.not_mem_nil, or_false] at h
    rcases h with rfl | rfl <;> exact digit_mem (by omega)
  | case4 => cases h

/-- The octets of a group. -/
theorem ofNat_group (a b c : UInt8) :
    Bytes.ofNat 3 (a.toNat * 65536 + b.toNat * 256 + c.toNat) = [a, b, c] := by
  have number : Bytes.toNat [a, b, c] = a.toNat * 65536 + b.toNat * 256 + c.toNat := by
    simp only [Bytes.toNat, List.foldl_cons, List.foldl_nil]
    ring
  rw [← number]
  exact Bytes.ofNat_toNat [a, b, c]

theorem decode?_encode (octets : Bytes) : decode? (encode octets) = some octets := by
  fun_induction encode octets with
  | case1 a b c rest n ih =>
    have ha := a.toNat_lt
    have hb := b.toNat_lt
    have hc := c.toNat_lt
    have whole : n / 262144 * 262144 + n / 4096 % 64 * 4096 + n / 64 % 64 * 64 + n % 64 = n := by
      omega
    rw [decode?, value?_digit (by omega), value?_digit (by omega), value?_digit (by omega),
      value?_digit (by omega), ih]
    simp only [bind, Option.bind, pure]
    rw [whole, ofNat_group]
    rfl
  | case2 a b n =>
    have ha := a.toNat_lt
    have hb := b.toNat_lt
    have zero : (0 : UInt8).toNat = 0 := rfl
    have whole : n / 262144 * 262144 + n / 4096 % 64 * 4096 + n / 64 % 64 * 64 =
        a.toNat * 65536 + b.toNat * 256 + (0 : UInt8).toNat := by omega
    rw [decode?, value?_digit (by omega), value?_digit (by omega), value?_digit (by omega)]
    simp only [bind, Option.bind, pure]
    rw [whole, ofNat_group]
    rfl
  | case3 a =>
    have ha := a.toNat_lt
    have zero : (0 : UInt8).toNat = 0 := rfl
    have whole : a.toNat / 4 * 262144 + a.toNat % 4 * 16 * 4096 =
        a.toNat * 65536 + (0 : UInt8).toNat * 256 + (0 : UInt8).toNat := by omega
    rw [decode?, value?_digit (by omega), value?_digit (by omega)]
    simp only [bind, Option.bind, pure]
    rw [whole, ofNat_group]
    rfl
  | case4 => rfl

/-- An octet that stands alone in the last group takes two digits, of which four bits are spare. -/
theorem exists_last_digit {octets : Bytes} (h : octets.length % 3 = 1) :
    ∃ front value, encode octets = front ++ [encode.digit value] ∧ value < 64 ∧ value % 16 = 0 := by
  fun_induction encode octets with
  | case1 a b c rest n ih =>
    have shorter : rest.length % 3 = 1 := by
      simp only [List.length_cons] at h
      omega
    obtain ⟨front, value, written, small, spare⟩ := ih shorter
    rw [written]
    exact ⟨_ :: _ :: _ :: _ :: front, value, rfl, small, spare⟩
  | case2 a b n => cases h
  | case3 a => exact ⟨[_], a.toNat % 4 * 16, rfl, by omega, by omega⟩
  | case4 => cases h

/-! ## Any digits -/

/-- Groups of four digits and two digits more denote groups of three octets and one octet more. -/
theorem exists_decode {k : Nat} {digits : List Char} (length : digits.length = 4 * k + 2)
    (digit : ∀ c ∈ digits, c ∈ alphabet) :
    ∃ octets, decode? digits = some octets ∧ octets.length = 3 * k + 1 := by
  induction k generalizing digits with
  | zero =>
    obtain ⟨a, b, rfl⟩ := List.length_eq_two.1 length
    obtain ⟨x, hx⟩ := exists_value (digit a (by simp))
    obtain ⟨y, hy⟩ := exists_value (digit b (by simp))
    have decoded : decode? [a, b] = some ((Bytes.ofNat 3 (x * 262144 + y * 4096)).take 1) := by
      simp only [decode?, hx, hy, bind, Option.bind, pure]
    exact ⟨_, decoded, by simp⟩
  | succ k ih =>
    match digits, length, digit with
    | a :: b :: c :: d :: rest, length, digit =>
      obtain ⟨w, hw⟩ := exists_value (digit a (by simp))
      obtain ⟨x, hx⟩ := exists_value (digit b (by simp))
      obtain ⟨y, hy⟩ := exists_value (digit c (by simp))
      obtain ⟨z, hz⟩ := exists_value (digit d (by simp))
      have shorter : rest.length = 4 * k + 2 := by
        simp only [List.length_cons] at length
        omega
      obtain ⟨octets, found, count⟩ := ih shorter fun c hc => digit c (by simp [hc])
      have decoded : decode? (a :: b :: c :: d :: rest) =
          some (Bytes.ofNat 3 (w * 262144 + x * 4096 + y * 64 + z) ++ octets) := by
        simp only [decode?, hw, hx, hy, hz, found, bind, Option.bind, pure]
      refine ⟨_, decoded, ?_⟩
      rw [List.length_append, Bytes.length_ofNat, count]
      ring

theorem exists_hash (cost : Nat) {digits : List Char} (length : digits.length = 22)
    (digit : ∀ c ∈ digits, c ∈ alphabet) (password : Bytes) :
    ∃ hash, hash? cost digits password = some hash := by
  obtain ⟨salt, decoded, size⟩ := exists_decode (k := 5) length digit
  unfold hash?
  rw [decoded]
  exact ⟨_, if_pos size⟩

end Cryptogram.Bcrypt
