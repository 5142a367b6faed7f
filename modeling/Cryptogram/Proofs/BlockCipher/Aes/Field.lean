import Mathlib.Data.List.Iterate
import Mathlib.Data.Nat.Bitwise
import Cryptogram.BlockCipher.Aes
import Cryptogram.Proofs.Octets

/-!
# The field of AES

Multiplication is additive on both sides (`mul_xor`, `xor_mul`), so identities between products need
to be checked on single bits only (`Additive.ext`).  Every octet other than zero is a power of three
(`eq_power_of_ne_zero`), which makes multiplication associative and inversion an involution
(`inverse_inverse`).
-/

namespace Cryptogram.Aes

/-! ## Additive functions -/

/-- Functions of octets that respect addition in the field. -/
def Additive (f : UInt8 → UInt8) : Prop := ∀ x y, f (x ^^^ y) = f x ^^^ f y

namespace Additive

variable {f g : UInt8 → UInt8}

theorem zero (hf : Additive f) : f 0 = 0 := by
  have twice := hf 0 0
  rwa [UInt8.xor_self, UInt8.xor_self] at twice

theorem comp (hf : Additive f) (hg : Additive g) : Additive fun x => f (g x) := by
  intro x y
  show f (g (x ^^^ y)) = f (g x) ^^^ f (g y)
  rw [hg, hf]

theorem id : Additive fun x => x := fun _ _ => rfl

end Additive

/-- The octets with a single bit. -/
def singles : List UInt8 := [1, 2, 4, 8, 16, 32, 64, 128]

theorem mem_singles {i : Nat} (h : i < 8) : UInt8.ofNat (2 ^ i) ∈ singles := by
  have all : ∀ i : Fin 8, UInt8.ofNat (2 ^ i.val) ∈ singles := by decide
  exact all ⟨i, h⟩

/-- An octet other than zero has a bit, without which it is smaller. -/
theorem exists_single {x : UInt8} (h : x ≠ 0) :
    ∃ bit ∈ singles, (x ^^^ bit).toNat < x.toNat := by
  have positive : x.toNat ≠ 0 := fun zero => h (UInt8.toNat_inj.1 zero)
  obtain ⟨i, hi⟩ := Nat.exists_testBit_of_ne_zero positive
  have small : i < 8 := by
    by_contra large
    have power : 2 ^ 8 ≤ 2 ^ i := Nat.pow_le_pow_right (by decide) (by omega)
    rw [Nat.testBit_lt_two_pow (Nat.lt_of_lt_of_le x.toNat_lt power)] at hi
    cases hi
  have single : (UInt8.ofNat (2 ^ i)).toNat = 2 ^ i :=
    UInt8.toNat_ofNat_of_lt' (Nat.pow_lt_pow_right (by decide) small)
  -- Any bit will do: without it the number is smaller, whatever the other bits are.
  refine ⟨_, mem_singles small, ?_⟩
  rw [UInt8.toNat_xor, single]
  refine Nat.lt_of_testBit i ?_ hi fun j hj => ?_
  · rw [Nat.testBit_xor, hi, Nat.testBit_two_pow_self, Bool.xor_self]
  · rw [Nat.testBit_xor, Nat.testBit_two_pow_of_ne (by omega), Bool.xor_false]

/-- Additive functions that agree on single bits are equal. -/
theorem Additive.ext {f g : UInt8 → UInt8} (hf : Additive f) (hg : Additive g)
    (h : ∀ bit ∈ singles, f bit = g bit) (x : UInt8) : f x = g x := by
  by_cases hx : x = 0
  · rw [hx, hf.zero, hg.zero]
  · obtain ⟨bit, single, smaller⟩ := exists_single hx
    have rest := Additive.ext hf hg h (x ^^^ bit)
    have sum : x = x ^^^ bit ^^^ bit := by rw [UInt8.xor_assoc, UInt8.xor_self, UInt8.xor_zero]
    rw [sum, hf, hg, rest, h bit single]
termination_by x.toNat

/-! ## Products -/

/-- An octet, or zero. -/
def select (b : Bool) (x : UInt8) : UInt8 := if b then x else 0

theorem select_xor (b : Bool) : Additive (select b) := by
  intro x y
  cases b
  · exact (UInt8.xor_self (a := 0)).symm
  · rfl

theorem xor_select (b c : Bool) (x : UInt8) : select (b ^^ c) x = select b x ^^^ select c x := by
  cases b <;> cases c <;> simp [select]

theorem testBit_seven (x : UInt8) : x.toNat.testBit 7 = true ↔ ¬x < 0x80 := by
  have small := x.toNat_lt
  rw [Nat.testBit_eq_decide_div_mod_eq, decide_eq_true_iff, UInt8.lt_iff_toNat_lt]
  show _ ↔ ¬x.toNat < 128
  omega

theorem double_eq (x : UInt8) : double x = x <<< 1 ^^^ select (x.toNat.testBit 7) 0x1b := by
  unfold double select
  by_cases h : x < 0x80
  · rw [if_pos h, if_neg fun high => (testBit_seven x).1 high h]
  · rw [if_neg h, if_pos ((testBit_seven x).2 h)]

theorem shiftLeft_xor (x y : UInt8) : (x ^^^ y) <<< 1 = x <<< 1 ^^^ y <<< 1 := by
  apply UInt8.eq_of_toBitVec_eq
  simp [BitVec.shiftLeft_xor_distrib]

theorem double_xor : Additive double := by
  intro x y
  rw [double_eq, double_eq x, double_eq y, shiftLeft_xor, UInt8.toNat_xor, Nat.testBit_xor,
    xor_select]
  ac_rfl

/-- One bit of a product: the sum so far and the multiple of the left factor. -/
def mulStep (y : UInt8) (s : UInt8 × UInt8) (i : Nat) : UInt8 × UInt8 :=
  (s.1 ^^^ select (y.toNat.testBit i) s.2, double s.2)

theorem mul_eq (x y : UInt8) : mul x y = ((List.range 8).foldl (mulStep y) (0, x)).1 := by
  have same : mulStep y = fun s i =>
      (if y.toNat.testBit i then s.1 ^^^ s.2 else s.1, double s.2) := by
    funext s i
    unfold mulStep select
    cases y.toNat.testBit i
    · exact congrArg (·, double s.2) UInt8.xor_zero
    · rfl
  rw [same]
  rfl

theorem foldl_mulStep_xor (y y' : UInt8) (is : List Nat) (a b x : UInt8) :
    (is.foldl (mulStep (y ^^^ y')) (a ^^^ b, x)).1 =
      (is.foldl (mulStep y) (a, x)).1 ^^^ (is.foldl (mulStep y') (b, x)).1 := by
  induction is generalizing a b x with
  | nil => rfl
  | cons i is ih =>
    have sum : a ^^^ b ^^^ select ((y ^^^ y').toNat.testBit i) x =
        (a ^^^ select (y.toNat.testBit i) x) ^^^ (b ^^^ select (y'.toNat.testBit i) x) := by
      rw [UInt8.toNat_xor, Nat.testBit_xor, xor_select]
      ac_rfl
    rw [List.foldl_cons, List.foldl_cons, List.foldl_cons]
    unfold mulStep at ih ⊢
    rw [sum, ih]

theorem foldl_mulStep_add (y : UInt8) (is : List Nat) (a b x x' : UInt8) :
    (is.foldl (mulStep y) (a ^^^ b, x ^^^ x')).1 =
      (is.foldl (mulStep y) (a, x)).1 ^^^ (is.foldl (mulStep y) (b, x')).1 := by
  induction is generalizing a b x x' with
  | nil => rfl
  | cons i is ih =>
    have sum : a ^^^ b ^^^ select (y.toNat.testBit i) (x ^^^ x') =
        (a ^^^ select (y.toNat.testBit i) x) ^^^ (b ^^^ select (y.toNat.testBit i) x') := by
      rw [select_xor]
      ac_rfl
    rw [List.foldl_cons, List.foldl_cons, List.foldl_cons]
    unfold mulStep at ih ⊢
    rw [sum, double_xor, ih]

theorem mul_xor (x y z : UInt8) : mul x (y ^^^ z) = mul x y ^^^ mul x z := by
  have sum := foldl_mulStep_xor y z (List.range 8) 0 0 x
  rwa [UInt8.xor_self, ← mul_eq, ← mul_eq, ← mul_eq] at sum

theorem xor_mul (x y z : UInt8) : mul (x ^^^ y) z = mul x z ^^^ mul y z := by
  have sum := foldl_mulStep_add z (List.range 8) 0 0 x y
  rwa [UInt8.xor_self, ← mul_eq, ← mul_eq, ← mul_eq] at sum

theorem additive_mul (x : UInt8) : Additive (mul x) := mul_xor x

theorem additive_mul_right (y : UInt8) : Additive fun x => mul x y := fun x x' => xor_mul x x' y

/-! ## Powers of three -/

/-- The powers of three, which generates the field. -/
def power (n : Nat) : UInt8 := (mul 3)^[n] 1

set_option maxRecDepth 2000 in
/-- Products of single bits. -/
theorem mul_singles : ∀ b ∈ singles, mul b 1 = b ∧
    ∀ c ∈ singles, mul c (mul 3 b) = mul 3 (mul c b) := by
  decide

theorem mul_one (x : UInt8) : mul x 1 = x :=
  Additive.ext (additive_mul_right 1) Additive.id (fun b hb => (mul_singles b hb).1) x

theorem mul_mul_three (x y : UInt8) : mul x (mul 3 y) = mul 3 (mul x y) := by
  refine Additive.ext ((additive_mul x).comp (additive_mul 3))
    ((additive_mul 3).comp (additive_mul x)) ?_ y
  intro b hb
  exact Additive.ext (additive_mul_right (mul 3 b)) ((additive_mul 3).comp (additive_mul_right b))
    (mul_singles b hb).2 x

theorem mul_power (x : UInt8) (n : Nat) : mul x (power n) = (mul 3)^[n] x := by
  induction n with
  | zero => exact mul_one x
  | succ n ih =>
    unfold power at ih ⊢
    rw [Function.iterate_succ_apply', Function.iterate_succ_apply', mul_mul_three, ih]

theorem power_mul_power (m n : Nat) : mul (power m) (power n) = power (m + n) := by
  rw [mul_power, Nat.add_comm]
  unfold power
  rw [Function.iterate_add_apply]

/-- A set of octets as the bits of a number. -/
def mask (xs : List UInt8) (m : Nat) : Nat := xs.foldl (fun m x => m ||| 1 <<< x.toNat) m

theorem mem_of_testBit_mask {xs : List UInt8} {m : Nat} {x : UInt8}
    (h : (mask xs m).testBit x.toNat = true) : m.testBit x.toNat = true ∨ x ∈ xs := by
  induction xs generalizing m with
  | nil => exact Or.inl h
  | cons y xs ih =>
    rcases ih h with hm | hx
    · rw [Nat.testBit_or, Bool.or_eq_true, Nat.one_shiftLeft, Nat.testBit_two_pow] at hm
      rcases hm with hm | hy
      · exact Or.inl hm
      · right
        rw [UInt8.toNat_inj.1 (of_decide_eq_true hy)]
        exact List.mem_cons_self
    · exact Or.inr (List.mem_cons_of_mem y hx)

/-- The powers of three come back to one after they have been all octets but zero. -/
theorem power_cycle :
    power 255 = 1 ∧ mask (List.iterate (mul 3) 1 255) 0 = 2 * (2 ^ 255 - 1) := by
  decide +kernel

theorem power_add_cycles (n k : Nat) : power (n + 255 * k) = power n := by
  induction k with
  | zero => rfl
  | succ k ih =>
    rw [Nat.mul_succ, ← Nat.add_assoc, ← power_mul_power, power_cycle.1, mul_one, ih]

theorem eq_power_of_ne_zero {x : UInt8} (h : x ≠ 0) : ∃ n, x = power n := by
  have small := x.toNat_lt
  have positive : x.toNat ≠ 0 := fun zero => h (UInt8.toNat_inj.1 zero)
  obtain ⟨n, hn⟩ := Nat.exists_eq_succ_of_ne_zero positive
  have set : (2 * (2 ^ 255 - 1)).testBit x.toNat = true := by
    rw [hn, Nat.testBit_succ, Nat.mul_div_cancel_left _ (by decide), Nat.testBit_two_pow_sub_one]
    exact decide_eq_true (by omega)
  rw [← power_cycle.2] at set
  rcases mem_of_testBit_mask set with none | listed
  · rw [Nat.zero_testBit] at none
    cases none
  · obtain ⟨n, -, hn⟩ := List.mem_iterate.1 listed
    exact ⟨n, hn⟩

theorem mul_zero (x : UInt8) : mul x 0 = 0 := (additive_mul x).zero

theorem zero_mul (x : UInt8) : mul 0 x = 0 := (additive_mul_right x).zero

theorem one_mul (x : UInt8) : mul 1 x = x := by
  by_cases h : x = 0
  · rw [h, mul_zero]
  · obtain ⟨n, rfl⟩ := eq_power_of_ne_zero h
    exact mul_power 1 n

theorem mul_assoc (x y z : UInt8) : mul (mul x y) z = mul x (mul y z) := by
  by_cases hx : x = 0
  · rw [hx, zero_mul, zero_mul, zero_mul]
  by_cases hy : y = 0
  · rw [hy, mul_zero, zero_mul, mul_zero]
  by_cases hz : z = 0
  · rw [hz, mul_zero, mul_zero, mul_zero]
  obtain ⟨l, rfl⟩ := eq_power_of_ne_zero hx
  obtain ⟨m, rfl⟩ := eq_power_of_ne_zero hy
  obtain ⟨n, rfl⟩ := eq_power_of_ne_zero hz
  rw [power_mul_power, power_mul_power, power_mul_power, power_mul_power, Nat.add_assoc]

/-! ## Inverses -/

theorem inverse_power (n : Nat) : inverse (power n) = power (254 * n) := by
  have one : (1 : UInt8) = power 0 := rfl
  unfold inverse
  rw [one]
  simp only [List.range, List.range.loop, List.foldl_cons, List.foldl_nil, power_mul_power]
  congr 1
  omega

theorem inverse_zero : inverse 0 = 0 := by
  unfold inverse
  simp only [List.range, List.range.loop, List.foldl_cons, List.foldl_nil, mul_zero]

/-- Inversion is an involution. -/
theorem inverse_inverse (x : UInt8) : inverse (inverse x) = x := by
  by_cases h : x = 0
  · rw [h, inverse_zero, inverse_zero]
  · obtain ⟨n, rfl⟩ := eq_power_of_ne_zero h
    have exponent : 254 * (254 * n) = n + 255 * (253 * n) := by omega
    rw [inverse_power, inverse_power, exponent, power_add_cycles]

/-! ## Products of columns -/

/-- The product of a row and a column. -/
def dot (k l m n a b c d : UInt8) : UInt8 := mul k a ^^^ mul l b ^^^ mul m c ^^^ mul n d

/-- Products with the rotations of a row, followed by a product with a row, are one product. -/
theorem dot_dot (k l m n k' l' m' n' a b c d : UInt8) :
    dot k l m n (dot k' l' m' n' a b c d) (dot k' l' m' n' b c d a) (dot k' l' m' n' c d a b)
        (dot k' l' m' n' d a b c) =
      dot (dot k l m n k' n' m' l') (dot k l m n l' k' n' m') (dot k l m n m' l' k' n')
        (dot k l m n n' m' l' k') a b c d := by
  unfold dot
  simp only [mul_xor, xor_mul, mul_assoc]
  ac_rfl

theorem dot_one (a b c d : UInt8) : dot 1 0 0 0 a b c d = a := by
  unfold dot
  rw [one_mul, zero_mul, zero_mul, zero_mul, UInt8.xor_zero, UInt8.xor_zero, UInt8.xor_zero]

/-- The row of each mixture multiplied with the columns of the other. -/
theorem dot_rows :
    (dot 14 11 13 9 2 1 1 3 = 1 ∧ dot 14 11 13 9 3 2 1 1 = 0 ∧ dot 14 11 13 9 1 3 2 1 = 0 ∧
      dot 14 11 13 9 1 1 3 2 = 0) ∧
    dot 2 3 1 1 14 9 13 11 = 1 ∧ dot 2 3 1 1 11 14 9 13 = 0 ∧ dot 2 3 1 1 13 11 14 9 = 0 ∧
      dot 2 3 1 1 9 13 11 14 = 0 := by
  decide

theorem dot_unmix (a b c d : UInt8) :
    dot 14 11 13 9 (dot 2 3 1 1 a b c d) (dot 2 3 1 1 b c d a) (dot 2 3 1 1 c d a b)
      (dot 2 3 1 1 d a b c) = a := by
  obtain ⟨⟨first, second, third, fourth⟩, -⟩ := dot_rows
  rw [dot_dot, first, second, third, fourth, dot_one]

theorem dot_mix (a b c d : UInt8) :
    dot 2 3 1 1 (dot 14 11 13 9 a b c d) (dot 14 11 13 9 b c d a) (dot 14 11 13 9 c d a b)
      (dot 14 11 13 9 d a b c) = a := by
  obtain ⟨-, first, second, third, fourth⟩ := dot_rows
  rw [dot_dot, first, second, third, fourth, dot_one]

end Cryptogram.Aes
