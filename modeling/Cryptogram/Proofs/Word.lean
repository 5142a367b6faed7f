import Mathlib.Tactic.Ring
import Cryptogram.Proofs.Octets
import Cryptogram.Word

/-!
# Words and octets

A word of 64 bits is the big-endian number of its octets (`toNat_ofBe64`, `be64_eq`), so either gives
the other back (`be64At_be64`, `be64_be64At`).
-/

namespace Cryptogram.Word

/-- Numbers without common bits are added by putting their bits together. -/
theorem or_eq_add {x y : Nat} (k : Nat) (hx : x % 2 ^ k = 0) (hy : y < 2 ^ k) : x ||| y = x + y := by
  have split := Nat.div_add_mod x (2 ^ k)
  rw [hx, Nat.add_zero, Nat.mul_comm, ← Nat.shiftLeft_eq] at split
  rw [← split, Nat.shiftLeft_add_eq_or_of_lt hy]

theorem toNat_ofBe32 (a b c d : UInt8) : (ofBe32 a b c d).toNat =
    a.toNat * 0x1000000 + b.toNat * 0x10000 + c.toNat * 0x100 + d.toNat := by
  have ha := a.toNat_lt
  have hb := b.toNat_lt
  have hc := c.toNat_lt
  have hd := d.toNat_lt
  have first : (a.toUInt32 <<< 24).toNat = a.toNat * 0x1000000 := by
    rw [UInt32.toNat_shiftLeft, UInt8.toNat_toUInt32, Nat.shiftLeft_eq, Nat.mod_eq_of_lt]
    · rfl
    · show a.toNat * 0x1000000 < 0x100000000
      omega
  have second : (b.toUInt32 <<< 16).toNat = b.toNat * 0x10000 := by
    rw [UInt32.toNat_shiftLeft, UInt8.toNat_toUInt32, Nat.shiftLeft_eq, Nat.mod_eq_of_lt]
    · rfl
    · show b.toNat * 0x10000 < 0x100000000
      omega
  have third : (c.toUInt32 <<< 8).toNat = c.toNat * 0x100 := by
    rw [UInt32.toNat_shiftLeft, UInt8.toNat_toUInt32, Nat.shiftLeft_eq, Nat.mod_eq_of_lt]
    · rfl
    · show c.toNat * 0x100 < 0x100000000
      omega
  unfold ofBe32
  have two : a.toNat * 0x1000000 ||| b.toNat * 0x10000 = a.toNat * 0x1000000 + b.toNat * 0x10000 :=
    or_eq_add 24 (by omega) (by omega)
  have three : a.toNat * 0x1000000 + b.toNat * 0x10000 ||| c.toNat * 0x100 =
      a.toNat * 0x1000000 + b.toNat * 0x10000 + c.toNat * 0x100 :=
    or_eq_add 16 (by omega) (by omega)
  rw [UInt32.toNat_or, UInt32.toNat_or, UInt32.toNat_or, first, second, third, UInt8.toNat_toUInt32,
    two, three, or_eq_add 8 (by omega) (by omega)]
/-- The number of a word of two halves. -/
theorem toNat_halves (high low : UInt32) :
    ((high.toUInt64 <<< 32) ||| low.toUInt64).toNat = high.toNat * 0x100000000 + low.toNat := by
  have room := high.toNat_lt
  have front : (high.toUInt64 <<< 32).toNat = high.toNat * 0x100000000 := by
    rw [UInt64.toNat_shiftLeft, UInt32.toNat_toUInt64, Nat.shiftLeft_eq, Nat.mod_eq_of_lt]
    · rfl
    · show high.toNat * 0x100000000 < 0x10000000000000000
      omega
  rw [UInt64.toNat_or, front, UInt32.toNat_toUInt64, or_eq_add 32 (by omega) low.toNat_lt]

theorem toNat_ofBe64 (a b c d e f g h : UInt8) :
    (ofBe64 a b c d e f g h).toNat = Bytes.toNat [a, b, c, d, e, f, g, h] := by
  unfold ofBe64
  rw [toNat_halves, toNat_ofBe32, toNat_ofBe32]
  simp only [Bytes.toNat, List.foldl_cons, List.foldl_nil]
  omega

theorem be64_eq (x : UInt64) : be64 x = Bytes.ofNat 8 x.toNat := by
  have octet (n : Nat) (k : UInt64) (hk : k.toNat < 64) (h : 2 ^ k.toNat = n) :
      (x >>> k).toUInt8 = (x.toNat / n).toUInt8 := by
    apply UInt8.toNat_inj.1
    rw [UInt64.toNat_toUInt8, UInt64.toNat_shiftRight, Nat.mod_eq_of_lt hk,
      Nat.shiftRight_eq_div_pow, h, Nat.toUInt8, UInt8.toNat_ofNat']
  simp only [be64, Bytes.ofNat, List.nil_append, List.cons_append, Nat.div_div_eq_div_mul]
  rw [octet _ 56 (by decide) rfl, octet _ 48 (by decide) rfl, octet _ 40 (by decide) rfl,
    octet _ 32 (by decide) rfl, octet _ 24 (by decide) rfl, octet _ 16 (by decide) rfl,
    octet _ 8 (by decide) rfl]
  rfl

theorem be64At_be64 (x : UInt64) : be64At (be64 x) 0 = x := by
  have word : (be64At (be64 x) 0).toNat = Bytes.toNat (be64 x) := toNat_ofBe64 _ _ _ _ _ _ _ _
  apply UInt64.toNat_inj.1
  rw [word, be64_eq, Bytes.toNat_ofNat_of_lt x.toNat_lt]

theorem be64_be64At {block : Bytes} (h : block.length = 8) : be64 (be64At block 0) = block := by
  match block with
  | [a, b, c, d, e, f, g, i] =>
    have word : (be64At [a, b, c, d, e, f, g, i] 0).toNat = Bytes.toNat [a, b, c, d, e, f, g, i] :=
      toNat_ofBe64 a b c d e f g i
    rw [be64_eq, word]
    exact Bytes.ofNat_toNat [a, b, c, d, e, f, g, i]

end Cryptogram.Word
