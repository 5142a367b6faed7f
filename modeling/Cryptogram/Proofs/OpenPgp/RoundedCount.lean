import Cryptogram.Proofs.OpenPgp.StringToKey

/-!
# Rounding of counts

A count is coded by the least code that stands for no less (`least_encodeCount`), so coding and
decoding decide the same comparisons (`encodeCount_le_iff`).  What rounding adds is less than one
step between codes, which is at most a sixteenth of the count (`roundCount_lt`).
-/

namespace Cryptogram.StringToKey

variable {count : Int} {coded : Nat}

/-! ## The least code -/

/-- Among the codes that stand for no less than a count, the least one is found. -/
theorem least_encodeCount (h : count ≤ decodeCount 255) :
    count ≤ decodeCount (encodeCount count) ∧
      ∀ coded < encodeCount count, decodeCount coded < count := by
  unfold encodeCount
  cases found : (List.range 256).find? fun coded => decide (count ≤ decodeCount coded) with
  | none =>
    have last := List.find?_eq_none.1 found 255 (List.mem_range.2 (by decide))
    exact absurd (decide_eq_true h) last
  | some coded =>
    obtain ⟨enough, -, below⟩ := List.find?_range_eq_some.1 found
    refine ⟨of_decide_eq_true enough, fun less hless => ?_⟩
    simpa using below less hless

theorem encodeCount_of_lt (h : decodeCount 255 < count) : encodeCount count = 255 := by
  have none : (List.range 256).find? (fun coded => decide (count ≤ decodeCount coded)) = none := by
    refine List.find?_eq_none.2 fun coded hc => ?_
    have order := strictMono_decodeCount.monotone (Nat.le_of_lt_succ (List.mem_range.1 hc))
    rw [decide_eq_true_iff]
    omega
  rw [encodeCount, none]
  rfl

theorem encodeCount_le_iff (h : count ≤ decodeCount 255) :
    encodeCount count ≤ coded ↔ count ≤ decodeCount coded := by
  obtain ⟨enough, below⟩ := least_encodeCount h
  constructor
  · intro le
    have order := strictMono_decodeCount.monotone le
    omega
  · intro le
    by_contra less
    have short := below coded (Nat.lt_of_not_le less)
    omega

theorem encodeCount_mono {larger : Int} (h : count ≤ larger) :
    encodeCount count ≤ encodeCount larger := by
  rcases lt_or_ge (decodeCount 255 : Int) larger with beyond | within
  · rw [encodeCount_of_lt beyond]
    exact Nat.le_of_lt_succ (encodeCount_lt count)
  · rw [encodeCount_le_iff (h.trans within)]
    exact h.trans (least_encodeCount within).1

/-! ## What rounding adds -/

/-- The mantissa of a count has sixteen steps at least. -/
theorem sixteen_steps_le (coded : Nat) : 16 * 2 ^ (coded / 16 + 6) ≤ decodeCount coded := by
  unfold decodeCount
  rw [Nat.shiftLeft_eq]
  exact Nat.mul_le_mul_right _ (Nat.le_add_right _ _)

theorem roundCount_lt (least : 1024 ≤ count) (h : count ≤ decodeCount 255) :
    roundCount count < count + count / 16 := by
  obtain ⟨-, below⟩ := least_encodeCount h
  unfold roundCount
  cases e : encodeCount count with
  | zero =>
    have bottom : decodeCount 0 = 1024 := rfl
    omega
  | succ coded =>
    -- The count is above the code before, from which one step leads to the rounded count.
    have short := below coded (by omega)
    have steps := sixteen_steps_le coded
    rw [decodeCount_succ]
    omega

/-- A count is rounded up to the next one that can be coded, for all integers: up to the greatest
count, a code is enough exactly if what it stands for is; beyond, the greatest code is taken.  The code
grows with the count and is that of every count that can be coded itself.  From the least count on,
less than a sixteenth is added. -/
theorem encodeCount_rounds_up (count : Int) :
    (count ≤ 65011712 → ∀ coded < 256, encodeCount count ≤ coded ↔ count ≤ decodeCount coded) ∧
      (count ≤ 65011712 → count ≤ roundCount count ∧
        ∀ coded < 256, count ≤ decodeCount coded → roundCount count ≤ decodeCount coded) ∧
      (∀ larger, count ≤ larger → encodeCount count ≤ encodeCount larger) ∧
      (65011712 < count → encodeCount count = 255) ∧
      (∀ coded < 256, encodeCount (decodeCount coded) = coded) ∧
      (1024 ≤ count → count ≤ 65011712 → roundCount count < count + count / 16) := by
  have greatest : (65011712 : Int) = decodeCount 255 := rfl
  rw [greatest]
  refine ⟨fun h coded _ => encodeCount_le_iff h, fun h => ⟨(least_encodeCount h).1, ?_⟩,
    fun _ => encodeCount_mono, encodeCount_of_lt, fun _ => encodeCount_decodeCount, roundCount_lt⟩
  intro coded _ enough
  exact strictMono_decodeCount.monotone ((encodeCount_le_iff h).2 enough)

/-- One more than the count of code 96. -/
theorem encodeCount_rounds_up_65537 :
    (65537 : Int) ≤ 65011712 ∧ encodeCount 65537 = 97 ∧ roundCount 65537 < 65537 + 4096 := by
  have within : (65537 : Int) ≤ 65011712 := by decide
  obtain ⟨codes, -, -, -, -, near⟩ := encodeCount_rounds_up 65537
  have enough : encodeCount 65537 ≤ 97 := (codes within 97 (by decide)).2 (by decide)
  have short : ¬ encodeCount 65537 ≤ 96 := mt (codes within 96 (by decide)).1 (by decide)
  have added := near (by decide) within
  refine ⟨within, by omega, by omega⟩

end Cryptogram.StringToKey
