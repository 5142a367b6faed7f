import Mathlib.Tactic.Ring
import Cryptogram.OpenPgp.Algorithm
import Cryptogram.Proofs.Text.Utf8
import Cryptogram.Settings

/-!
# What accepted settings keep to

Each rule on settings holds of settings that are accepted (`Accepted.rule`).
-/

namespace Cryptogram.Settings

variable {s : Settings}

theorem Accepted.rule (h : s.Accepted) {fault : SettingsFault} {holds : Bool}
    (hr : (fault, holds) ∈ s.rules) : holds = true := by
  rw [Accepted, fault?, Option.map_eq_none_iff, List.find?_eq_none] at h
  simpa using h _ hr

theorem Accepted.bufferSize (h : s.Accepted) : 1 ≤ s.bufferSize.toNat := by
  have listed : (SettingsFault.bufferSize, decide (0 < s.bufferSize)) ∈ s.rules := by simp [rules]
  have := of_decide_eq_true (h.rule listed)
  omega

theorem Accepted.literalName (h : s.Accepted) : (Text.utf8 s.literalName).length ≤ 255 := by
  have listed : (SettingsFault.literalName, decide ((Text.utf8 s.literalName).length ≤ 255)) ∈
      s.rules := by simp [rules]
  exact of_decide_eq_true (h.rule listed)

theorem Accepted.exists_s2kHash (h : s.Accepted) :
    ∃ hash, HashName.ofId? s.s2kHash.toNat = some hash := by
  have listed : (SettingsFault.s2kHash, s2kHashes.contains s.s2kHash) ∈ s.rules := by simp [rules]
  have known : ∀ n ∈ s2kHashes, ∃ hash, HashName.ofId? n.toNat = some hash := by
    intro n hn
    simp only [s2kHashes, List.mem_cons, List.not_mem_nil, or_false] at hn
    rcases hn with rfl | rfl | rfl | rfl | rfl | rfl <;> exact ⟨_, rfl⟩
  exact known _ (List.contains_iff_mem.1 (h.rule listed))

/-- The defaults are accepted, with any size of the pieces that are read. -/
theorem accepted_of_bufferSize_pos {n : Int} (h : 0 < n) :
    ({ bufferSize := n } : Settings).Accepted := by
  simp [Accepted, fault?, rules, h, s2kHashes, isPowerOfTwo, Text.utf8_empty]

theorem accepted_default : ({} : Settings).Accepted := accepted_of_bufferSize_pos (by decide)

end Cryptogram.Settings
