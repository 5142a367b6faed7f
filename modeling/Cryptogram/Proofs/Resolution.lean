import Mathlib.Tactic.Ring
import Cryptogram.Proofs.Plan
import Cryptogram.Validation

/-!
# Choices and findings

The choices of a resolution one after the other (`ofChoices_eq`).  A rule that is violated leaves a
finding that stays (`findings_fail`), so a choice without findings stands for a member
(`choose_clean`) and a policy without findings changes nothing (`checkPolicy_clean`).
-/

namespace Cryptogram

namespace Resolution

variable {r r' : Resolution} {settings : Settings} {m : Method}

/-! ## Choices -/

theorem fst_choose {α : Type} (c : Catalog α) (subject : Field) (choice : Choice α)
    (r : Resolution) : (r.choose c subject choice).1 = c.choose? choice := by
  unfold choose
  cases c.choose? choice <;> rfl

theorem choose_of_some {α : Type} {c : Catalog α} {choice : Choice α} {a : α}
    (h : c.choose? choice = some a) (subject : Field) (r : Resolution) :
    r.choose c subject choice = (some a, r) := by
  unfold choose
  rw [h]

/-- Each choice and the allowance one after the other. -/
theorem ofChoices_eq (p : Properties) :
    let mode := choose directions .mode p.mode {}
    let method := mode.2.choose methods .algorithm p.algorithm
    let kdf := method.2.choose kdfs .kdf p.kdf
    ofChoices p =
      checkAllowance p.allowWeak { kdf.2 with mode := mode.1, method := method.1, kdf := kdf.1 } :=
  rfl

theorem method_ofChoices (p : Properties) :
    (ofChoices p).method = methods.choose? p.algorithm := by
  rw [ofChoices_eq, ← fst_choose]
  unfold checkAllowance
  cases allowance? p.allowWeak <;> rfl

/-! ## Findings -/

theorem findings_fail (subject : Field) (explanation : String) (input : HostValue) (r : Resolution) :
    (r.fail subject explanation input).findings ≠ [] := by
  unfold fail
  exact List.append_ne_nil_of_right_ne_nil _ (List.cons_ne_nil _ _)

theorem choose_clean {α : Type} {c : Catalog α} {subject : Field} {choice : Choice α}
    (h : (r.choose c subject choice).2.findings = []) :
    ∃ a, c.choose? choice = some a ∧ r.choose c subject choice = (some a, r) := by
  cases e : c.choose? choice with
  | some a => exact ⟨a, rfl, choose_of_some e subject r⟩
  | none =>
    unfold choose at h
    rw [e] at h
    cases choice with
    | member a => cases e
    | given value => exact absurd h (findings_fail _ _ _ _)

theorem checkPolicy_clean (h : (r.checkPolicy settings m).findings = []) :
    r.checkPolicy settings m = r ∧ m.supported = true := by
  unfold checkPolicy at h ⊢
  cases e : settings.maxKeyBits with
  | none =>
    simp only [e] at h ⊢
    split_ifs at h ⊢ with supported
    · exact ⟨rfl, supported⟩
    · exact absurd h (findings_fail _ _ _ _)
  | some limit =>
    simp only [e] at h ⊢
    split_ifs at h ⊢ with supported tooLong
    · exact absurd h (findings_fail _ _ _ _)
    · exact ⟨rfl, supported⟩
    · exact absurd h (findings_fail _ _ _ _)
    · exact absurd h (findings_fail _ _ _ _)

theorem kdf_of_givenPassword {value : HostValue} (h : r.givenPassword settings value = .ok r') :
    r'.kdf = r.kdf := by
  cases value with
  | text password =>
    cases h
    unfold acceptPassword
    dsimp only
    split_ifs <;> rfl
  | _ => cases h

end Resolution

end Cryptogram
