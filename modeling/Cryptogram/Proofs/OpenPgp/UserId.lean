import Mathlib.Data.List.Basic
import Cryptogram.OpenPgp.UserId

/-!
# Line feeds in user ids

A user id has parts exactly if no line feed stands in it, unless as the last of several characters
(`split?_isSome_iff`).
-/

namespace Cryptogram.UserId

/-- Text in which no line feed stands, unless at its end. -/
def OneLine (text : List Char) : Prop := '\n' ∉ text.dropLast

theorem OneLine.nil : OneLine [] := List.not_mem_nil

theorem oneLine_cons {c : Char} {text : List Char} :
    OneLine (c :: text) ↔ text = [] ∨ c ≠ '\n' ∧ OneLine text := by
  unfold OneLine
  cases text with
  | nil => simp
  | cons d text => simp [List.dropLast, eq_comm]

theorem OneLine.of_not_mem {text : List Char} (h : '\n' ∉ text) : OneLine text :=
  fun mem => h (List.dropLast_subset text mem)

theorem oneLine_of_atEnd {rest : List Char} (h : atEnd rest = true) : OneLine rest := by
  simp only [atEnd, Bool.or_eq_true, beq_iff_eq] at h
  rcases h with rfl | rfl
  · exact .nil
  · exact oneLine_cons.2 (.inl rfl)

theorem oneLine_of_trimEnd {rest : List Char} (h : '\n' ∉ trimEnd rest) : OneLine rest := by
  unfold trimEnd at h
  split_ifs at h
  · exact h
  · exact .of_not_mem h

theorem oneLine_of_address? {rest address : List Char} (h : address? rest = some address) :
    OneLine rest := by
  unfold address? at h
  split at h
  · rename_i text trimmed
    dsimp only at h
    split_ifs at h with shape
    obtain ⟨last, -, plain⟩ := shape
    have whole : text.dropLast ++ ['>'] = text := List.dropLast_append_getLast? '>' last
    refine oneLine_of_trimEnd ?_
    rw [trimmed, ← whole]
    simp [plain]
  · split_ifs at h with nothing
    exact oneLine_of_atEnd nothing

theorem oneLine_of_commentFrom? {comment rest : List Char} {found : List Char × List Char}
    (h : commentFrom? comment rest = some found) : OneLine rest := by
  induction rest generalizing comment with
  | nil => cases h
  | cons c rest ih =>
    rw [commentFrom?] at h
    split at h
    · rename_i here
      split_ifs at here with ends
      obtain ⟨address, behind, -⟩ := Option.map_eq_some_iff.1 here
      refine oneLine_cons.2 (.inr ⟨?_, oneLine_of_address? behind⟩)
      rw [ends.1]
      decide
    · split_ifs at h with lineFeed
      exact oneLine_cons.2 (.inr ⟨lineFeed, ih h⟩)

theorem oneLine_of_remainder? {rest : List Char} {found : List Char × List Char}
    (h : remainder? rest = some found) : OneLine rest := by
  unfold remainder? at h
  dsimp only at h
  split at h
  · rename_i commented
    split at commented
    · have behind := oneLine_of_commentFrom? commented
      exact oneLine_cons.2 (.inr ⟨by decide, oneLine_cons.2 (.inr ⟨by decide, behind⟩)⟩)
    · cases commented
  · obtain ⟨address, behind, -⟩ := Option.map_eq_some_iff.1 h
    exact oneLine_of_address? behind

theorem splitFrom?_isSome_iff {name rest : List Char} {c : Char} :
    (splitFrom? name (c :: rest)).isSome = true ↔ c ≠ '\n' ∧ OneLine rest := by
  induction rest generalizing name c with
  | nil =>
    have whole : remainder? [] = some ([], []) := rfl
    rw [splitFrom?, whole, and_iff_left OneLine.nil]
    split_ifs with lineFeed <;> simp [lineFeed]
  | cons d rest ih =>
    rw [splitFrom?]
    split_ifs with lineFeed
    · simp [lineFeed]
    rw [and_iff_right lineFeed]
    cases found : remainder? (d :: rest) with
    | some parts => exact iff_of_true rfl (oneLine_of_remainder? found)
    | none =>
      dsimp only
      rw [ih, oneLine_cons]
      refine ⟨.inr, fun oneLine => oneLine.elim (fun last => ?_) id⟩
      -- A line feed that comes last would have been the remainder.
      rw [last] at found ⊢
      refine ⟨?_, .nil⟩
      rintro rfl
      cases found

theorem split?_isSome_iff {text : List Char} :
    (split? text).isSome = true ↔ text ≠ ['\n'] ∧ OneLine text := by
  unfold split?
  split_ifs with empty
  · rw [empty]
    exact iff_of_true rfl ⟨by decide, .nil⟩
  · obtain ⟨c, rest, rfl⟩ := List.exists_cons_of_ne_nil empty
    rw [splitFrom?_isSome_iff, oneLine_cons]
    constructor
    · rintro ⟨first, oneLine⟩
      exact ⟨by simp [first], .inr ⟨first, oneLine⟩⟩
    · rintro ⟨several, rfl | both⟩
      · exact ⟨by simpa using several, .nil⟩
      · exact both

end Cryptogram.UserId
