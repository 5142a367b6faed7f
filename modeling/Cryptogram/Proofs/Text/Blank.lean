import Mathlib.Data.List.TakeWhile
import Cryptogram.Text.Blank

/-!
# Text without white space at its ends

What is left of a text stands in it with characters of the class around it (`around_stripBy`), and
nothing else is left if what stands there has none of them (`stripBy_of_around`).
-/

namespace Cryptogram.Text

variable {p : Char → Bool} {text core : List Char}

/-- A text in which another one stands, with nothing but characters of a class around it. -/
def Around (p : Char → Bool) (text core : List Char) : Prop :=
  ∃ before after, text = before ++ core ++ after ∧ (∀ c ∈ before, p c = true) ∧
    ∀ c ∈ after, p c = true

theorem around_stripBy (p : Char → Bool) (text : List Char) : Around p text (stripBy p text) := by
  refine ⟨text.takeWhile p, ((text.dropWhile p).reverse.takeWhile p).reverse, ?_,
    fun c => List.mem_takeWhile_imp, fun c hc => List.mem_takeWhile_imp (List.mem_reverse.1 hc)⟩
  rw [stripBy, List.append_assoc, ← List.reverse_append, List.takeWhile_append_dropWhile,
    List.reverse_reverse, List.takeWhile_append_dropWhile]

theorem dropWhile_of_forall_not (h : ∀ c ∈ text, p c = false) : text.dropWhile p = text := by
  cases text with
  | nil => rfl
  | cons c rest => exact List.dropWhile_cons_of_neg (by simp [h c List.mem_cons_self])

theorem stripBy_of_around (h : Around p text core) (inner : ∀ c ∈ core, p c = false) :
    stripBy p text = core := by
  obtain ⟨before, after, rfl, first, last⟩ := h
  rw [stripBy, List.append_assoc, List.dropWhile_append_of_pos first]
  cases core with
  | nil => rw [List.nil_append, List.dropWhile_eq_nil_iff.2 last]; rfl
  | cons c rest =>
    have stays : ¬ p c = true := by simp [inner c List.mem_cons_self]
    rw [List.cons_append, List.dropWhile_cons_of_neg stays, ← List.cons_append, List.reverse_append,
      List.dropWhile_append_of_pos fun c hc => last c (List.mem_reverse.1 hc),
      dropWhile_of_forall_not fun c hc => inner c (List.mem_reverse.1 hc), List.reverse_reverse]

end Cryptogram.Text
