import Mathlib.Tactic.Ring
import Cryptogram.Transfer

/-!
# Steps of transfers

What a transfer is that begins with writing, with an answer or with a failure.
-/

namespace Cryptogram.Transfer

variable {α β : Type}

@[ext] theorem ext {s t : Transfer α} (written : s.written = t.written)
    (answer : s.answer = t.answer) : s = t := by
  obtain ⟨w, a⟩ := s
  obtain ⟨w', a'⟩ := t
  obtain rfl : w = w' := written
  obtain rfl : a = a' := answer
  rfl

theorem write_bind (octets : Bytes) (next : Unit → Transfer β) :
    (write octets >>= next) = ⟨octets ++ (next ()).written, (next ()).answer⟩ := rfl

theorem write_write_bind (a b : Bytes) (next : Unit → Transfer β) :
    (write a >>= fun _ => write b >>= next) = (write (a ++ b) >>= next) := by
  simp only [write_bind, List.append_assoc]

theorem lift_ok_bind (a : α) (next : α → Transfer β) :
    ((liftM (Except.ok a : Except Failure α) : Transfer α) >>= next) = next a := rfl

theorem lift_error_bind (f : Failure) (next : α → Transfer β) :
    ((liftM (Except.error f : Except Failure α) : Transfer α) >>= next) = ⟨[], .error f⟩ := rfl

/-- What begins with an answer and ends in one had an answer to begin with. -/
theorem exists_of_lift_bind {e : Except Failure α} {next : α → Transfer β} {w : Bytes} {b : β}
    (h : ((liftM e : Transfer α) >>= next) = ⟨w, .ok b⟩) : ∃ a, e = .ok a ∧ next a = ⟨w, .ok b⟩ := by
  cases e with
  | error f =>
    rw [lift_error_bind] at h
    cases h
  | ok a => exact ⟨a, rfl, h⟩

/-- A transfer with an answer goes on. -/
theorem bind_of_ok {t : Transfer α} {w : Bytes} {a : α} (h : t = ⟨w, .ok a⟩)
    (next : α → Transfer β) : (t >>= next) = ⟨w ++ (next a).written, (next a).answer⟩ := by
  subst h
  rfl

theorem map_eq (f : α → β) (t : Transfer α) : f <$> t = ⟨t.written, t.answer.map f⟩ := by
  obtain ⟨w, e | a⟩ := t
  · rfl
  · exact congrArg (Transfer.mk · _) (List.append_nil w)

end Cryptogram.Transfer
