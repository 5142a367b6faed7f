import Cryptogram.Failure

/-!
# Transfers

A computation that writes octets on its way to an answer.  What was written before a failure stays
written.
-/

namespace Cryptogram

/-- The octets written, and the answer or the failure that ended the computation. -/
structure Transfer (α : Type) where
  written : Bytes
  answer : Except Failure α

namespace Transfer

variable {α β : Type}

def write (octets : Bytes) : Transfer Unit := ⟨octets, .ok ()⟩

def fail (f : Failure) : Transfer α := ⟨[], .error f⟩

/-- An answer that is reached without writing. -/
def ofExcept (answer : Except Failure α) : Transfer α := ⟨[], answer⟩

/-- Goes on with the answer, unless there is none. -/
def andThen (t : Transfer α) (next : α → Transfer β) : Transfer β :=
  match t.answer with
  | .ok a => ⟨t.written ++ (next a).written, (next a).answer⟩
  | .error f => ⟨t.written, .error f⟩

instance : Monad Transfer where
  pure a := ⟨[], .ok a⟩
  bind := andThen

instance : MonadLift (Except Failure) Transfer := ⟨ofExcept⟩

@[simp] theorem written_pure (a : α) : (pure a : Transfer α).written = [] := rfl
@[simp] theorem answer_pure (a : α) : (pure a : Transfer α).answer = .ok a := rfl

theorem bind_def (t : Transfer α) (next : α → Transfer β) : t >>= next = t.andThen next := rfl

theorem andThen_ok {t : Transfer α} {a : α} (h : t.answer = .ok a) (next : α → Transfer β) :
    t.andThen next = ⟨t.written ++ (next a).written, (next a).answer⟩ := by
  simp only [andThen, h]

theorem andThen_error {t : Transfer α} {f : Failure} (h : t.answer = .error f)
    (next : α → Transfer β) : t.andThen next = ⟨t.written, .error f⟩ := by
  simp only [andThen, h]

end Transfer

end Cryptogram
