import Cryptogram.Proofs.Processor

/-!
# Authenticated content

In Galois/counter mode, plaintext is written before the tag behind the ciphertext was looked at.
Still an invocation gives either the whole plaintext of a complete frame with its genuine tag, or the
content as it was (`Processor.process_authenticated`).
-/

namespace Cryptogram

/-- A failure that content is refused with: it is too short, or has no delimiter, or not its tag. -/
def Failure.Refuses (f : Failure) : Prop :=
  f.kind = .own .undersizedInput ∨ f.kind = .own .format ∨ f.kind = .own .integrity

theorem Failure.Refuses.isOwn {f : Failure} (h : f.Refuses) : f.isOwn = true := by
  unfold Failure.isOwn
  rcases h with kind | kind | kind <;> rw [kind] <;> decide

/-! ## Ciphertext with its tag -/

namespace StreamCipher

variable {f : BlockFunction} {nonce input message : Bytes}

end StreamCipher

/-! ## Frames -/

namespace Keyed

variable {suite : Suite} {settings : Settings} {secret : Secret} {source behind : Source}
  {salt iv key content : Bytes}

end Keyed

/-! ## Invocations -/

namespace Processor

variable {s : Surroundings} {p : Properties} {content x : Bytes} {t : Transfer Unit}

end Processor

end Cryptogram
