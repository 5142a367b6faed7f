/-!
# Findings of the validation

One rule that was checked, with the reason why it failed and the offending input where that may be
shown.
-/

namespace Cryptogram

/-- The outcome of one rule. -/
structure Finding where
  /-- The name of the property that the rule is about. -/
  subject : String
  /-- The reason. -/
  explanation : String
  valid : Bool := false
  /-- The offending input, where it may be shown. -/
  input : Option String := none
  deriving DecidableEq, Repr

/-- The finding as a sentence. -/
def Finding.text (f : Finding) : String :=
  let subject := f.subject
  let explanation := f.explanation
  if f.valid then s!"'{subject}' is valid" else s!"'{subject}' is invalid because {explanation}"

end Cryptogram
