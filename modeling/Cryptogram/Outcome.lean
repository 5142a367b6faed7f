import Cryptogram.Failure

/-!
# Outcomes

What becomes of one piece of content: the output on success, and the untouched input with the cause
on failure.
-/

namespace Cryptogram

/-- The outcome of processing one piece of content. -/
structure Outcome where
  content : Bytes
  /-- The cause of a failure. -/
  failure : Option Failure := none
  deriving DecidableEq, Repr

namespace Outcome

def succeeded (content : Bytes) : Outcome := ⟨content, none⟩

/-- Failure, with the input as it was. -/
def failed (original : Bytes) (f : Failure) : Outcome := ⟨original, some f⟩

/-- Whether the content was processed. -/
def isSuccess (o : Outcome) : Bool := o.failure.isNone

/-- The name of the route that the content takes. -/
def relationship (o : Outcome) : String := if o.isSuccess then "success" else "failure"

end Outcome

end Cryptogram
