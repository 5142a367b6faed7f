import Cryptogram.Failure

/-!
# Whole blocks out of arbitrary pieces

A transform that works on whole blocks and carries a state is fed from pieces of any length: what
does not fill a block is kept until more arrives, and a block is put out as soon as it is complete.
To finalize while a block is incomplete is a failure, after which more pieces may follow.
-/

namespace Cryptogram

/-- A transform of whole blocks that carries a state. -/
structure BlockTransform (σ : Type) where
  /-- The number of octets of a block. -/
  size : Nat
  /-- The image of whole blocks, and the state after them. -/
  apply : σ → Bytes → Bytes × σ

/-- The state of a transform and the beginning of a block. -/
structure Buffered (σ : Type) where
  state : σ
  pending : Bytes := []

namespace Buffered

variable {σ : Type}

/-- The number of octets of a string that make whole blocks. -/
def wholeLength (size : Nat) (bytes : Bytes) : Nat := bytes.length - bytes.length % size

/-- Takes in a piece and puts out the blocks that it completes. -/
def update (t : BlockTransform σ) (b : Buffered σ) (piece : Bytes) : Bytes × Buffered σ :=
  let data := b.pending ++ piece
  let cut := wholeLength t.size data
  if cut = 0 then ([], { b with pending := data })
  else
    let (out, state) := t.apply b.state (data.take cut)
    (out, ⟨state, data.drop cut⟩)

/-- Whether no block was begun. -/
def aligned (b : Buffered σ) : Bool := b.pending.isEmpty

/-- Ends the message, unless a block was begun. -/
def finalize (b : Buffered σ) : Except Failure Bytes × Buffered σ :=
  (if b.aligned then .ok [] else .error .partialBlock, b)

/-- What is asked of a transform that takes in pieces. -/
inductive Call
  | update (piece : Bytes)
  | finalize
  deriving Repr

/-- What a call answers, and the state after it. -/
def serve (t : BlockTransform σ) (b : Buffered σ) : Call → Except Failure Bytes × Buffered σ
  | .update piece =>
    let (out, b) := b.update t piece
    (.ok out, b)
  | .finalize => b.finalize

/-- What calls answer one after another, and the state after them. -/
def run (t : BlockTransform σ) :
    (b : Buffered σ) → List Call → List (Except Failure Bytes) × Buffered σ
  | b, [] => ([], b)
  | b, call :: rest =>
    let (answer, b) := b.serve t call
    let (answers, b) := run t b rest
    (answer :: answers, b)

end Buffered

end Cryptogram
