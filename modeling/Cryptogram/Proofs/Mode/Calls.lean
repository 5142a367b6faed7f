import Mathlib.Algebra.BigOperators.Ring.List
import Cryptogram.BlockCipher.Rc2
import Cryptogram.Proofs.Mode.Chaining

/-!
# Calls in any order

A history is any list of pieces and of attempts to finalize.  Whatever the history, what was put out
is what one call of the transform makes of the whole blocks of all that was taken in, and an attempt
to finalize leaves no trace (`run_eq_atOnce`).  The transform itself need not make sense of an empty
string, nor of one that ends within a block: it is never given such a string.
-/

namespace Cryptogram

variable {σ : Type}

namespace BlockTransform

/-- Whole blocks may be given in two calls instead of one. -/
structure Divisible (t : BlockTransform σ) : Prop where
  pos : 0 < t.size
  append : ∀ s a b, a ≠ [] → b ≠ [] → t.size ∣ a.length → t.size ∣ b.length →
    t.apply s (a ++ b) =
      ((t.apply s a).1 ++ (t.apply (t.apply s a).2 b).1, (t.apply (t.apply s a).2 b).2)

theorem Resumable.divisible {t : BlockTransform σ} (ht : t.Resumable) : t.Divisible where
  pos := ht.pos
  append s a b _ _ ha _ := ht.append s a b ha

/-- One call with the whole blocks at the front of a string, if there are any. -/
def atOnce (t : BlockTransform σ) (s : σ) (input : Bytes) : Bytes × σ :=
  let blocks := input.take (input.length / t.size * t.size)
  if blocks = [] then ([], s) else t.apply s blocks

/-- The transform made total: it passes over what does not fill a block. -/
def blockwise (t : BlockTransform σ) : BlockTransform σ := ⟨t.size, t.atOnce⟩

/-- The transform with a list of the strings that it was given. -/
def recorded (t : BlockTransform σ) : BlockTransform (σ × List Bytes) :=
  ⟨t.size, fun (s, given) blocks =>
    let (out, s) := t.apply s blocks
    (out, (s, given ++ [blocks]))⟩

end BlockTransform

namespace Buffered

/-! ## One call for all blocks -/

section

variable {t : BlockTransform σ} {size : Nat} {bytes : Bytes}

theorem take_div_mul (size : Nat) (bytes : Bytes) :
    bytes.take (bytes.length / size * size) = whole size bytes := by
  rw [whole, wholeLength, Nat.sub_eq_of_eq_add (Nat.div_add_mod' _ _).symm]

theorem drop_div_mul (size : Nat) (bytes : Bytes) :
    bytes.drop (bytes.length / size * size) = remainder size bytes := by
  rw [remainder, wholeLength, Nat.sub_eq_of_eq_add (Nat.div_add_mod' _ _).symm]

theorem whole_whole (size : Nat) (bytes : Bytes) : whole size (whole size bytes) = whole size bytes :=
  whole_of_dvd (dvd_length_whole size bytes)

theorem whole_eq_nil : whole size bytes = [] ↔ wholeLength size bytes = 0 := by
  rw [← List.length_eq_zero_iff, length_whole]

theorem whole_eq_nil_of_lt (h : bytes.length < size) : whole size bytes = [] := by
  rw [whole_eq_nil, wholeLength, Nat.mod_eq_of_lt h, Nat.sub_self]

theorem length_remainder_lt (h : 0 < size) (bytes : Bytes) : (remainder size bytes).length < size := by
  have := Nat.mod_le bytes.length size
  have := Nat.mod_lt bytes.length h
  rw [remainder, wholeLength, List.length_drop]
  omega

theorem atOnce_eq (t : BlockTransform σ) (s : σ) (input : Bytes) :
    t.atOnce s input =
      if whole t.size input = [] then ([], s) else t.apply s (whole t.size input) := by
  unfold BlockTransform.atOnce
  rw [take_div_mul]

theorem atOnce_whole (t : BlockTransform σ) (s : σ) (input : Bytes) :
    t.atOnce s (whole t.size input) = t.atOnce s input := by
  rw [atOnce_eq, atOnce_eq, whole_whole]

theorem atOnce_append (ht : t.Divisible) (s : σ) {a : Bytes} (ha : t.size ∣ a.length) (b : Bytes) :
    t.atOnce s (a ++ b) =
      ((t.atOnce s a).1 ++ (t.atOnce (t.atOnce s a).2 b).1, (t.atOnce (t.atOnce s a).2 b).2) := by
  simp only [atOnce_eq, whole_append ha, whole_of_dvd ha, List.append_eq_nil_iff]
  by_cases first : a = []
  · simp [first]
  by_cases second : whole t.size b = []
  · simp [first, second]
  simp only [first, second, and_false, if_false]
  exact ht.append s a _ first second ha (dvd_length_whole t.size b)

/-- Made total, the transform is one that the laws of whole blocks apply to. -/
theorem resumable_blockwise (ht : t.Divisible) : t.blockwise.Resumable where
  pos := ht.pos
  nil s := by
    have none : whole t.size [] = [] := List.take_nil
    exact (atOnce_eq t s []).trans (if_pos none)
  append s _ b ha := atOnce_append ht s ha b

theorem blockwise_apply_whole (t : BlockTransform σ) (s : σ) (input : Bytes) :
    t.blockwise.apply s (whole t.blockwise.size input) = t.atOnce s input :=
  atOnce_whole t s input

/-- A piece goes the same way whether or not the transform is made total. -/
theorem update_blockwise (t : BlockTransform σ) (b : Buffered σ) (piece : Bytes) :
    b.update t.blockwise piece = b.update t piece := by
  unfold update
  dsimp only [BlockTransform.blockwise]
  split_ifs with cut
  · rfl
  · have given : t.atOnce b.state (whole t.size (b.pending ++ piece)) =
        t.apply b.state (whole t.size (b.pending ++ piece)) := by
      rw [atOnce_whole, atOnce_eq, if_neg (mt whole_eq_nil.1 cut)]
    rw [whole] at given
    rw [given]

end

/-! ## Histories -/

namespace Call

/-- What a call takes in. -/
def piece : Call → Bytes
  | .update piece => piece
  | .finalize => []

end Call

/-- All that calls take in. -/
def taken (calls : List Call) : Bytes := calls.flatMap Call.piece

/-- All that is put out by answers. -/
def released (answers : List (Except Failure Bytes)) : Bytes :=
  answers.flatMap fun answer => answer.toOption.getD []

theorem run_append (t : BlockTransform σ) (b : Buffered σ) (past next : List Call) :
    b.run t (past ++ next) =
      ((b.run t past).1 ++ ((b.run t past).2.run t next).1, ((b.run t past).2.run t next).2) := by
  induction past generalizing b with
  | nil => rfl
  | cons call past ih => simp only [List.cons_append, run, ih]

/-- What every call keeps up, about all that was taken in and put out so far, holds after a run. -/
theorem run_induction {t : BlockTransform σ} {P : Bytes → Bytes → Buffered σ → Prop}
    (step : ∀ input out b call, P input out b →
      P (input ++ call.piece) (out ++ released [(serve t b call).1]) (serve t b call).2)
    (calls : List Call) (input out : Bytes) (b : Buffered σ) (h : P input out b) :
    P (input ++ taken calls) (out ++ released (b.run t calls).1) (b.run t calls).2 := by
  induction calls generalizing input out b with
  | nil => simpa only [taken, released, run, List.flatMap_nil, List.append_nil] using h
  | cons call calls ih =>
    have later := ih _ _ _ (step input out b call h)
    simpa only [taken, released, run, List.flatMap_cons, List.flatMap_nil, List.append_nil,
      List.append_assoc] using later

/-- What the transform is, and what was put out, when it has taken in `input`. -/
structure Reached (t : BlockTransform σ) (s : σ) (input out : Bytes) (b : Buffered σ) : Prop where
  out : out = (t.atOnce s input).1
  after : After t.blockwise s input b

namespace Reached

variable {t : BlockTransform σ} {s : σ} {input out : Bytes} {b : Buffered σ}

theorem eq_mk (h : Reached t s input out b) :
    b = ⟨(t.atOnce s input).2, remainder t.size input⟩ := by
  have state := h.after.state
  rw [blockwise_apply_whole] at state
  exact congrArg₂ Buffered.mk state h.after.pending

theorem finalize (h : Reached t s input out b) :
    b.finalize = (if t.size ∣ input.length then .ok [] else .error .partialBlock, b) := by
  have aligned : b.aligned ↔ t.size ∣ input.length := h.after.aligned
  simp only [Buffered.finalize, aligned]

/-- A piece puts out what is missing of the image of all blocks. -/
theorem update (ht : t.Divisible) (h : Reached t s input out b) (piece : Bytes) :
    Reached t s (input ++ piece) (out ++ (b.update t piece).1) (b.update t piece).2 := by
  obtain ⟨after, image⟩ := h.after.update (resumable_blockwise ht) piece
  rw [update_blockwise, blockwise_apply_whole, blockwise_apply_whole, ← h.out] at image
  rw [update_blockwise] at after
  exact ⟨image.symm, after⟩

theorem serve (ht : t.Divisible) (h : Reached t s input out b) (call : Call) :
    Reached t s (input ++ call.piece) (out ++ released [(b.serve t call).1]) (b.serve t call).2 := by
  cases call with
  | finalize =>
    have nothing : released [b.finalize.1] = [] := by
      unfold Buffered.finalize released
      split_ifs <;> rfl
    rw [Call.piece, Buffered.serve, nothing, List.append_nil, List.append_nil]
    exact h
  | update piece =>
    have answer : released [(b.serve t (.update piece)).1] = (b.update t piece).1 :=
      List.append_nil _
    rw [answer]
    exact h.update ht piece

end Reached

theorem reached_run {t : BlockTransform σ} (ht : t.Divisible) (s : σ) (calls : List Call) :
    Reached t s (taken calls) (released (run t ⟨s, []⟩ calls).1) (run t ⟨s, []⟩ calls).2 := by
  have none : whole t.size [] = [] := List.take_nil
  have start : Reached t s [] [] ⟨s, []⟩ :=
    ⟨by rw [atOnce_eq, if_pos none], After.start (resumable_blockwise ht) s⟩
  exact run_induction (fun _ _ _ call h => h.serve ht call) calls [] [] _ start

/-! ## What the transform is given -/

/-- The state without the record. -/
def forget (b : Buffered (σ × List Bytes)) : Buffered σ := ⟨b.state.1, b.pending⟩

theorem update_recorded (t : BlockTransform σ) (b : Buffered (σ × List Bytes)) (piece : Bytes) :
    (b.update t.recorded piece).1 = (b.forget.update t piece).1 ∧
      (b.update t.recorded piece).2.forget = (b.forget.update t piece).2 := by
  unfold update
  dsimp only [BlockTransform.recorded, forget]
  split_ifs <;> exact ⟨rfl, rfl⟩

theorem serve_recorded (t : BlockTransform σ) (b : Buffered (σ × List Bytes)) (call : Call) :
    (b.serve t.recorded call).1 = (b.forget.serve t call).1 ∧
      (b.serve t.recorded call).2.forget = (b.forget.serve t call).2 := by
  cases call with
  | finalize => exact ⟨rfl, rfl⟩
  | update piece =>
    obtain ⟨out, state⟩ := update_recorded t b piece
    exact ⟨congrArg Except.ok out, state⟩

/-- Keeping a record changes nothing else. -/
theorem run_recorded (t : BlockTransform σ) (b : Buffered (σ × List Bytes)) (calls : List Call) :
    (b.run t.recorded calls).1 = (b.forget.run t calls).1 ∧
      (b.run t.recorded calls).2.forget = (b.forget.run t calls).2 := by
  induction calls generalizing b with
  | nil => exact ⟨rfl, rfl⟩
  | cons call calls ih =>
    obtain ⟨answer, state⟩ := serve_recorded t b call
    obtain ⟨answers, last⟩ := ih (b.serve t.recorded call).2
    rw [state] at answers last
    exact ⟨congrArg₂ List.cons answer answers, last⟩

/-- What was given is what was taken in, less the beginning of a block. -/
structure Given (size : Nat) (input : Bytes) (b : Buffered (σ × List Bytes)) : Prop where
  blocks : ∀ blocks ∈ b.state.2, blocks ≠ [] ∧ size ∣ blocks.length
  all : b.state.2.flatten ++ b.pending = input
  short : b.pending.length < size

namespace Given

variable {t : BlockTransform σ} {size : Nat} {input : Bytes} {b : Buffered (σ × List Bytes)}

theorem update (h : Given t.size input b) (piece : Bytes) :
    Given t.size (input ++ piece) (b.update t.recorded piece).2 := by
  have positive : 0 < t.size := Nat.zero_lt_of_lt h.short
  have input_eq : input ++ piece = b.state.2.flatten ++ (b.pending ++ piece) := by
    rw [← h.all, List.append_assoc]
  have rest := length_remainder_lt positive (b.pending ++ piece)
  unfold Buffered.update
  dsimp only [BlockTransform.recorded]
  split_ifs with cut
  · rw [remainder, cut, List.drop_zero] at rest
    exact ⟨h.blocks, input_eq.symm, rest⟩
  · refine ⟨?_, ?_, rest⟩
    · intro blocks mem
      obtain old | rfl := (List.mem_append.1 mem).imp_right List.mem_singleton.1
      · exact h.blocks blocks old
      · exact ⟨mt whole_eq_nil.1 cut, dvd_length_whole t.size _⟩
    · rw [input_eq, List.flatten_append, List.flatten_singleton, List.append_assoc]
      exact congrArg _ (whole_append_remainder t.size (b.pending ++ piece))

theorem serve (h : Given t.size input b) (call : Call) :
    Given t.size (input ++ call.piece) (b.serve t.recorded call).2 := by
  cases call with
  | finalize =>
    rw [Call.piece, List.append_nil]
    exact h
  | update piece => exact h.update piece

theorem flatten_eq (h : Given size input b) : b.state.2.flatten = whole size input := by
  have front : size ∣ b.state.2.flatten.length := by
    rw [List.length_flatten]
    refine List.dvd_sum fun length mem => ?_
    obtain ⟨blocks, given, rfl⟩ := List.mem_map.1 mem
    exact (h.blocks blocks given).2
  rw [← h.all, whole_append front, whole_eq_nil_of_lt h.short, List.append_nil]

end Given

theorem given_run (t : BlockTransform σ) (ht : 0 < t.size) (s : σ) (calls : List Call) :
    Given t.size (taken calls) (run t.recorded ⟨(s, []), []⟩ calls).2 := by
  have start : Given t.size [] (⟨(s, []), []⟩ : Buffered (σ × List Bytes)) := ⟨nofun, rfl, ht⟩
  exact run_induction (P := fun input _ b => Given t.size input b)
    (fun _ _ _ call h => h.serve call) calls [] [] _ start

/-! ## All of it -/

/-- After any calls, what was put out is the image of the whole blocks of what was taken in; a
piece puts out what the blocks that it completes add to that; to finalize is a failure where a block
is incomplete and makes no difference to what follows; and the transform was only given whole
blocks. -/
theorem run_eq_atOnce {t : BlockTransform σ} (ht : t.Divisible) (s : σ) (past next : List Call)
    (piece : Bytes) :
    let input := taken past
    let cut := input.length / t.size * t.size
    let now := run t ⟨s, []⟩ past
    (released now.1 = (t.atOnce s input).1 ∧ now.2 = ⟨(t.atOnce s input).2, input.drop cut⟩) ∧
      (∃ out, (now.2.serve t (.update piece)).1 = .ok out ∧
        (t.atOnce s (input ++ piece)).1 = (t.atOnce s input).1 ++ out) ∧
      (now.2.serve t .finalize =
          (if t.size ∣ input.length then .ok [] else .error .partialBlock, now.2) ∧
        run t ⟨s, []⟩ (past ++ next) = (now.1 ++ (now.2.run t next).1, (now.2.run t next).2) ∧
        run t ⟨s, []⟩ (past ++ .finalize :: next) =
          (now.1 ++ (now.2.serve t .finalize).1 :: (now.2.run t next).1, (now.2.run t next).2)) ∧
      let record := run t.recorded ⟨(s, []), []⟩ past
      (record.1 = now.1 ∧ record.2.forget = now.2) ∧
        (∀ blocks ∈ record.2.state.2, blocks ≠ [] ∧ t.size ∣ blocks.length) ∧
        record.2.state.2.flatten = input.take cut := by
  intro input cut now
  have reached : Reached t s input (released now.1) now.2 := reached_run ht s past
  have given := given_run t ht.pos s past
  refine ⟨⟨reached.out, ?_⟩, ⟨_, rfl, ?_⟩, ⟨reached.finalize, run_append t _ past next, ?_⟩,
    run_recorded t _ past, given.blocks, ?_⟩
  · rw [drop_div_mul]
    exact reached.eq_mk
  · rw [← reached.out]
    exact (reached.update ht piece).out.symm
  · exact run_append t _ past (.finalize :: next)
  · rw [take_div_mul]
    exact given.flatten_eq

/-- RC2 in chaining mode is fed three octets, finalized in vain, and fed six more. -/
theorem run_eq_atOnce_rc2 :
    let t := Chaining.encryptor (BlockCipher.rc2 40 [1, 2, 3, 4, 5])
    let iv := Bytes.zeros 8
    let past : List Call := [.update [1, 2, 3], .finalize, .update [4, 5, 6, 7, 8, 9]]
    let now := run t ⟨iv, []⟩ past
    t.Divisible ∧ released now.1 = (t.apply iv [1, 2, 3, 4, 5, 6, 7, 8]).1 ∧ now.2.pending = [9] ∧
      now.2.serve t .finalize = (.error .partialBlock, now.2) := by
  intro t iv past now
  have ht : t.Divisible := (Chaining.resumable_encryptor (by decide)).divisible
  have size : t.size = 8 := rfl
  have all : taken past = [1, 2, 3, 4, 5, 6, 7, 8, 9] := rfl
  have image : t.atOnce iv (taken past) = t.apply iv [1, 2, 3, 4, 5, 6, 7, 8] := by
    rw [BlockTransform.atOnce, size, all]
    exact if_neg (List.cons_ne_nil _ _)
  obtain ⟨⟨out, state⟩, -, ⟨ending, -, -⟩, -⟩ := run_eq_atOnce ht iv past [] []
  rw [image, size, all] at state
  rw [image] at out
  rw [size, all] at ending
  exact ⟨ht, out, congrArg Buffered.pending state, ending⟩

end Buffered

end Cryptogram
