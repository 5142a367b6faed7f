import Mathlib.Tactic.Ring
import Cryptogram.Bytes

/-!
# Readers

A reader is anything that octets are read from.  A read that asks for some is given a beginning of
the octets ahead, none only at the end; how many it is given may depend on what it asks for and on
everything that happened before.  Reading until all that was asked for is there makes up for that
(`readExactly_eq`), so that what is read size by size are slices of the octets ahead that follow one
upon the other (`readEach_eq`).
-/

namespace Cryptogram

/-- Something that octets are read from. -/
structure Reader (σ : Type) where
  /-- The octets that were not read yet. -/
  ahead : σ → Bytes
  /-- What a read is given that asks for a number of octets, and the state after it. -/
  read : σ → Nat → Bytes × σ
  read_append_ahead : ∀ s n, 0 < n → (read s n).1 ++ ahead (read s n).2 = ahead s
  length_read_le : ∀ s n, 0 < n → (read s n).1.length ≤ n
  ahead_eq_nil : ∀ s n, 0 < n → (read s n).1 = [] → ahead s = []

namespace Reader

variable {σ : Type}

/-! ## Reading on -/

/-- Reads until `n` octets are there, or until a read is given none. -/
def readExactly (r : Reader σ) (s : σ) (n : Nat) : Bytes × σ :=
  if n = 0 then ([], s)
  else
    let (chunk, s) := r.read s n
    if chunk = [] then ([], s)
    else
      let (more, s) := r.readExactly s (n - chunk.length)
      (chunk ++ more, s)
termination_by n
decreasing_by
  -- the loop only goes on after a read that was given something
  have := List.length_pos_iff.2 ‹chunk ≠ []›
  omega

theorem read_eq {r : Reader σ} {s next : σ} {n : Nat} {chunk : Bytes} (h : n ≠ 0)
    (asked : r.read s n = (chunk, next)) :
    chunk ++ r.ahead next = r.ahead s ∧ chunk.length ≤ n ∧ (chunk = [] → r.ahead s = []) := by
  have pos := Nat.pos_of_ne_zero h
  have front := r.read_append_ahead s n pos
  have width := r.length_read_le s n pos
  have ended := r.ahead_eq_nil s n pos
  rw [asked] at front width ended
  exact ⟨front, width, ended⟩

/-- Reading exactly takes from the front what it asks for, or what there is. -/
theorem readExactly_eq (r : Reader σ) (s : σ) (n : Nat) :
    (r.readExactly s n).1 = (r.ahead s).take n ∧
      r.ahead (r.readExactly s n).2 = (r.ahead s).drop n := by
  fun_induction readExactly r s n with
  | case1 s => exact ⟨rfl, rfl⟩
  | case2 s n some next asked =>
    obtain ⟨front, -, ended⟩ := read_eq some asked
    rw [List.nil_append] at front
    rw [front, ended rfl]
    exact ⟨List.take_nil.symm, List.drop_nil.symm⟩
  | case3 s n some chunk next asked given more last rest ih =>
    obtain ⟨front, width, -⟩ := read_eq some asked
    rw [rest] at ih
    obtain ⟨data, behind⟩ : more = _ ∧ r.ahead last = _ := ih
    constructor
    · show chunk ++ more = _
      rw [← front, data, List.take_append, List.take_of_length_le width]
    · show r.ahead last = _
      rw [← front, behind, List.drop_append, List.drop_eq_nil_of_le width, List.nil_append]

end Reader

/-! ## Slices -/

/-- The slices of a string with given sizes, each of which begins where the sizes before it add up. -/
def slices (content : Bytes) (sizes : List Nat) : List Bytes :=
  sizes.mapIdx fun i n => (content.drop (sizes.take i).sum).take n

section

variable {content : Bytes} {sizes : List Nat}

theorem slices_cons (content : Bytes) (n : Nat) (sizes : List Nat) :
    slices content (n :: sizes) = content.take n :: slices (content.drop n) sizes := by
  simp only [slices, List.mapIdx_cons, List.take_zero, List.sum_nil, List.drop_zero,
    List.take_succ_cons, List.sum_cons, List.drop_drop]

theorem take_slices (content : Bytes) (sizes : List Nat) (k : Nat) :
    (slices content sizes).take k = slices content (sizes.take k) := by
  induction k generalizing content sizes with
  | zero => rfl
  | succ k ih =>
    cases sizes with
    | nil => rfl
    | cons n sizes => rw [slices_cons, List.take_succ_cons, ih, List.take_succ_cons, slices_cons]

theorem drop_slices (content : Bytes) (sizes : List Nat) (k : Nat) :
    (slices content sizes).drop k = slices (content.drop (sizes.take k).sum) (sizes.drop k) := by
  induction k generalizing content sizes with
  | zero => rfl
  | succ k ih =>
    cases sizes with
    | nil => rfl
    | cons n sizes =>
      rw [slices_cons, List.drop_succ_cons, ih, List.drop_drop, List.take_succ_cons, List.sum_cons,
        List.drop_succ_cons]

/-- Slices one upon the other make up the beginning of the string. -/
theorem flatten_slices (content : Bytes) (sizes : List Nat) :
    (slices content sizes).flatten = content.take sizes.sum := by
  induction sizes generalizing content with
  | nil => exact List.take_zero.symm
  | cons n sizes ih => rw [slices_cons, List.flatten_cons, ih, List.sum_cons, List.take_add]

theorem eq_nil_of_mem_slices {slice : Bytes} (h : slice ∈ slices [] sizes) : slice = [] := by
  obtain ⟨i, _, rfl⟩ := List.mem_mapIdx.1 h
  rw [List.drop_nil, List.take_nil]

/-- A slice is shorter than its size only where the string ends. -/
theorem length_le_of_length_lt {i n : Nat} {slice : Bytes} (size : sizes[i]? = some n)
    (found : (slices content sizes)[i]? = some slice) (short : slice.length < n) :
    content.length ≤ (sizes.take (i + 1)).sum := by
  rw [slices, List.getElem?_mapIdx, size, Option.map_some, Option.some_inj] at found
  rw [← found, List.length_take, List.length_drop] at short
  rw [List.take_add_one, size, List.sum_append, Option.toList_some, List.sum_singleton]
  omega

end

/-! ## Size by size -/

namespace Reader

variable {σ : Type}

/-- What is read size by size, and the state after it. -/
def readEach (r : Reader σ) : (s : σ) → (sizes : List Nat) → List Bytes × σ
  | s, [] => ([], s)
  | s, n :: sizes =>
    let (result, s) := r.readExactly s n
    let (results, s) := r.readEach s sizes
    (result :: results, s)

/-- Reading size by size gives the slices of what is ahead and goes on right behind them. -/
theorem readEach_eq (r : Reader σ) (s : σ) (sizes : List Nat) :
    (r.readEach s sizes).1 = slices (r.ahead s) sizes ∧
      r.ahead (r.readEach s sizes).2 = (r.ahead s).drop sizes.sum := by
  induction sizes generalizing s with
  | nil => exact ⟨rfl, rfl⟩
  | cons n sizes ih =>
    obtain ⟨data, behind⟩ := r.readExactly_eq s n
    obtain ⟨results, last⟩ := ih (r.readExactly s n).2
    rw [behind] at results last
    constructor
    · rw [slices_cons, ← data, ← results]
      rfl
    · rw [List.sum_cons, ← List.drop_drop, ← last]
      rfl

end Reader

end Cryptogram
