import Mathlib.Tactic.Ring
import Cryptogram.Proofs.Reader
import Cryptogram.Source

/-!
# Reading sources

However few octets each read is given, the pieces of a source are the octets that it held
(`flatten_chunks`), and `readExactly` takes what it asked for from the front (`readExactly_eq`).
Read size by size, a source is cut into slices, and so is anything else that octets are read from
(`readEach_eq_slices`).
-/

namespace Cryptogram.Source

theorem rest_read (s : Source) (n : Nat) : (s.read n).1 ++ (s.read n).2.rest = s.rest :=
  List.take_append_drop _ _

theorem grant_pos (s : Source) {n : Nat} (h : 1 ≤ n) : 1 ≤ s.grant n := by
  unfold grant
  cases s.limit s.reads with
  | none => exact h
  | some most => exact Nat.le_min.2 ⟨h, Nat.le_max_left 1 most⟩

theorem grant_le (s : Source) (n : Nat) : s.grant n ≤ n := by
  unfold grant
  cases s.limit s.reads with
  | none => exact le_rfl
  | some most => exact Nat.min_le_left n _

/-- A read that asks for something comes back empty only at the end. -/
theorem read_eq_nil (s : Source) {n : Nat} (h : 1 ≤ n) : (s.read n).1 = [] ↔ s.rest = [] := by
  have := s.grant_pos h
  rw [read, List.take_eq_nil_iff]
  constructor
  · rintro (e | e)
    · omega
    · exact e
  · exact .inr

theorem flatten_chunksWithin {size : Nat} (h : 1 ≤ size) {fuel : Nat} (s : Source)
    (hf : s.rest.length ≤ fuel) : (chunksWithin size fuel s).flatten = s.rest := by
  induction fuel generalizing s with
  | zero => exact (List.length_eq_zero_iff.1 (by omega)).symm
  | succ fuel ih =>
    rw [chunksWithin]
    dsimp only
    split_ifs with e
    · exact ((s.read_eq_nil h).1 e).symm
    · have total := congrArg List.length (s.rest_read size)
      have pos := List.length_pos_iff.2 e
      rw [List.length_append] at total
      rw [List.flatten_cons, ih _ (by omega), rest_read]

/-- The pieces of a source make up what it held. -/
theorem flatten_chunks (s : Source) {size : Nat} (h : 1 ≤ size) :
    (s.chunks size).flatten = s.rest :=
  flatten_chunksWithin h s le_rfl

/-- A source is a reader. -/
def reader : Reader Source where
  ahead := Source.rest
  read := Source.read
  read_append_ahead s n _ := s.rest_read n
  length_read_le s n _ := (List.length_take_le _ _).trans (s.grant_le n)
  ahead_eq_nil s _ h := (s.read_eq_nil h).1

theorem reader_read (s : Source) (n : Nat) : reader.read s n = s.read n := rfl

/-- As many reads as octets are wanted are enough: the reads never run out before the octets do. -/
theorem gather_eq {fuel want : Nat} (s : Source) (h : want ≤ fuel) :
    gather fuel want s = reader.readExactly s want := by
  induction fuel generalizing want s with
  | zero =>
    obtain rfl : want = 0 := by omega
    rw [Reader.readExactly]
    rfl
  | succ fuel ih =>
    rw [gather, Reader.readExactly, reader_read]
    dsimp only
    split_ifs with all ended
    · rfl
    · rfl
    · -- a read that goes on was given an octet, so that less is wanted than fuel is left
      have given := List.length_pos_iff.2 ended
      rw [ih (s.read want).2 (by omega)]

theorem readExactly_eq_reader (s : Source) (n : Nat) :
    s.readExactly n = reader.readExactly s n :=
  gather_eq s le_rfl

/-- Reading `n` octets takes them from the front. -/
theorem readExactly_eq (s : Source) (n : Nat) :
    (s.readExactly n).1 = s.rest.take n ∧ (s.readExactly n).2.rest = s.rest.drop n := by
  rw [readExactly_eq_reader]
  exact reader.readExactly_eq s n

/-- What is read size by size are the slices of what was ahead, and reading goes on right behind
them; a slice is short only where the octets end, and those after it are empty.  So it makes no
difference how many octets each read was given, nor whether a source or another reader gave them. -/
theorem readEach_eq_slices :
    (∀ (source : Source) (n : Nat), source.readExactly n = reader.readExactly source n) ∧
      ∀ {σ : Type} (r : Reader σ) (s : σ) (sizes : List Nat),
        let content := r.ahead s
        let results := (r.readEach s sizes).1
        let behind := r.ahead (r.readEach s sizes).2
        results = slices content sizes ∧
          (behind = content.drop sizes.sum ∧ results.flatten ++ behind = content) ∧
          (∀ i n result, sizes[i]? = some n → results[i]? = some result → result.length < n →
            (results.take (i + 1)).flatten = content ∧ ∀ later ∈ results.drop (i + 1), later = []) ∧
          ∀ {τ : Type} (other : Reader τ) (t : τ), other.ahead t = content →
            (other.readEach t sizes).1 = results ∧
              other.ahead (other.readEach t sizes).2 = behind := by
  refine ⟨readExactly_eq_reader, fun {σ} r s sizes => ?_⟩
  intro content results behind
  obtain ⟨cut, place⟩ : results = slices content sizes ∧ behind = content.drop sizes.sum :=
    r.readEach_eq s sizes
  refine ⟨cut, ⟨place, ?_⟩, ?_, ?_⟩
  · rw [cut, place, flatten_slices, List.take_append_drop]
  · intro i n result size found short
    rw [cut] at found ⊢
    have reached := length_le_of_length_lt size found short
    constructor
    · rw [take_slices, flatten_slices, List.take_of_length_le reached]
    · intro later mem
      rw [drop_slices, List.drop_eq_nil_of_le reached] at mem
      exact eq_nil_of_mem_slices mem
  · intro τ other t same
    obtain ⟨cut', place'⟩ := other.readEach_eq t sizes
    rw [same] at cut' place'
    exact ⟨cut'.trans cut.symm, place'.trans place.symm⟩

/-- Six octets in sizes of four, four and two, one octet at a time and all at once. -/
theorem readEach_eq_slices_six :
    let single : Source := { rest := [97, 98, 99, 100, 101, 102], limit := fun _ => some 1 }
    let whole : Source := { rest := [97, 98, 99, 100, 101, 102] }
    let results := [[97, 98, 99, 100], [101, 102], []]
    (reader.readEach single [4, 4, 2]).1 = results ∧ (reader.readEach whole [4, 4, 2]).1 = results ∧
      (reader.readEach single [4, 4, 2]).2.rest = [] ∧ (results.take 2).flatten = single.rest ∧
      reader.readExactly single 4 = single.readExactly 4 := by
  intro single whole results
  obtain ⟨running, each⟩ := readEach_eq_slices
  obtain ⟨cut, ⟨behind, -⟩, short, alike⟩ := each reader single [4, 4, 2]
  have cut : (reader.readEach single [4, 4, 2]).1 = results := cut.trans (by decide)
  rw [cut] at short alike
  obtain ⟨ended, -⟩ := short 1 4 [101, 102] rfl rfl (by decide)
  obtain ⟨same, -⟩ := alike reader whole rfl
  exact ⟨cut, same, behind.trans (by decide), ended, (running single 4).symm⟩

end Cryptogram.Source
