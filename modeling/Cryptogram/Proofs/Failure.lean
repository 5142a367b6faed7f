import Mathlib.Data.List.Forall2
import Cryptogram.Failure

/-!
# What failures are allowed

`FailsIn` bounds the failures of a run.  The bound is put together step by step: a run in several
steps fails as one of its steps does.  `Halts` tells where a traversal ends.
-/

namespace Cryptogram

/-- Every failure of a run is an allowed one. -/
def FailsIn (allowed : Failure → Prop) {α : Type} (run : Except Failure α) : Prop :=
  ∀ f, run = .error f → allowed f

namespace FailsIn

variable {allowed wider : Failure → Prop} {α β : Type} {run : Except Failure α}
  {next : α → Except Failure β}

theorem ok (a : α) : FailsIn allowed (.ok a) := by
  rintro _ ⟨⟩

theorem error {f : Failure} (h : allowed f) : FailsIn allowed (.error f : Except Failure α) := by
  rintro _ ⟨⟩
  exact h

theorem mono (h : FailsIn allowed run) (wide : ∀ f, allowed f → wider f) : FailsIn wider run :=
  fun f failed => wide f (h f failed)

/-- The second step is only taken with what the first one gave. -/
theorem bind (first : FailsIn allowed run) (second : ∀ a, run = .ok a → FailsIn allowed (next a)) :
    FailsIn allowed (run >>= next) := by
  cases e : run with
  | error f => exact .error (first f e)
  | ok a => exact second a e

theorem map (h : FailsIn allowed run) (f : α → β) : FailsIn allowed (run.map f) := by
  cases e : run with
  | error failure => exact .error (h failure e)
  | ok a => exact .ok (f a)

theorem mapM {xs : List α} (h : ∀ x ∈ xs, FailsIn allowed (next x)) :
    FailsIn allowed (xs.mapM next) := by
  induction xs with
  | nil => exact .ok []
  | cons x xs ih =>
    obtain ⟨first, others⟩ := List.forall_mem_cons.1 h
    rw [List.mapM_cons]
    exact first.bind fun b _ => (ih others).bind fun bs _ => .ok (b :: bs)

end FailsIn

/-! ## Failures of some sort -/

variable {α β : Type}

/-- Whether a run fails with a failure of some sort. -/
def FailsWith (sort : Failure → Prop) (run : Except Failure α) : Prop :=
  ∃ f, run = .error f ∧ sort f

section

variable {sort : Failure → Prop} {run : Except Failure α} {next : α → Except Failure β}

theorem failsWith_error {f : Failure} :
    FailsWith sort (.error f : Except Failure α) ↔ sort f := by
  simp [FailsWith]

theorem not_failsWith_ok (a : α) : ¬ FailsWith sort (.ok a) := by
  simp [FailsWith]

theorem failsWith_bind :
    FailsWith sort (run >>= next) ↔ FailsWith sort run ∨ ∃ a, run = .ok a ∧ FailsWith sort (next a) := by
  cases run with
  | error f => simp [FailsWith, bind, Except.bind]
  | ok a => simp [FailsWith, bind, Except.bind]

/-- A second step that never fails so does not count. -/
theorem failsWith_bind_left (quiet : ∀ a, ¬ FailsWith sort (next a)) :
    FailsWith sort (run >>= next) ↔ FailsWith sort run :=
  failsWith_bind.trans (or_iff_left (not_exists.2 fun a both => quiet a both.2))

/-- Behind a first step that never fails so, only the second counts. -/
theorem failsWith_bind_right (quiet : ¬ FailsWith sort run) :
    FailsWith sort (run >>= next) ↔ ∃ a, run = .ok a ∧ FailsWith sort (next a) :=
  failsWith_bind.trans (or_iff_right quiet)

theorem FailsIn.exists_ok (h : FailsIn sort run) (other : ¬ FailsWith sort run) :
    ∃ a, run = .ok a := by
  cases run with
  | error f => exact absurd (failsWith_error.2 (h f rfl)) other
  | ok a => exact ⟨a, rfl⟩

/-- Where the first step can only fail with that sort, the second counts only behind it. -/
theorem failsWith_bind_iff (first : FailsIn sort run) {rule : Prop}
    (second : ∀ a, run = .ok a → (FailsWith sort (next a) ↔ rule)) :
    FailsWith sort (run >>= next) ↔ FailsWith sort run ∨ rule := by
  rw [failsWith_bind]
  refine or_congr_right' fun other => ?_
  obtain ⟨a, ended⟩ := first.exists_ok other
  rw [← second a ended]
  constructor
  · rintro ⟨_, same, failed⟩
    rw [ended] at same
    cases same
    exact failed
  · exact fun failed => ⟨a, ended, failed⟩

end

theorem exists_of_bind_eq_ok {run : Except Failure α} {next : α → Except Failure β} {b : β}
    (h : (run >>= next) = .ok b) : ∃ a, run = .ok a ∧ next a = .ok b := by
  cases run with
  | error f => cases h
  | ok a => exact ⟨a, rfl, h⟩

/-! ## Traversals -/

/-- A list whose elements are passed until one brings the traversal to its end. -/
inductive Halts (passes halts : α → Prop) : List α → Prop
  | here {x : α} {xs : List α} (h : halts x) : Halts passes halts (x :: xs)
  | later {x : α} {xs : List α} (h : passes x) (rest : Halts passes halts xs) :
      Halts passes halts (x :: xs)

theorem halts_cons {passes halts : α → Prop} {x : α} {xs : List α} :
    Halts passes halts (x :: xs) ↔ halts x ∨ passes x ∧ Halts passes halts xs := by
  constructor
  · rintro (h | ⟨h, rest⟩)
    · exact .inl h
    · exact .inr ⟨h, rest⟩
  · rintro (h | ⟨h, rest⟩)
    · exact .here h
    · exact .later h rest

/-- Where everything passes that does not halt, it does not matter what comes first. -/
theorem halts_iff_exists {passes halts : α → Prop} {xs : List α}
    (either : ∀ x ∈ xs, ¬ halts x → passes x) :
    Halts passes halts xs ↔ ∃ x ∈ xs, halts x := by
  induction xs with
  | nil => exact iff_of_false (by rintro ⟨⟩) (by simp)
  | cons x xs ih =>
    obtain ⟨first, others⟩ := List.forall_mem_cons.1 either
    rw [halts_cons, ih others, List.exists_mem_cons_iff]
    exact or_congr_right' fun other => and_iff_right (first other)

/-- A traversal fails as the first element does that does not pass. -/
theorem failsWith_mapM {sort : Failure → Prop} {f : α → Except Failure β} {xs : List α} :
    FailsWith sort (xs.mapM f) ↔
      Halts (fun x => ∃ b, f x = .ok b) (fun x => FailsWith sort (f x)) xs := by
  induction xs with
  | nil => exact iff_of_false (not_failsWith_ok _) (by rintro ⟨⟩)
  | cons x xs ih =>
    rw [List.mapM_cons, failsWith_bind, halts_cons, ← ih]
    refine or_congr_right ?_
    rw [← exists_and_right]
    refine exists_congr fun b => and_congr_right fun _ => ?_
    exact failsWith_bind_left fun bs => not_failsWith_ok _

/-- A traversal comes to its end if every step does, and gives what they give in order. -/
theorem mapM_eq_ok_iff {f : α → Except Failure β} {xs : List α} {ys : List β} :
    xs.mapM f = .ok ys ↔ List.Forall₂ (fun x y => f x = .ok y) xs ys := by
  induction xs generalizing ys with
  | nil =>
    rw [List.forall₂_nil_left_iff]
    exact ⟨fun h => (Except.ok.inj h).symm, fun h => by rw [h]; rfl⟩
  | cons x xs ih =>
    rw [List.mapM_cons, List.forall₂_cons_left_iff]
    constructor
    · intro h
      obtain ⟨b, first, h⟩ := exists_of_bind_eq_ok h
      obtain ⟨bs, others, h⟩ := exists_of_bind_eq_ok h
      cases h
      exact ⟨b, bs, first, ih.1 others, rfl⟩
    · rintro ⟨b, bs, first, others, rfl⟩
      rw [first, ih.2 others]
      rfl

/-- What a traversal gives was given for its elements. -/
theorem exists_of_mem_mapM {f : α → Except Failure β} {xs : List α} {ys : List β}
    (h : xs.mapM f = .ok ys) : ∀ y ∈ ys, ∃ x ∈ xs, f x = .ok y := by
  induction xs generalizing ys with
  | nil =>
    cases h
    exact List.forall_mem_nil _
  | cons x xs ih =>
    rw [List.mapM_cons] at h
    obtain ⟨b, first, h⟩ := exists_of_bind_eq_ok h
    obtain ⟨bs, others, h⟩ := exists_of_bind_eq_ok h
    cases h
    exact List.forall_mem_cons.2
      ⟨⟨x, List.mem_cons_self, first⟩, fun y hy => (ih others y hy).imp fun x both =>
        ⟨List.mem_cons_of_mem _ both.1, both.2⟩⟩

end Cryptogram
