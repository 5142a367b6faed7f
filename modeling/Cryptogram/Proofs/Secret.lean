import Cryptogram.Proofs.Failure
import Cryptogram.Proofs.Text.Hex
import Cryptogram.Secret

/-!
# What secrets reveal

A secret is made of exactly the texts that are hexadecimal (`Secret.ofHex_accepts_hexadecimal`).  A
cleared secret answers as any other of its size does (`Secret.clearedAnswer`).  So two secrets of one
size answer any sequence of operations alike that asks for their content only after it has cleared them
(`Secret.Alike.run_eq`).
-/

namespace Cryptogram.Secret

variable {s a b : Secret}

/-! ## Making -/

theorem ofHex_eq_ok_iff {text : String} :
    ofHex text = .ok s ↔ s.cleared = false ∧ Text.Spells (Text.strip text.toList) s.content := by
  rw [← Text.ofHex_eq_ok_iff]
  unfold ofHex
  cases Text.ofHex (Text.strip text.toList) with
  | error fault => exact iff_of_false nofun nofun
  | ok octets =>
    obtain ⟨content, cleared⟩ := s
    simp [and_comm, eq_comm]

theorem failsIn_ofHex (text : String) :
    FailsIn (fun f => f.kind = .outside .value) (ofHex text) := by
  unfold ofHex
  cases Text.ofHex (Text.strip text.toList) with
  | ok octets => exact .ok _
  | error fault => cases fault <;> exact .error rfl

/-- A text makes a secret exactly if it consists of an even number of hexadecimal digits of either case,
perhaps none, with white space around them, and the secret is what they spell; every other text is a
wrong value.  Octets can be given in their hexadecimal form in any case, with white space around it. -/
theorem ofHex_accepts_hexadecimal (text : String) :
    (∀ s, ofHex text = .ok s ↔ s.cleared = false ∧
        ∃ digits, Text.Around Text.isBlank text.toList digits ∧ Text.Spells digits s.content) ∧
      ((∃ s, ofHex text = .ok s) ↔ ∃ digits, Text.Around Text.isBlank text.toList digits ∧
        digits.length % 2 = 0 ∧ ∀ c ∈ digits, ∃ n, Text.DigitFor n c) ∧
      FailsIn (fun f => f.kind = .outside .value) (ofHex text) ∧
      ∀ octets cased, Text.Around Text.isBlank text.toList cased →
        List.Forall₂ (fun c d => c = d ∨ c = d.toUpper) cased (Text.hex octets).toList →
        ofHex text = .ok ⟨octets, false⟩ := by
  have made (s : Secret) : ofHex text = .ok s ↔ s.cleared = false ∧
      ∃ digits, Text.Around Text.isBlank text.toList digits ∧ Text.Spells digits s.content :=
    ofHex_eq_ok_iff.trans (and_congr_right' Text.spells_strip_iff)
  refine ⟨made, ?_, failsIn_ofHex text, ?_⟩
  · simp only [← Text.exists_spells_iff, made]
    constructor
    · rintro ⟨s, -, digits, around, spells⟩
      exact ⟨digits, around, _, spells⟩
    · rintro ⟨digits, around, octets, spells⟩
      exact ⟨⟨octets, false⟩, rfl, digits, around, spells⟩
  · intro octets cased around written
    exact (made _).2 ⟨rfl, cased, around, Text.spells_hex written⟩

example : ofHex " 00fF\n" = .ok ⟨[0x00, 0xff], false⟩ := by decide

/-! ## Clearing -/

/-- A cleared secret, of which only the length can be learned. -/
def Wiped (s : Secret) : Prop := s.cleared = true ∧ s.content = Bytes.zeros s.content.length

theorem wiped_clear (uncleared : s.cleared = false) : s.clear.Wiped := by
  unfold clear
  rw [if_neg (by simp [uncleared])]
  exact ⟨rfl, by simp⟩

theorem Wiped.clear_eq (h : s.Wiped) : s.clear = s := by
  unfold clear
  rw [if_pos h.1]

theorem Wiped.eq (h : s.Wiped) : s = ⟨Bytes.zeros s.size, true⟩ := by
  obtain ⟨content, cleared⟩ := s
  obtain ⟨rfl, zeros⟩ := h
  exact congrArg (Secret.mk · true) zeros

theorem clear_clear (s : Secret) : s.clear.clear = s.clear := by
  unfold clear
  split_ifs <;> first
    | rfl
    | contradiction

@[simp] theorem cleared_clear (s : Secret) : s.clear.cleared = true := by
  unfold clear
  split_ifs with already
  · exact already
  · rfl

@[simp] theorem size_clear (s : Secret) : s.clear.size = s.size := by
  unfold clear size
  split_ifs
  · rfl
  · exact Bytes.length_zeros _

/-! ## Operations -/

/-- Whether an operation clears the secret. -/
def Operation.clears : Operation → Bool
  | .clear | .leave | .scope => true
  | _ => false

theorem clears_of_clear {op : Operation} (h : op = .clear ∨ op = .leave) : op.clears = true := by
  rcases h with rfl | rfl <;> rfl

/-- Whether the answer of an operation may depend on what the octets are. -/
def Operation.asksContent : Operation → Bool
  | .octets | .decode _ | .hasOctets _ | .same _ => true
  | _ => false

/-- The answer of an operation on a cleared secret of this size. -/
def clearedAnswer (size : Nat) : Operation → Except Failure Answer
  | .octets | .decode _ => .error .secretCleared
  | .size => .ok (.number size)
  | .bits => .ok (.number (8 * size))
  | .isCleared => .ok (.flag true)
  | .text => .ok (.text "SecretValue(<cleared>)")
  | .clear | .leave => .ok .nothing
  | .isSet | .scope | .hasOctets _ | .same _ | .isText _ => .ok (.flag false)
  | .hash => .error .secretUnhashable

/-- The secret after operations one after the other. -/
def afterAll (s : Secret) (ops : List Operation) : Secret := ops.foldl after s

theorem after_eq (s : Secret) (op : Operation) :
    s.after op = if op.clears then s.clear else s := by
  cases op <;> rfl

theorem size_after (s : Secret) (op : Operation) : (s.after op).size = s.size := by
  rw [after_eq]
  split_ifs
  · exact size_clear s
  · rfl

theorem cleared_after (s : Secret) (op : Operation) :
    (s.after op).cleared = (s.cleared || op.clears) := by
  rw [after_eq]
  split_ifs with clears
  · simp [clears]
  · simp [clears]

theorem Wiped.afterAll_eq (h : s.Wiped) (ops : List Operation) : s.afterAll ops = s := by
  have unchanged (op : Operation) : s.after op = s := by
    rw [after_eq, h.clear_eq, ite_self]
  induction ops with
  | nil => rfl
  | cons op ops ih => rwa [afterAll, List.foldl_cons, unchanged]

theorem answer_of_cleared (h : s.cleared = true) (op : Operation) :
    s.answer op = clearedAnswer s.size op := by
  cases op <;>
    simp [answer, clearedAnswer, octets, decode, isSet, bits, text, hasOctets, same, h, Except.map,
      bind, Except.bind]

theorem run_of_cleared (h : s.cleared = true) (ops : List Operation) :
    s.run ops = ops.map (clearedAnswer s.size) := by
  induction ops generalizing s with
  | nil => rfl
  | cons op ops ih =>
    have still : (s.after op).cleared = true := by simp [cleared_after, h]
    rw [run, ih still, size_after, answer_of_cleared h, List.map_cons]

theorem run_cons_of_clear {first : Operation} (h : first = .clear ∨ first = .leave)
    (ops : List Operation) :
    s.run (first :: ops) = .ok .nothing :: ops.map (clearedAnswer s.size) := by
  have cleared : (s.after first).cleared = true := by rw [cleared_after, clears_of_clear h, Bool.or_true]
  rw [run, run_of_cleared cleared, size_after]
  rcases h with rfl | rfl <;> rfl

/-! ## Secrets that occur -/

/-- A secret that was made of octets and used since. -/
inductive Occurs : Secret → Prop
  | made (octets : Bytes) : Occurs ⟨octets, false⟩
  | used {s : Secret} (h : Occurs s) (op : Operation) : Occurs (s.after op)

namespace Occurs

theorem wiped (h : s.Occurs) (cleared : s.cleared = true) : s.Wiped := by
  induction h with
  | made octets => cases cleared
  | @used s _ op ih =>
    cases before : s.cleared with
    | true =>
      -- a cleared secret is not cleared again, so the zeros are those of the first time
      rw [after_eq, (ih before).clear_eq, ite_self]
      exact ih before
    | false =>
      rw [cleared_after, before, Bool.false_or] at cleared
      rw [after_eq, if_pos cleared]
      exact wiped_clear before

theorem clear_eq (h : s.Occurs) : s.clear = ⟨Bytes.zeros s.size, true⟩ := by
  rw [← size_clear s]
  exact ((h.used .clear).wiped (cleared_clear s)).eq

theorem afterAll_cons (h : s.Occurs) {first : Operation} (clears : first.clears = true)
    (ops : List Operation) : s.afterAll (first :: ops) = ⟨Bytes.zeros s.size, true⟩ := by
  have wiped : (s.after first).Wiped := (h.used first).wiped (by rw [cleared_after, clears, Bool.or_true])
  calc s.afterAll (first :: ops) = (s.after first).afterAll ops := rfl
    _ = s.after first := wiped.afterAll_eq ops
    _ = s.clear := by rw [after_eq, if_pos clears]
    _ = ⟨Bytes.zeros s.size, true⟩ := h.clear_eq

end Occurs

/-! ## Two secrets -/

/-- Secrets that only their content tells apart. -/
structure Alike (a b : Secret) : Prop where
  size : a.size = b.size
  cleared : a.cleared = b.cleared

/-- Operations that ask for the content of a secret only when it is cleared, as it is from the beginning
or not. -/
def Discreet : (cleared : Bool) → List Operation → Prop
  | _, [] => True
  | cleared, op :: rest =>
    (cleared = true ∨ op.asksContent = false) ∧ Discreet (cleared || op.clears) rest

namespace Alike

theorem after (h : a.Alike b) (op : Operation) : (a.after op).Alike (b.after op) where
  size := by rw [size_after, size_after, h.size]
  cleared := by rw [cleared_after, cleared_after, h.cleared]

theorem isSet_eq (h : a.Alike b) : a.isSet = b.isSet := by
  have both : a.content = [] ↔ b.content = [] := by
    rw [← List.length_eq_zero_iff, ← List.length_eq_zero_iff]
    exact iff_of_eq (congrArg (· = 0) h.size)
  simp only [isSet, h.cleared, ne_eq, both]

theorem answer_eq (h : a.Alike b) {op : Operation}
    (discreet : a.cleared = true ∨ op.asksContent = false) : a.answer op = b.answer op := by
  rcases discreet with cleared | unasked
  · rw [answer_of_cleared cleared, answer_of_cleared (h.cleared ▸ cleared), h.size]
  · cases op with
    | octets | decode | hasOctets | same => cases unasked
    | _ => simp only [answer, h.size, h.cleared, h.isSet_eq, bits, text]

/-- Operations that do not ask for the content cannot tell the secrets apart. -/
theorem run_eq (h : a.Alike b) {ops : List Operation} (discreet : Discreet a.cleared ops) :
    a.run ops = b.run ops := by
  induction ops generalizing a b with
  | nil => rfl
  | cons op ops ih =>
    obtain ⟨first, rest⟩ := discreet
    rw [← cleared_after] at rest
    rw [run, run, h.answer_eq first, ih (h.after op) rest]

end Alike

/-- Secrets of one size, cleared or left, answer everything alike from then on: that there is no content,
that nothing is equal to them, and how long they are; their octets are zeros.  Before, only questions
about the content may tell them apart: an uncleared secret is equal to its octets and to the uncleared
secrets that consist of them. -/
theorem cleared_reveals_size (ha : a.Occurs) (hb : b.Occurs) (size : a.size = b.size) :
    (∀ first, first = Operation.clear ∨ first = Operation.leave → ∀ ops,
        a.run (first :: ops) = b.run (first :: ops) ∧
          a.run (first :: ops) = .ok .nothing :: ops.map (clearedAnswer a.size) ∧
          a.afterAll (first :: ops) = ⟨Bytes.zeros a.size, true⟩ ∧
          b.afterAll (first :: ops) = ⟨Bytes.zeros a.size, true⟩) ∧
      (a.cleared = b.cleared → ∀ ops, Discreet a.cleared ops → a.run ops = b.run ops) ∧
      (a.cleared = false → (∀ octets, a.hasOctets octets = true ↔ a.content = octets) ∧
        ∀ other, a.same other = true ↔ other.cleared = false ∧ a.content = other.content) := by
  refine ⟨fun first h ops => ⟨?_, run_cons_of_clear h ops, ?_, ?_⟩,
    fun cleared ops discreet => Alike.run_eq ⟨size, cleared⟩ discreet, fun uncleared => ⟨?_, ?_⟩⟩
  · rw [run_cons_of_clear h, run_cons_of_clear h, size]
  · exact ha.afterAll_cons (clears_of_clear h) ops
  · rw [size]
    exact hb.afterAll_cons (clears_of_clear h) ops
  · simp [hasOctets, uncleared]
  · simp [same, uncleared]

/-- Two letters, cleared. -/
theorem cleared_reveals_size_letters :
    let asked : List Operation := [.clear, .octets, .hasOctets [0], .same ⟨[0], false⟩, .size, .text]
    let answers : List (Except Failure Answer) :=
      [.ok .nothing, .error .secretCleared, .ok (.flag false), .ok (.flag false), .ok (.number 1),
        .ok (.text "SecretValue(<cleared>)")]
    (⟨[0x61], false⟩ : Secret).run asked = answers ∧ (⟨[0x62], false⟩ : Secret).run asked = answers := by
  intro asked answers
  obtain ⟨cleared, -⟩ := cleared_reveals_size (.made [0x61]) (.made [0x62]) rfl
  obtain ⟨same, answered, -⟩ := cleared .clear (.inl rfl) asked.tail
  exact ⟨answered, same.symm.trans answered⟩

end Cryptogram.Secret
