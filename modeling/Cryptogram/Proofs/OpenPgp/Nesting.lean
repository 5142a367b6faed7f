import Cryptogram.Proofs.OpenPgp.Failures

/-!
# Compressed packets

Packets that hold others in compressed form have their content, whatever is skipped in front of the
compressed packet and whatever stands behind it (`literalWithin_layer`).  So it makes no difference to
the literal data how often packets are compressed (`literal_of_wraps`), as long as they are not nested
too deeply.
-/

namespace Cryptogram.Message

variable {inner outer unpacked body : Bytes} {ps skipped behind : List Packet} {p : Packet} {m n : Nat}

/-! ## The first packet that is not skipped -/

theorem dropWhile_isSkipped (front : ∀ q ∈ skipped, isSkipped q = true) (counts : isSkipped p = false) :
    (skipped ++ p :: behind).dropWhile isSkipped = p :: behind := by
  rw [List.dropWhile_append_of_pos front, List.dropWhile_cons_of_neg (by rw [counts]; decide)]

theorem isSkipped_of_literal (h : p.tag = Tag.literal) : isSkipped p = false := by
  rw [isSkipped, h]
  rfl

theorem isSkipped_of_compressed (h : p.tag = Tag.compressed) : isSkipped p = false := by
  rw [isSkipped, h]
  rfl

theorem literalWithin_literal (n : Nat) (read : Packet.read outer = .ok (skipped ++ p :: behind))
    (front : ∀ q ∈ skipped, isSkipped q = true) (tag : p.tag = Tag.literal) :
    literalWithin (n + 1) outer = Literal.ofBody p.body := by
  rw [literalWithin, read]
  simp only [bind, Except.bind, dropWhile_isSkipped front (isSkipped_of_literal tag), tag, if_true]

theorem literalWithin_layer (n : Nat) (read : Packet.read outer = .ok (skipped ++ p :: behind))
    (front : ∀ q ∈ skipped, isSkipped q = true) (tag : p.tag = Tag.compressed)
    (holds : decompress p.body = .ok unpacked) :
    literalWithin (n + 1) outer = literalWithin n unpacked := by
  have other : ¬ Tag.compressed = Tag.literal := by decide
  rw [literalWithin, read]
  simp only [bind, Except.bind, dropWhile_isSkipped front (isSkipped_of_compressed tag), tag,
    if_neg other, if_true, holds]

theorem literalWithin_unexpected (n : Nat) (read : Packet.read outer = .ok (skipped ++ p :: behind))
    (front : ∀ q ∈ skipped, isSkipped q = true) (counts : isSkipped p = false)
    (literal : p.tag ≠ Tag.literal) (compressed : p.tag ≠ Tag.compressed) :
    literalWithin (n + 1) outer = .error (.unexpectedInner p.tag) := by
  rw [literalWithin, read]
  simp only [bind, Except.bind, dropWhile_isSkipped front counts, if_neg literal, if_neg compressed]

theorem literalWithin_skipped (n : Nat) (read : Packet.read outer = .ok ps)
    (all : ∀ q ∈ ps, isSkipped q = true) : literalWithin (n + 1) outer = .error .noLiteral := by
  have none : ps.dropWhile isSkipped = [] := by
    rw [← List.append_nil ps, List.dropWhile_append_of_pos all, List.dropWhile_nil]
  rw [literalWithin, read]
  simp only [bind, Except.bind, none]

/-! ## The limit -/

/-- Packets that are not nested too deeply for a limit have the same content under any other limit
that is not less. -/
theorem literalWithin_of_le (h : ¬ Nested n inner) (le : n ≤ m) :
    literalWithin m inner = literalWithin n inner := by
  induction n generalizing inner m with
  | zero => exact absurd (.zero inner) h
  | succ n ih =>
    obtain ⟨m, rfl⟩ : ∃ m', m = m' + 1 := ⟨m - 1, by omega⟩
    rw [literalWithin, literalWithin]
    cases read : Packet.read inner with
    | error e => rfl
    | ok ps =>
      simp only [bind, Except.bind]
      cases first : ps.dropWhile isSkipped with
      | nil => rfl
      | cons p rest =>
        dsimp only
        split_ifs with literal compressed
        · rfl
        · cases holds : decompress p.body with
          | error e => rfl
          | ok unpacked =>
            exact ih (fun deeper => h (.succ read first compressed holds deeper)) (by omega)
        · rfl

theorem Nested.of_le (h : Nested n inner) (le : m ≤ n) : Nested m inner := by
  induction h generalizing m with
  | zero inner =>
    rw [Nat.le_zero.1 le]
    exact .zero inner
  | succ read first compressed holds deeper ih =>
    cases m with
    | zero => exact .zero _
    | succ m => exact .succ read first compressed holds (ih (by omega))

/-! ## Layers -/

/-- Packets that hold others at a depth of so many layers.  In front of the compressed packet of each
layer stand packets that are skipped, and behind it any packets. -/
inductive Wraps : (depth : Nat) → (inner outer : Bytes) → Prop
  | zero (inner : Bytes) : Wraps 0 inner inner
  | layer {n : Nat} {inner unpacked outer : Bytes} {skipped behind : List Packet} {p : Packet}
      (read : Packet.read outer = .ok (skipped ++ p :: behind))
      (front : ∀ q ∈ skipped, isSkipped q = true) (tag : p.tag = Tag.compressed)
      (holds : decompress p.body = .ok unpacked) (deeper : Wraps n inner unpacked) :
      Wraps (n + 1) inner outer

theorem Wraps.literalWithin_eq (h : Wraps n inner outer) (m : Nat) :
    literalWithin (m + n) outer = literalWithin m inner := by
  induction h with
  | zero inner => rfl
  | layer read front tag holds deeper ih =>
    rw [← Nat.add_assoc, literalWithin_layer _ read front tag holds, ih]

theorem Wraps.nested_iff (h : Wraps n inner outer) : Nested (m + n) outer ↔ Nested m inner := by
  rw [← literalWithin_eq_nestedTooDeeply_iff, ← literalWithin_eq_nestedTooDeeply_iff,
    h.literalWithin_eq]

/-- Packets have the literal data, or the failure, of the packets that are wrapped in them. -/
theorem Wraps.literal_eq (h : Wraps n inner outer) (shallow : ¬ Nested maxNesting outer) :
    literal outer = literal inner := by
  have le : n ≤ maxNesting := by
    by_contra deep
    have nested : Nested (0 + n) outer := h.nested_iff.2 (.zero inner)
    exact shallow (nested.of_le (by omega))
  obtain ⟨left, total⟩ : ∃ left, maxNesting = left + n := ⟨maxNesting - n, by omega⟩
  have inside : ¬ Nested left inner := by
    rwa [total, h.nested_iff] at shallow
  calc literal outer = literalWithin (left + n) outer := by rw [literal, total]
    _ = literalWithin left inner := h.literalWithin_eq left
    _ = literal inner := (literalWithin_of_le inside (by omega)).symm

/-- Layers of compression are transparent, whatever is skipped in front of the compressed packets and
whatever stands behind them.  Otherwise the first packet that is not skipped decides: literal data is
read, and anything else, or no such packet, is a failure of the format. -/
theorem literal_of_wraps :
    (∀ (n : Nat) (inner outer : Bytes), Wraps n inner outer → ¬ Nested maxNesting outer →
      literal outer = literal inner) ∧
    (∀ (outer : Bytes) (skipped behind : List Packet) (p : Packet),
      Packet.read outer = .ok (skipped ++ p :: behind) → (∀ q ∈ skipped, isSkipped q = true) →
      (p.tag = Tag.literal → literal outer = Literal.ofBody p.body) ∧
      (isSkipped p = false → p.tag ≠ Tag.literal → p.tag ≠ Tag.compressed →
        ∃ e, literal outer = .error e ∧ e.kind = .own .pgpFormat)) ∧
    (∀ (outer : Bytes) (ps : List Packet), Packet.read outer = .ok ps →
      (∀ q ∈ ps, isSkipped q = true) →
      ∃ e, literal outer = .error e ∧ e.kind = .own .pgpFormat) := by
  refine ⟨fun n inner outer wraps => wraps.literal_eq, fun outer skipped behind p read front => ?_,
    fun outer ps read all => ?_⟩
  · refine ⟨literalWithin_literal _ read front, fun counts other bare => ?_⟩
    exact ⟨_, literalWithin_unexpected _ read front counts other bare, rfl⟩
  · exact ⟨_, literalWithin_skipped _ read all, rfl⟩

/-- Literal data in two layers, one of them in stored blocks, with packets in front and behind; and
streams that begin with some other packet or have none that counts. -/
theorem literal_of_wraps_twice :
    let inner : Bytes := [0xcb, 8, 0x62, 0, 0, 0, 0, 0, 104, 105]
    let middle : Bytes := [0xc2, 1, 4, 0xc8, 11, 0] ++ inner ++ [0xd3, 0]
    let outer : Bytes := [0xca, 3, 0x50, 0x47, 0x50, 0xc8, 24, 1, 1, 18, 0, 0xed, 0xff] ++ middle ++
      [0xcb, 0]
    (Wraps 2 inner outer ∧ ¬ Nested maxNesting outer ∧ literal outer = literal inner) ∧
      (Packet.read inner = .ok [⟨Tag.literal, [0x62, 0, 0, 0, 0, 0, 104, 105]⟩] ∧
        literal inner = Literal.ofBody [0x62, 0, 0, 0, 0, 0, 104, 105]) ∧
      (Packet.read [0xd3, 0] = .ok [⟨19, []⟩] ∧
        ∃ e, literal [0xd3, 0] = .error e ∧ e.kind = .own .pgpFormat) ∧
      (Packet.read [0xc4, 0] = .ok [⟨Tag.onePassSignature, []⟩] ∧
        ∃ e, literal [0xc4, 0] = .error e ∧ e.kind = .own .pgpFormat) := by
  intro inner middle outer
  have readInner : Packet.read inner =
      .ok ([] ++ [⟨Tag.literal, [0x62, 0, 0, 0, 0, 0, 104, 105]⟩]) := by decide
  have readOther : Packet.read [0xd3, 0] = .ok ([] ++ [⟨19, []⟩]) := by decide
  have readNone : Packet.read [0xc4, 0] = .ok [⟨Tag.onePassSignature, []⟩] := by decide
  have readMiddle : Packet.read middle =
      .ok ([⟨Tag.signature, [4]⟩] ++ ⟨Tag.compressed, 0 :: inner⟩ :: [⟨19, []⟩]) := by decide
  have readOuter : Packet.read outer = .ok ([⟨Tag.marker, [0x50, 0x47, 0x50]⟩] ++
      ⟨Tag.compressed, [1, 1, 18, 0, 0xed, 0xff] ++ middle⟩ :: [⟨Tag.literal, []⟩]) := by
    decide
  have within : Wraps 1 inner middle :=
    .layer readMiddle (by decide) rfl (by decide) (.zero inner)
  have wraps : Wraps 2 inner outer := .layer readOuter (by decide) rfl (by decide +kernel) within
  have shallow : ¬ Nested maxNesting outer := by
    rw [← literalWithin_eq_nestedTooDeeply_iff]
    decide +kernel
  obtain ⟨layers, first, none⟩ := literal_of_wraps
  exact ⟨⟨wraps, shallow, layers 2 inner outer wraps shallow⟩,
    ⟨readInner, (first _ _ _ _ readInner (by decide)).1 rfl⟩,
    ⟨readOther, (first _ _ _ _ readOther (by decide)).2 rfl (by decide) (by decide)⟩,
    ⟨readNone, none _ _ readNone (by decide)⟩⟩

end Cryptogram.Message
