import Mathlib.Data.List.Flatten
import Mathlib.Data.List.Infix
import Cryptogram.Proofs.OpenPgp.Armor

/-!
# Armor in a text

A block of armor is found between other lines (`isArmored_between`), as long as no other block begins in
front of it.  Its message is read from plain text (`read_between`), while the whole text is taken for the
message as soon as an octet in it is no plain text (`read_of_not_plain`).
-/

namespace Cryptogram.Armor

variable {message front back text line : Bytes} {ls rest : List Bytes} {b : Block}

/-! ## Lines in front of a block -/

/-- What every head line begins with. -/
def opening : Bytes := Bytes.ofAscii "-----BEGIN PGP"

theorem opening_isPrefixOf_headLine (kind : Bytes) : opening <+: headLine kind :=
  ⟨32 :: (kind ++ Bytes.ofAscii "-----"), by simp [headLine, opening, Bytes.ofAscii]⟩

theorem trimEnd_isPrefixOf (line : Bytes) : trimEnd line <+: line := by
  unfold trimEnd
  split_ifs
  · exact List.dropLast_prefix line
  · exact List.prefix_rfl

theorem opening_isInfixOf {kind : Bytes} (h : trimEnd line = headLine kind) : opening <:+: line :=
  ((h ▸ opening_isPrefixOf_headLine kind).trans (trimEnd_isPrefixOf line)).isInfix

theorem kind?_eq_none (h : ¬ opening <:+: line) : kind? line = none := by
  unfold kind?
  dsimp only
  exact if_neg fun both => h (opening_isInfixOf both.2)

theorem blockAt?_eq_none (h : ¬ opening <:+: line) (rest : List Bytes) :
    blockAt? (line :: rest) = none := by
  rw [blockAt?, kind?_eq_none h]
  rfl

theorem blocks_append (h : ∀ line ∈ ls, ¬ opening <:+: line) (rest : List Bytes) :
    blocks (ls ++ rest) = blocks rest := by
  induction ls with
  | nil => rfl
  | cons line ls ih =>
    obtain ⟨first, others⟩ := List.forall_mem_cons.1 h
    rw [List.cons_append, blocks, blockAt?_eq_none first]
    exact ih others

theorem firstBlock?_append (h : ∀ line ∈ ls, ¬ opening <:+: line) (rest : List Bytes) :
    firstBlock? (ls ++ rest) = firstBlock? rest := by
  induction ls with
  | nil => rfl
  | cons line ls ih =>
    obtain ⟨first, others⟩ := List.forall_mem_cons.1 h
    have unsigned : trimEnd line ≠ signedHead := fun signed => first (opening_isInfixOf signed)
    rw [List.cons_append, firstBlock?, if_neg unsigned, blockAt?_eq_none first]
    exact ih others

/-- Octets up to a line feed are made of lines. -/
theorem exists_lines (ended : front = [] ∨ [lineFeed] <:+ front) :
    ∃ ls : List Bytes, (∀ line ∈ ls, lineFeed ∉ line) ∧
      front = ls.flatMap fun line => line ++ [lineFeed] := by
  induction front with
  | nil => exact ⟨[], by simp, rfl⟩
  | cons b rest ih =>
    have behind : rest = [] ∧ b = lineFeed ∨ [lineFeed] <:+ rest := by
      rcases List.suffix_cons_iff.1 (ended.resolve_left (List.cons_ne_nil b rest)) with whole | tail
      · cases whole
        exact .inl ⟨rfl, rfl⟩
      · exact .inr tail
    obtain ⟨ls, single, rfl⟩ := ih (behind.imp_left And.left)
    by_cases feed : b = lineFeed
    · refine ⟨[] :: ls, List.forall_mem_cons.2 ⟨List.not_mem_nil, single⟩, ?_⟩
      rw [feed]
      rfl
    · cases ls with
      | nil =>
        obtain ⟨-, same⟩ | tail := behind
        · exact absurd same feed
        · exact absurd (List.suffix_nil.1 tail) (List.cons_ne_nil _ _)
      | cons line ls =>
        obtain ⟨first, others⟩ := List.forall_mem_cons.1 single
        refine ⟨(b :: line) :: ls, List.forall_mem_cons.2 ⟨?_, others⟩, rfl⟩
        rw [List.mem_cons, not_or]
        exact ⟨Ne.symm feed, first⟩

/-- A block stands on lines behind others in which no block begins. -/
theorem exists_lines_between (ended : front = [] ∨ [lineFeed] <:+ front)
    (absent : ¬ opening <:+: front) (message back : Bytes) :
    ∃ ls : List Bytes, (∀ line ∈ ls, ¬ opening <:+: line) ∧
      lines (front ++ write message ++ back) = ls ++ (blockLines message ++ lines back) := by
  obtain ⟨ls, single, rfl⟩ := exists_lines ended
  refine ⟨ls, fun line hl begins => absent ?_, ?_⟩
  · obtain ⟨before, after, rfl⟩ := List.append_of_mem hl
    refine begins.trans ⟨before.flatMap fun line => line ++ [lineFeed],
      [lineFeed] ++ after.flatMap fun line => line ++ [lineFeed], ?_⟩
    simp only [List.flatMap_append, List.flatMap_cons, List.append_assoc]
  · rw [List.append_assoc, lines_flatMap_append single, lines_write_append]

/-! ## The block among the lines -/

section Between

variable (ne : message ≠ []) (ended : front = [] ∨ [lineFeed] <:+ front)
  (absent : ¬ opening <:+: front) (back : Bytes)

include ne ended absent

theorem isArmored_between : isArmored (front ++ write message ++ back) = true := by
  obtain ⟨ls, others, layout⟩ := exists_lines_between ended absent message back
  rw [isArmored, layout, blocks_append others, Bool.not_eq_true', List.isEmpty_eq_false_iff]
  exact blocks_ne_nil ne _

theorem read_between (plain : (front ++ back).all isPlain = true) :
    read (front ++ write message ++ back) = .ok message := by
  obtain ⟨ls, others, layout⟩ := exists_lines_between ended absent message back
  have whole : (front ++ write message ++ back).all isPlain = true := by
    rw [List.all_append, Bool.and_eq_true] at plain
    rw [List.all_append, List.all_append, plain.1, plain.2, all_isPlain_write]
    rfl
  have found : firstBlock? (lines (front ++ write message ++ back)) = some (block message) := by
    rw [layout, firstBlock?_append others, firstBlock?_blockLines ne]
  rw [read, open?_of_firstBlock? whole ne found]
  exact if_pos rfl

end Between

/-! ## Blocks are shorter than their text -/

/-- The body of a block stands on some of the lines behind a first one. -/
def Block.Within (b : Block) (ls : List Bytes) : Prop := b.body ≠ [] ∧ b.body.Sublist ls.tail

theorem Block.Within.cons (h : b.Within ls) (line : Bytes) : b.Within (line :: ls) :=
  ⟨h.1, h.2.trans (List.tail_sublist ls)⟩

theorem within_of_blockAt? (h : blockAt? ls = some b) : b.Within ls := by
  cases ls with
  | nil => cases h
  | cons head rest =>
    rw [blockAt?] at h
    obtain ⟨kind, -, h⟩ := Option.bind_eq_some_iff.1 h
    dsimp only at h
    set others := if (rest.dropWhile isHeader).head?.any isBlankLine then
      (rest.dropWhile isHeader).tail else rest.dropWhile isHeader with hothers
    have behind : others.Sublist rest := by
      rw [hothers]
      split_ifs
      · exact (List.tail_sublist _).trans (List.dropWhile_sublist _)
      · exact List.dropWhile_sublist _
    split_ifs at h with bodiless
    split at h
    · obtain ⟨checksum, -, h⟩ := Option.bind_eq_some_iff.1 h
      split_ifs at h
      cases h
      exact ⟨bodiless, (List.takeWhile_sublist _).trans behind⟩
    · cases h

theorem within_of_mem_blocks (h : b ∈ blocks ls) : b.Within ls := by
  induction ls with
  | nil => cases h
  | cons line rest ih =>
    rw [blocks] at h
    cases found : blockAt? (line :: rest) with
    | none =>
      rw [found] at h
      exact (ih h).cons line
    | some first =>
      rw [found] at h
      rcases List.mem_cons.1 h with rfl | later
      · exact within_of_blockAt? found
      · exact (ih later).cons line

theorem within_of_firstBlock? (h : firstBlock? ls = some b) : b.Within ls := by
  induction ls with
  | nil => cases h
  | cons line rest ih =>
    rw [firstBlock?] at h
    split at h
    next last signed =>
      cases h
      split_ifs at signed
      obtain ⟨ne, sublist⟩ := within_of_mem_blocks (List.mem_of_getLast? signed)
      exact ⟨ne, sublist.trans ((List.tail_sublist _).trans (List.tail_sublist rest))⟩
    next =>
      split at h
      next first found =>
        cases h
        exact within_of_blockAt? found
      next => exact (ih h).cons line

theorem length_lines (text : Bytes) :
    (lines text).flatten.length + (lines text).length = text.length + 1 := by
  induction text with
  | nil => rfl
  | cons b text ih =>
    by_cases feed : b = lineFeed
    · rw [feed, lines_lineFeed, List.flatten_cons, List.nil_append, List.length_cons,
        List.length_cons]
      omega
    · cases layout : lines text with
      | nil =>
        rw [layout] at ih
        simp at ih
      | cons line rest =>
        rw [layout] at ih
        rw [lines_cons feed layout]
        simp only [List.flatten_cons, List.length_append, List.length_cons] at ih ⊢
        omega

theorem Block.Within.length_lt (h : b.Within (lines text)) : b.body.flatten.length < text.length := by
  have total := length_lines text
  have inside := (h.2.flatten).length_le
  have pos : 0 < b.body.length := List.length_pos_iff.2 h.1
  have others := h.2.length_le
  have tail : (lines text).tail.flatten.length ≤ (lines text).flatten.length :=
    (List.tail_sublist _).flatten.length_le
  rw [List.length_tail] at others
  omega

theorem length_of_undigits? {octets decoded : Bytes} (h : undigits? octets = some decoded) :
    decoded.length ≤ octets.length := by
  simpa using Base64.length_of_decode? h

/-- What plain text holds is read from a block, which has a kind and a checksum, and it is shorter
than the text. -/
theorem exists_kind_of_open? (plain : text.all isPlain = true) {content : Content}
    {checksum : Option Nat} (h : open? text = some (content, checksum)) :
    content.message.length < text.length ∧
      ∃ kind expected, content.kind = some kind ∧ checksum = some expected := by
  rw [open?, plain] at h
  obtain ⟨b, found, h⟩ := Option.bind_eq_some_iff.1 h
  obtain ⟨decoded, held, h⟩ := Option.bind_eq_some_iff.1 h
  obtain ⟨expected, -, h⟩ := Option.bind_eq_some_iff.1 h
  cases h
  have short := (within_of_firstBlock? found).length_lt
  exact ⟨(length_of_undigits? held).trans_lt short, b.kind, _, rfl, rfl⟩

/-- What is read from plain text has the checksum that its block gives. -/
theorem exists_open?_of_read (plain : text.all isPlain = true) (h : read text = .ok message) :
    message.length < text.length ∧ ∃ kind, open? text =
      some (⟨some kind, message⟩, some (Crc24.ofBytes message).toNat) := by
  rw [read] at h
  cases opened : open? text with
  | none =>
    rw [opened] at h
    cases h
  | some both =>
    obtain ⟨⟨kind, content⟩, checksum⟩ := both
    obtain ⟨short, kind, expected, rfl, rfl⟩ := exists_kind_of_open? plain opened
    rw [opened] at h
    dsimp only at h
    split_ifs at h with same
    cases h
    exact ⟨short, kind, by rw [same]⟩

theorem read_of_not_plain (mixed : text.all isPlain = false) : read text = .ok text := by
  rw [read, open?_of_not_plain mixed]

/-- A block is found wherever it stands on lines of its own behind octets in which no block begins, and
its message is read exactly if all that stands around it is plain text; otherwise the whole text is
taken for the message, without a look at the checksum.  What is read from plain text is never the text
itself, and it has the checksum of its block. -/
theorem read_iff_plain (message text : Bytes) :
    (∀ front back : Bytes, text = front ++ write message ++ back → message ≠ [] →
      (front = [] ∨ [lineFeed] <:+ front) → ¬ Bytes.ofAscii "-----BEGIN PGP" <:+: front →
        isArmored text = true ∧
        (read text = .ok message ↔ (front ++ back).all isPlain = true) ∧
        ((front ++ back).all isPlain = false → read text = .ok text)) ∧
    (text.all isPlain = true → read text = .ok message →
      message ≠ text ∧ ∃ kind, open? text =
        some (⟨some kind, message⟩, some (Crc24.ofBytes message).toNat)) := by
  refine ⟨fun front back split ne ended absent => ?_, fun plain found => ?_⟩
  · subst split
    have whole : (front ++ back).all isPlain = false →
        read (front ++ write message ++ back) = .ok (front ++ write message ++ back) := by
      intro mixed
      apply read_of_not_plain
      rw [List.all_append, Bool.and_eq_false_iff] at mixed
      rw [List.all_append, List.all_append, Bool.and_assoc, Bool.and_eq_false_iff]
      exact mixed.imp_right fun behind => by rw [behind, Bool.and_false]
    refine ⟨isArmored_between ne ended absent back, ⟨fun found => ?_, ?_⟩, whole⟩
    · by_contra mixed
      have same : front ++ write message ++ back = message :=
        Except.ok.inj ((whole (by simpa using mixed)).symm.trans found)
      have length := congrArg List.length same
      rw [List.length_append, List.length_append] at length
      have longer := (exists_open?_of_read (all_isPlain_write message) (read_write ne)).1
      omega
    · exact read_between ne ended absent back
  · obtain ⟨short, opened⟩ := exists_open?_of_read plain found
    refine ⟨?_, opened⟩
    rintro rfl
    exact lt_irrefl _ short

/-- A block in a letter, in front of the head line of another. -/
theorem read_iff_plain_letter :
    let front := Bytes.ofAscii "Hello,\n"
    let back := Bytes.ofAscii "\r\n-----BEGIN PGP MESSAGE-----\n"
    let text := front ++ write [112] ++ back
    ([112] : Bytes) ≠ [] ∧ [lineFeed] <:+ front ∧ ¬ Bytes.ofAscii "-----BEGIN PGP" <:+: front ∧
      isArmored text = true ∧ text.all isPlain = true ∧ read text = .ok [112] ∧ [112] ≠ text ∧
      ∃ kind, open? text = some (⟨some kind, [112]⟩, some (Crc24.ofBytes [112]).toNat) := by
  intro front back text
  have ended : [lineFeed] <:+ front := by decide
  have absent : ¬ Bytes.ofAscii "-----BEGIN PGP" <:+: front := by decide
  have plain : text.all isPlain = true := by decide
  have ne : ([112] : Bytes) ≠ [] := by decide
  obtain ⟨around, own⟩ := read_iff_plain [112] text
  obtain ⟨armored, held, -⟩ := around front back rfl ne (.inr ended) absent
  have found : read text = .ok [112] := held.2 (by decide)
  exact ⟨ne, ended, absent, armored, plain, found, own plain found⟩

/-- A letter that begins with an accented letter is taken for the message itself, although a block is
found in it. -/
theorem read_accented :
    let front : Bytes := [0xc3, 0xa9, lineFeed]
    let text := front ++ write [112]
    [lineFeed] <:+ front ∧ ¬ Bytes.ofAscii "-----BEGIN PGP" <:+: front ∧ isArmored text = true ∧
      read text = .ok text ∧ read text ≠ .ok [112] := by
  decide

end Cryptogram.Armor
