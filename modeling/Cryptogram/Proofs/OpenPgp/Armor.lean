import Cryptogram.OpenPgp.Armor
import Cryptogram.Proofs.Text.Base64

/-!
# Armor there and back

A message in armor is found and read (`strip_write`), unless its block has the checksum of another
one (`read_writeWith`), and octets that are no plain text are taken as they are
(`strip_of_not_plain`).
-/

namespace Cryptogram.Armor

/-! ## Lines -/

theorem lines_lineFeed (text : Bytes) : lines (lineFeed :: text) = [] :: lines text := by
  unfold lines
  rw [List.foldr_cons, if_pos rfl]

theorem lines_cons {b : UInt8} (h : b ≠ lineFeed) {text line : Bytes} {rest : List Bytes}
    (e : lines text = line :: rest) : lines (b :: text) = (b :: line) :: rest := by
  unfold lines at e ⊢
  rw [List.foldr_cons, if_neg h, e]

/-- What stands in front of a line feed is a line. -/
theorem lines_append {line : Bytes} (h : lineFeed ∉ line) (text : Bytes) :
    lines (line ++ lineFeed :: text) = line :: lines text := by
  induction line with
  | nil => exact lines_lineFeed text
  | cons b line ih =>
    rw [List.mem_cons, not_or] at h
    exact lines_cons (Ne.symm h.1) (ih h.2)

/-- Lines with their line feeds are lines, in front of the lines of the text behind them. -/
theorem lines_flatMap_append {ls : List Bytes} (h : ∀ line ∈ ls, lineFeed ∉ line) (text : Bytes) :
    lines ((ls.flatMap fun line => line ++ [lineFeed]) ++ text) = ls ++ lines text := by
  induction ls with
  | nil => rfl
  | cons line ls ih =>
    obtain ⟨first, others⟩ := List.forall_mem_cons.1 h
    rw [List.flatMap_cons, List.append_assoc, List.append_assoc, List.singleton_append,
      lines_append first, ih others, List.cons_append]

theorem trimEnd_eq {line : Bytes} (h : carriageReturn ∉ line) : trimEnd line = line := by
  unfold trimEnd
  rw [if_neg]
  intro last
  exact h (List.mem_of_getLast? last)

/-! ## Digits -/

/-- The octet of a digit. -/
def digitOctet (n : Nat) : UInt8 := (Base64.digit n).toNat.toUInt8

theorem digitOctet_fin : ∀ n : Fin 64, isDigit (digitOctet n) = true ∧ isPlain (digitOctet n) = true ∧
    digitOctet n ≠ lineFeed ∧ digitOctet n ≠ carriageReturn := by
  decide

/-- An octet that stands for a digit of base 64. -/
structure Written (b : UInt8) : Prop where
  digit : isDigit b = true
  plain : isPlain b = true
  lineFeed : b ≠ lineFeed
  carriageReturn : b ≠ carriageReturn

theorem written_of_isDigit {c : Char} (h : Base64.IsDigit c) : Written c.toNat.toUInt8 := by
  obtain ⟨n, hn, rfl⟩ := h
  obtain ⟨digit, plain, feed, turn⟩ := digitOctet_fin ⟨n, hn⟩
  exact ⟨digit, plain, feed, turn⟩

/-- The digits of a string in octets: digits proper, and then so many equals signs. -/
structure Form (octets front : Bytes) (count : Nat) : Prop where
  text : digits octets = front ++ List.replicate count equalsSign
  written : ∀ b ∈ front, Written b
  few : count ≤ 2
  nonempty : octets ≠ [] → front ≠ []
  full : 3 ∣ octets.length → count = 0

theorem exists_form (octets : Bytes) : ∃ front count, Form octets front count := by
  obtain ⟨chars, count, form⟩ := Base64.exists_form octets
  refine ⟨chars.map fun c => c.toNat.toUInt8, count, ?_, ?_, form.few, fun h => ?_, form.full⟩
  · rw [digits, form.text, List.map_append, List.map_replicate]
    rfl
  · intro b hb
    obtain ⟨c, hc, rfl⟩ := List.mem_map.1 hb
    exact written_of_isDigit (form.digit c hc)
  · rw [ne_eq, List.map_eq_nil_iff]
    exact form.nonempty h

/-- An octet of a line of the body or of the checksum. -/
theorem plain_of_mem_digits {octets : Bytes} {b : UInt8} (h : b ∈ digits octets) :
    isPlain b = true ∧ b ≠ lineFeed ∧ b ≠ carriageReturn := by
  obtain ⟨front, count, form⟩ := exists_form octets
  rw [form.text] at h
  rcases List.mem_append.1 h with hb | hb
  · have written := form.written b hb
    exact ⟨written.plain, written.lineFeed, written.carriageReturn⟩
  · rw [List.eq_of_mem_replicate hb]
    decide

theorem length_digits (octets : Bytes) : (digits octets).length = (octets.length + 2) / 3 * 4 := by
  rw [digits, List.length_map, Base64.length_encode]

theorem digits_append {a : Bytes} (h : 3 ∣ a.length) (b : Bytes) :
    digits (a ++ b) = digits a ++ digits b := by
  rw [digits, Base64.encode_append h, List.map_append]
  rfl

theorem char_of_digit {c : Char} (h : c.toNat < 128) : Char.ofNat c.toNat.toUInt8.toNat = c := by
  rw [Bytes.toNat_toUInt8_of_lt (by omega), Char.ofNat_toNat]

theorem undigits?_digits (octets : Bytes) : undigits? (digits octets) = some octets := by
  obtain ⟨chars, count, form⟩ := Base64.exists_form octets
  have same : (digits octets).map (fun b => Char.ofNat b.toNat) = Base64.encode octets := by
    rw [digits, List.map_map]
    refine (List.map_congr_left fun c hc => ?_).trans (List.map_id _)
    refine char_of_digit ?_
    rw [form.text] at hc
    rcases List.mem_append.1 hc with front | back
    · obtain ⟨n, hn, rfl⟩ := form.digit c front
      exact Base64.toNat_digit_lt hn
    · rw [List.eq_of_mem_replicate back]
      decide
  rw [undigits?, same, Base64.decode?_encode]

/-! ## The lines of a block -/

/-- The body has a line for each 48 octets. -/
theorem blocks_digits (message : Bytes) :
    (digits message).blocks 64 = (message.blocks 48).map digits := by
  have pos : 0 < 48 := by decide
  induction message using Bytes.block_induction pos with
  | nil => rfl
  | short message ne hl =>
    obtain ⟨front, count, form⟩ := exists_form message
    have full : digits message ≠ [] := by
      rw [form.text]
      exact List.append_ne_nil_of_left_ne_nil (form.nonempty ne) _
    have width : (digits message).length ≤ 64 := by rw [length_digits]; omega
    rw [Bytes.blocks_of_length_le ne hl.le, Bytes.blocks_of_length_le full width, List.map_singleton]
  | whole block rest hb ih =>
    have width : (digits block).length = 64 := by rw [length_digits, hb]
    rw [digits_append (by rw [hb]; decide), Bytes.blocks_cons_append (by decide) width, ih,
      Bytes.blocks_cons_append pos hb, List.map_cons]

theorem bodyLines_eq {message : Bytes} (ne : message ≠ []) :
    bodyLines message = (message.blocks 48).map digits := by
  rw [bodyLines, blocks_digits, Bytes.blocks_of_ne_nil (by decide) ne, List.map_cons]

theorem flatten_bodyLines {message : Bytes} (ne : message ≠ []) :
    (bodyLines message).flatten = digits message := by
  rw [bodyLines_eq ne, ← blocks_digits, Bytes.flatten_blocks (by decide)]

theorem isBodyLine_digits {piece : Bytes} (ne : piece ≠ []) (h : piece.length ≤ 48) :
    isBodyLine (digits piece) = true := by
  obtain ⟨front, count, form⟩ := exists_form piece
  have total := length_digits piece
  have turn : carriageReturn ∉ digits piece := fun hb => (plain_of_mem_digits hb).2.2 rfl
  have pos := List.length_pos_iff.2 (form.nonempty ne)
  have allDigits : ∀ b ∈ front, isDigit b = true := fun b hb => (form.written b hb).digit
  have equals : isDigit equalsSign = false := by decide
  have size : (digits piece).takeWhile isDigit = front := by
    rw [form.text, List.takeWhile_append_of_pos allDigits]
    cases count with
    | zero => simp
    | succ count => simp [List.replicate_succ, equals]
  have rest : (digits piece).dropWhile isDigit = List.replicate count equalsSign := by
    rw [form.text, List.dropWhile_append_of_pos allDigits]
    cases count with
    | zero => rfl
    | succ count => simp [List.replicate_succ, equals]
  have width : front.length ≤ 76 := by
    rw [form.text, List.length_append, List.length_replicate] at total
    omega
  unfold isBodyLine
  rw [trimEnd_eq turn]
  dsimp only
  rw [size, rest, List.length_replicate]
  simp only [Bool.and_eq_true, decide_eq_true_eq]
  refine ⟨⟨⟨pos, width⟩, form.few⟩, ?_⟩
  rw [List.all_replicate]
  split <;> rfl

theorem isBodyLine_of_mem_bodyLines {message line : Bytes} (ne : message ≠ [])
    (hl : line ∈ bodyLines message) : isBodyLine line = true := by
  rw [bodyLines_eq ne] at hl
  obtain ⟨piece, hp, rfl⟩ := List.mem_map.1 hl
  exact isBodyLine_digits (Bytes.ne_nil_of_mem_blocks (by decide) hp)
    (Bytes.length_le_of_mem_blocks (by decide) hp)

/-- The digits of the checksum. -/
def checksumDigits (message : Bytes) : Bytes :=
  digits (Bytes.ofNat 3 (Crc24.ofBytes message).toNat)

theorem checksumLine_eq (message : Bytes) :
    checksumLine message = equalsSign :: checksumDigits message := rfl

theorem checksum?_checksumLine (message : Bytes) :
    checksum? (checksumLine message) = some (checksumDigits message) := by
  have three : (Bytes.ofNat 3 (Crc24.ofBytes message).toNat).length = 3 := Bytes.length_ofNat _ _
  have four : (checksumDigits message).length = 4 := by
    rw [checksumDigits, length_digits, three]
  have each : (checksumDigits message).all isDigit = true := by
    obtain ⟨front, count, form⟩ := exists_form (Bytes.ofNat 3 (Crc24.ofBytes message).toNat)
    rw [checksumDigits, form.text, form.full (by rw [three]), List.replicate_zero, List.append_nil,
      List.all_eq_true]
    exact fun b hb => (form.written b hb).digit
  have turn : carriageReturn ∉ checksumLine message := by
    rw [checksumLine_eq, List.mem_cons, not_or]
    exact ⟨by decide, fun hb => (plain_of_mem_digits hb).2.2 rfl⟩
  rw [checksum?, trimEnd_eq turn, checksumLine_eq]
  dsimp only
  rw [if_pos ⟨rfl, four, each⟩]

theorem isBodyLine_checksumLine (message : Bytes) : isBodyLine (checksumLine message) = false := by
  have turn : carriageReturn ∉ checksumLine message := by
    rw [checksumLine_eq, List.mem_cons, not_or]
    exact ⟨by decide, fun hb => (plain_of_mem_digits hb).2.2 rfl⟩
  have equals : isDigit equalsSign = false := by decide
  unfold isBodyLine
  rw [trimEnd_eq turn, checksumLine_eq]
  simp only [List.takeWhile_cons, equals, Bool.false_eq_true, if_false, List.length_nil]
  rfl

/-! ## Blocks -/

/-- The block that is written. -/
def block (message : Bytes) : Block := ⟨messageKind, bodyLines message, checksumDigits message⟩

/-- The lines of a block with the checksum of another message. -/
def linesWith (message other : Bytes) : List Bytes :=
  [headLine messageKind, []] ++ bodyLines message ++ [checksumLine other, tailLine messageKind]

/-- The block on such lines. -/
def blockWith (message other : Bytes) : Block :=
  ⟨messageKind, bodyLines message, checksumDigits other⟩

theorem kind?_headLine : kind? (headLine messageKind) = some messageKind := by decide

theorem isHeader_nil : isHeader [] = false := rfl

theorem blockAt?_linesWith {message : Bytes} (ne : message ≠ []) (other : Bytes)
    (rest : List Bytes) :
    blockAt? (linesWith message other ++ rest) = some (blockWith message other) := by
  have body : ∀ line ∈ bodyLines message, isBodyLine line = true :=
    fun _ hl => isBodyLine_of_mem_bodyLines ne hl
  have full : bodyLines message ≠ [] := by
    rw [bodyLines_eq ne, Bytes.blocks_of_ne_nil (by decide) ne, List.map_cons]
    exact List.cons_ne_nil _ _
  have layout : linesWith message other ++ rest = headLine messageKind :: [] ::
      (bodyLines message ++ checksumLine other :: tailLine messageKind :: rest) := by
    simp [linesWith]
  have took : (bodyLines message ++ checksumLine other :: tailLine messageKind :: rest).takeWhile
      isBodyLine = bodyLines message := by
    rw [List.takeWhile_append_of_pos body, List.takeWhile_cons, isBodyLine_checksumLine]
    simp
  have left : (bodyLines message ++ checksumLine other :: tailLine messageKind :: rest).dropWhile
      isBodyLine = checksumLine other :: tailLine messageKind :: rest := by
    rw [List.dropWhile_append_of_pos body, List.dropWhile_cons, isBodyLine_checksumLine]
    simp
  have same : (tailLine messageKind).isPrefixOf (tailLine messageKind) = true := by decide
  have blank : isBlankLine [] = true := rfl
  rw [layout, blockAt?]
  simp only [kind?_headLine, Option.bind_eq_bind, Option.bind_some, List.dropWhile_cons, isHeader_nil,
    Bool.false_eq_true, if_false, List.head?_cons, Option.any_some, blank, if_true, List.tail_cons,
    took, left, if_neg full, checksum?_checksumLine, same]
  rfl

theorem headLine_ne_signedHead : trimEnd (headLine messageKind) ≠ signedHead := by decide

theorem firstBlock?_linesWith {message : Bytes} (ne : message ≠ []) (other : Bytes)
    (rest : List Bytes) :
    firstBlock? (linesWith message other ++ rest) = some (blockWith message other) := by
  have found := blockAt?_linesWith ne other rest
  obtain ⟨others, layout⟩ : ∃ others,
      linesWith message other ++ rest = headLine messageKind :: others := ⟨_, rfl⟩
  rw [layout] at found ⊢
  rw [firstBlock?, if_neg headLine_ne_signedHead]
  simp only [found]

theorem firstBlock?_blockLines {message : Bytes} (ne : message ≠ []) (rest : List Bytes) :
    firstBlock? (blockLines message ++ rest) = some (block message) :=
  firstBlock?_linesWith ne message rest

theorem blocks_ne_nil {message : Bytes} (ne : message ≠ []) (rest : List Bytes) :
    blocks (blockLines message ++ rest) ≠ [] := by
  have found := blockAt?_linesWith ne message rest
  obtain ⟨others, layout⟩ : ∃ others,
      linesWith message message ++ rest = headLine messageKind :: others := ⟨_, rfl⟩
  show blocks (linesWith message message ++ rest) ≠ []
  rw [layout] at found ⊢
  rw [blocks, found]
  exact List.cons_ne_nil _ _

/-! ## Texts -/

/-- The octets of the lines of a block are plain text without line feeds. -/
theorem plain_of_mem_linesWith {message other line : Bytes} (hl : line ∈ linesWith message other)
    {b : UInt8} (hb : b ∈ line) : isPlain b = true ∧ b ≠ lineFeed := by
  have fixed : ∀ line ∈ [headLine messageKind, tailLine messageKind], ∀ b ∈ line,
      isPlain b = true ∧ b ≠ lineFeed := by decide +kernel
  have body : ∀ line ∈ bodyLines message, ∀ b ∈ line, isPlain b = true ∧ b ≠ lineFeed := by
    intro line hl b hb
    rcases eq_or_ne message [] with rfl | ne
    · rw [show bodyLines [] = [[]] from rfl, List.mem_singleton] at hl
      rw [hl] at hb
      cases hb
    · rw [bodyLines_eq ne] at hl
      obtain ⟨piece, -, rfl⟩ := List.mem_map.1 hl
      have plain := plain_of_mem_digits hb
      exact ⟨plain.1, plain.2.1⟩
  simp only [linesWith, List.mem_append, List.mem_cons, List.not_mem_nil, or_false] at hl
  rcases hl with ((rfl | rfl) | hl) | (rfl | rfl)
  · exact fixed _ (by simp) b hb
  · cases hb
  · exact body line hl b hb
  · rcases List.mem_cons.1 hb with rfl | hb
    · decide
    · have plain := plain_of_mem_digits hb
      exact ⟨plain.1, plain.2.1⟩
  · exact fixed _ (by simp) b hb

/-- A block with the checksum of another message. -/
def writeWith (message other : Bytes) : Bytes :=
  (linesWith message other).flatMap fun line => line ++ [lineFeed]

theorem lines_writeWith_append (message other text : Bytes) :
    lines (writeWith message other ++ text) = linesWith message other ++ lines text :=
  lines_flatMap_append (fun _ hl hb => (plain_of_mem_linesWith hl hb).2 rfl) text

theorem lines_write_append (message text : Bytes) :
    lines (write message ++ text) = blockLines message ++ lines text :=
  lines_writeWith_append message message text

theorem lines_writeWith (message other : Bytes) :
    lines (writeWith message other) = linesWith message other ++ [[]] := by
  rw [← List.append_nil (writeWith message other), lines_writeWith_append]
  rfl

theorem all_isPlain_writeWith (message other : Bytes) :
    (writeWith message other).all isPlain = true := by
  rw [List.all_eq_true]
  intro b hb
  obtain ⟨line, hl, hb⟩ := List.mem_flatMap.1 hb
  rcases List.mem_append.1 hb with hb | hb
  · exact (plain_of_mem_linesWith hl hb).1
  · rw [List.mem_singleton.1 hb]
    decide

theorem all_isPlain_write (message : Bytes) : (write message).all isPlain = true :=
  all_isPlain_writeWith message message

/-- In plain text the first block is opened. -/
theorem open?_of_firstBlock? {text message other : Bytes} (plain : text.all isPlain = true)
    (ne : message ≠ []) (found : firstBlock? (lines text) = some (blockWith message other)) :
    open? text = some (⟨some messageKind, message⟩, some (Crc24.ofBytes other).toNat) := by
  have checksum : Bytes.toNat (Bytes.ofNat 3 (Crc24.ofBytes other).toNat) =
      (Crc24.ofBytes other).toNat := Bytes.toNat_ofNat_of_lt (Crc24.ofBytes other).isLt
  rw [open?, plain, found]
  simp only [Bool.not_true, Bool.false_eq_true, if_false, Option.bind_eq_bind, Option.bind_some,
    blockWith, flatten_bodyLines ne, undigits?_digits, checksumDigits, checksum]
  rfl

/-- Octets that are not all plain text are taken for the message. -/
theorem open?_of_not_plain {text : Bytes} (mixed : text.all isPlain = false) :
    open? text = some (⟨none, text⟩, none) := by
  rw [open?, mixed]
  rfl

theorem open?_writeWith {message : Bytes} (ne : message ≠ []) (other : Bytes) :
    open? (writeWith message other) =
      some (⟨some messageKind, message⟩, some (Crc24.ofBytes other).toNat) := by
  refine open?_of_firstBlock? (all_isPlain_writeWith message other) ne ?_
  rw [lines_writeWith, firstBlock?_linesWith ne]

theorem isArmored_write {message : Bytes} (ne : message ≠ []) : isArmored (write message) = true := by
  have layout : lines (write message) = blockLines message ++ [[]] := lines_writeWith message message
  rw [isArmored, layout, Bool.not_eq_true', List.isEmpty_eq_false_iff]
  exact blocks_ne_nil ne _

/-- The message of a block is read if the checksum is its own. -/
theorem read_writeWith {message : Bytes} (ne : message ≠ []) (other : Bytes) :
    read (writeWith message other) =
      if Crc24.ofBytes message = Crc24.ofBytes other then .ok message
      else .error (.armorChecksum (Crc24.ofBytes other).toNat (Crc24.ofBytes message).toNat) := by
  rw [read, open?_writeWith ne]
  simp only [BitVec.toNat_inj]

theorem read_write {message : Bytes} (ne : message ≠ []) : read (write message) = .ok message :=
  (read_writeWith ne message).trans (if_pos rfl)

/-- A message in armor is read. -/
theorem strip_write {message : Bytes} (ne : message ≠ []) : strip (write message) = .ok message := by
  rw [strip, if_pos (isArmored_write ne), read_write ne]

/-- No text has an octet of eight bits. -/
theorem isPlain_of_le {b : UInt8} (h : 128 ≤ b.toNat) : isPlain b = false := by
  have above : ¬ b ≤ 126 := by
    intro low
    have least := UInt8.le_iff_toNat_le.1 low
    have most : (126 : UInt8).toNat = 126 := rfl
    omega
  have apart {c : UInt8} (low : c.toNat < 128) : (b == c) = false := by
    rw [beq_eq_false_iff_ne]
    rintro rfl
    omega
  rw [isPlain, decide_eq_false above, apart (by decide), apart (by decide), apart (by decide),
    Bool.and_false]
  rfl

/-- Octets that are no plain text are taken as they are. -/
theorem strip_of_not_plain {octets : Bytes} {b : UInt8} (hb : b ∈ octets) (h : isPlain b = false) :
    strip octets = .ok octets := by
  have mixed : octets.all isPlain = false := by
    rw [List.all_eq_false]
    exact ⟨b, hb, by rw [h]; decide⟩
  have same : read octets = .ok octets := by
    rw [read, open?_of_not_plain mixed]
  rw [strip, same, ite_self]

end Cryptogram.Armor
